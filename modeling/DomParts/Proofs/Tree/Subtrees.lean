import DomParts.Proofs.Tree.Operations
import DomParts.Proofs.Tree.Spelling

/-! # Whole subtrees

What is done with a node and everything below it at once. The text is gathered in document order, and a
copy is numbered in document order; the copy looks like the original and has no node in common with it.
-/

namespace DomParts

namespace Subtree

def Spot.rename (name : NodeId → NodeId) (spot : Spot) : Spot :=
  ⟨name spot.id, spot.kind, spot.children.map name⟩

mutual

theorem spots_renumber {name : NodeId → NodeId} {first : NodeId} {tree : Subtree}
    (numbers : tree.nodes.map name = List.range' first tree.size) :
    (tree.renumber first).spots = tree.spots.map (Spot.rename name) := by
  cases tree with
  | branch id kind children =>
      rw [nodes, size, List.range'_succ, List.map_cons, List.cons.injEq] at numbers
      obtain ⟨tops, below⟩ := spotsOfAll_renumberAll numbers.2
      rw [renumber, spots, spots, List.map_cons, below, tops, Spot.rename, numbers.1]
termination_by sizeOf tree

theorem spotsOfAll_renumberAll {name : NodeId → NodeId} {first : NodeId} {trees : List Subtree}
    (numbers : (nodesOfAll trees).map name = List.range' first (sizeOfAll trees)) :
    (renumberAll first trees).map Subtree.id = (trees.map Subtree.id).map name ∧
      spotsOfAll (renumberAll first trees) = (spotsOfAll trees).map (Spot.rename name) := by
  cases trees with
  | nil => exact ⟨rfl, rfl⟩
  | cons tree rest =>
      rw [nodesOfAll, sizeOfAll, List.map_append, ← List.range'_append_1] at numbers
      obtain ⟨here, there⟩ := List.append_inj numbers (by simp [length_nodes])
      have one := spots_renumber here
      obtain ⟨tops, others⟩ := spotsOfAll_renumberAll there
      have top : first = name tree.id := by
        cases tree with
        | branch id kind children =>
            rw [nodes, size, List.range'_succ, List.map_cons, List.cons.injEq] at here
            exact here.1.symm
      refine ⟨?_, ?_⟩
      · rw [renumberAll, List.map_cons, id_renumber, tops, List.map_cons, List.map_cons, ← top]
      · rw [renumberAll, spotsOfAll, spotsOfAll, List.map_append, one, others]
termination_by sizeOf trees

end

end Subtree

namespace Tree

open Subtree

variable {tree changed : Tree} {id : NodeId}

/-- The name of a node's copy when what is below `id` is copied: new nodes are numbered in document order. -/
def copyOf (tree : Tree) (id original : NodeId) : NodeId :=
  tree.size + (tree.subtree id).nodes.idxOf original

/-- A tree with a copy of what is below a node. -/
structure Duplicated (tree changed : Tree) (id : NodeId) : Prop where
  sound : changed.WellFormed
  size : changed.size = tree.size + (tree.subtree id).nodes.length
  /-- All new nodes are copies. -/
  numbered : (tree.subtree id).nodes.map (tree.copyOf id) =
    List.range' tree.size (tree.subtree id).nodes.length
  /-- They come below the copy of the topmost node in the order of their numbers. -/
  order : (changed.subtree tree.size).nodes = List.range' tree.size (tree.subtree id).nodes.length
  kindOf : ∀ original ∈ (tree.subtree id).nodes, changed.kindOf (tree.copyOf id original) = tree.kindOf original
  childrenOf : ∀ original ∈ (tree.subtree id).nodes,
    changed.childrenOf (tree.copyOf id original) = (tree.childrenOf original).map (tree.copyOf id)
  alone : changed.parentOf tree.size = none
  /-- Nothing happens to what was there. -/
  kept : tree.Extends changed

namespace WellFormed

variable (sound : tree.WellFormed)
include sound

theorem map_copyOf (id : NodeId) : (tree.subtree id).nodes.map (tree.copyOf id) =
    List.range' tree.size (tree.subtree id).nodes.length := by
  refine List.ext_getElem (by simp) fun index here _ => ?_
  have distinct := sound.nodup_nodes_subtree id
  rw [List.getElem_map, copyOf, distinct.idxOf_getElem, List.getElem_range', Nat.one_mul]

theorem cloneDeep_duplicated (present : id < tree.size) : tree.Duplicated (tree.cloneDeep id).2 id := by
  obtain ⟨-, grafted⟩ := cloneDeep_grafted sound id
  have numbers := sound.map_copyOf id
  rw [length_nodes] at numbers
  have spelled := grafted.spelled
  have spots := sound.spells_subtree present
  rw [spots_renumber numbers] at spelled
  have copies : ∀ original ∈ (tree.subtree id).nodes, ∃ spot ∈ (tree.subtree id).spots, spot.id = original ∧
      (tree.cloneDeep id).2.kindOf (tree.copyOf id original) = some spot.kind ∧
      (tree.cloneDeep id).2.childrenOf (tree.copyOf id original) = spot.children.map (tree.copyOf id) := by
    intro original member
    obtain ⟨spot, listed, rfl⟩ := mem_nodes.1 member
    exact ⟨spot, listed, rfl, spelled _ (List.mem_map_of_mem listed)⟩
  refine ⟨grafted.sound, ?_, sound.map_copyOf id, ?_, fun original member => ?_, fun original member => ?_, ?_,
    grafted.extended⟩
  · rw [grafted.size, size_renumber, length_nodes]
  · have copy := grafted.sound.subtree_of_spells grafted.spelled
    rw [id_renumber] at copy
    rw [copy, nodes_renumber, length_nodes]
  · obtain ⟨spot, listed, rfl, kind, -⟩ := copies original member
    rw [kind, (spots spot listed).1]
  · obtain ⟨spot, listed, rfl, -, children⟩ := copies original member
    rw [children, (spots spot listed).2]
  · simpa using grafted.alone

/-- Copies of children are made one after the other, each of what the tree holds by then. -/
theorem graftAll_children {parent : NodeId} (ids : List NodeId) (known : ∀ child ∈ ids, child ∈ tree.childrenOf id)
    {grown : Tree} (sound' : grown.WellFormed) (extended : tree.Extends grown) (new : tree.size ≤ parent)
    (room : parent < grown.size) : grown.graftAll parent (ids.map tree.subtree) =
      ids.foldl (fun grown child => (grown.cloneDeep child).2.adopt parent (grown.cloneDeep child).1) grown := by
  induction ids generalizing grown with
  | nil => rfl
  | cons child ids ih =>
      rw [List.forall_mem_cons] at known
      have spelled := (sound.spells_subtree (sound.lt_size_of_mem known.1)).grown extended
      have same : grown.subtree child = tree.subtree child := by
        have := sound'.subtree_of_spells spelled
        rwa [sound.subtree_unfold, id_branch, ← sound.subtree_unfold] at this
      have proper : Proper (spotsOfAll [tree.subtree child]) := by
        simpa [spotsOfAll, subtree] using subtreeTo_proper sound tree.size known.1
      have one := graftAll_grafted sound' room [tree.subtree child] proper
      have step : grown.graftAll parent [tree.subtree child] =
          (grown.cloneDeep child).2.adopt parent (grown.cloneDeep child).1 := by
        rw [cloneDeep, same]
        rfl
      rw [step] at one
      have larger : grown.size ≤ ((grown.cloneDeep child).2.adopt parent (grown.cloneDeep child).1).size :=
        one.size ▸ Nat.le_add_right _ _
      rw [List.foldl_cons, ← ih known.2 one.sound ⟨Nat.le_trans extended.size_le larger, fun other inside => ?_⟩
        (Nat.lt_of_lt_of_le room larger), ← step]
      · rfl
      · rw [one.spared other (Nat.lt_of_lt_of_le inside extended.size_le) (Nat.ne_of_lt (Nat.lt_of_lt_of_le inside new)),
          extended.node?_eq other inside]

/-- A node is copied by making a new one and, below it, copies of the children. -/
theorem cloneDeep_recursive {kind : Kind} (found : tree.kindOf id = some kind) :
    tree.cloneDeep id = (tree.size, (tree.childrenOf id).foldl
      (fun grown child => (grown.cloneDeep child).2.adopt tree.size (grown.cloneDeep child).1) (tree.create kind).2) := by
  have created := sound.create (sound.named id kind found)
  have children := sound.graftAll_children (tree.childrenOf id) (fun _ member => member) created (extends_create kind)
    (Nat.le_refl _) (by simp)
  rw [cloneDeep, sound.subtree_unfold, found, Option.getD_some, graft, ← children]
  rfl

/-- Copying a node gives its copy the next number, and the nodes below it the numbers behind that in document order.
    The copies are what their originals are, with copies of the children for children. The topmost copy stands alone,
    and nothing happens to the nodes that were there. The copy is made from the top down, with every child copied from
    the tree as it has grown by then. -/
theorem cloneDeep_whole (present : id < tree.size) :
    (tree.cloneDeep id).1 = tree.size ∧ tree.Duplicated (tree.cloneDeep id).2 id ∧
    ∀ kind, tree.kindOf id = some kind → tree.cloneDeep id = (tree.size, (tree.childrenOf id).foldl
      (fun grown child => (grown.cloneDeep child).2.adopt tree.size (grown.cloneDeep child).1) (tree.create kind).2) :=
  ⟨(cloneDeep_grafted sound id).1, sound.cloneDeep_duplicated present, fun _ found => sound.cloneDeep_recursive found⟩

/-- The loop that gathers the text of a subtree takes its nodes in document order, one at each turn, and is over
    after the last one. By then it has the data of all text nodes, each once. What is no text itself has the text of
    its children, one after the other. -/
theorem textContent_in_order (id : NodeId) :
    (∀ fuel, tree.gatherText fuel [id] "" = (tree.gatherTurn^[fuel] ([id], "")).2) ∧
    (∀ turns, (tree.gatherTurn^[turns] ([id], "")).1.head? = (tree.subtree id).nodes[turns]?) ∧
    tree.gatherTurn^[(tree.subtree id).nodes.length] ([id], "") = ([], tree.textContent id) ∧
    (tree.subtree id).nodes.Nodup ∧ (∀ other, other ∈ (tree.subtree id).nodes ↔ tree.Ascends other id) ∧
    tree.textContent id = String.join ((tree.subtree id).nodes.filterMap tree.data?) ∧
    (tree.isText id = false → tree.textContent id = String.join ((tree.childrenOf id).map tree.textContent)) := by
  have text : tree.textContent id = String.join ((tree.subtree id).nodes.filterMap tree.data?) :=
    sound.gatherText_nodes (Nat.le_refl _) id
  refine ⟨fun fuel => gatherText_eq_turns fuel [id] "", fun turns => sound.head?_gatherTurn turns id, ?_,
    sound.nodup_nodes_subtree id, fun _ => sound.mem_nodes_subtree, text, fun solid => ?_⟩
  · have finished := sound.head?_gatherTurn (tree.subtree id).nodes.length id
    have gathered := (sound.gatherTurn_iterate (tree.subtree id).nodes.length [id] "").2
    rw [List.getElem?_length, List.head?_eq_none_iff] at finished
    refine Prod.ext finished ?_
    rw [gathered, text]
    simp [nodesOfAll]
  · rw [text, sound.nodes_subtree, List.filterMap_cons_none (data?_eq_none solid), sound.join_texts]

end WellFormed

/-- A paragraph with two texts, the first of which has another text below it. -/
def nested : Tree := Tree.empty.perform
  [.createElement "p", .createText "a", .createText "b", .createText "c", .appendChild 0 1, .appendChild 1 2,
    .appendChild 0 3]

theorem nested_wellFormed : nested.WellFormed := WellFormed.empty.perform _

/-- The paragraph 0 with its nodes 1, 2 and 3 is copied to 4 with 5, 6 and 7. -/
theorem cloneDeep_whole_nested : nested.WellFormed ∧ 0 < nested.size ∧ (nested.cloneDeep 0).1 = 4 ∧
    (nested.cloneDeep 0).2.size = 8 ∧ (nested.cloneDeep 0).2.childrenOf 4 = [5, 7] ∧
    (nested.cloneDeep 0).2.childrenOf 5 = [6] ∧ (nested.cloneDeep 0).2.kindOf 6 = some (.text "b") := by
  have present : 0 < nested.size := by decide
  obtain ⟨name, copied, -⟩ := nested_wellFormed.cloneDeep_whole present
  have top := copied.childrenOf 0 (by decide)
  have first := copied.childrenOf 1 (by decide)
  have lowest := copied.kindOf 2 (by decide)
  exact ⟨nested_wellFormed, present, name, copied.size, top, first, lowest⟩

/-- The texts are met from the top down. -/
theorem textContent_in_order_nested : nested.WellFormed ∧ nested.textContent 0 = "abc" ∧
    nested.textContent 0 = String.join [nested.textContent 1, nested.textContent 3] := by
  obtain ⟨-, -, -, -, -, text, parts⟩ := nested_wellFormed.textContent_in_order 0
  exact ⟨nested_wellFormed, text, parts (by decide)⟩

end Tree

end DomParts
