import DomParts.Proofs.Tree.Ascent
import DomParts.Proofs.Tree.Outline

/-! # Text in document order

The loop that gathers text keeps the nodes to come on a stack. At every turn the nodes on the stack, each
with all that is below it, are what is left of the subtree in document order. So the loop meets each node
once and ends by itself, because a subtree has no more nodes than the tree.
-/

namespace DomParts

def Kind.data? : Kind → Option String
  | .text data => some data
  | _ => none

theorem Kind.ownText_eq (kind : Kind) : kind.ownText = kind.data?.getD "" := by
  cases kind <;> rfl

namespace Subtree

theorem nodesOfAll_append (first second : List Subtree) :
    nodesOfAll (first ++ second) = nodesOfAll first ++ nodesOfAll second := by
  induction first with
  | nil => simp [nodesOfAll]
  | cons tree first ih => simp only [List.cons_append, nodesOfAll, ih, List.append_assoc]

end Subtree

theorem join_filterMap {α : Type} (text? : α → Option String) (items : List α) :
    String.join (items.filterMap text?) = String.join (items.map fun item => (text? item).getD "") := by
  induction items with
  | nil => rfl
  | cons item items ih =>
      cases found : text? item with
      | none => simp [found, ih]
      | some text => simp [found, ih]

namespace Tree

open Subtree (nodesOfAll textOfAll)

variable {tree : Tree} {id : NodeId}

def data? (tree : Tree) (id : NodeId) : Option String := (tree.kindOf id).bind Kind.data?

theorem ownText_eq (tree : Tree) (id : NodeId) :
    ((tree.kindOf id).map Kind.ownText).getD "" = (tree.data? id).getD "" := by
  unfold data?
  cases tree.kindOf id with
  | none => rfl
  | some kind => exact kind.ownText_eq

theorem data?_eq_none (solid : tree.isText id = false) : tree.data? id = none := by
  unfold isText at solid
  unfold data?
  cases found : tree.kindOf id with
  | none => rfl
  | some kind =>
      rw [found] at solid
      cases kind with
      | text data => cases solid
      | _ => rfl

/-- One turn of the loop that gathers text: the first node on the stack gives its own text and makes way
    for its children. -/
def gatherTurn (tree : Tree) : List NodeId × String → List NodeId × String
  | ([], gathered) => ([], gathered)
  | (id :: stack, gathered) => (tree.childrenOf id ++ stack, gathered ++ (tree.data? id).getD "")

theorem gatherText_eq_turns (fuel : Nat) (stack : List NodeId) (gathered : String) :
    tree.gatherText fuel stack gathered = (tree.gatherTurn^[fuel] (stack, gathered)).2 := by
  induction fuel generalizing stack gathered with
  | zero => cases stack <;> rfl
  | succ fuel ih =>
      cases stack with
      | nil => rw [Function.iterate_fixed rfl, gatherText]
      | cons id stack => rw [gatherText, ownText_eq, ih, Function.iterate_succ_apply, gatherTurn]

namespace WellFormed

variable (sound : tree.WellFormed)
include sound

/-- A node comes before the nodes below it, and these come child by child. -/
theorem nodes_subtree (id : NodeId) :
    (tree.subtree id).nodes = id :: nodesOfAll ((tree.childrenOf id).map tree.subtree) := by
  rw [sound.subtree_unfold, Subtree.nodes]

theorem head?_nodesOfAll (ids : List NodeId) : (nodesOfAll (ids.map tree.subtree)).head? = ids.head? := by
  cases ids with
  | nil => rfl
  | cons id ids => simp [nodesOfAll, sound.nodes_subtree id]

/-- After some turns the text of the first so many nodes is gathered, and the others are still to come. -/
theorem gatherTurn_iterate (turns : Nat) (stack : List NodeId) (gathered : String) :
    nodesOfAll ((tree.gatherTurn^[turns] (stack, gathered)).1.map tree.subtree) =
        (nodesOfAll (stack.map tree.subtree)).drop turns ∧
      (tree.gatherTurn^[turns] (stack, gathered)).2 =
        gathered ++ String.join (((nodesOfAll (stack.map tree.subtree)).take turns).filterMap tree.data?) := by
  induction turns generalizing stack gathered with
  | zero => simp
  | succ turns ih =>
      rw [Function.iterate_succ_apply]
      cases stack with
      | nil => simpa [gatherTurn, nodesOfAll] using ih [] gathered
      | cons id stack =>
          obtain ⟨left, taken⟩ := ih (tree.childrenOf id ++ stack) (gathered ++ (tree.data? id).getD "")
          have order : nodesOfAll ((id :: stack).map tree.subtree) =
              id :: nodesOfAll ((tree.childrenOf id ++ stack).map tree.subtree) := by
            rw [List.map_cons, nodesOfAll, sound.nodes_subtree, List.map_append, Subtree.nodesOfAll_append,
              List.cons_append]
          rw [gatherTurn, left, taken, order, List.drop_succ_cons, List.take_succ_cons, join_filterMap,
            join_filterMap, List.map_cons, String.join_cons, String.append_assoc]
          exact ⟨rfl, rfl⟩

/-- The node that is next on the stack is the next node in document order. -/
theorem head?_gatherTurn (turns : Nat) (id : NodeId) :
    (tree.gatherTurn^[turns] ([id], "")).1.head? = (tree.subtree id).nodes[turns]? := by
  obtain ⟨left, -⟩ := sound.gatherTurn_iterate turns [id] ""
  rw [← sound.head?_nodesOfAll, left, List.head?_drop]
  simp [nodesOfAll]

theorem size_subtree_le (inside : id < tree.size) : (tree.subtree id).size ≤ tree.size := by
  rw [← Subtree.length_nodes]
  have within : ∀ other ∈ (tree.subtree id).nodes, other ∈ List.range tree.size := by
    intro other member
    rw [List.mem_range]
    rcases ascends_head.1 (sound.mem_nodes_subtree.1 member) with same | ⟨parent, link, -⟩
    · exact same ▸ inside
    · exact lt_size_of_parentOf link
  simpa using ((sound.nodup_nodes_subtree id).subperm within).length_le

/-- The text of a subtree is gathered to its end: more fuel than there are nodes makes no difference. -/
theorem gatherText_nodes {fuel : Nat} (enough : tree.size ≤ fuel) (id : NodeId) :
    tree.gatherText fuel [id] "" = String.join ((tree.subtree id).nodes.filterMap tree.data?) := by
  have gathered := (sound.gatherTurn_iterate fuel [id] "").2
  rw [gatherText_eq_turns, gathered]
  by_cases inside : id < tree.size
  · have all : (tree.subtree id).nodes.length ≤ fuel := by
      rw [Subtree.length_nodes]
      exact Nat.le_trans (sound.size_subtree_le inside) enough
    simp [nodesOfAll, List.take_of_length_le all]
  -- What does not exist has neither text nor children, so it takes no fuel to be done with it.
  · have beyond := Nat.le_of_not_lt inside
    have nothing : tree.data? id = none := by rw [data?, kindOf_of_size_le beyond, Option.bind_none]
    have alone : (tree.subtree id).nodes = [id] := by
      rw [sound.nodes_subtree, childrenOf_of_size_le beyond]
      rfl
    cases fuel <;> simp [nodesOfAll, alone, nothing]

theorem text_eq_join (id : NodeId) :
    (tree.subtree id).text = String.join ((tree.subtree id).nodes.filterMap tree.data?) := by
  induction id using sound.descend with
  | step id ih =>
      have below : ∀ ids : List NodeId, (∀ child ∈ ids, child ∈ tree.childrenOf id) →
          textOfAll (ids.map tree.subtree) = String.join ((nodesOfAll (ids.map tree.subtree)).filterMap tree.data?) := by
        intro ids known
        induction ids with
        | nil => rfl
        | cons child ids next =>
            rw [List.forall_mem_cons] at known
            rw [List.map_cons, textOfAll, nodesOfAll, List.filterMap_append, String.join_append, ih child known.1,
              next known.2]
      have own : ((tree.kindOf id).getD .fragment).ownText = (tree.data? id).getD "" := by
        rw [← ownText_eq]
        cases tree.kindOf id <;> rfl
      rw [sound.nodes_subtree, join_filterMap, List.map_cons, String.join_cons, ← join_filterMap,
        ← below _ fun _ member => member, sound.subtree_unfold, Subtree.text, own]

theorem gatherText_subtree {fuel : Nat} (enough : tree.size ≤ fuel) (id : NodeId) :
    tree.gatherText fuel [id] "" = (tree.subtree id).text := by
  rw [sound.gatherText_nodes enough, sound.text_eq_join]

theorem join_texts (ids : List NodeId) : String.join ((nodesOfAll (ids.map tree.subtree)).filterMap tree.data?) =
    String.join (ids.map tree.textContent) := by
  induction ids with
  | nil => rfl
  | cons id ids ih =>
      rw [List.map_cons, nodesOfAll, List.filterMap_append, String.join_append, ih, List.map_cons, String.join_cons,
        textContent, sound.gatherText_nodes (Nat.le_refl _)]

end WellFormed

end Tree

end DomParts
