import DomParts.Proofs.Tree.Operations
import DomParts.Proofs.Tree.Spelling
import DomParts.Proofs.Tree.Walk

/-! # Everything below a node

The bounded walk as a loop that visits one node at each turn. Whatever its limit, the loop visits the nodes below
its root in document order and nothing else, and it ends by itself once there are no more. But room is made for
as many nodes as the limit allows before the loop is entered, and a limit that is out of all proportion never gets
that far.
-/

namespace DomParts.Tree

open Subtree (nodesOfAll)

variable {tree : Tree} {id root : NodeId}

/-- The nodes below a node, in document order. -/
def below (tree : Tree) (id : NodeId) : List NodeId := (tree.subtree id).nodes.tail

/-- A walk on its way. -/
structure Walking where
  visited : List NodeId
  /-- The node to visit next. Without one the walk is over. -/
  current : Option NodeId
  /-- The siblings to return to, the innermost first. -/
  pending : List NodeId

namespace Walking

def start (tree : Tree) (root : NodeId) : Walking := ⟨[], tree.firstChild root, []⟩

/-- Visits a node and goes on to its first child, or else to its next sibling, or else to the sibling of a node
    further up. A sibling that is passed by is to be returned to. -/
def turn (tree : Tree) : Walking → Walking
  | ⟨visited, none, pending⟩ => ⟨visited, none, pending⟩
  | ⟨visited, some id, pending⟩ =>
      match tree.firstChild id, tree.nextSibling id, pending with
      | some child, some sibling, pending => ⟨visited ++ [id], some child, sibling :: pending⟩
      | some child, none, pending => ⟨visited ++ [id], some child, pending⟩
      | none, some sibling, pending => ⟨visited ++ [id], some sibling, pending⟩
      | none, none, sibling :: pending => ⟨visited ++ [id], some sibling, pending⟩
      | none, none, [] => ⟨visited ++ [id], none, []⟩

theorem visited_turn (walking : Walking) :
    (walking.turn tree).visited = walking.visited ++ walking.current.toList := by
  obtain ⟨visited, current, pending⟩ := walking
  cases current with
  | none => simp [turn]
  | some id =>
      unfold turn
      dsimp only
      split <;> rfl

theorem visited_iterate (turns : Nat) (walking : Walking) : ((turn tree)^[turns] walking).visited =
    walking.visited ++ tree.walkFrom turns walking.current walking.pending := by
  induction turns generalizing walking with
  | zero => simp [walkFrom]
  | succ turns ih =>
      rw [Function.iterate_succ_apply, ih, visited_turn, List.append_assoc]
      obtain ⟨visited, current, pending⟩ := walking
      cases current with
      | none => cases turns <;> simp [turn, walkFrom]
      | some id =>
          simp only [Option.toList_some, List.singleton_append, walkFrom, turn]
          cases tree.firstChild id with
          | some child => cases tree.nextSibling id <;> rfl
          | none =>
              cases tree.nextSibling id with
              | some sibling => rfl
              | none =>
                  cases pending with
                  | cons sibling pending => rfl
                  | nil => cases turns <;> rfl

end Walking

namespace WellFormed

variable (sound : tree.WellFormed)
include sound

theorem below_eq_nodesOfAll (id : NodeId) : tree.below id = nodesOfAll ((tree.childrenOf id).map tree.subtree) := by
  rw [below, sound.nodes_subtree, List.tail_cons]

/-- Each child comes before what is below it, and that before the next child. -/
theorem below_eq (id : NodeId) : tree.below id = (tree.childrenOf id).flatMap fun child => child :: tree.below child := by
  rw [sound.below_eq_nodesOfAll]
  induction tree.childrenOf id with
  | nil => rfl
  | cons child children ih =>
      rw [List.map_cons, nodesOfAll, ih, List.flatMap_cons, sound.nodes_subtree, sound.below_eq_nodesOfAll]

theorem nodup_below (id : NodeId) : (tree.below id).Nodup := (sound.nodup_nodes_subtree id).sublist (List.tail_sublist _)

theorem mem_below {other : NodeId} : other ∈ tree.below id ↔ Relation.TransGen tree.Link other id := by
  have whole := @mem_nodes_subtree tree id other sound
  have distinct := sound.nodup_nodes_subtree id
  rw [sound.nodes_subtree, List.nodup_cons, ← sound.below_eq_nodesOfAll] at distinct
  rw [sound.nodes_subtree, List.mem_cons, ← sound.below_eq_nodesOfAll, Ascends,
    Relation.reflTransGen_iff_eq_or_transGen] at whole
  constructor
  · intro member
    cases whole.1 (.inr member) with
    | inl same => exact absurd (same ▸ member) distinct.1
    | inr way => exact way
  · intro way
    cases whole.2 (.inr way) with
    | inl same => exact absurd (same ▸ way) (sound.acyclic other)
    | inr member => exact member

theorem walkFrom_eq_take (root : NodeId) (limit : Nat) :
    tree.walkFrom limit (tree.firstChild root) [] = (tree.below root).take limit := by
  have tops : ((tree.childrenOf root).map tree.subtree).map Subtree.id = tree.childrenOf root := by
    simp [List.map_map, Function.comp_def, sound.subtree_unfold]
  have spelled : tree.Spells (Subtree.spotsOfAll ((tree.childrenOf root).map tree.subtree)) := by
    intro spot member
    obtain ⟨_, among, listed⟩ := Subtree.mem_spotsOfAll.1 member
    obtain ⟨child, known, rfl⟩ := List.mem_map.1 among
    exact sound.spells_subtree (sound.lt_size_of_mem known) spot listed
  rw [sound.below_eq_nodesOfAll, walkFrom_firstChild sound tops.symm spelled]

/-- The bounded walk visits the first nodes below its root, if there is room for as many as it may visit. -/
theorem walk_eq_take (root : NodeId) (limit : Nat) : tree.walk root limit =
    if limit < roomLimit then some ((tree.below root).take limit) else none := by
  rw [walk, sound.walkFrom_eq_take]

/-- So many turns of the loop visit as many nodes, and the next one is the next in document order. -/
theorem walking (root : NodeId) (turns : Nat) :
    ((Walking.turn tree)^[turns] (.start tree root)).visited = (tree.below root).take turns ∧
      ((Walking.turn tree)^[turns] (.start tree root)).current = (tree.below root)[turns]? := by
  have visited : ∀ turns, ((Walking.turn tree)^[turns] (.start tree root)).visited = (tree.below root).take turns := by
    intro turns
    rw [Walking.visited_iterate, ← sound.walkFrom_eq_take]
    rfl
  refine ⟨visited turns, ?_⟩
  have next := visited (turns + 1)
  rw [Function.iterate_succ_apply', Walking.visited_turn, visited turns, List.take_add_one] at next
  simpa using congrArg List.head? (List.append_cancel_left next)

theorem not_beside (way : Relation.TransGen tree.Link id root) : id ≠ root ∧ tree.parentOf id ≠ tree.parentOf root := by
  constructor
  · intro same
    exact sound.acyclic root (same ▸ way)
  · intro beside
    obtain ⟨parent, link, onward⟩ := Relation.TransGen.head'_iff.1 way
    have above : tree.Link root parent := beside.symm.trans link
    exact sound.acyclic root (.head' above onward)

end WellFormed

/-- What a bounded walk does. -/
structure WalksBelow (tree : Tree) (root : NodeId) (limit : Nat) : Prop where
  /-- In document order each child comes before what is below it, and that before the next child. -/
  order : ∀ id, tree.below id = (tree.childrenOf id).flatMap fun child => child :: tree.below child
  /-- The nodes below the root are those on whose way up it lies, each listed once. -/
  listed : ∀ id, id ∈ tree.below root ↔ Relation.TransGen tree.Link id root
  once : (tree.below root).Nodup
  /-- The loop visits them one by one. -/
  visits : ∀ turns, ((Walking.turn tree)^[turns] (.start tree root)).visited = (tree.below root).take turns
  /-- It is over after the last of them, however far it was to go. -/
  continues : ∀ turns, ((Walking.turn tree)^[turns] (.start tree root)).current = (tree.below root)[turns]?
  /-- Without room for as many nodes as the limit allows, the loop is not entered. -/
  crowded : roomLimit ≤ limit → tree.walk root limit = none
  /-- Otherwise the walk is what the loop has visited when it reaches the limit. -/
  stopped : limit < roomLimit →
    tree.walk root limit = some ((Walking.turn tree)^[limit] (.start tree root)).visited
  first : ∀ found ∈ tree.walk root limit, found = (tree.below root).take limit
  count : ∀ found ∈ tree.walk root limit, found.length = min limit (tree.below root).length
  /-- Neither the root nor a node beside it is visited, nor any node elsewhere. -/
  inside : ∀ found ∈ tree.walk root limit, ∀ id ∈ found,
    Relation.TransGen tree.Link id root ∧ id ≠ root ∧ tree.parentOf id ≠ tree.parentOf root

theorem WellFormed.walksBelow (sound : tree.WellFormed) (root : NodeId) (limit : Nat) : tree.WalksBelow root limit := by
  have first : ∀ found ∈ tree.walk root limit, found = (tree.below root).take limit := by
    intro found walked
    rw [sound.walk_eq_take] at walked
    split at walked
    · exact (Option.some.inj walked).symm
    · cases walked
  exact {
    order := sound.below_eq
    listed := fun _ => sound.mem_below
    once := sound.nodup_below root
    visits := fun turns => (sound.walking root turns).1
    continues := fun turns => (sound.walking root turns).2
    crowded := fun crowded => if_neg crowded.not_gt
    stopped := fun room => by rw [sound.walk_eq_take, (sound.walking root limit).1, if_pos room]
    first
    count := fun found walked => by rw [first found walked, List.length_take]
    inside := fun found walked id member => by
      rw [first found walked] at member
      have way := sound.mem_below.1 (List.mem_of_mem_take member)
      exact ⟨way, sound.not_beside way⟩ }

/-- In every tree that operations make of an empty one, a bounded walk visits the first nodes below its root, as many
    as its limit allows, unless that is more than there is room for. -/
theorem perform_empty_walksBelow (operations : List Operation) (root : NodeId) (limit : Nat) :
    (Tree.empty.perform operations).WalksBelow root limit :=
  (WellFormed.empty.perform operations).walksBelow root limit

end DomParts.Tree
