import DomParts.Proofs.Tree.Ascent
import DomParts.Proofs.Tree.Clone

/-! # What a tree spells out

A tree spells out what is below a node in one way only, and it does so for every node that it has. Nothing
is forgotten as nodes are added.
-/

namespace DomParts.Tree

open Subtree

variable {tree changed : Tree} {id child : NodeId}

namespace Spells

mutual

theorem unique {one two : Subtree} (first : tree.Spells one.spots) (second : tree.Spells two.spots)
    (same : one.id = two.id) : one = two := by
  cases one with
  | branch id kind children =>
      cases two with
      | branch other kind' children' =>
          cases same
          have here := first ⟨id, kind, children.map Subtree.id⟩ (List.mem_cons_self ..)
          have there := second ⟨id, kind', children'.map Subtree.id⟩ (List.mem_cons_self ..)
          have tops : children.map Subtree.id = children'.map Subtree.id := here.2.symm.trans there.2
          obtain rfl : kind = kind' := Option.some.inj (here.1.symm.trans there.1)
          rw [unique_all (fun spot member => first spot (List.mem_cons_of_mem _ member))
            (fun spot member => second spot (List.mem_cons_of_mem _ member)) tops]
termination_by sizeOf one

theorem unique_all {ones twos : List Subtree} (first : tree.Spells (spotsOfAll ones))
    (second : tree.Spells (spotsOfAll twos)) (same : ones.map Subtree.id = twos.map Subtree.id) : ones = twos := by
  cases ones with
  | nil => exact (List.map_eq_nil_iff.1 same.symm).symm
  | cons one ones =>
      cases twos with
      | nil => cases same
      | cons two twos =>
          rw [List.map_cons, List.map_cons, List.cons.injEq] at same
          rw [unique (fun spot member => first spot (List.mem_append_left _ member))
              (fun spot member => second spot (List.mem_append_left _ member)) same.1,
            unique_all (fun spot member => first spot (List.mem_append_right _ member))
              (fun spot member => second spot (List.mem_append_right _ member)) same.2]
termination_by sizeOf ones

end

variable {one : Subtree} (spells : tree.Spells one.spots)
include spells

theorem lt_size (member : id ∈ one.nodes) : id < tree.size := by
  obtain ⟨spot, listed, rfl⟩ := mem_nodes.1 member
  exact lt_size_of_kindOf (spells spot listed).1

theorem below (member : id ∈ one.nodes) (link : child ∈ tree.childrenOf id) : child ∈ one.nodes := by
  obtain ⟨spot, listed, rfl⟩ := mem_nodes.1 member
  rw [(spells spot listed).2] at link
  exact child_mem_nodes listed link

theorem stays (same : ∀ id ∈ one.nodes, changed.kindOf id = tree.kindOf id ∧
    changed.childrenOf id = tree.childrenOf id) : changed.Spells one.spots := by
  intro spot listed
  have member : spot.id ∈ one.nodes := mem_nodes.2 ⟨spot, listed, rfl⟩
  obtain ⟨kind, children⟩ := same spot.id member
  exact ⟨kind.trans (spells spot listed).1, children.trans (spells spot listed).2⟩

theorem grown (extended : tree.Extends changed) : changed.Spells one.spots :=
  spells.stays fun _ member =>
    ⟨extended.kindOf_eq (spells.lt_size member), extended.childrenOf_eq (spells.lt_size member)⟩

end Spells

namespace WellFormed

variable (sound : tree.WellFormed)
include sound

theorem spells_subtree (inside : id < tree.size) : tree.Spells (tree.subtree id).spots := by
  induction id using sound.descend with
  | step id ih =>
      rw [sound.subtree_unfold]
      intro spot listed
      rcases List.mem_cons.1 listed with rfl | listed
      · obtain ⟨kind, found⟩ := exists_kind_of_lt inside
        have tops : ((tree.childrenOf id).map tree.subtree).map Subtree.id = tree.childrenOf id := by
          simp [List.map_map, Function.comp_def, sound.subtree_unfold]
        exact ⟨by rw [found, Option.getD_some], tops.symm⟩
      · obtain ⟨_, among, listed⟩ := mem_spotsOfAll.1 listed
        obtain ⟨child, member, rfl⟩ := List.mem_map.1 among
        exact ih child member (sound.lt_size_of_mem member) spot listed

theorem subtree_of_spells {one : Subtree} (spells : tree.Spells one.spots) : tree.subtree one.id = one := by
  have top : one.id ∈ one.nodes := by
    cases one
    exact List.mem_cons_self ..
  refine (sound.spells_subtree (spells.lt_size top)).unique spells ?_
  rw [sound.subtree_unfold]
  rfl

/-- What is below a node stays as it is as long as nothing happens to the nodes there. -/
theorem subtree_stays (sound' : changed.WellFormed) (inside : id < tree.size)
    (same : ∀ other, tree.Ascends other id → other < tree.size →
      changed.kindOf other = tree.kindOf other ∧ changed.childrenOf other = tree.childrenOf other) :
    changed.subtree id = tree.subtree id := by
  have spelled := sound.spells_subtree inside
  have stays := spelled.stays fun other member => same other (sound.mem_nodes_subtree.1 member) (spelled.lt_size member)
  have top : (tree.subtree id).id = id := by
    rw [sound.subtree_unfold]
    rfl
  have spelled_there := sound'.subtree_of_spells stays
  rwa [top] at spelled_there

theorem new_above (sound' : changed.WellFormed) (extended : tree.Extends changed) {top : NodeId}
    (new : tree.size ≤ top) (below : id ∈ (changed.subtree top).nodes) : tree.size ≤ id := by
  have way := sound'.mem_nodes_subtree.1 below
  induction way using Relation.ReflTransGen.head_induction_on with
  | refl => exact new
  | head link _ ih =>
      have new := ih (sound'.mem_nodes_subtree.2 ‹_›)
      refine Nat.le_of_not_lt fun inside => Nat.not_lt.2 new ?_
      rw [Link, extended.parentOf_eq inside] at link
      exact sound.lt_size_of_parent link

end WellFormed

end DomParts.Tree
