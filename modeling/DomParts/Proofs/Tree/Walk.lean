import DomParts.Proofs.Tree.Outline
import DomParts.Tree.Subtree

/-! # The walk in document order

The loop that visits the nodes below a root keeps a stack of siblings to return to. On a tree that
spells out what is below the root, it visits the nodes of the outline in order, up to its limit.
-/

namespace DomParts.Tree

open Subtree

variable {tree : Tree} {root : NodeId}

/-- Siblings that are left on one level of a walk: the last children of some node, spelled out. -/
structure Level (tree : Tree) (siblings : List Subtree) : Prop where
  listed : ∃ parent before, tree.childrenOf parent = before ++ siblings.map Subtree.id
  spelled : tree.Spells (spotsOfAll siblings)

namespace Level

variable {first : Subtree} {rest : List Subtree}

theorem tail (level : tree.Level (first :: rest)) : tree.Level rest := by
  obtain ⟨parent, before, listed⟩ := level.listed
  refine ⟨⟨parent, before ++ [first.id], by simpa using listed⟩, fun spot member => ?_⟩
  exact level.spelled spot (List.mem_append_right _ member)

theorem nextSibling_eq (level : tree.Level (first :: rest)) (sound : tree.WellFormed) :
    tree.nextSibling first.id = rest.head?.map Subtree.id := by
  obtain ⟨parent, before, listed⟩ := level.listed
  rw [sound.nextSibling_eq (by simpa using listed), List.head?_map]

theorem below {id : NodeId} {kind : Kind} {children : List Subtree}
    (level : tree.Level (.branch id kind children :: rest)) : tree.Level children := by
  refine ⟨⟨id, [], ?_⟩, fun spot member => ?_⟩
  · simpa using (level.spelled ⟨id, kind, children.map Subtree.id⟩ (List.mem_cons_self ..)).2
  · exact level.spelled spot (List.mem_append_left _ (List.mem_cons_of_mem _ member))

theorem firstChild_eq {id : NodeId} {kind : Kind} {children : List Subtree}
    (level : tree.Level (.branch id kind children :: rest)) :
    tree.firstChild id = children.head?.map Subtree.id := by
  have := (level.spelled ⟨id, kind, children.map Subtree.id⟩ (List.mem_cons_self ..)).2
  simp only at this
  rw [firstChild, this, List.head?_map]

end Level

theorem walkFrom_eq (sound : tree.WellFormed) (limit : Nat) :
    ∀ (first : Subtree) (rest : List Subtree) (pending : List (Subtree × List Subtree)),
      tree.Level (first :: rest) → (∀ level ∈ pending, tree.Level (level.1 :: level.2)) →
      tree.walkFrom limit (some first.id) (pending.map (·.1.id)) =
        (nodesOfAll (first :: rest) ++
          pending.flatMap fun level => nodesOfAll (level.1 :: level.2)).take limit := by
  induction limit with
  | zero => intros; rfl
  | succ limit ih =>
      intro first rest pending level levels
      obtain ⟨id, kind, children⟩ := first
      have onward := level.nextSibling_eq sound
      simp only [id_branch] at onward
      simp only [walkFrom, level.firstChild_eq, onward, nodesOfAll, id_branch]
      congr 1
      cases children with
      | cons child children =>
          cases rest with
          | cons sibling rest =>
              have := ih child children ((sibling, rest) :: pending) level.below
                (List.forall_mem_cons.2 ⟨level.tail, levels⟩)
              simpa [nodesOfAll] using this
          | nil =>
              have := ih child children pending level.below levels
              simpa [nodesOfAll] using this
      | nil =>
          cases rest with
          | cons sibling rest =>
              have := ih sibling rest pending level.tail levels
              simpa [nodesOfAll] using this
          | nil =>
              cases pending with
              | nil => simp [nodesOfAll]
              | cons next pending =>
                  have := ih next.1 next.2 pending (levels next (List.mem_cons_self ..))
                    (fun level member => levels level (List.mem_cons_of_mem _ member))
                  simpa [nodesOfAll] using this

theorem walkFrom_firstChild (sound : tree.WellFormed) {below : List Subtree}
    (listed : tree.childrenOf root = below.map Subtree.id) (spelled : tree.Spells (spotsOfAll below))
    (limit : Nat) : tree.walkFrom limit (tree.firstChild root) [] = (nodesOfAll below).take limit := by
  rw [firstChild, listed]
  cases below with
  | nil => cases limit <;> simp [walkFrom, nodesOfAll]
  | cons first rest =>
      have := walkFrom_eq sound limit first rest [] ⟨⟨root, [], by simpa using listed⟩, spelled⟩
        (by simp)
      simpa using this

theorem walk_eq (sound : tree.WellFormed) {below : List Subtree}
    (listed : tree.childrenOf root = below.map Subtree.id) (spelled : tree.Spells (spotsOfAll below))
    (limit : Nat) : tree.walk root limit =
      if limit < roomLimit then some ((nodesOfAll below).take limit) else none := by
  rw [walk, walkFrom_firstChild sound listed spelled]

end DomParts.Tree
