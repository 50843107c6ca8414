import DomParts.Proofs.Tree.Runs
import Mathlib.Data.List.Basic

/-! # The siblings behind a node

The next sibling of a node is the first of those behind it, and a run is what comes first of the node and
those behind it.
-/

namespace DomParts.Tree

variable {tree : Tree} {id parent : NodeId} {before rest : List NodeId}

/-- What comes behind the first occurrence of a node in a list of nodes. -/
def followers (id : NodeId) : List NodeId → List NodeId
  | [] => []
  | first :: rest => if first = id then rest else followers id rest

theorem following_eq_head? (id : NodeId) (ids : List NodeId) : following id ids = (followers id ids).head? := by
  induction ids with
  | nil => rfl
  | cons first ids ih =>
      simp only [following, followers]
      split
      · rfl
      · exact ih

theorem followers_append (absent : id ∉ before) : followers id (before ++ id :: rest) = rest := by
  induction before with
  | nil => simp [followers]
  | cons first before ih =>
      rw [List.mem_cons, not_or] at absent
      simp only [List.cons_append, followers, if_neg (Ne.symm absent.1)]
      exact ih absent.2

/-- The siblings behind a node, in order. -/
def behind (tree : Tree) (id : NodeId) : List NodeId :=
  ((tree.parentOf id).map fun parent => followers id (tree.childrenOf parent)).getD []

theorem nextSibling_eq_behind (tree : Tree) (id : NodeId) : tree.nextSibling id = (tree.behind id).head? := by
  cases above : tree.parentOf id with
  | none => simp [nextSibling, behind, above]
  | some parent => simp [nextSibling, behind, above, following_eq_head?]

namespace WellFormed

variable (sound : tree.WellFormed)
include sound

theorem behind_eq (split : tree.childrenOf parent = before ++ id :: rest) : tree.behind id = rest := by
  have above : tree.parentOf id = some parent := sound.parentOf_of_mem (by simp [split])
  have distinct := sound.nodup parent
  rw [split, List.nodup_middle, List.nodup_cons, List.mem_append, not_or] at distinct
  simpa [behind, above, split] using followers_append distinct.1.1

theorem mem_behind {other : NodeId} (ordered : [id, other].Sublist (tree.childrenOf parent)) : other ∈ tree.behind id := by
  obtain ⟨before, rest, split, first, later⟩ := List.cons_sublist_iff.1 ordered
  obtain ⟨front, more, rfl⟩ := List.append_of_mem first
  have whole : tree.childrenOf parent = front ++ id :: (more ++ rest) := by simpa using split
  rw [sound.behind_eq whole]
  exact List.mem_append_right _ (List.singleton_sublist.1 later)

theorem split_at (above : tree.parentOf id = some parent) :
    ∃ before, tree.childrenOf parent = before ++ id :: tree.behind id := by
  obtain ⟨before, rest, split⟩ := List.append_of_mem (sound.mem_childrenOf above)
  rw [sound.behind_eq split]
  exact ⟨before, split⟩

/-- A node and its next sibling stand next to each other in a list of children. -/
theorem split_next {next : NodeId} (follows : tree.nextSibling id = some next) : ∃ parent before rest,
    tree.parentOf id = some parent ∧ tree.childrenOf parent = before ++ id :: next :: rest := by
  cases above : tree.parentOf id with
  | none => simp [nextSibling, above] at follows
  | some parent =>
      obtain ⟨before, split⟩ := sound.split_at above
      rw [nextSibling_eq_behind] at follows
      obtain ⟨rest, behind⟩ := List.head?_eq_some_iff.1 follows
      rw [behind] at split
      exact ⟨parent, before, rest, rfl, split⟩

theorem nextSibling_inj {other next : NodeId} (here : tree.nextSibling id = some next)
    (there : tree.nextSibling other = some next) : id = other := by
  obtain ⟨parent, before, rest, -, split⟩ := sound.split_next here
  obtain ⟨parent', before', rest', -, split'⟩ := sound.split_next there
  have listed : next ∈ tree.childrenOf parent := by simp [split]
  have listed' : next ∈ tree.childrenOf parent' := by simp [split']
  obtain rfl := sound.unique listed listed'
  have joined : (before ++ [id]) ++ next :: rest = (before' ++ [other]) ++ next :: rest' := by
    simpa using split.symm.trans split'
  have distinct := sound.nodup parent
  rw [List.append_cons before id] at split
  rw [split, List.nodup_middle, List.nodup_cons, List.mem_append, not_or] at distinct
  rw [List.append_cons_inj_of_notMem distinct.1.1 distinct.1.2] at joined
  exact List.singleton_inj.1 (List.append_inj' joined.1 rfl).2

end WellFormed

/-- The nodes from `start` on as far as `stop`, or as far as the last sibling if `stop` is not among them. -/
def run (tree : Tree) (start : NodeId) (stop : Option NodeId) : List NodeId := upTo stop (start :: tree.behind start)

variable {start : NodeId} {stop : Option NodeId}

theorem run_eq_nil_iff : tree.run start stop = [] ↔ stop = some start := by
  by_cases met : stop = some start
  · simp [run, met]
  · simp [run, upTo_cons met, met]

theorem head?_run (onward : stop ≠ some start) : (tree.run start stop).head? = some start := by
  simp [run, upTo_cons onward]

theorem ne_of_mem_run (member : id ∈ tree.run start stop) : stop ≠ some id := ne_of_mem_upTo member

/-- A run that ends with the last sibling, or before one of the later siblings or its own start, stands between what is in
    front of it and its end. -/
theorem WellFormed.run_split (sound : tree.WellFormed) (above : tree.parentOf start = some parent)
    (ends : ∀ id, stop = some id → id ∈ start :: tree.behind start) : ∃ front rest,
      tree.childrenOf parent = front ++ tree.run start stop ++ rest ∧ rest.head? = stop ∧
        (tree.run start stop ++ rest).head? = some start := by
  obtain ⟨front, split⟩ := sound.split_at above
  obtain ⟨rest, parted, begins⟩ := upTo_split ends
  refine ⟨front, rest, ?_, begins, ?_⟩
  · rw [run, List.append_assoc, ← parted, split]
  · rw [run, ← parted, List.head?_cons]

end DomParts.Tree
