import DomParts.Proofs.Tree.Lookup
import Mathlib.Data.List.Nodup

/-! # Well-formed trees

Parents and children are recorded on both sides, and a tree is only worth its name as long as both
sides agree. What an operation has to keep is stated here once, together with the changes that keep
it by themselves: a new node, another kind, a node that is taken out of its parent.
-/

namespace DomParts

/-- The names of the attributes of a node, in order. -/
def Kind.attributeNames : Kind → List String
  | .element _ attributes => attributes.map (·.1)
  | _ => []

namespace Tree

/-- What every operation on a tree keeps. -/
structure WellFormed (tree : Tree) : Prop where
  /-- Both sides of a link agree. -/
  linked : ∀ parent child, tree.parentOf child = some parent ↔ child ∈ tree.childrenOf parent
  /-- No node is listed twice. -/
  nodup : ∀ id, (tree.childrenOf id).Nodup
  /-- A fragment stands alone. -/
  loose : ∀ id, tree.kindOf id = some .fragment → tree.parentOf id = none
  /-- No node lies below itself, since every parent ranks below its children. -/
  ranked : ∃ rank : NodeId → Nat, ∀ parent child,
    tree.parentOf child = some parent → rank parent < rank child
  /-- No element has two attributes of one name. -/
  named : ∀ id kind, tree.kindOf id = some kind → kind.attributeNames.Nodup

namespace WellFormed

variable {tree : Tree} {id other parent child : NodeId} {kind : Kind}

theorem parentOf_of_mem (sound : tree.WellFormed) (member : child ∈ tree.childrenOf parent) :
    tree.parentOf child = some parent := (sound.linked parent child).2 member

theorem mem_childrenOf (sound : tree.WellFormed) (above : tree.parentOf child = some parent) :
    child ∈ tree.childrenOf parent := (sound.linked parent child).1 above

theorem lt_size_of_mem (sound : tree.WellFormed) (member : child ∈ tree.childrenOf parent) :
    child < tree.size := lt_size_of_parentOf (sound.parentOf_of_mem member)

theorem lt_size_of_parent (sound : tree.WellFormed) (above : tree.parentOf child = some parent) :
    parent < tree.size := lt_size_of_mem_childrenOf (sound.mem_childrenOf above)

theorem unique (sound : tree.WellFormed) (first : child ∈ tree.childrenOf parent)
    (second : child ∈ tree.childrenOf other) : parent = other := by
  have := (sound.parentOf_of_mem first).symm.trans (sound.parentOf_of_mem second)
  exact Option.some.inj this

theorem not_mem_own (sound : tree.WellFormed) : id ∉ tree.childrenOf id := by
  intro member
  obtain ⟨rank, ranked⟩ := sound.ranked
  exact Nat.lt_irrefl _ (ranked id id (sound.parentOf_of_mem member))

theorem nextSibling_eq (sound : tree.WellFormed) {before rest : List NodeId}
    (split : tree.childrenOf parent = before ++ id :: rest) :
    tree.nextSibling id = rest.head? := by
  have member : id ∈ tree.childrenOf parent := by rw [split]; simp
  have distinct := sound.nodup parent
  rw [split] at distinct
  have absent : id ∉ before := by
    intro again
    exact List.disjoint_of_nodup_append distinct again (List.mem_cons_self ..)
  simp only [nextSibling, sound.parentOf_of_mem member, Option.bind_some, split]
  exact following_append absent rest

theorem empty : Tree.empty.WellFormed where
  linked parent child := by simp [Tree.empty, parentOf, childrenOf, node?]
  nodup id := by simp [Tree.empty, childrenOf, node?]
  loose id kind := by simp [Tree.empty, parentOf, node?]
  ranked := ⟨fun _ => 0, by simp [Tree.empty, parentOf, node?]⟩
  named id kind found := by simp [Tree.empty, kindOf, node?] at found

theorem create (sound : tree.WellFormed) (distinct : kind.attributeNames.Nodup) :
    (tree.create kind).2.WellFormed where
  linked parent child := by simpa using sound.linked parent child
  nodup id := by simpa using sound.nodup id
  loose id fragment := by
    rw [kindOf_create] at fragment
    rw [parentOf_create]
    split at fragment
    · rename_i same
      exact parentOf_of_size_le (same ▸ Nat.le_refl _)
    · exact sound.loose id fragment
  ranked := by simpa using sound.ranked
  named id other found := by
    rw [kindOf_create] at found
    split at found
    · cases found
      exact distinct
    · exact sound.named id other found

/-- A node may become something else as long as it is no fragment before or after. -/
theorem setKind (sound : tree.WellFormed) (inside : id < tree.size)
    (distinct : kind.attributeNames.Nodup) (solid : kind ≠ .fragment) :
    (tree.setKind id kind).WellFormed where
  linked parent child := by simpa using sound.linked parent child
  nodup other := by simpa using sound.nodup other
  loose other fragment := by
    rw [kindOf_setKind inside] at fragment
    rw [parentOf_setKind]
    split at fragment
    · exact absurd (Option.some.inj fragment) solid
    · exact sound.loose other fragment
  ranked := by simpa using sound.ranked
  named other new found := by
    rw [kindOf_setKind inside] at found
    split at found
    · cases found
      exact distinct
    · exact sound.named other new found

end WellFormed

variable {tree : Tree} {id other parent : NodeId}

@[simp] theorem size_detach : (tree.detach id).size = tree.size := by
  unfold detach
  split <;> simp

@[simp] theorem kindOf_detach : (tree.detach id).kindOf other = tree.kindOf other := by
  unfold detach
  split <;> simp

theorem parentOf_detach :
    (tree.detach id).parentOf other = if other = id then none else tree.parentOf other := by
  unfold detach
  split
  · rename_i above
    rw [parentOf_mapChildren, parentOf_setParent (lt_size_of_parentOf above)]
  · rename_i above
    split
    · rename_i same
      rw [same, above]
    · rfl

theorem childrenOf_detach (sound : tree.WellFormed) :
    (tree.detach id).childrenOf other = (tree.childrenOf other).filter (· ≠ id) := by
  have outside : tree.parentOf id ≠ some other →
      (tree.childrenOf other).filter (· ≠ id) = tree.childrenOf other := by
    intro elsewhere
    rw [List.filter_eq_self]
    intro child member
    have : child ≠ id := fun same => elsewhere (sound.parentOf_of_mem (same ▸ member))
    simpa using this
  unfold detach
  split
  · rename_i parent above
    have inside := sound.lt_size_of_parent above
    rw [childrenOf_mapChildren (by simpa using inside), childrenOf_setParent]
    split
    · rfl
    · rename_i different
      rw [outside]
      rw [above]
      exact fun same => different (Option.some.inj same).symm
  · rename_i above
    exact (outside (by simp [above])).symm

theorem WellFormed.detach (sound : tree.WellFormed) (id : NodeId) : (tree.detach id).WellFormed where
  linked parent child := by
    rw [parentOf_detach, childrenOf_detach sound, List.mem_filter]
    by_cases same : child = id
    · simp [same]
    · simpa [same] using sound.linked parent child
  nodup other := by
    rw [childrenOf_detach sound]
    exact (sound.nodup other).filter _
  loose other fragment := by
    rw [kindOf_detach] at fragment
    rw [parentOf_detach, sound.loose other fragment, ite_self]
  ranked := by
    obtain ⟨rank, ranked⟩ := sound.ranked
    refine ⟨rank, fun parent child above => ?_⟩
    rw [parentOf_detach] at above
    split at above
    · exact absurd above (by simp)
    · exact ranked parent child above
  named other kind found := sound.named other kind (by rwa [kindOf_detach] at found)

variable {ids : List NodeId}

@[simp] theorem detachAll_nil : tree.detachAll [] = tree := rfl

@[simp] theorem detachAll_cons : tree.detachAll (id :: ids) = (tree.detach id).detachAll ids := rfl

theorem detachAll_append {others : List NodeId} :
    tree.detachAll (ids ++ others) = (tree.detachAll ids).detachAll others := List.foldl_append

@[simp] theorem size_detachAll : (tree.detachAll ids).size = tree.size := by
  induction ids generalizing tree with
  | nil => rfl
  | cons id ids ih => rw [detachAll_cons, ih, size_detach]

@[simp] theorem kindOf_detachAll : (tree.detachAll ids).kindOf other = tree.kindOf other := by
  induction ids generalizing tree with
  | nil => rfl
  | cons id ids ih => rw [detachAll_cons, ih, kindOf_detach]

theorem parentOf_detachAll :
    (tree.detachAll ids).parentOf other = if other ∈ ids then none else tree.parentOf other := by
  induction ids generalizing tree with
  | nil => simp
  | cons id ids ih =>
      rw [detachAll_cons, ih, parentOf_detach]
      by_cases same : other = id <;> simp [same]

theorem WellFormed.detachAll (sound : tree.WellFormed) (ids : List NodeId) :
    (tree.detachAll ids).WellFormed := by
  induction ids generalizing tree with
  | nil => exact sound
  | cons id ids ih => exact ih (sound.detach id)

theorem childrenOf_detachAll (sound : tree.WellFormed) :
    (tree.detachAll ids).childrenOf other = (tree.childrenOf other).filter (· ∉ ids) := by
  induction ids generalizing tree with
  | nil => simp
  | cons id ids ih =>
      rw [detachAll_cons, ih (sound.detach id), childrenOf_detach sound, List.filter_filter]
      congr 1
      funext child
      simp [Bool.and_comm]

end Tree

end DomParts
