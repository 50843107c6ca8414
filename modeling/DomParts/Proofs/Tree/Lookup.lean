import DomParts.Tree.Edit

/-! # Reading a changed tree

What the lookups of a tree say after each of its primitive changes.
-/

namespace DomParts.Tree

variable {tree : Tree} {id other parent : NodeId} {kind : Kind}

@[simp] theorem size_update (change : Node → Node) : (tree.update id change).size = tree.size := by
  simp [size, update]

@[simp] theorem size_setKind : (tree.setKind id kind).size = tree.size := size_update _

@[simp] theorem size_setParent (above : Option NodeId) : (tree.setParent id above).size = tree.size :=
  size_update _

@[simp] theorem size_mapChildren (change : List NodeId → List NodeId) :
    (tree.mapChildren id change).size = tree.size := size_update _

theorem node?_update (change : Node → Node) :
    (tree.update id change).node? other =
      if other = id then (tree.node? other).map change else tree.node? other := by
  simp only [node?, update, Array.getElem?_modify]
  split <;> split <;> simp_all

theorem node?_create (kind : Kind) :
    (tree.create kind).2.node? id = if id = tree.size then some ⟨kind, none, []⟩ else tree.node? id := by
  simp only [node?, create, size, Array.getElem?_push]
  rfl

@[simp] theorem size_create : (tree.create kind).2.size = tree.size + 1 := by
  simp [size, create]

@[simp] theorem fst_create : (tree.create kind).1 = tree.size := rfl

theorem node?_isSome_iff : (tree.node? id).isSome ↔ id < tree.size := by
  simp [node?, size]

theorem lt_size_of_node? {node : Node} (found : tree.node? id = some node) : id < tree.size :=
  node?_isSome_iff.1 (by simp [found])

theorem exists_kind_of_lt (inside : id < tree.size) : ∃ kind, tree.kindOf id = some kind := by
  obtain ⟨node, found⟩ := Option.isSome_iff_exists.1 (node?_isSome_iff.2 inside)
  exact ⟨node.kind, by simp [kindOf, found]⟩

theorem lt_size_of_kindOf (found : tree.kindOf id = some kind) : id < tree.size := by
  obtain ⟨node, found, -⟩ := Option.map_eq_some_iff.1 found
  exact lt_size_of_node? found

theorem isMarker_iff : tree.isMarker id = true ↔ tree.kindOf id = some .marker := by
  unfold isMarker
  cases tree.kindOf id with
  | none => simp
  | some kind => cases kind <;> simp [Kind.isMarker, Kind.marker]

theorem lt_size_of_parentOf (found : tree.parentOf id = some parent) : id < tree.size := by
  obtain ⟨node, found, -⟩ := Option.bind_eq_some_iff.1 found
  exact lt_size_of_node? found

theorem lt_size_of_mem_childrenOf (member : other ∈ tree.childrenOf id) : id < tree.size := by
  cases found : tree.node? id with
  | none => simp [childrenOf, found] at member
  | some node => exact lt_size_of_node? found

theorem lt_size_of_nextSibling {next : NodeId} (found : tree.nextSibling id = some next) : id < tree.size := by
  obtain ⟨parent, above, -⟩ := Option.bind_eq_some_iff.1 found
  exact lt_size_of_parentOf above

theorem lt_size_of_attribute? {name value : String} (found : tree.attribute? id name = some value) : id < tree.size := by
  obtain ⟨kind, standing, -⟩ := Option.bind_eq_some_iff.1 found
  exact lt_size_of_kindOf standing

theorem childrenOf_of_size_le (beyond : tree.size ≤ id) : tree.childrenOf id = [] := by
  rw [List.eq_nil_iff_forall_not_mem]
  intro child member
  exact absurd (lt_size_of_mem_childrenOf member) (Nat.not_lt.2 beyond)

theorem parentOf_of_size_le (beyond : tree.size ≤ id) : tree.parentOf id = none := by
  cases found : tree.parentOf id with
  | none => rfl
  | some parent => exact absurd (lt_size_of_parentOf found) (Nat.not_lt.2 beyond)

theorem kindOf_of_size_le (beyond : tree.size ≤ id) : tree.kindOf id = none := by
  cases found : tree.kindOf id with
  | none => rfl
  | some kind => exact absurd (lt_size_of_kindOf found) (Nat.not_lt.2 beyond)

theorem node?_ext {changed : Tree} (kinds : changed.kindOf id = tree.kindOf id)
    (parents : changed.parentOf id = tree.parentOf id)
    (children : changed.childrenOf id = tree.childrenOf id) : changed.node? id = tree.node? id := by
  simp only [kindOf, parentOf, childrenOf] at kinds parents children
  cases found : tree.node? id with
  | none => simpa [found] using kinds
  | some node =>
      cases new : changed.node? id with
      | none => simp [found, new] at kinds
      | some node' =>
          cases node; cases node'
          simp_all

@[simp] theorem kindOf_setParent (above : Option NodeId) :
    (tree.setParent id above).kindOf other = tree.kindOf other := by
  simp only [kindOf, setParent, node?_update]
  split <;> simp [Option.map_map, Function.comp_def]

@[simp] theorem childrenOf_setParent (above : Option NodeId) :
    (tree.setParent id above).childrenOf other = tree.childrenOf other := by
  simp only [childrenOf, setParent, node?_update]
  split <;> simp [Option.map_map, Function.comp_def]

theorem parentOf_setParent (inside : id < tree.size) (above : Option NodeId) :
    (tree.setParent id above).parentOf other = if other = id then above else tree.parentOf other := by
  simp only [parentOf, setParent, node?_update]
  split
  · rename_i same
    subst same
    obtain ⟨node, found⟩ := Option.isSome_iff_exists.1 (node?_isSome_iff.2 inside)
    simp [found]
  · rfl

@[simp] theorem kindOf_mapChildren (change : List NodeId → List NodeId) :
    (tree.mapChildren id change).kindOf other = tree.kindOf other := by
  simp only [kindOf, mapChildren, node?_update]
  split <;> simp [Option.map_map, Function.comp_def]

@[simp] theorem parentOf_mapChildren (change : List NodeId → List NodeId) :
    (tree.mapChildren id change).parentOf other = tree.parentOf other := by
  simp only [parentOf, mapChildren, node?_update]
  split
  · cases tree.node? other <;> rfl
  · rfl

theorem childrenOf_mapChildren (inside : id < tree.size) (change : List NodeId → List NodeId) :
    (tree.mapChildren id change).childrenOf other =
      if other = id then change (tree.childrenOf other) else tree.childrenOf other := by
  simp only [childrenOf, mapChildren, node?_update]
  split
  · rename_i same
    subst same
    obtain ⟨node, found⟩ := Option.isSome_iff_exists.1 (node?_isSome_iff.2 inside)
    simp [found]
  · rfl

@[simp] theorem parentOf_setKind : (tree.setKind id kind).parentOf other = tree.parentOf other := by
  simp only [parentOf, setKind, node?_update]
  split
  · cases tree.node? other <;> rfl
  · rfl

@[simp] theorem childrenOf_setKind :
    (tree.setKind id kind).childrenOf other = tree.childrenOf other := by
  simp only [childrenOf, setKind, node?_update]
  split <;> simp [Option.map_map, Function.comp_def]

theorem kindOf_setKind (inside : id < tree.size) :
    (tree.setKind id kind).kindOf other = if other = id then some kind else tree.kindOf other := by
  simp only [kindOf, setKind, node?_update]
  split
  · rename_i same
    subst same
    obtain ⟨node, found⟩ := Option.isSome_iff_exists.1 (node?_isSome_iff.2 inside)
    simp [found]
  · rfl

theorem kindOf_create :
    (tree.create kind).2.kindOf id = if id = tree.size then some kind else tree.kindOf id := by
  simp only [kindOf, node?_create]
  split <;> rfl

@[simp] theorem parentOf_create : (tree.create kind).2.parentOf id = tree.parentOf id := by
  by_cases same : id = tree.size
  · subst same
    rw [parentOf_of_size_le (Nat.le_refl _)]
    simp [parentOf, node?_create]
  · simp [parentOf, node?_create, same]

@[simp] theorem childrenOf_create : (tree.create kind).2.childrenOf id = tree.childrenOf id := by
  by_cases same : id = tree.size
  · subst same
    rw [childrenOf_of_size_le (Nat.le_refl _)]
    simp [childrenOf, node?_create]
  · simp [childrenOf, node?_create, same]

theorem following_append {before : List NodeId} (absent : id ∉ before) (rest : List NodeId) :
    following id (before ++ id :: rest) = rest.head? := by
  induction before with
  | nil => simp [following]
  | cons first before ih =>
      simp only [List.mem_cons, not_or] at absent
      simp only [List.cons_append, following, if_neg (Ne.symm absent.1)]
      exact ih absent.2

end DomParts.Tree
