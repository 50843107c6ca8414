import DomParts.Proofs.Tree.Clone

/-! # Inserting markers

A part begins as two new markers that are put into a container one after the other, before the same
node. If there is a marker already, a new one is put behind it.
-/

namespace DomParts.Tree

variable {tree changed : Tree} {container : NodeId} {left right : List NodeId}

structure Paired (tree changed : Tree) (container : NodeId) (left right : List NodeId) : Prop where
  sound : changed.WellFormed
  size : changed.size = tree.size + 2
  start : changed.kindOf tree.size = some .marker
  stop : changed.kindOf (tree.size + 1) = some .marker
  kindOf : ∀ id, tree.size > id → changed.kindOf id = tree.kindOf id
  parentOf : ∀ id, tree.size > id → changed.parentOf id = tree.parentOf id
  children : changed.childrenOf container = left ++ tree.size :: (tree.size + 1) :: right
  childrenOf : ∀ id, id ≠ container → changed.childrenOf id = tree.childrenOf id

theorem insertBefore_alone (id : NodeId) (sound : tree.WellFormed) (room : tree.size > container)
    (listed : tree.childrenOf container = left ++ right) (alone : tree.parentOf id = none)
    (bare : tree.childrenOf id = []) {kind : Kind} (standing : tree.kindOf id = some kind)
    (solid : kind ≠ .fragment) (other : id ≠ container) :
    ∃ changed, tree.insertBefore container id right.head? = .ok changed ∧
      tree.Inserted changed container [id] right.head? ∧
      changed.childrenOf container = left ++ id :: right ∧
      ∀ other, other ≠ container → changed.childrenOf other = tree.childrenOf other := by
  have unlisted : ∀ parent, (tree.childrenOf parent).filter (· ∉ [id]) = tree.childrenOf parent := by
    intro parent
    rw [List.filter_eq_self]
    intro child member
    have : child ≠ id := by
      rintro rfl
      rw [sound.parentOf_of_mem member] at alone
      cases alone
    simpa using this
  have anchors : tree.Anchors container right.head? := by
    intro before same
    rw [listed]
    exact List.mem_append_right _ (List.mem_of_head? same)
  have apart : right.head? ≠ some id := by
    intro same
    have := sound.parentOf_of_mem (anchors id same)
    rw [alone] at this
    cases this
  have closed : tree.Upward (· ≠ id) := by
    rintro child parent - link rfl
    have := sound.mem_childrenOf link
    rw [bare] at this
    cases this
  obtain ⟨changed, done, inserted⟩ := insertBefore_single sound room (lt_size_of_kindOf standing)
    (by simpa [standing] using solid) anchors apart ⟨_, closed, other.symm, fun again => again rfl⟩
  refine ⟨changed, done, inserted, ?_, fun parent elsewhere => ?_⟩
  · have distinct := sound.nodup container
    rw [listed] at distinct
    rw [inserted.childrenOf, if_pos rfl, unlisted, listed, splice_head distinct]
    simp
  · rw [inserted.childrenOf, if_neg elsewhere, unlisted]

/-- A tree with a new node in it that has no children. -/
structure Joined (tree changed : Tree) (kind : Kind) (container : NodeId) (left right : List NodeId) : Prop where
  sound : changed.WellFormed
  size : changed.size = tree.size + 1
  kind : changed.kindOf tree.size = some kind
  kindOf : ∀ id, tree.size > id → changed.kindOf id = tree.kindOf id
  parentOf : ∀ id, tree.size > id → changed.parentOf id = tree.parentOf id
  children : changed.childrenOf container = left ++ tree.size :: right
  childrenOf : ∀ id, id ≠ container → changed.childrenOf id = tree.childrenOf id

theorem leaf_inserted {kind : Kind} (sound : tree.WellFormed) (room : tree.size > container)
    (listed : tree.childrenOf container = left ++ right) (named : kind.attributeNames.Nodup)
    (solid : kind ≠ .fragment) :
    ∃ changed, (tree.create kind).2.insertBefore container tree.size right.head? = .ok changed ∧
      tree.Joined changed kind container left right := by
  have created := sound.create named
  have fresh : tree.size ≠ container := Nat.ne_of_gt room
  have standing : (tree.create kind).2.kindOf tree.size = some kind := by simp [kindOf_create]
  obtain ⟨changed, done, inserted, children, elsewhere⟩ := insertBefore_alone tree.size created
    (by rw [size_create]; exact Nat.lt_succ_of_lt room) (by simpa using listed) (by simp [parentOf_of_size_le])
    (by simp [childrenOf_of_size_le]) standing solid fresh
  refine ⟨changed, done, inserted.sound, by simp [inserted.size], ?_, ?_, ?_, children, ?_⟩
  · simp [inserted.kindOf, kindOf_create]
  · intro id inside
    rw [inserted.kindOf, kindOf_create, if_neg (Nat.ne_of_lt inside)]
  · intro id inside
    have old : id ∉ [tree.size] := by simpa using Nat.ne_of_lt inside
    rw [inserted.parentOf, if_neg old]
    simp
  · intro id different
    rw [elsewhere id different]
    simp

theorem marker_inserted (sound : tree.WellFormed) (room : tree.size > container)
    (listed : tree.childrenOf container = left ++ right) :
    ∃ changed, (tree.create .marker).2.insertBefore container tree.size right.head? = .ok changed ∧
      tree.Joined changed .marker container left right :=
  leaf_inserted sound room listed List.nodup_nil nofun

theorem pair_inserted (sound : tree.WellFormed) (room : tree.size > container)
    (listed : tree.childrenOf container = left ++ right) :
    ∃ middle changed,
      ((tree.create .marker).2.create .marker).2.insertBefore container tree.size right.head? =
        .ok middle ∧
      middle.insertBefore container (tree.size + 1) right.head? = .ok changed ∧
      tree.Paired changed container left right := by
  have named : Kind.marker.attributeNames.Nodup := by simp [Kind.marker, Kind.attributeNames]
  have solid : Kind.marker ≠ .fragment := by simp [Kind.marker]
  have created := (sound.create named).create named
  have first : tree.size ≠ container := Nat.ne_of_gt room
  have second : tree.size + 1 ≠ container := fun same => by
    have : container < tree.size := room
    omega
  have apart : tree.size ≠ tree.size + 1 := by omega
  obtain ⟨middle, done, one, children, elsewhere⟩ := insertBefore_alone tree.size created
    (by simp; omega) (by simpa using listed) (by simp [parentOf_of_size_le]) (by simp [childrenOf_of_size_le])
    (by simp [kindOf_create]) solid first
  have relisted : middle.childrenOf container = (left ++ [tree.size]) ++ right := by simp [children]
  obtain ⟨changed, finished, two, last, others⟩ := insertBefore_alone (tree.size + 1) one.sound
    (by simp [one.size]; omega) relisted (by simp [one.parentOf, parentOf_of_size_le])
    (by simp [elsewhere _ second, childrenOf_of_size_le]) (by simp [one.kindOf, kindOf_create]) solid second
  refine ⟨middle, changed, done, finished, two.sound, by simp [two.size, one.size], ?start, ?stop, ?kind, ?parent,
    ?children, ?elsewhere⟩
  case start => simp [two.kindOf, one.kindOf, kindOf_create]
  case stop => simp [two.kindOf, one.kindOf, kindOf_create]
  case kind =>
    intro id inside
    have notFirst : id ≠ tree.size := Nat.ne_of_lt inside
    have notSecond : id ≠ (tree.create .marker).2.size := by
      rw [size_create]
      exact Nat.ne_of_lt (Nat.lt_succ_of_lt inside)
    rw [two.kindOf, one.kindOf, kindOf_create, kindOf_create, if_neg notSecond, if_neg notFirst]
  case parent =>
    intro id inside
    have notFirst : id ∉ [tree.size] := by simpa using Nat.ne_of_lt inside
    have notSecond : id ∉ [tree.size + 1] := by simpa using Nat.ne_of_lt (Nat.lt_succ_of_lt inside)
    rw [two.parentOf, if_neg notSecond, one.parentOf, if_neg notFirst]
    simp
  case children => simpa using last
  case elsewhere =>
    intro id different
    rw [others id different, elsewhere id different]
    simp

end DomParts.Tree
