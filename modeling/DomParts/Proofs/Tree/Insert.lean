import DomParts.Proofs.Tree.WellFormed

/-! # Inserting nodes

What an insertion does to every node of a tree, and why it is not refused. Whether a node would come to
lie below itself is settled by a set of nodes that no way up leaves: the parent is in it and the
nodes that are moved are not.
-/

namespace DomParts.Tree

variable {tree changed : Tree} {id other parent : NodeId} {moved : List NodeId}
  {before : Option NodeId} {upward : NodeId → Prop}

/-- No way up leaves the set. -/
def Upward (tree : Tree) (upward : NodeId → Prop) : Prop :=
  ∀ child parent, upward child → tree.parentOf child = some parent → upward parent

theorem climbsTo_eq_false (closed : tree.Upward upward) (outside : ¬ upward other) (fuel : Nat)
    (inside : upward id) : tree.climbsTo other fuel id = false := by
  induction fuel generalizing id with
  | zero => rfl
  | succ fuel ih =>
      have different : id ≠ other := fun same => outside (same ▸ inside)
      simp only [climbsTo, if_neg different]
      cases above : tree.parentOf id with
      | none => rfl
      | some parent => exact ih (closed _ _ inside above)

theorem isWithin_eq_false (closed : tree.Upward upward) (outside : ¬ upward other)
    (inside : upward id) : tree.isWithin other id = false :=
  climbsTo_eq_false closed outside _ inside

@[simp] theorem size_setParents (ids : List NodeId) : (tree.setParents parent ids).size = tree.size := by
  induction ids generalizing tree with
  | nil => rfl
  | cons first ids ih => exact (@ih (tree.setParent first (some parent))).trans (size_setParent _)

@[simp] theorem kindOf_setParents (ids : List NodeId) :
    (tree.setParents parent ids).kindOf other = tree.kindOf other := by
  induction ids generalizing tree with
  | nil => rfl
  | cons first ids ih =>
      exact (@ih (tree.setParent first (some parent))).trans (kindOf_setParent _)

@[simp] theorem childrenOf_setParents (ids : List NodeId) :
    (tree.setParents parent ids).childrenOf other = tree.childrenOf other := by
  induction ids generalizing tree with
  | nil => rfl
  | cons first ids ih =>
      exact (@ih (tree.setParent first (some parent))).trans (childrenOf_setParent _)

theorem parentOf_setParents {ids : List NodeId} (present : ∀ id ∈ ids, id < tree.size) :
    (tree.setParents parent ids).parentOf other =
      if other ∈ ids then some parent else tree.parentOf other := by
  induction ids generalizing tree with
  | nil => rfl
  | cons first ids ih =>
      have rest : ∀ id ∈ ids, id < (tree.setParent first (some parent)).size := by
        intro id member
        rw [size_setParent]
        exact present id (List.mem_cons_of_mem _ member)
      refine (ih rest).trans ?_
      rw [parentOf_setParent (present first (List.mem_cons_self ..))]
      by_cases same : other = first <;> simp [same]

theorem splice_some {before : NodeId} {front rest : List NodeId} (absent : before ∉ front) :
    splice (some before) moved (front ++ before :: rest) = front ++ moved ++ before :: rest := by
  have keep : ∀ id ∈ front, decide (id ≠ before) = true := by
    intro id member
    simpa using fun same : id = before => absent (same ▸ member)
  have take : (front ++ before :: rest).takeWhile (· ≠ before) = front := by
    rw [List.takeWhile_append_of_pos keep, List.takeWhile_cons_of_neg (by simp), List.append_nil]
  have drop : (front ++ before :: rest).dropWhile (· ≠ before) = before :: rest := by
    rw [List.dropWhile_append_of_pos keep, List.dropWhile_cons_of_neg (by simp)]
  simp only [splice, take, drop]

theorem splice_head {left right : List NodeId} (distinct : (left ++ right).Nodup) :
    splice right.head? moved (left ++ right) = left ++ moved ++ right := by
  cases right with
  | nil => simp [splice]
  | cons first right =>
      have absent : first ∉ left := fun member =>
        List.disjoint_of_nodup_append distinct member (List.mem_cons_self ..)
      exact splice_some absent

@[simp] theorem splice_nil : splice before moved [] = moved := by
  cases before <;> simp [splice]

@[simp] theorem splice_cons_self (anchor : NodeId) (rest : List NodeId) :
    splice (some anchor) moved (anchor :: rest) = moved ++ anchor :: rest :=
  splice_some (List.not_mem_nil : anchor ∉ [])

theorem splice_cons (onward : before ≠ some id) (rest : List NodeId) :
    splice before moved (id :: rest) = id :: splice before moved rest := by
  cases before with
  | none => rfl
  | some anchor =>
      have other : id ≠ anchor := fun same => onward (same ▸ rfl)
      simp [splice, other]

theorem splice_append {front : List NodeId} (onward : ∀ id ∈ front, before ≠ some id) (rest : List NodeId) :
    splice before moved (front ++ rest) = front ++ splice before moved rest := by
  induction front with
  | nil => rfl
  | cons first front ih =>
      rw [List.forall_mem_cons] at onward
      rw [List.cons_append, splice_cons onward.1, ih onward.2, List.cons_append]

/-- Siblings that go do not matter for the place of those that come, as long as the place itself stays. -/
theorem filter_splice {keep : NodeId → Bool} (stays : ∀ anchor, before = some anchor → keep anchor) (siblings : List NodeId) :
    (splice before moved siblings).filter keep = splice before (moved.filter keep) (siblings.filter keep) := by
  induction siblings with
  | nil => simp
  | cons first siblings ih =>
      by_cases here : before = some first
      · subst here
        rw [splice_cons_self, List.filter_append, List.filter_cons_of_pos (stays first rfl), splice_cons_self]
      · rw [splice_cons here]
        by_cases kept : keep first
        · rw [List.filter_cons_of_pos kept, List.filter_cons_of_pos kept, splice_cons here, ih]
        · rw [List.filter_cons_of_neg kept, List.filter_cons_of_neg kept, ih]

/-- What is put into the same place later stands behind what was put there before. -/
theorem splice_splice {more : List NodeId} (onward : ∀ id ∈ moved, before ≠ some id) (siblings : List NodeId) :
    splice before more (splice before moved siblings) = splice before (moved ++ more) siblings := by
  induction siblings with
  | nil => rw [splice_nil, splice_nil, ← List.append_nil moved, splice_append onward, splice_nil, List.append_nil]
  | cons first siblings ih =>
      by_cases here : before = some first
      · subst here
        rw [splice_cons_self, splice_append onward, splice_cons_self, splice_cons_self, List.append_assoc]
      · rw [splice_cons here, splice_cons here, splice_cons here, ih]

theorem filter_run {front run rest : List NodeId} (distinct : (front ++ run ++ rest).Nodup) :
    (front ++ run ++ rest).filter (· ∉ run) = front ++ rest := by
  have apart := List.nodup_append.1 distinct
  have first : ∀ id ∈ front, decide (id ∉ run) = true := by
    intro id member
    simpa using fun among => (List.disjoint_of_nodup_append apart.1) member among
  have last : ∀ id ∈ rest, decide (id ∉ run) = true := by
    intro id member
    simpa using fun among => (List.disjoint_of_nodup_append distinct)
      (List.mem_append_right _ among) member
  rw [List.filter_append, List.filter_append, List.filter_eq_self.2 first, List.filter_eq_self.2 last,
    List.filter_eq_nil_iff.2 (by simp), List.append_nil]

theorem splice_perm (before : Option NodeId) (moved siblings : List NodeId) :
    (splice before moved siblings).Perm (moved ++ siblings) := by
  cases before with
  | none => exact List.perm_append_comm
  | some before =>
      simp only [splice]
      rw [List.append_assoc]
      refine (List.perm_append_comm_assoc _ _ _).trans (List.Perm.append_left _ ?_)
      rw [List.takeWhile_append_dropWhile]

/-- What moving nodes below `parent` does to a tree. -/
structure Inserted (tree changed : Tree) (parent : NodeId) (moved : List NodeId)
    (before : Option NodeId) : Prop where
  sound : changed.WellFormed
  size : changed.size = tree.size
  kindOf : ∀ id, changed.kindOf id = tree.kindOf id
  parentOf : ∀ id, changed.parentOf id = if id ∈ moved then some parent else tree.parentOf id
  childrenOf : ∀ id, changed.childrenOf id =
    if id = parent then splice before moved ((tree.childrenOf id).filter (· ∉ moved))
    else (tree.childrenOf id).filter (· ∉ moved)

/-- Nodes that may be moved below `parent`. -/
structure Movable (tree : Tree) (parent : NodeId) (moved : List NodeId) : Prop where
  room : parent < tree.size
  present : ∀ id ∈ moved, id < tree.size
  distinct : moved.Nodup
  solid : ∀ id ∈ moved, tree.kindOf id ≠ some .fragment
  apart : ∃ upward, tree.Upward upward ∧ upward parent ∧ ∀ id ∈ moved, ¬ upward id

theorem place_inserted (sound : tree.WellFormed) (movable : tree.Movable parent moved)
    (before : Option NodeId) : tree.Inserted (tree.place parent moved before) parent moved before := by
  have present : ∀ id ∈ moved, id < (tree.detachAll moved).size := by
    simpa using movable.present
  have parents : ∀ id, (tree.place parent moved before).parentOf id =
      if id ∈ moved then some parent else tree.parentOf id := by
    intro id
    simp only [place, parentOf_mapChildren, parentOf_setParents present, parentOf_detachAll]
    split <;> rfl
  have children : ∀ id, (tree.place parent moved before).childrenOf id =
      if id = parent then splice before moved ((tree.childrenOf id).filter (· ∉ moved))
      else (tree.childrenOf id).filter (· ∉ moved) := by
    intro id
    simp only [place]
    rw [childrenOf_mapChildren (by simpa using movable.room), childrenOf_setParents,
      childrenOf_detachAll sound]
  have kinds : ∀ id, (tree.place parent moved before).kindOf id = tree.kindOf id := by
    simp [place]
  refine ⟨⟨?linked, ?nodup, ?loose, ?ranked, ?named⟩, by simp [place], kinds, parents, children⟩
  case linked =>
    intro above child
    rw [parents, children]
    by_cases same : above = parent
    · rw [if_pos same, (splice_perm ..).mem_iff, List.mem_append, List.mem_filter]
      by_cases member : child ∈ moved
      · simp [member, same]
      · simpa [member] using sound.linked above child
    · rw [if_neg same, List.mem_filter]
      by_cases member : child ∈ moved
      · simpa [member] using fun equal : parent = above => same equal.symm
      · simpa [member] using sound.linked above child
  case nodup =>
    intro id
    have rest := (sound.nodup id).filter (· ∉ moved)
    rw [children]
    split
    · rw [(splice_perm ..).nodup_iff]
      refine movable.distinct.append rest ?_
      intro child member again
      simp [member] at again
    · exact rest
  case loose =>
    intro id fragment
    rw [kinds] at fragment
    rw [parents, if_neg (fun member => movable.solid id member fragment)]
    exact sound.loose id fragment
  case ranked =>
    obtain ⟨rank, ranked⟩ := sound.ranked
    obtain ⟨upward, closed, above, below⟩ := movable.apart
    classical
    -- Whatever is not above the new parent is lifted over it.
    refine ⟨fun id => if upward id then rank id else rank id + rank parent + 1, fun up down link => ?_⟩
    rw [parents] at link
    split at link
    · rename_i member
      cases link
      simp only [if_pos above, if_neg (below down member)]
      omega
    · have lower := ranked up down link
      by_cases inside : upward down
      · simpa only [if_pos inside, if_pos (closed down up inside link)] using lower
      · simp only [if_neg inside]
        split <;> omega
  case named =>
    intro id kind found
    rw [kinds] at found
    exact sound.named id kind found

/-- Before which child of `parent` something can be inserted. -/
def Anchors (tree : Tree) (parent : NodeId) (before : Option NodeId) : Prop :=
  ∀ id, before = some id → id ∈ tree.childrenOf parent

theorem insertBefore_eq (sound : tree.WellFormed) (room : parent < tree.size)
    (present : id < tree.size) (anchored : tree.Anchors parent before)
    (apart : tree.isWithin id parent = false) :
    tree.insertBefore parent id before = .ok (tree.place parent (tree.payload id)
      (if before = some id then tree.nextSibling id else before)) := by
  have noFault : before.bind (tree.referenceFault? parent) = none := by
    cases before with
    | none => rfl
    | some before =>
        have member := anchored before rfl
        have inside := sound.lt_size_of_mem member
        simp [referenceFault?, has, inside, sound.parentOf_of_mem member]
  have none : tree.insertFault? parent id before = none := by
    simp [insertFault?, noFault, apart, has, room, present]
  simp only [insertBefore, none]

theorem insertBefore_single (sound : tree.WellFormed) (room : parent < tree.size)
    (present : id < tree.size) (solid : tree.kindOf id ≠ some .fragment)
    (anchored : tree.Anchors parent before) (other : before ≠ some id)
    (apart : ∃ upward, tree.Upward upward ∧ upward parent ∧ ¬ upward id) :
    ∃ changed, tree.insertBefore parent id before = .ok changed ∧
      tree.Inserted changed parent [id] before := by
  obtain ⟨upward, closed, above, below⟩ := apart
  refine ⟨_, insertBefore_eq sound room present anchored (isWithin_eq_false closed below above), ?_⟩
  rw [if_neg other, payload, if_neg solid]
  exact place_inserted sound
    ⟨room, by simpa using present, by simp, by simpa using solid, upward, closed, above, by simpa using below⟩ _

theorem insertBefore_fragment (sound : tree.WellFormed) (room : parent < tree.size)
    (fragment : tree.kindOf id = some .fragment) (anchored : tree.Anchors parent before)
    (apart : ∃ upward, tree.Upward upward ∧ upward parent ∧ ¬ upward id ∧
      ∀ child ∈ tree.childrenOf id, ¬ upward child) :
    ∃ changed, tree.insertBefore parent id before = .ok changed ∧
      tree.Inserted changed parent (tree.childrenOf id) before := by
  obtain ⟨upward, closed, above, below, belows⟩ := apart
  have other : before ≠ some id := by
    intro same
    have := sound.parentOf_of_mem (anchored id same)
    rw [sound.loose id fragment] at this
    cases this
  refine ⟨_, insertBefore_eq sound room (lt_size_of_kindOf fragment) anchored
    (isWithin_eq_false closed below above), ?_⟩
  rw [if_neg other, payload, if_pos fragment]
  refine place_inserted sound ⟨room, fun _ => sound.lt_size_of_mem, sound.nodup id, ?_,
    upward, closed, above, belows⟩ _
  intro child member kind
  have := sound.parentOf_of_mem member
  rw [sound.loose child kind] at this
  cases this

theorem removeChild_eq (sound : tree.WellFormed) (member : id ∈ tree.childrenOf parent) :
    tree.removeChild parent id = .ok (tree.detach id) := by
  have inside := sound.lt_size_of_mem member
  simp [removeChild, has, inside, sound.parentOf_of_mem member]

end DomParts.Tree
