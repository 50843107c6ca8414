import DomParts.Proofs.Tree.Ascent

/-! # When an insertion goes through

An insertion is refused for what the tree looks like before it, and then nothing is done. If it goes
through, what comes along leaves its old place and stands in the new one in one piece, and all other
nodes stay as they are.
-/

namespace DomParts.Tree

variable {tree changed : Tree} {id parent : NodeId} {before : Option NodeId}

/-- `id` can be inserted into `parent` before `before`: the nodes are there, the place is in `parent`, and
    `parent` neither is `id` nor lies below it. -/
structure Admits (tree : Tree) (parent id : NodeId) (before : Option NodeId) : Prop where
  room : parent < tree.size
  present : id < tree.size
  anchored : tree.Anchors parent before
  apart : ¬ tree.Ascends parent id

/-- What an insertion does to a tree. What comes along is the node itself, or the children of a
    fragment. -/
structure Placed (tree changed : Tree) (parent id : NodeId) (before : Option NodeId) : Prop where
  sound : changed.WellFormed
  size : changed.size = tree.size
  kindOf : ∀ other, changed.kindOf other = tree.kindOf other
  parentOf : ∀ other, changed.parentOf other = if other ∈ tree.payload id then some parent else tree.parentOf other
  /-- Other nodes lose the children that come along. -/
  left : ∀ other, other ≠ parent → changed.childrenOf other = (tree.childrenOf other).filter (· ∉ tree.payload id)
  /-- A fragment is empty afterwards. -/
  emptied : tree.kindOf id = some .fragment → changed.childrenOf id = []
  /-- Without a place to go to, it goes behind all other children. -/
  last : before = none →
    changed.childrenOf parent = (tree.childrenOf parent).filter (· ∉ tree.payload id) ++ tree.payload id
  /-- It goes right before `before`, whatever of it was a child already. -/
  ahead : ∀ anchor front rest, before = some anchor → anchor ≠ id →
    tree.childrenOf parent = front ++ anchor :: rest → changed.childrenOf parent =
      front.filter (· ∉ tree.payload id) ++ tree.payload id ++ anchor :: rest.filter (· ∉ tree.payload id)
  /-- Before itself, a node stays where it is. -/
  still : before = some id → changed.childrenOf parent = tree.childrenOf parent

theorem payload_single (solid : tree.kindOf id ≠ some .fragment) : tree.payload id = [id] := if_neg solid

theorem payload_fragment (fragment : tree.kindOf id = some .fragment) : tree.payload id = tree.childrenOf id :=
  if_pos fragment

namespace WellFormed

variable (sound : tree.WellFormed)
include sound

theorem solid_of_parent (above : tree.parentOf id = some parent) : tree.kindOf id ≠ some .fragment := by
  intro fragment
  rw [sound.loose id fragment] at above
  cases above

theorem referenceFault?_eq_none_iff {anchor : NodeId} :
    tree.referenceFault? parent anchor = none ↔ anchor ∈ tree.childrenOf parent := by
  rw [← sound.linked]
  unfold referenceFault?
  split
  · rename_i missing
    have absent : tree.parentOf anchor = none := parentOf_of_size_le (by simpa [has] using missing)
    simp [absent]
  · split <;> simp_all

theorem anchors_iff : before.bind (tree.referenceFault? parent) = none ↔ tree.Anchors parent before := by
  cases before with
  | none => simp [Anchors]
  | some anchor => simp [Anchors, sound.referenceFault?_eq_none_iff]

theorem insertFault?_eq_none_iff : tree.insertFault? parent id before = none ↔ tree.Admits parent id before := by
  have within : tree.isWithin id parent = true ↔ tree.Ascends parent id := sound.isWithin_iff
  constructor
  · intro free
    unfold insertFault? at free
    split at free
    · cases free
    · rename_i anchored
      split at free
      · cases free
      · rename_i outside
        split at free
        · cases free
        · rename_i room
          split at free
          · cases free
          · rename_i present
            exact ⟨by simpa [has] using room, by simpa [has] using present,
              sound.anchors_iff.1 anchored, fun way => outside (within.2 way)⟩
  · intro admits
    have outside : ¬ tree.isWithin id parent = true := fun inside => admits.apart (within.1 inside)
    simp [insertFault?, sound.anchors_iff.2 admits.anchored, outside, has, admits.room, admits.present]

theorem movable (admits : tree.Admits parent id before) : tree.Movable parent (tree.payload id) := by
  have closed : tree.Upward (tree.Ascends parent) := fun _ _ way link => way.tail link
  by_cases fragment : tree.kindOf id = some .fragment
  · rw [payload_fragment fragment]
    refine ⟨admits.room, fun _ => sound.lt_size_of_mem, sound.nodup id, fun child member => ?_,
      _, closed, .refl, fun child member way => ?_⟩
    · exact sound.solid_of_parent (sound.parentOf_of_mem member)
    · exact admits.apart (way.tail (sound.parentOf_of_mem member))
  · rw [payload_single fragment]
    exact ⟨admits.room, by simpa using admits.present, by simp, by simpa using fragment,
      _, closed, .refl, by simpa using admits.apart⟩

theorem anchor_stays {anchor : NodeId} (admits : tree.Admits parent id before)
    (member : anchor ∈ tree.childrenOf parent) (other : anchor ≠ id) : anchor ∉ tree.payload id := by
  by_cases fragment : tree.kindOf id = some .fragment
  · rw [payload_fragment fragment]
    intro among
    cases sound.unique member among
    exact admits.apart .refl
  · simpa [payload_single fragment] using other

/-- Where what comes along is put, all that it leaves behind taken away before. -/
theorem placed (admits : tree.Admits parent id before) :
    tree.Placed (tree.place parent (tree.payload id) (if before = some id then tree.nextSibling id else before))
      parent id before := by
  have inserted := place_inserted sound (sound.movable admits) (if before = some id then tree.nextSibling id else before)
  refine ⟨inserted.sound, inserted.size, inserted.kindOf, inserted.parentOf, fun other elsewhere => ?_,
    fun fragment => ?_, fun nowhere => ?_, fun anchor front rest place different split => ?_, fun place => ?_⟩
  · rw [inserted.childrenOf, if_neg elsewhere]
  · have elsewhere : id ≠ parent := fun same => admits.apart (same ▸ .refl)
    rw [inserted.childrenOf, if_neg elsewhere, payload_fragment fragment]
    exact List.filter_eq_nil_iff.2 (by simp)
  · have loose : before ≠ some id := by simp [nowhere]
    rw [inserted.childrenOf, if_pos rfl, if_neg loose, nowhere, splice]
  · have loose : before ≠ some id := by simpa [place] using different
    have stays : anchor ∉ tree.payload id := sound.anchor_stays admits (admits.anchored anchor place) different
    have distinct := sound.nodup parent
    rw [split, List.nodup_middle, List.nodup_cons, List.mem_append, not_or] at distinct
    have absent : anchor ∉ front.filter (· ∉ tree.payload id) := fun among => distinct.1.1 (List.mem_of_mem_filter among)
    rw [inserted.childrenOf, if_pos rfl, if_neg loose, place, split, List.filter_append,
      List.filter_cons_of_pos (by simpa using stays), splice_some absent]
  · have member := admits.anchored id place
    have solid := sound.solid_of_parent (sound.parentOf_of_mem member)
    obtain ⟨front, rest, split⟩ := List.append_of_mem member
    have distinct := sound.nodup parent
    rw [split, List.append_cons] at distinct
    have left : (front ++ id :: rest).filter (· ∉ [id]) = front ++ rest := by
      rw [List.append_cons, filter_run distinct]
    have apart : (front ++ rest).Nodup := by
      rw [← filter_run distinct]
      exact distinct.filter _
    rw [inserted.childrenOf, if_pos rfl, if_pos place, payload_single solid, sound.nextSibling_eq split, split, left]
    rw [splice_head apart, List.append_assoc, List.singleton_append]

theorem insertBefore_placed (admits : tree.Admits parent id before) :
    ∃ changed, tree.insertBefore parent id before = .ok changed ∧ tree.Placed changed parent id before := by
  refine ⟨_, ?_, sound.placed admits⟩
  simp only [Tree.insertBefore, sound.insertFault?_eq_none_iff.2 admits]

theorem insertBefore_elsewhere {anchor : NodeId} (known : anchor < tree.size) (elsewhere : anchor ∉ tree.childrenOf parent)
    (id : NodeId) : tree.insertBefore parent id (some anchor) = .error (.notChild anchor parent) := by
  have above : tree.parentOf anchor ≠ some parent := fun link => elsewhere (sound.mem_childrenOf link)
  simp [Tree.insertBefore, insertFault?, referenceFault?, has, known, above]

theorem insertBefore_within (anchored : tree.Anchors parent before) (within : tree.Ascends parent id) :
    tree.insertBefore parent id before = .error (.intoOwnSubtree id) := by
  simp [Tree.insertBefore, insertFault?, sound.anchors_iff.2 anchored, sound.isWithin_iff.2 within]

theorem admits_of_insertBefore (done : tree.insertBefore parent id before = .ok changed) :
    tree.Admits parent id before := by
  rw [← sound.insertFault?_eq_none_iff]
  unfold Tree.insertBefore at done
  split at done
  · cases done
  · assumption

theorem of_insertBefore (done : tree.insertBefore parent id before = .ok changed) :
    tree.Placed changed parent id before := by
  obtain ⟨placed, again, result⟩ := sound.insertBefore_placed (sound.admits_of_insertBefore done)
  cases done.symm.trans again
  exact result

theorem insertBefore (done : tree.insertBefore parent id before = .ok changed) : changed.WellFormed :=
  (sound.of_insertBefore done).sound

end WellFormed

end DomParts.Tree
