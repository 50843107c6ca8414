import DomParts.Proofs.Template.Recall

/-! # What a content key tells apart

A content key holds the segments of a literal with a separator between them, and the separator begins and ends with
the same character. As long as no segment holds that character, the key can be taken apart again, so literals with
different segments have different keys and a cache has different templates for them. Only the literal without
segments cannot be told from the one whose only segment is empty.
-/

namespace DomParts

namespace Literal

variable {one two literal : Literal}

def mark : Char := '\x00'

def word : String := "reprise-part"

theorem toList_separator : separator.toList = mark :: (word.toList ++ [mark]) := rfl

/-- No segment holds a mark. -/
def Unmarked (literal : Literal) : Prop := ∀ segment ∈ literal.segments, mark ∉ segment.toList

/-- The texts that lie between the marks of a content key. -/
def pieces (literal : Literal) : List (List Char) := (literal.segments.map String.toList).intersperse word.toList

theorem toList_contentKey (literal : Literal) : literal.contentKey.toList = [mark].intercalate literal.pieces := by
  rw [contentKey, String.toList_intercalate, toList_separator, pieces]
  generalize literal.segments.map String.toList = segments
  induction segments with
  | nil => rfl
  | cons segment rest ih =>
      cases rest with
      | nil => simp
      | cons next rest =>
          rw [List.intercalate_cons_cons, ih, List.intersperse_cons_cons]
          cases rest <;> simp [List.intercalate]

theorem mem_pieces {piece : List Char} (member : piece ∈ literal.pieces) :
    piece = word.toList ∨ ∃ segment ∈ literal.segments, segment.toList = piece := by
  rw [pieces] at member
  generalize literal.segments = segments at member
  induction segments with
  | nil => simp at member
  | cons segment rest ih =>
      cases rest with
      | nil =>
          simp only [List.map_cons, List.map_nil, List.intersperse_singleton, List.mem_singleton] at member
          exact .inr ⟨segment, List.mem_singleton_self _, member.symm⟩
      | cons next rest =>
          simp only [List.map_cons, List.intersperse_cons_cons, List.mem_cons] at member ih
          grind

theorem Unmarked.pieces (unmarked : literal.Unmarked) : ∀ piece ∈ literal.pieces, mark ∉ piece := by
  intro piece member
  cases mem_pieces member with
  | inl same => rw [same]; decide
  | inr segment =>
      obtain ⟨segment, listed, rfl⟩ := segment
      exact unmarked segment listed

theorem pieces_ne_nil (some : literal.segments ≠ []) : literal.pieces ≠ [] := by
  rw [pieces]
  cases segments : literal.segments with
  | nil => exact absurd segments some
  | cons segment rest => cases rest <;> simp

theorem Unmarked.split_contentKey (unmarked : literal.Unmarked) (some : literal.segments ≠ []) :
    literal.contentKey.toList.splitOn mark = literal.pieces := by
  rw [toList_contentKey]
  exact List.splitOn_intercalate mark unmarked.pieces (pieces_ne_nil some)

theorem segments_of_pieces (same : one.pieces = two.pieces) : one.segments = two.segments := by
  suffices ∀ xs ys : List (List Char), xs.intersperse word.toList = ys.intersperse word.toList → xs = ys from
    List.map_injective_iff.2 (fun _ _ => String.toList_inj.1) (this _ _ same)
  intro xs
  induction xs with
  | nil =>
      intro ys same
      cases ys with
      | nil => rfl
      | cons y ys => cases ys <;> simp at same
  | cons x xs ih =>
      intro ys same
      cases ys with
      | nil => cases xs <;> simp at same
      | cons y ys =>
          cases xs with
          | nil => cases ys <;> simp at same; simpa using same
          | cons x' xs =>
              cases ys with
              | nil => simp at same
              | cons y' ys =>
                  simp only [List.intersperse_cons_cons, List.cons.injEq, true_and] at same
                  rw [same.1, ih _ same.2]

/-- Literals with segments, and no mark in them, have the same key if and only if their segments are the same. -/
theorem Unmarked.contentKey_eq_iff (here : one.Unmarked) (there : two.Unmarked) (some : one.segments ≠ [])
    (some' : two.segments ≠ []) : one.contentKey = two.contentKey ↔ one.segments = two.segments := by
  constructor
  · intro same
    apply segments_of_pieces
    rw [← here.split_contentKey some, ← there.split_contentKey some', same]
  · intro same
    rw [contentKey, contentKey, same]

/-- A key does not tell how many segments there are when they hold nothing. -/
example : contentKey ⟨0, []⟩ = contentKey ⟨1, [""]⟩ := by decide

/-- The end of a segment and the beginning of the next can be taken for a separator. -/
example : contentKey ⟨0, ["\x00reprise-part", ""]⟩ = contentKey ⟨1, ["", "reprise-part\x00"]⟩ := by decide

end Literal

namespace Fetched

variable {cache : TemplateCache} {fetches : List Fetch}

/-- A template that a request got was compiled for the first request with that key that went well. -/
theorem compiled_for (fetched : Fetched cache fetches) (stable : Stable fetches) {fetch : Fetch}
    (member : fetch ∈ fetches) {shared : SharedTemplate} (found : fetch.result = .ok shared) :
    ∃ asked ∈ fetches, asked.key = fetch.key ∧
      asked.questions = [.compile asked.kind asked.literal (.ok shared.template)] := by
  obtain ⟨recalls, answered⟩ := fetched.recalls stable
  obtain ⟨earlier, later, split⟩ := List.append_of_mem member
  -- Strong induction on how many requests came before.
  induction before : earlier.length using Nat.strongRecOn generalizing fetch earlier later with
  | ind count ih =>
      have here := answered earlier fetch later split
      cases here.returns with
      | inr asked =>
          obtain ⟨answer, asked, returned⟩ := asked
          refine ⟨fetch, member, rfl, ?_⟩
          rw [asked, ← returned, found]
          rfl
      | inl silent =>
          have known := mt here.asks.2 (not_not.2 silent)
          push Not at known
          obtain ⟨other, among, key, shared', result⟩ := known
          have there : other ∈ fetches := by simp [split, among]
          have same : shared' = shared := recalls.unique ((recalls.contents _ _).2 ⟨other, there, result, key⟩)
            ((recalls.contents _ _).2 ⟨fetch, member, found, rfl⟩)
          obtain ⟨first, last, parted⟩ := List.append_of_mem among
          have shorter : first.length < count := by
            rw [← before, parted, List.length_append, List.length_cons]
            omega
          obtain ⟨asked, listed, named, questions⟩ := ih first.length shorter there (same ▸ result) first
            (last ++ fetch :: later) (by simp [split, parted]) rfl
          exact ⟨asked, listed, named.trans key, questions⟩

/-- Of literals with segments, and no mark in them, a cache has one template for each kind and each list of
    segments, and it was compiled from those very segments. -/
theorem one_template_per_segments (fetched : Fetched cache fetches) (stable : Stable fetches)
    (unmarked : ∀ fetch ∈ fetches, fetch.literal.Unmarked ∧ fetch.literal.segments ≠ []) :
    ∀ one ∈ fetches, ∀ two ∈ fetches, ∀ first second, one.result = .ok first → two.result = .ok second →
      (first = second ↔ one.kind = two.kind ∧ one.literal.segments = two.literal.segments) ∧
      ∃ asked ∈ fetches, asked.kind = one.kind ∧ asked.literal.segments = one.literal.segments ∧
        asked.questions = [.compile asked.kind asked.literal (.ok first.template)] := by
  intro one here two there first second found known
  have recalls := (fetched.recalls stable).1
  have listed := (recalls.contents one.key first).2 ⟨one, here, found, rfl⟩
  have listed' := (recalls.contents two.key second).2 ⟨two, there, known, rfl⟩
  have keys : ∀ fetch ∈ fetches, ∀ other ∈ fetches, fetch.key = other.key ↔
      fetch.kind = other.kind ∧ fetch.literal.segments = other.literal.segments := by
    intro fetch member other member'
    rw [Fetch.key, Fetch.key, Prod.mk.injEq]
    exact and_congr_right fun _ => (unmarked fetch member).1.contentKey_eq_iff (unmarked other member').1
      (unmarked fetch member).2 (unmarked other member').2
  constructor
  · rw [← keys one here two there]
    constructor
    · intro same
      rw [← same] at listed'
      exact congrArg Prod.fst
        (List.inj_on_of_nodup_map recalls.numbered.serials listed listed' rfl)
    · intro key
      rw [key] at listed
      exact recalls.unique listed listed'
  · obtain ⟨asked, member, key, questions⟩ := fetched.compiled_for stable here found
    obtain ⟨kind, segments⟩ := (keys asked member one here).1 key
    exact ⟨asked, member, kind, segments, questions⟩

end Fetched

end DomParts
