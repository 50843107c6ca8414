import DomParts.Keyed.Lookups
import Mathlib.Data.List.Nodup

/-! # Filling lookups

Lookups hold the first entry of each key, whatever they held before they were filled. The entries that are
ignored are those whose keys occur further in front.
-/

namespace DomParts.Keyed

namespace Window

variable {known window : Window} {entry : Entry} {key : Key}

theorem enter_of_known (here : entry.key ∈ known.map Entry.key) : enter entry known = (true, known) := by
  obtain ⟨other, member, same⟩ := List.mem_map.1 here
  have found : known.any (·.key = entry.key) = true := List.any_eq_true.2 ⟨other, member, decide_eq_true same⟩
  simp only [enter, bind, StateT.bind, get, getThe, MonadStateOf.get, StateT.get, pure, found, if_true]
  rfl

theorem enter_of_unknown (missing : entry.key ∉ known.map Entry.key) :
    enter entry known = (false, known ++ [entry]) := by
  have found : known.any (·.key = entry.key) = false := by
    rw [Bool.eq_false_iff]
    intro found
    obtain ⟨other, member, same⟩ := List.any_eq_true.1 found
    exact missing (of_decide_eq_true same ▸ List.mem_map_of_mem member)
  simp only [enter, bind, StateT.bind, get, getThe, MonadStateOf.get, StateT.get, pure, found]
  rfl

theorem enterAll_of_known {rest : Window} (here : entry.key ∈ known.map Entry.key) :
    enterAll (entry :: rest) known = ((enterAll rest known).1 + 1, (enterAll rest known).2) := by
  simp only [enterAll, bind, StateT.bind, enter_of_known here]
  rfl

theorem enterAll_of_unknown {rest : Window} (missing : entry.key ∉ known.map Entry.key) :
    enterAll (entry :: rest) known = enterAll rest (known ++ [entry]) := by
  simp only [enterAll, bind, StateT.bind, enter_of_unknown missing]
  rfl

/-- The entries whose keys are neither known nor occur further in front. -/
def fresh (known window : Window) : Window := window.firsts.filter (·.key ∉ known.map Entry.key)

theorem fresh_nil_left (window : Window) : fresh [] window = window.firsts := by
  simp [fresh]

theorem fresh_cons_of_known {rest : Window} (here : entry.key ∈ known.map Entry.key) :
    fresh known (entry :: rest) = fresh known rest := by
  rw [fresh, firsts, List.filter_cons_of_neg (by simpa using here), List.filter_filter, fresh]
  refine List.filter_congr fun other _ => ?_
  by_cases missing : other.key ∈ known.map Entry.key
  · simp [missing]
  · have differ : other.key ≠ entry.key := fun same => missing (same ▸ here)
    simp [missing, differ]

theorem fresh_cons_of_unknown {rest : Window} (missing : entry.key ∉ known.map Entry.key) :
    fresh known (entry :: rest) = entry :: fresh (known ++ [entry]) rest := by
  rw [fresh, firsts, List.filter_cons_of_pos (by simpa using missing), List.filter_filter, fresh]
  refine congrArg (entry :: ·) (List.filter_congr fun other _ => ?_)
  simp only [List.map_append, List.map_cons, List.map_nil, List.mem_append, List.mem_singleton, not_or,
    Bool.decide_and]

theorem enterAll_spec (known window : Window) : (enterAll window known).2 = known ++ fresh known window ∧
    (enterAll window known).1 + (fresh known window).length = window.length := by
  induction window generalizing known with
  | nil => exact ⟨(List.append_nil known).symm, rfl⟩
  | cons entry rest ih =>
      by_cases here : entry.key ∈ known.map Entry.key
      · obtain ⟨entered, counted⟩ := ih known
        rw [enterAll_of_known here, fresh_cons_of_known here, List.length_cons]
        exact ⟨entered, by omega⟩
      · obtain ⟨entered, counted⟩ := ih (known ++ [entry])
        rw [enterAll_of_unknown here, fresh_cons_of_unknown here, List.length_cons, List.length_cons]
        exact ⟨by rw [entered, List.append_assoc, List.singleton_append], by omega⟩

theorem index_eq (window earlier : Window) : index window earlier = (window.duplicates, window.firsts) := by
  obtain ⟨entered, counted⟩ := enterAll_spec [] window
  rw [fresh_nil_left] at entered counted
  have anew : index window earlier = enterAll window [] := rfl
  refine anew.trans (Prod.ext ?_ entered)
  rw [duplicates]
  omega

theorem find?_firsts (key : Key) (window : Window) :
    window.firsts.find? (·.key = key) = window.find? (·.key = key) := by
  induction window with
  | nil => rfl
  | cons entry rest ih =>
      rw [firsts, List.find?_cons, List.find?_cons]
      by_cases here : entry.key = key
      · simp [here]
      · simp only [here, decide_false]
        refine (List.find?_filter ..).trans (Eq.trans (congrArg (List.find? · _) (funext fun other => ?_)) ih)
        -- Entries with the key of the head are left out, but they have another key than the one wanted.
        by_cases same : other.key = key
        · simp [same, Ne.symm here]
        · simp [same]

/-- The place where a key occurs first in a sequence is found in its window. -/
theorem find?_numbered (key : Key) (first : Nat) (keys : List Key) :
    ((numbered first keys).find? (·.key = key)).map Entry.index = (keys.idxOf? key).map (first + ·) := by
  induction keys generalizing first with
  | nil => rfl
  | cons other keys ih =>
      rw [numbered, List.find?_cons, List.idxOf?_cons]
      by_cases here : other = key
      · simp [here]
      · simp only [here, decide_false, ih, beq_iff_eq, if_false, Option.map_map]
        refine congrArg (Option.map · _) (funext fun place => ?_)
        simp only [Function.comp_apply]
        omega

end Window

/-- How many places of a sequence repeat a key from further in front. -/
def repeats (keys : List Key) : Nat := keys.zipIdx.countP fun spot => spot.1 ∈ keys.take spot.2

namespace Window

theorem enterAll_numbered (before rest : List Key) (first : Nat) (known : Window)
    (same : ∀ key, key ∈ known.map Entry.key ↔ key ∈ before) : (enterAll (numbered first rest) known).1 =
      (rest.zipIdx before.length).countP fun spot => spot.1 ∈ (before ++ rest).take spot.2 := by
  induction rest generalizing before first known with
  | nil => rfl
  | cons key rest ih =>
      have front : (before ++ key :: rest).take before.length = before := List.take_left
      rw [numbered, List.zipIdx_cons, List.countP_cons, front]
      have split : before ++ key :: rest = (before ++ [key]) ++ rest := by simp
      by_cases here : key ∈ before
      · have known_here : (⟨first, key⟩ : Entry).key ∈ known.map Entry.key := (same key).2 here
        have onward := ih (before ++ [key]) (first + 1) known fun other => by
          rw [same, List.mem_append, List.mem_singleton]
          constructor
          · exact .inl
          · rintro (member | rfl)
            · exact member
            · exact here
        rw [enterAll_of_known known_here, onward, split, List.length_append, List.length_singleton]
        simp [here]
      · have unknown : (⟨first, key⟩ : Entry).key ∉ known.map Entry.key := mt (same key).1 here
        have onward := ih (before ++ [key]) (first + 1) (known ++ [⟨first, key⟩]) fun other => by
          simp only [List.map_append, List.map_cons, List.map_nil, List.mem_append, same]
        rw [enterAll_of_unknown unknown, onward, split, List.length_append, List.length_singleton]
        simp [here]

theorem duplicates_numbered (first : Nat) (keys : List Key) : (numbered first keys).duplicates = repeats keys := by
  have counted := enterAll_numbered [] keys first [] fun key => by simp
  have indexed : (enterAll (numbered first keys) []).1 = (numbered first keys).duplicates :=
    congrArg Prod.fst (index_eq (numbered first keys) [])
  rw [← indexed, counted]
  rfl

end Window

namespace Lookups

theorem fill_eq (new old : Window) (earlier : Lookups) :
    fill new old earlier = (new.duplicates + old.duplicates, ⟨new.firsts, old.firsts⟩) := by
  have filled : fill new old earlier = ((new.index earlier.new).1 + (old.index earlier.old).1,
      ⟨(new.index earlier.new).2, (old.index earlier.old).2⟩) := rfl
  rw [filled, Window.index_eq, Window.index_eq]

theorem ofWindows_eq (new old : Window) : ofWindows new old = ⟨new.firsts, old.firsts⟩ := by
  rw [ofWindows, fill_eq]

theorem ignored_eq (new old : Window) : ignored new old = new.duplicates + old.duplicates := by
  rw [ignored, fill_eq]

/-- Where the key first occurred in the new window. -/
def newIndex? (lookups : Lookups) (key : Key) : Option Nat :=
  (lookups.new.find? (·.key = key)).map (·.index)

variable {lookups : Lookups} {key : Key}

theorem hasNew_iff : lookups.hasNew key ↔ key ∈ lookups.new.map Entry.key := by
  simp [hasNew, List.any_eq_true]

theorem hasNew_eq_isSome : lookups.hasNew key = (lookups.newIndex? key).isSome := by
  rw [hasNew, newIndex?, Option.isSome_map, List.isSome_find?]

/-- Lookups for two stretches of a sequence know where each key occurs first, whatever they held before, and all
    repetitions are counted. -/
theorem fill_numbered (earlier : Lookups) (newFirst oldFirst : Nat) (new old : List Key) :
    ∃ lookups, fill (.numbered newFirst new) (.numbered oldFirst old) earlier = (repeats new + repeats old, lookups) ∧
      (∀ key, lookups.newIndex? key = (new.idxOf? key).map (newFirst + ·)) ∧
      (∀ key, lookups.hasNew key ↔ key ∈ new) ∧
      ∀ key, lookups.oldIndex? key = (old.idxOf? key).map (oldFirst + ·) := by
  have places : ∀ key, (Lookups.mk (Window.numbered newFirst new).firsts (Window.numbered oldFirst old).firsts).newIndex? key =
      (new.idxOf? key).map (newFirst + ·) := by
    intro key
    rw [newIndex?, Window.find?_firsts, Window.find?_numbered]
  refine ⟨⟨(Window.numbered newFirst new).firsts, (Window.numbered oldFirst old).firsts⟩, ?_, places, fun key => ?_,
    fun key => ?_⟩
  · rw [fill_eq, Window.duplicates_numbered, Window.duplicates_numbered]
  · rw [hasNew_eq_isSome, places, Option.isSome_map, List.isSome_idxOf?]
  · rw [oldIndex?, Window.find?_firsts, Window.find?_numbered]

end Lookups

end DomParts.Keyed
