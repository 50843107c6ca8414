import DomParts.Proofs.Keyed.Turns
import Mathlib.Data.List.Pairwise

/-! # Lookups that are filled again

A pass could index what is left anew whenever it is stuck. Where old keys do not repeat, it would settle the
same items in the same ways and in the same order, and would only report more indexing.
-/

namespace DomParts.Keyed

namespace Window

/-- All entries from the first to the last that are left. Some of those between may be settled already. -/
def stretch (whole left : Window) : Window :=
  whole.filter fun entry => (∃ first ∈ left.head?, first.index ≤ entry.index) ∧
    ∃ last ∈ left.getLast?, entry.index ≤ last.index

variable {whole left : Window}

theorem stretch_sublist : (whole.stretch left).Sublist whole := List.filter_sublist

theorem mem_stretch (ascending : (whole.map Entry.index).Pairwise (· < ·)) (within : left.Sublist whole)
    {entry : Entry} (member : entry ∈ left) : entry ∈ whole.stretch left := by
  have filled := List.ne_nil_of_mem member
  have rising : left.Pairwise (·.index ≤ ·.index) :=
    ((List.pairwise_map.1 ascending).imp Nat.le_of_lt).sublist within
  refine List.mem_filter.2 ⟨within.subset member, decide_eq_true ⟨?_, ?_⟩⟩
  · exact ⟨left.head filled, List.head?_eq_some_head filled, rising.rel_head_of_rel_head_head member (Nat.le_refl _)⟩
  · exact ⟨left.getLast filled, List.getLast?_eq_some_getLast filled,
      rising.rel_getLast_of_rel_getLast_getLast member (Nat.le_refl _)⟩

theorem ascending_ofKeys (keys : List Key) : ((ofKeys keys).map Entry.index).Pairwise (· < ·) := by
  rw [indices_ofKeys]
  exact List.pairwise_lt_range'

end Window

/-- Settles two windows, where what is left is indexed whenever no ends belong together. All old entries are given,
    since the old side is indexed from its first to its last entry that is left. -/
def planAnew (total : Nat) (whole old new : Window) : List Action :=
  match _settled : turn total (.ofWindows new (whole.stretch old)) old new with
  | none => insertAll total new ++ removeAll old
  | some (action, rest, less) =>
      if Stuck old new then indexing none new (whole.stretch old) ++ action :: planAnew total whole rest less
      else action :: planAnew total whole rest less
termination_by old.length + new.length
decreasing_by all_goals exact (turned_of_turn _settled).shorter

theorem planAnew_eq_turn (total : Nat) (whole old new : Window) : planAnew total whole old new =
    match turn total (.ofWindows new (whole.stretch old)) old new with
    | none => insertAll total new ++ removeAll old
    | some (action, rest, less) =>
        if Stuck old new then indexing none new (whole.stretch old) ++ action :: planAnew total whole rest less
        else action :: planAnew total whole rest less := by
  rw [planAnew]
  split
  next ended => rw [ended]
  next settled => rw [settled]

/-- The actions that settle items, without those that only index them. -/
def deeds (actions : List Action) : List Action := actions.filter fun action => ¬ action.indexes

theorem deeds_cons (action : Action) {one two : List Action} (same : deeds one = deeds two) :
    deeds (action :: one) = deeds (action :: two) := by
  simp only [deeds, List.filter_cons] at same ⊢
  rw [same]

theorem deeds_indexing (lookups? : Option Lookups) (new old : Window) (actions : List Action) :
    deeds (indexing lookups? new old ++ actions) = deeds actions := by
  unfold indexing
  split <;> rfl

section Anew

variable {lookups? : Option Lookups} {whole old new : Window} (ascending : (whole.map Entry.index).Pairwise (· < ·))
  (distinct : (whole.map Entry.key).Nodup)
include ascending distinct

theorem Informed.anew (informed : Informed whole lookups? old new) :
    Informed whole (some (.ofWindows new (whole.stretch old))) old new := by
  have here : ∀ entry ∈ old, entry ∈ whole.stretch old := fun _ => Window.mem_stretch ascending informed.within
  have part : (whole.stretch old).Sublist whole := Window.stretch_sublist
  have indices : ((whole.stretch old).map Entry.index).Nodup := (ascending.imp Nat.ne_of_lt).sublist (part.map _)
  have covers : (Lookups.ofWindows new (whole.stretch old)).Covers True (whole.stretch old) new :=
    .ofWindows indices fun _ => distinct.sublist (part.map _)
  refine ⟨⟨informed.ready.indices, informed.ready.distinct, ?_⟩, ?_, informed.within⟩
  · rintro _ ⟨⟩
    exact covers.mono here fun _ => id
  · rintro _ ⟨⟩
    exact (Lookups.Current.ofWindows (whole.stretch old) new).fewer here

theorem Informed.turn_anew (informed : Informed whole lookups? old new) (total : Nat) :
    turn total (lookups?.getD (.ofWindows new old)) old new = turn total (.ofWindows new (whole.stretch old)) old new :=
  informed.indexed.serves.turn_eq (informed.anew ascending distinct).serves informed.ready.indices total

/-- The same items are settled, whether lookups are made once or again and again. -/
theorem deeds_planAnew (total : Nat) (informed : Informed whole lookups? old new) :
    deeds (planAnew total whole old new) = deeds (planWindows total lookups? old new) := by
  induction old, new using planAnew.induct total whole generalizing lookups? with
  | case1 old new ended =>
      rw [planAnew_eq_turn, planWindows_eq_turn, informed.turn_anew ascending distinct, ended]
  | case2 old new action rest less settled stuck ih =>
      have same := (informed.turn_anew ascending distinct total).trans settled
      have later := (informed.onward (turned_of_turn same)).1
      rw [planAnew_eq_turn, planWindows_eq_turn, same, settled]
      simp only [if_pos stuck, deeds_indexing]
      exact deeds_cons action (ih later)
  | case3 old new action rest less settled moves ih =>
      have same := (informed.turn_anew ascending distinct total).trans settled
      have later := (informed.onward (turned_of_turn same)).2
      rw [planAnew_eq_turn, planWindows_eq_turn, same, settled]
      simp only [if_neg moves]
      exact deeds_cons action (ih later)

end Anew

/-- The plan of a pass that indexes what is left anew whenever it is stuck. -/
def planAgain (old new : List Key) : List Action := planAnew new.length (.ofKeys old) (.ofKeys old) (.ofKeys new)

/-- If no old key repeats, the same items are settled as by lookups that are made once. -/
theorem deeds_planAgain {old : List Key} (distinct : old.Nodup) (new : List Key) :
    deeds (planAgain old new) = deeds (plan old new) :=
  deeds_planAnew (Window.ascending_ofKeys old) (by rwa [Window.keys_ofKeys]) new.length (.ofKeys distinct _)

end DomParts.Keyed
