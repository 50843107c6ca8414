import DomParts.Proofs.Keyed.Route
import Mathlib.Data.Finset.Dedup
import Mathlib.Data.Finset.Card
import Mathlib.Data.Finset.Basic
import Mathlib.Data.Finset.SDiff
import Mathlib.Data.Finset.Lattice.Basic

/-! # How much a route does

If no key repeats, the keys on both sides decide how many items a route keeps, makes and removes, whatever
rules it goes by.
-/

namespace DomParts.Keyed

variable {first second one two : List Key} {key : Key}

def shared (others keys : List Key) : Nat := keys.countP (· ∈ others)

/-- How many of the keys are not among the others. -/
def missing (others keys : List Key) : Nat := keys.countP (· ∉ others)

section Steps

theorem shared_keep (here : first.Perm (key :: one)) (there : second.Perm (key :: two)) (distinct : second.Nodup) :
    shared first second = shared one two + 1 := by
  have apart := List.nodup_cons.1 (there.nodup_iff.1 distinct)
  rw [shared, there.countP_eq, List.countP_cons_of_pos (by simp [here.mem_iff]), shared]
  congr 1
  refine List.countP_congr fun other member => ?_
  have : other ≠ key := fun same => apart.1 (same ▸ member)
  simp [here.mem_iff, this]

theorem missing_keep (here : first.Perm (key :: one)) (there : second.Perm (key :: two)) (distinct : second.Nodup) :
    missing first second = missing one two := by
  have apart := List.nodup_cons.1 (there.nodup_iff.1 distinct)
  rw [missing, there.countP_eq, List.countP_cons_of_neg (by simp [here.mem_iff]), missing]
  refine List.countP_congr fun other member => ?_
  have : other ≠ key := fun same => apart.1 (same ▸ member)
  simp [here.mem_iff, this]

theorem shared_new (there : second.Perm (key :: two)) (fresh : key ∉ first) : shared first second = shared first two := by
  rw [shared, there.countP_eq, List.countP_cons_of_neg (by simpa using fresh), shared]

theorem missing_new (there : second.Perm (key :: two)) (fresh : key ∉ first) :
    missing first second = missing first two + 1 := by
  rw [missing, there.countP_eq, List.countP_cons_of_pos (by simpa using fresh), missing]

theorem shared_other (here : first.Perm (key :: one)) (fresh : key ∉ second) : shared first second = shared one second := by
  refine List.countP_congr fun other member => ?_
  have : other ≠ key := fun same => fresh (same ▸ member)
  simp [here.mem_iff, this]

theorem missing_other (here : first.Perm (key :: one)) (fresh : key ∉ second) :
    missing first second = missing one second := by
  refine List.countP_congr fun other member => ?_
  have : other ≠ key := fun same => fresh (same ▸ member)
  simp [here.mem_iff, this]

end Steps

theorem shared_eq_card (distinct : second.Nodup) : shared first second = (first.toFinset ∩ second.toFinset).card := by
  rw [shared, List.countP_eq_length_filter, ← List.toFinset_card_of_nodup (distinct.filter _)]
  congr 1
  ext other
  simp [and_comm]

theorem missing_eq_card (distinct : second.Nodup) : missing first second = (second.toFinset \ first.toFinset).card := by
  rw [missing, List.countP_eq_length_filter, ← List.toFinset_card_of_nodup (distinct.filter _)]
  congr 1
  ext other
  simp

/-- What a careful route does on distinct keys. -/
structure Tally (old new : List Key) (actions : List Action) : Prop where
  updates : actions.countP Action.updates = shared old new
  creates : actions.countP Action.creates = missing old new
  removes : actions.countP Action.removes = missing new old

namespace Tally

variable {old new : List Key} {actions : List Action} {action : Action}

theorem keep (tally : Tally one two actions) (here : old.Perm (key :: one)) (there : new.Perm (key :: two))
    (olds : old.Nodup) (news : new.Nodup) (updates : action.updates = true) (creates : action.creates = false)
    (removes : action.removes = false) : Tally old new (action :: actions) where
  updates := by rw [List.countP_cons_of_pos updates, tally.updates, shared_keep here there news]
  creates := by rw [List.countP_cons_of_neg (by simp [creates]), tally.creates, missing_keep here there news]
  removes := by rw [List.countP_cons_of_neg (by simp [removes]), tally.removes, missing_keep there here olds]

theorem create (tally : Tally old two actions) (there : new.Perm (key :: two)) (fresh : key ∉ old)
    (updates : action.updates = false) (creates : action.creates = true) (removes : action.removes = false) :
    Tally old new (action :: actions) where
  updates := by rw [List.countP_cons_of_neg (by simp [updates]), tally.updates, shared_new there fresh]
  creates := by rw [List.countP_cons_of_pos creates, tally.creates, missing_new there fresh]
  removes := by rw [List.countP_cons_of_neg (by simp [removes]), tally.removes, missing_other there fresh]

theorem remove (tally : Tally one new actions) (here : old.Perm (key :: one)) (gone : key ∉ new)
    (updates : action.updates = false) (creates : action.creates = false) (removes : action.removes = true) :
    Tally old new (action :: actions) where
  updates := by rw [List.countP_cons_of_neg (by simp [updates]), tally.updates, shared_other here gone]
  creates := by rw [List.countP_cons_of_neg (by simp [creates]), tally.creates, missing_other here gone]
  removes := by rw [List.countP_cons_of_pos removes, tally.removes, missing_new here gone]

end Tally

theorem Route.tally {careful : Prop} {total : Nat} {old new : Window} {actions : List Action}
    (route : Route careful total old new actions) (care : careful) (olds : (old.map Entry.key).Nodup)
    (news : (new.map Entry.key).Nodup) : Tally (old.map Entry.key) (new.map Entry.key) actions := by
  have snoc : ∀ (window : Window) (entry : Entry),
      ((window ++ [entry]).map Entry.key).Perm (entry.key :: window.map Entry.key) := fun window entry => by
    simp
  have middle : ∀ (before after : Window) (entry : Entry),
      ((before ++ entry :: after).map Entry.key).Perm (entry.key :: (before ++ after).map Entry.key) :=
    fun before after entry => by simp
  have rest : ∀ {window less : Window} {key : Key}, (window.map Entry.key).Perm (key :: less.map Entry.key) →
      (window.map Entry.key).Nodup → (less.map Entry.key).Nodup := fun perm distinct =>
    (List.nodup_cons.1 (perm.nodup_iff.1 distinct)).2
  induction route with
  | done => exact ⟨rfl, rfl, rfl⟩
  | @keepFirst o n old new actions rule same route ih =>
      rw [List.map_cons] at olds news
      have here : (o.key :: old.map Entry.key).Perm (n.key :: old.map Entry.key) := same ▸ .refl _
      exact (ih olds.of_cons news.of_cons).keep here (.refl _) olds news rfl rfl rfl
  | @keepLast o n old new actions rule same route ih =>
      have here := same ▸ snoc old o
      exact (ih (rest here olds) (rest (snoc new n) news)).keep here (snoc new n) olds news rfl rfl rfl
  | @bringLast o n old new actions rule same others route ih =>
      refine (ih olds.of_cons (rest (snoc new n) news)).keep ?_ (snoc new n) olds news rfl rfl rfl
      exact same ▸ .refl _
  | @bringFirst first o n before after new actions rule same route ih =>
      have here := same ▸ middle (first :: before) after o
      exact (ih (rest here olds) news.of_cons).keep here (.refl _) olds news rfl rfl rfl
  | @createFirst o n old new actions rule fresh route ih =>
      exact (ih olds news.of_cons).create (.refl _) (fresh care) rfl rfl rfl
  | @createLast n last new actions rule ends route ih =>
      exact (ih olds news.of_cons).create (.refl _) (by simp) rfl rfl rfl
  | @remove o before after new actions rule gone route ih =>
      exact (ih (rest (middle before after o) olds) news).remove (middle before after o) (gone care) rfl rfl rfl
  | @index old new actions newCount oldCount duplicates route ih =>
      obtain ⟨updates, creates, removes⟩ := ih olds news
      exact ⟨by simpa [Action.updates] using updates, by simpa [Action.creates] using creates,
        by simpa [Action.removes] using removes⟩

theorem tally_plan {old new : List Key} (olds : old.Nodup) (news : new.Nodup) : Tally old new (plan old new) := by
  have route : Route True new.length (.ofKeys old) (.ofKeys new) (plan old new) := Route.plan old new fun _ => olds
  simpa using route.tally trivial (by simpa using olds) (by simpa using news)

end DomParts.Keyed
