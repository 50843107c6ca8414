import DomParts.Proofs.Keyed.Shortcuts
import DomParts.Proofs.Renaming.Basic
import Mathlib.Data.Option.Basic

/-! # Plans for other keys

A plan depends on which keys are equal and on nothing else: for other keys that are as different from each other it
is the same, with the same counts of repeated keys in it.
-/

namespace DomParts.Keyed

variable (r : Renaming)

def Entry.rename (entry : Entry) : Entry := { entry with key := r.key entry.key }

def Window.rename (window : Window) : Window := window.map (Entry.rename r)

def Lookups.rename (lookups : Lookups) : Lookups := ⟨lookups.new.rename r, lookups.old.rename r⟩

@[simp] theorem Entry.index_rename (entry : Entry) : (entry.rename r).index = entry.index := rfl

@[simp] theorem Entry.key_rename (entry : Entry) : (entry.rename r).key = r.key entry.key := rfl

namespace Window

variable (window : Window)

@[simp] theorem length_rename : (window.rename r).length = window.length := List.length_map ..

theorem filter_rename (keeps keeps' : Entry → Bool) (same : ∀ entry : Entry, keeps' (entry.rename r) = keeps entry) :
    (window.rename r).filter keeps' = Window.rename r (window.filter keeps) := by
  have alike : keeps' ∘ Entry.rename r = keeps := funext same
  rw [Window.rename, List.filter_map, alike, Window.rename]

theorem numbered_map (index : Nat) (keys : List Key) :
    numbered index (keys.map r.key) = (numbered index keys).rename r := by
  induction keys generalizing index with
  | nil => rfl
  | cons key keys ih =>
      rw [List.map_cons, numbered, numbered, ih]
      rfl

theorem firsts_rename : (window.rename r).firsts = window.firsts.rename r := by
  induction window with
  | nil => rfl
  | cons entry window ih =>
      have same : ∀ other : Entry,
          decide ((other.rename r).key ≠ (entry.rename r).key) = decide (other.key ≠ entry.key) := fun other => by
        simp only [Entry.key_rename, ne_eq, r.key_injective.eq_iff]
      rw [Window.rename, List.map_cons, firsts, firsts, ← Window.rename, ih, filter_rename r _ _ _ same]
      rfl

theorem duplicates_rename : (window.rename r).duplicates = window.duplicates := by
  rw [duplicates, duplicates, firsts_rename, length_rename, length_rename]

end Window

namespace Lookups

variable (lookups : Lookups) (key : Key)

theorem ofWindows_rename (new old : Window) : ofWindows (new.rename r) (old.rename r) = (ofWindows new old).rename r := by
  rw [ofWindows_eq, ofWindows_eq, new.firsts_rename, old.firsts_rename]
  rfl

theorem hasNew_rename : (lookups.rename r).hasNew (r.key key) = lookups.hasNew key := by
  simp only [hasNew, rename, Window.rename, List.any_map, Function.comp_def, Entry.key_rename, r.key_injective.eq_iff]

theorem oldIndex?_rename : (lookups.rename r).oldIndex? (r.key key) = lookups.oldIndex? key := by
  simp only [oldIndex?, rename, Window.rename, List.find?_map, Function.comp_def, Entry.key_rename,
    r.key_injective.eq_iff, Option.map_map]
  rfl

end Lookups

theorem reusable?_rename (lookups : Lookups) (key : Key) (old : Window) :
    reusable? (lookups.rename r) (r.key key) (old.rename r) = (reusable? lookups key old).map (Entry.rename r) := by
  simp only [reusable?, lookups.oldIndex?_rename, Window.rename, List.find?_map, Function.comp_def, Entry.index_rename]
  cases lookups.oldIndex? key <;> rfl

theorem insertAll_rename (total : Nat) (new : Window) : insertAll total (new.rename r) = insertAll total new := by
  simp only [insertAll, Window.rename, List.getLast?_map, List.map_map]
  cases new.getLast? <;> rfl

theorem removeAll_rename (old : Window) : removeAll (old.rename r) = removeAll old := by
  simp only [removeAll, Window.rename, List.map_map]
  rfl

theorem indexing_rename (lookups? : Option Lookups) (new old : Window) :
    indexing (lookups?.map (Lookups.rename r)) (new.rename r) (old.rename r) = indexing lookups? new old := by
  simp only [indexing, Option.isSome_map, Window.length_rename, Lookups.ignored_eq, new.duplicates_rename,
    old.duplicates_rename]

/-- Lookups that are made for other keys are those that were made, with other keys. -/
theorem Lookups.getD_rename (lookups? : Option Lookups) (new old : Window) :
    (lookups?.map (Lookups.rename r)).getD (.ofWindows (new.rename r) (old.rename r)) =
      (lookups?.getD (.ofWindows new old)).rename r := by
  cases lookups? with
  | none => exact ofWindows_rename r new old
  | some lookups => rfl

section Ends

variable (entry : Entry) (window more : Window)

theorem Window.rename_cons : Window.rename r (entry :: window) = entry.rename r :: window.rename r := rfl

theorem Window.rename_append : Window.rename r (window ++ more) = window.rename r ++ more.rename r := List.map_append

theorem Window.head?_rename : (window.rename r).head? = window.head?.map (Entry.rename r) := List.head?_map

theorem Window.getLast?_rename : (window.rename r).getLast? = window.getLast?.map (Entry.rename r) := List.getLast?_map

theorem Window.ends_rename : (window.rename r).ends = window.ends.map (Entry.rename r) := by
  rw [ends, ends, head?_rename, getLast?_rename, List.map_append]
  cases window.head? <;> cases window.getLast? <;> rfl

end Ends

section Rules

variable {r} {lookups? : Option Lookups} {old new : Window}

theorem Stuck.rename (stuck : Stuck old new) : Stuck (old.rename r) (new.rename r) := by
  obtain ⟨olds, news, apart⟩ := stuck
  refine ⟨mt List.map_eq_nil_iff.1 olds, mt List.map_eq_nil_iff.1 news, ?_⟩
  rw [Window.ends_rename, Window.ends_rename, List.forall_mem_map]
  intro one here
  rw [List.forall_mem_map]
  exact fun two there => r.key_injective.ne (apart one here two there)

theorem heads_rename (differ : ∀ one ∈ old.head?, ∀ two ∈ new.head?, one.key ≠ two.key) :
    ∀ one ∈ (old.rename r).head?, ∀ two ∈ (new.rename r).head?, one.key ≠ two.key := by
  rw [Window.head?_rename, Window.head?_rename, Option.forall_mem_map]
  intro one here
  rw [Option.forall_mem_map]
  exact fun two there => r.key_injective.ne (differ one here two there)

theorem gone_rename {key : Key} (gone : ¬ (lookups?.getD (.ofWindows new old)).hasNew key) :
    ¬ ((lookups?.map (Lookups.rename r)).getD (.ofWindows (new.rename r) (old.rename r))).hasNew (r.key key) := by
  rwa [Lookups.getD_rename, Lookups.hasNew_rename]

theorem wanted_rename (wanted : ∀ one ∈ old.ends, (lookups?.getD (.ofWindows new old)).hasNew one.key) :
    ∀ one ∈ (old.rename r).ends,
      ((lookups?.map (Lookups.rename r)).getD (.ofWindows (new.rename r) (old.rename r))).hasNew one.key := by
  rw [Window.ends_rename, List.forall_mem_map, Lookups.getD_rename]
  exact fun one member => (Lookups.hasNew_rename r _ one.key).trans (wanted one member)

theorem head_wanted_rename (wanted : ∀ one ∈ old.head?, (lookups?.getD (.ofWindows new old)).hasNew one.key) :
    ∀ one ∈ (old.rename r).head?,
      ((lookups?.map (Lookups.rename r)).getD (.ofWindows (new.rename r) (old.rename r))).hasNew one.key := by
  rw [Window.head?_rename, Option.forall_mem_map, Lookups.getD_rename]
  exact fun one first => (Lookups.hasNew_rename r _ one.key).trans (wanted one first)

theorem reusable?_getD_rename {key : Key} {reused? : Option Entry}
    (asked : reusable? (lookups?.getD (.ofWindows new old)) key old = reused?) :
    reusable? ((lookups?.map (Lookups.rename r)).getD (.ofWindows (new.rename r) (old.rename r))) (r.key key)
      (old.rename r) = reused?.map (Entry.rename r) := by
  rw [Lookups.getD_rename, reusable?_rename, asked]

end Rules

theorem planWindows_rename (total : Nat) (lookups? : Option Lookups) (old new : Window) :
    planWindows total (lookups?.map (Lookups.rename r)) (old.rename r) (new.rename r) =
      planWindows total lookups? old new := by
  -- Two keys are equal if and only if the other keys are, so the same rule settles the same items.
  induction lookups?, old, new using planWindows_rules with
  | insert lookups? new =>
      exact planWindows_nil_old.trans ((insertAll_rename r total new).trans planWindows_nil_old.symm)
  | leftover lookups? old =>
      exact planWindows_nil_new.trans ((removeAll_rename r old).trans planWindows_nil_new.symm)
  | keepFirst lookups? o n old new same ih =>
      have same' : (o.rename r).key = (n.rename r).key := congrArg r.key same
      rw [Window.rename_cons, Window.rename_cons, planWindows_keepFirst same', planWindows_keepFirst same, ih]
      rfl
  | keepLast lookups? o n old new differ same ih =>
      have differ' := heads_rename (r := r) differ
      have same' : (o.rename r).key = (n.rename r).key := congrArg r.key same
      rw [Window.rename_append, Window.rename_append] at differ' ⊢
      refine (planWindows_keepLast differ' same').trans ?_
      rw [planWindows_keepLast differ same, ← ih]
      rfl
  | bringLast lookups? o n old new differ apart same ih =>
      have differ' : ∀ two ∈ (Window.rename r (new ++ [n])).head?, (o.rename r).key ≠ two.key := by
        rw [Window.head?_rename, Option.forall_mem_map]
        exact fun two first => r.key_injective.ne (differ two first)
      have apart' : ∀ one ∈ (Window.rename r (o :: old)).getLast?, one.key ≠ (n.rename r).key := by
        rw [Window.getLast?_rename, Option.forall_mem_map]
        exact fun one last => r.key_injective.ne (apart one last)
      have same' : (o.rename r).key = (n.rename r).key := congrArg r.key same
      rw [Window.rename_append] at differ' ⊢
      refine (planWindows_bringLast differ' apart' same').trans ?_
      rw [planWindows_bringLast differ apart same, ← ih]
      rfl
  | bringFirst lookups? first o n old new differ apart same ih =>
      have apart' : ∀ two ∈ (Window.rename r (n :: new)).getLast?,
          (o.rename r).key ≠ two.key ∧ (first.rename r).key ≠ two.key := by
        rw [Window.getLast?_rename, Option.forall_mem_map]
        exact fun two last => (apart two last).imp r.key_injective.ne r.key_injective.ne
      have same' : (o.rename r).key = (n.rename r).key := congrArg r.key same
      rw [Window.rename_cons, Window.rename_append]
      refine (planWindows_bringFirst (r.key_injective.ne differ) apart' same').trans ?_
      rw [planWindows_bringFirst differ apart same, ← ih]
      rfl
  | dropFirst lookups? o old new stuck gone ih =>
      have stuck' := stuck.rename (r := r)
      have gone' := gone_rename (r := r) gone
      rw [planWindows_dropFirst stuck gone, ← ih, ← indexing_rename r, Option.map_some, ← Lookups.getD_rename]
      exact planWindows_dropFirst stuck' gone'
  | dropLast lookups? o old new stuck wanted gone ih =>
      have stuck' := stuck.rename (r := r)
      have wanted' := head_wanted_rename (r := r) wanted
      have gone' := gone_rename (r := r) gone
      rw [planWindows_dropLast stuck wanted gone, ← ih, ← indexing_rename r, Option.map_some, ← Lookups.getD_rename]
      rw [Window.rename_append] at stuck' wanted' gone' ⊢
      exact planWindows_dropLast stuck' wanted' gone'
  | reuse lookups? o n entry old new stuck wanted found ih =>
      have stuck' := stuck.rename (r := r)
      have wanted' := wanted_rename (r := r) wanted
      have found' := reusable?_getD_rename (r := r) found
      have rest := Window.filter_rename r (o :: old) (·.index ≠ entry.index)
        (·.index ≠ (entry.rename r).index) fun _ => rfl
      rw [planWindows_reuse stuck wanted found, ← ih, ← indexing_rename r, Option.map_some, ← Lookups.getD_rename, ← rest]
      rw [Window.rename_cons, Window.rename_cons] at stuck' wanted' found' ⊢
      rw [planWindows_reuse stuck' wanted' found']
      rfl
  | create lookups? o n old new stuck wanted missed ih =>
      have stuck' := stuck.rename (r := r)
      have wanted' := wanted_rename (r := r) wanted
      have missed' := reusable?_getD_rename (r := r) missed
      rw [planWindows_create stuck wanted missed, ← ih, ← indexing_rename r, Option.map_some, ← Lookups.getD_rename]
      rw [Window.rename_cons, Window.rename_cons] at stuck' wanted' missed' ⊢
      rw [planWindows_create stuck' wanted' missed']
      rfl

theorem plan_map (old new : List Key) : plan (old.map r.key) (new.map r.key) = plan old new := by
  have windows := planWindows_rename r new.length none (.ofKeys old) (.ofKeys new)
  simpa only [plan, Window.ofKeys, Window.numbered_map, List.length_map, Option.map_none] using windows

end DomParts.Keyed
