import DomParts.Proofs.Keyed.Order

/-! # A pass turn by turn

A pass settles one item at a time, from what is left on both sides and, where no ends belong together, from
lookups. Where old keys do not repeat, the lookups that were made when a pass got stuck for the first time
tell the same of what is left ever after as lookups that are made anew, so the same items are settled in the
same ways.
-/

namespace DomParts.Keyed

/-- The entries are neighbours in the full sequence. -/
def Window.Unbroken (window : Window) : Prop := ∃ first keys, window = numbered first keys

namespace Window.Unbroken

variable {window : Window}

theorem ofKeys (keys : List Key) : (Window.ofKeys keys).Unbroken := ⟨0, keys, rfl⟩

theorem tail (unbroken : window.Unbroken) : Unbroken (List.tail window) := by
  obtain ⟨first, keys, rfl⟩ := unbroken
  cases keys with
  | nil => exact ⟨first, [], rfl⟩
  | cons key keys => exact ⟨first + 1, keys, rfl⟩

theorem dropLast (unbroken : window.Unbroken) : Unbroken (List.dropLast window) := by
  obtain ⟨first, keys, rfl⟩ := unbroken
  refine ⟨first, keys.dropLast, ?_⟩
  induction keys generalizing first with
  | nil => rfl
  | cons key keys ih =>
      cases keys with
      | nil => rfl
      | cons next keys => exact congrArg (⟨first, key⟩ :: ·) (ih (first + 1))

end Window.Unbroken

/-- The next action, with what it leaves on both sides. Once there is nothing on one of them, there is none. -/
def turn (total : Nat) (lookups : Lookups) : Window → Window → Option (Action × Window × Window)
  | [], _ => none
  | _, [] => none
  | o :: os, n :: ns =>
      let oldLast := (o :: os).getLast (List.cons_ne_nil _ _)
      let newLast := (n :: ns).getLast (List.cons_ne_nil _ _)
      if o.key = n.key then some (.keep .headMatch o.index n.index, os, ns)
      else if oldLast.key = newLast.key then
        some (.keep .tailMatch oldLast.index newLast.index, (o :: os).dropLast, (n :: ns).dropLast)
      else if o.key = newLast.key then
        some (.bring .headToTail o.index newLast.index (.behind total newLast), os, (n :: ns).dropLast)
      else if oldLast.key = n.key then
        some (.bring .tailToHead oldLast.index n.index (.beforeOld o.index), (o :: os).dropLast, ns)
      else if ¬ lookups.hasNew o.key then some (.remove .dropHead o.index, os, n :: ns)
      else if ¬ lookups.hasNew oldLast.key then
        some (.remove .dropTail oldLast.index, (o :: os).dropLast, n :: ns)
      else match reusable? lookups n.key (o :: os) with
        | some entry =>
            some (.bring .placeHead entry.index n.index (.beforeOld o.index),
              (o :: os).filter (·.index ≠ entry.index), ns)
        | none => some (.create .placeHead n.index (.beforeOld o.index), o :: os, ns)

theorem planWindows_eq_turn (total : Nat) (lookups? : Option Lookups) (old new : Window) :
    planWindows total lookups? old new =
      match turn total (lookups?.getD (.ofWindows new old)) old new with
      | none => insertAll total new ++ removeAll old
      | some (action, rest, less) =>
          if Stuck old new then
            indexing lookups? new old ++
              action :: planWindows total (some (lookups?.getD (.ofWindows new old))) rest less
          else action :: planWindows total lookups? rest less := by
  match old, new with
  | [], new => rw [planWindows_nil_old, turn, removeAll, List.map_nil, List.append_nil]
  | o :: os, [] => 
      rw [planWindows_nil_new, turn]
      · rfl
      · exact nofun
  | o :: os, n :: ns =>
      rw [planWindows, turn]
      by_cases first : o.key = n.key
      · have moves : ¬ Stuck (o :: os) (n :: ns) := fun stuck => (stuck_cons.1 stuck).1 first
        simp only [if_pos first, if_neg moves]
      by_cases last : ((o :: os).getLast (List.cons_ne_nil _ _)).key = ((n :: ns).getLast (List.cons_ne_nil _ _)).key
      · have moves : ¬ Stuck (o :: os) (n :: ns) := fun stuck => (stuck_cons.1 stuck).2.1 last
        simp only [if_neg first, if_pos last, if_neg moves]
      by_cases across : o.key = ((n :: ns).getLast (List.cons_ne_nil _ _)).key
      · have moves : ¬ Stuck (o :: os) (n :: ns) := fun stuck => (stuck_cons.1 stuck).2.2.1 across
        simp only [if_neg first, if_neg last, if_pos across, if_neg moves]
      by_cases back : ((o :: os).getLast (List.cons_ne_nil _ _)).key = n.key
      · have moves : ¬ Stuck (o :: os) (n :: ns) := fun stuck => (stuck_cons.1 stuck).2.2.2 back
        simp only [if_neg first, if_neg last, if_neg across, if_pos back, if_neg moves]
      have stuck : Stuck (o :: os) (n :: ns) := stuck_cons.2 ⟨first, last, across, back⟩
      simp only [if_neg first, if_neg last, if_neg across, if_neg back, if_pos stuck]
      by_cases gone : ¬ (lookups?.getD (.ofWindows (n :: ns) (o :: os))).hasNew o.key = true
      · simp only [if_pos gone]
      · simp only [if_neg gone]
        split
        next => rfl
        next => cases reusable? (lookups?.getD (.ofWindows (n :: ns) (o :: os))) n.key (o :: os) <;> rfl

/-- What a turn takes from what is left. -/
inductive Turned (lookups : Lookups) (old new : Window) : Window → Window → Prop where
  /-- An old item takes the place of a new one. -/
  | pair {o n : Entry} {rest less : Window} (same : o.key = n.key) (olds : old.Perm (o :: rest))
      (news : new.Perm (n :: less)) (sublist : rest.Sublist old) : Turned lookups old new rest less
  /-- An old item goes whose key is not wanted. -/
  | drop {o : Entry} {rest : Window} (gone : ¬ lookups.hasNew o.key = true) (olds : old.Perm (o :: rest))
      (sublist : rest.Sublist old) : Turned lookups old new rest new
  /-- An old item is found for a new one. -/
  | reuse {entry n : Entry} {less : Window} (found : reusable? lookups n.key old = some entry)
      (news : new.Perm (n :: less)) : Turned lookups old new (old.filter (·.index ≠ entry.index)) less
  /-- No old item is found for a new one. -/
  | make {n : Entry} {less : Window} (missed : reusable? lookups n.key old = none)
      (news : new.Perm (n :: less)) : Turned lookups old new old less

section Turns

variable {total : Nat} {lookups : Lookups} {lookups? : Option Lookups} {whole old new rest less : Window}
  {action : Action}

theorem Window.perm_dropLast {window : Window} (filled : window ≠ []) :
    window.Perm (window.getLast filled :: window.dropLast) := by
  conv_lhs => rw [← List.dropLast_append_getLast filled]
  exact List.perm_append_singleton ..

theorem turned_of_turn (settled : turn total lookups old new = some (action, rest, less)) :
    Turned lookups old new rest less := by
  match old, new with
  | [], _ => cases settled
  | o :: os, [] => cases settled
  | o :: os, n :: ns =>
      have olds := Window.perm_dropLast (List.cons_ne_nil o os)
      have news := Window.perm_dropLast (List.cons_ne_nil n ns)
      have shorter := List.dropLast_sublist (o :: os)
      have later := List.sublist_cons_self o os
      simp only [turn] at settled
      split at settled
      next same =>
        cases settled
        exact .pair same (.refl _) (.refl _) later
      split at settled
      next same =>
        cases settled
        exact .pair same olds news shorter
      split at settled
      next same =>
        cases settled
        exact .pair same (.refl _) news later
      split at settled
      next same =>
        cases settled
        exact .pair same olds (.refl _) shorter
      split at settled
      next gone =>
        cases settled
        exact .drop gone (.refl _) later
      split at settled
      next gone =>
        cases settled
        exact .drop gone olds shorter
      split at settled
      next entry found =>
        cases settled
        exact .reuse found (.refl _)
      next missed =>
        cases settled
        exact .make missed (.refl _)

theorem Turned.shorter (turned : Turned lookups old new rest less) :
    rest.length + less.length < old.length + new.length := by
  cases turned with
  | pair same olds news sublist =>
      have := olds.length_eq
      have := news.length_eq
      simp only [List.length_cons] at *
      omega
  | drop gone olds sublist =>
      have := olds.length_eq
      simp only [List.length_cons] at *
      omega
  | reuse found news =>
      have := length_filter_lt_of_reusable found
      have := news.length_eq
      simp only [List.length_cons] at *
      omega
  | make missed news =>
      have := news.length_eq
      simp only [List.length_cons] at *
      omega

theorem ends_of_turn (moves : ¬ Stuck old new) (settled : turn total lookups old new = some (action, rest, less)) :
    (rest = old.tail ∨ rest = old.dropLast) ∧ (less = new.tail ∨ less = new.dropLast) := by
  match old, new with
  | [], _ => cases settled
  | o :: os, [] => cases settled
  | o :: os, n :: ns =>
      simp only [turn] at settled
      split at settled
      next =>
        cases settled
        exact ⟨.inl rfl, .inl rfl⟩
      split at settled
      next =>
        cases settled
        exact ⟨.inr rfl, .inr rfl⟩
      split at settled
      next =>
        cases settled
        exact ⟨.inl rfl, .inr rfl⟩
      split at settled
      next =>
        cases settled
        exact ⟨.inr rfl, .inl rfl⟩
      next first last across back => exact absurd (stuck_cons.2 ⟨first, last, across, back⟩) moves

/-- What a pass has to know of what is left, once it has lookups. -/
structure Informed (whole : Window) (lookups? : Option Lookups) (old new : Window) : Prop where
  ready : Ready True lookups? old new
  current : ∀ lookups ∈ lookups?, lookups.Current old new
  within : old.Sublist whole

namespace Informed

theorem forget (informed : Informed whole lookups? old new) : Informed whole none old new where
  ready := ⟨informed.ready.indices, informed.ready.distinct, nofun⟩
  current := nofun
  within := informed.within

theorem indexed (informed : Informed whole lookups? old new) :
    Informed whole (some (lookups?.getD (.ofWindows new old))) old new where
  ready := informed.ready.indexed.2
  current lookups known := by
    cases known
    exact Lookups.Current.getD informed.current
  within := informed.within

theorem settle {n : Entry} (informed : Informed whole (some lookups) old new) (sublist : rest.Sublist old)
    (news : new.Perm (n :: less)) (apart : n.key ∉ rest.map Entry.key) : Informed whole (some lookups) rest less where
  ready := informed.ready.mono sublist fun _ member => news.mem_iff.2 (List.mem_cons_of_mem _ member)
  current known same := by
    refine (informed.current known same).settle (fun _ member => sublist.subset member) (fun other member => ?_) apart
    exact List.mem_cons.1 ((news.map Entry.key).mem_iff.1 member)
  within := sublist.trans informed.within

/-- Lookups stay right from one turn to the next: what they tell of items that are settled is asked no more. -/
theorem turned (informed : Informed whole (some lookups) old new) (turned : Turned lookups old new rest less) :
    Informed whole (some lookups) rest less := by
  have covers := informed.ready.covers lookups rfl
  have distinct := informed.ready.distinct trivial
  cases turned with
  | pair same olds news sublist =>
      have apart := (List.nodup_cons.1 ((olds.map Entry.key).nodup_iff.1 distinct)).1
      exact informed.settle sublist news (same ▸ apart)
  | drop gone olds sublist =>
      refine ⟨informed.ready.mono sublist fun _ => id, fun known same => ?_, sublist.trans informed.within⟩
      exact (informed.current known same).fewer fun _ member => sublist.subset member
  | @reuse entry n less found news =>
      obtain ⟨member, same⟩ := covers.reusable_some found
      refine informed.settle List.filter_sublist news fun again => ?_
      obtain ⟨other, left, alike⟩ := List.mem_map.1 again
      obtain ⟨here, apart⟩ := List.mem_filter.1 left
      cases List.inj_on_of_nodup_map distinct here member (alike.trans same.symm)
      simp at apart
  | make missed news => exact informed.settle (.refl _) news (covers.reusable_none trivial missed)

/-- A turn leaves the lookups as they are, or makes them if the pass is stuck. -/
theorem onward (informed : Informed whole lookups? old new)
    (turned : Turned (lookups?.getD (.ofWindows new old)) old new rest less) :
    Informed whole (some (lookups?.getD (.ofWindows new old))) rest less ∧ Informed whole lookups? rest less := by
  have after := informed.indexed.turned turned
  cases lookups? with
  | none => exact ⟨after, after.forget⟩
  | some lookups => exact ⟨after, after⟩

end Informed

/-- Lookups that tell, of what is left, which old items are wanted and where a key is among the old items. -/
structure Lookups.Serves (lookups : Lookups) (old new : Window) : Prop where
  wanted : ∀ entry ∈ old, lookups.hasNew entry.key ↔ entry.key ∈ new.map Entry.key
  found : ∀ key index, (lookups.oldIndex? key = some index ∧ index ∈ old.map Entry.index) ↔ ⟨index, key⟩ ∈ old

theorem Informed.serves (informed : Informed whole (some lookups) old new) : lookups.Serves old new where
  wanted entry member := by
    constructor
    · exact informed.current lookups rfl entry member
    · intro wanted
      obtain ⟨partner, here, same⟩ := List.mem_map.1 wanted
      exact same ▸ (informed.ready.covers lookups rfl).hasNew partner here
  found key index := by
    have covers := informed.ready.covers lookups rfl
    constructor
    · rintro ⟨told, left⟩
      obtain ⟨entry, member, rfl⟩ := List.mem_map.1 left
      obtain ⟨known, first, place⟩ := Option.map_eq_some_iff.1 told
      have asked : known.key = key := by simpa using List.find?_some first
      have same := covers.same known (List.mem_of_find?_eq_some first) entry member place
      rw [← asked, same]
      exact member
    · intro member
      obtain ⟨first, found⟩ : ∃ first, lookups.old.find? (·.key = key) = some first := by
        rw [← Option.isSome_iff_exists, List.find?_isSome]
        exact ⟨_, covers.whole trivial _ member, by simp⟩
      have asked : first.key = key := by simpa using List.find?_some found
      have same := List.inj_on_of_nodup_map covers.distinct (List.mem_of_find?_eq_some found)
        (covers.whole trivial _ member) asked
      refine ⟨?_, List.mem_map_of_mem member⟩
      rw [Lookups.oldIndex?, found, same]
      rfl

namespace Lookups.Serves

variable {one two : Lookups}

/-- An item is reused if and only if it waits and has the key that is asked for. -/
theorem reusable?_eq_some_iff (serves : lookups.Serves old new) (indices : (old.map Entry.index).Nodup) {key : Key}
    {entry : Entry} : reusable? lookups key old = some entry ↔ entry ∈ old ∧ entry.key = key := by
  constructor
  · intro found
    obtain ⟨index, told, hit⟩ := Option.bind_eq_some_iff.1 found
    have member := List.mem_of_find?_eq_some hit
    have place : entry.index = index := by simpa using List.find?_some hit
    have here := (serves.found key index).1 ⟨told, place ▸ List.mem_map_of_mem member⟩
    have same := List.inj_on_of_nodup_map indices member here place
    exact ⟨member, same ▸ rfl⟩
  · rintro ⟨member, rfl⟩
    have told := ((serves.found entry.key entry.index).2 member).1
    obtain ⟨hit, found⟩ : ∃ hit, old.find? (·.index = entry.index) = some hit := by
      rw [← Option.isSome_iff_exists, List.find?_isSome]
      exact ⟨entry, member, by simp⟩
    have place : hit.index = entry.index := by simpa using List.find?_some found
    have same := List.inj_on_of_nodup_map indices (List.mem_of_find?_eq_some found) member place
    rw [reusable?, told, Option.bind_some, found, same]

theorem hasNew_eq (first : one.Serves old new) (second : two.Serves old new) {entry : Entry} (member : entry ∈ old) :
    one.hasNew entry.key = two.hasNew entry.key :=
  Bool.eq_iff_iff.2 ((first.wanted entry member).trans (second.wanted entry member).symm)

theorem reusable?_eq (first : one.Serves old new) (second : two.Serves old new)
    (indices : (old.map Entry.index).Nodup) (key : Key) : reusable? one key old = reusable? two key old := by
  refine Option.ext fun entry => ?_
  rw [first.reusable?_eq_some_iff indices, second.reusable?_eq_some_iff indices]

theorem turn_eq (first : one.Serves old new) (second : two.Serves old new) (indices : (old.map Entry.index).Nodup)
    (total : Nat) : turn total one old new = turn total two old new := by
  match old, new with
  | [], _ => rfl
  | o :: os, [] => rfl
  | o :: os, n :: ns =>
      have head := first.hasNew_eq second (List.mem_cons_self (a := o) (l := os))
      have tail := first.hasNew_eq second (List.getLast_mem (List.cons_ne_nil o os))
      have reused := first.reusable?_eq second indices n.key
      simp only [turn, head, tail, reused]

end Lookups.Serves

end Turns

/-- Where a pass stands. -/
structure Progress where
  /-- The actions so far. -/
  actions : List Action
  /-- The lookups, if the pass was stuck already. -/
  lookups? : Option Lookups
  /-- What is left of the old items. -/
  old : Window
  /-- What is left of the new items. -/
  new : Window

namespace Progress

def start (old new : List Key) : Progress := ⟨[], none, .ofKeys old, .ofKeys new⟩

/-- The lookups to go by, which are made if there are none yet. -/
def lookups (progress : Progress) : Lookups := progress.lookups?.getD (.ofWindows progress.new progress.old)

def next? (total : Nat) (progress : Progress) : Option Progress :=
  (turn total progress.lookups progress.old progress.new).map fun (action, old, new) =>
    if Stuck progress.old progress.new then
      ⟨progress.actions ++ indexing progress.lookups? progress.new progress.old ++ [action], some progress.lookups,
        old, new⟩
    else ⟨progress.actions ++ [action], progress.lookups?, old, new⟩

theorem of_next? {total : Nat} {progress next : Progress} (onward : progress.next? total = some next) :
    ∃ action rest less, turn total progress.lookups progress.old progress.new = some (action, rest, less) ∧
      (Stuck progress.old progress.new ∧ next = ⟨progress.actions ++
          indexing progress.lookups? progress.new progress.old ++ [action], some progress.lookups, rest, less⟩ ∨
        ¬ Stuck progress.old progress.new ∧ next = ⟨progress.actions ++ [action], progress.lookups?, rest, less⟩) := by
  obtain ⟨⟨action, rest, less⟩, settled, after⟩ := Option.map_eq_some_iff.1 onward
  refine ⟨action, rest, less, settled, ?_⟩
  by_cases stuck : Stuck progress.old progress.new
  · simp only [if_pos stuck] at after
    exact .inl ⟨stuck, after.symm⟩
  · simp only [if_neg stuck] at after
    exact .inr ⟨stuck, after.symm⟩

/-- Where a pass gets on the way from one sequence of keys to another. -/
inductive Reached (old new : List Key) : Progress → Prop where
  | start : Reached old new (.start old new)
  | later {progress next : Progress} (reached : Reached old new progress)
      (onward : progress.next? new.length = some next) : Reached old new next

end Progress

namespace Informed

theorem ofKeys {old : List Key} (distinct : old.Nodup) (new : Window) :
    Informed (.ofKeys old) none (.ofKeys old) new where
  ready := by
    refine ⟨?_, fun _ => ?_, nofun⟩
    · rw [Window.indices_ofKeys]
      exact List.nodup_range'
    · rwa [Window.keys_ofKeys]
  current := nofun
  within := .refl _

end Informed

namespace Progress.Reached

variable {old new : List Key} {progress : Progress}

/-- The actions so far are the beginning of the plan, and the others settle what is left. -/
theorem plan_eq (reached : Reached old new progress) :
    plan old new = progress.actions ++ planWindows new.length progress.lookups? progress.old progress.new := by
  induction reached with
  | start => rfl
  | @later progress next reached onward ih =>
      obtain ⟨action, rest, less, settled, here⟩ := of_next? onward
      rw [lookups] at settled
      rw [ih, planWindows_eq_turn, settled]
      rcases here with ⟨stuck, rfl⟩ | ⟨moves, rfl⟩
      · simp [stuck, lookups]
      · simp [moves]

/-- Until the pass is stuck for the first time, what is left is not broken up. -/
theorem unbroken (reached : Reached old new progress) (unmade : progress.lookups? = none) :
    progress.old.Unbroken ∧ progress.new.Unbroken := by
  induction reached with
  | start => exact ⟨.ofKeys old, .ofKeys new⟩
  | @later progress next reached onward ih =>
      obtain ⟨action, rest, less, settled, ⟨stuck, rfl⟩ | ⟨moves, rfl⟩⟩ := of_next? onward
      · cases unmade
      · obtain ⟨olds, news⟩ := ih unmade
        obtain ⟨rfl | rfl, rfl | rfl⟩ := ends_of_turn moves settled
        · exact ⟨olds.tail, news.tail⟩
        · exact ⟨olds.tail, news.dropLast⟩
        · exact ⟨olds.dropLast, news.tail⟩
        · exact ⟨olds.dropLast, news.dropLast⟩

/-- Lookups are made from what is left when the pass is stuck for the first time. -/
theorem made_once (reached : Reached old new progress) {lookups : Lookups} (made : progress.lookups? = some lookups) :
    ∃ first, Reached old new first ∧ first.lookups? = none ∧ Stuck first.old first.new ∧
      first.actions <+: progress.actions ∧ lookups = .ofWindows first.new first.old := by
  induction reached with
  | start => cases made
  | @later progress next reached onward ih =>
      obtain ⟨action, rest, less, settled, ⟨stuck, rfl⟩ | ⟨moves, rfl⟩⟩ := of_next? onward
      · cases known : progress.lookups? with
        | none =>
            rw [Progress.lookups, known] at made
            cases made
            exact ⟨progress, reached, known, stuck, (List.prefix_append ..).trans (List.prefix_append ..), rfl⟩
        | some earlier =>
            rw [Progress.lookups, known] at made
            obtain ⟨first, was, unknown, halted, before, filled⟩ := ih (known.trans made)
            exact ⟨first, was, unknown, halted,
              before.trans ((List.prefix_append ..).trans (List.prefix_append ..)), filled⟩
      · obtain ⟨first, was, unknown, halted, before, filled⟩ := ih made
        exact ⟨first, was, unknown, halted, before.trans (List.prefix_append ..), filled⟩

theorem informed (distinct : old.Nodup) (reached : Reached old new progress) :
    Informed (.ofKeys old) progress.lookups? progress.old progress.new := by
  induction reached with
  | start => exact .ofKeys distinct _
  | @later progress next reached onward ih =>
      obtain ⟨action, rest, less, settled, ⟨stuck, rfl⟩ | ⟨moves, rfl⟩⟩ := of_next? onward
      · exact (ih.onward (turned_of_turn settled)).1
      · exact (ih.onward (turned_of_turn settled)).2

theorem serves (distinct : old.Nodup) (reached : Reached old new progress) :
    progress.lookups.Serves progress.old progress.new := (reached.informed distinct).indexed.serves

end Progress.Reached

end DomParts.Keyed
