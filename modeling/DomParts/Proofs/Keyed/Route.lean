import DomParts.Proofs.Keyed.Lookups
import DomParts.Proofs.Keyed.Rules

/-! # Routes

The rules of a plan without the reasons for choosing them: how each of them shortens the windows of old
and new items, and from where an item is taken. Every plan is a route. Where keys do not repeat, a route
only makes items whose keys are new and only removes items whose keys are gone.
-/

namespace DomParts.Keyed

namespace Action

def updates : Action → Bool
  | .keep .. => true
  | .bring .. => true
  | _ => false

def brings : Action → Bool
  | .bring .. => true
  | _ => false

def creates : Action → Bool
  | .create .. => true
  | _ => false

def removes : Action → Bool
  | .remove .. => true
  | _ => false

end Action

/-- A way to settle two windows. It is careful if it never makes an item that could be kept. -/
inductive Route (careful : Prop) (total : Nat) : Window → Window → List Action → Prop where
  | done : Route careful total [] [] []
  | keepFirst {o n : Entry} {old new : Window} {actions : List Action} (rule : Rule) (same : o.key = n.key)
      (rest : Route careful total old new actions) :
      Route careful total (o :: old) (n :: new) (.keep rule o.index n.index :: actions)
  | keepLast {o n : Entry} {old new : Window} {actions : List Action} (rule : Rule) (same : o.key = n.key)
      (rest : Route careful total old new actions) :
      Route careful total (old ++ [o]) (new ++ [n]) (.keep rule o.index n.index :: actions)
  | bringLast {o n : Entry} {old new : Window} {actions : List Action} (rule : Rule) (same : o.key = n.key)
      (others : old ≠ []) (rest : Route careful total old new actions) :
      Route careful total (o :: old) (new ++ [n]) (.bring rule o.index n.index (.behind total n) :: actions)
  | bringFirst {first o n : Entry} {before after new : Window} {actions : List Action} (rule : Rule)
      (same : o.key = n.key) (rest : Route careful total (first :: (before ++ after)) new actions) :
      Route careful total (first :: (before ++ o :: after)) (n :: new)
        (.bring rule o.index n.index (.beforeOld first.index) :: actions)
  | createFirst {o n : Entry} {old new : Window} {actions : List Action} (rule : Rule)
      (fresh : careful → n.key ∉ (o :: old).map Entry.key)
      (rest : Route careful total (o :: old) new actions) :
      Route careful total (o :: old) (n :: new) (.create rule n.index (.beforeOld o.index) :: actions)
  | createLast {n last : Entry} {new : Window} {actions : List Action} (rule : Rule)
      (ends : (n :: new).getLast? = some last) (rest : Route careful total [] new actions) :
      Route careful total [] (n :: new) (.create rule n.index (.behind total last) :: actions)
  | remove {o : Entry} {before after new : Window} {actions : List Action} (rule : Rule)
      (gone : careful → o.key ∉ new.map Entry.key) (rest : Route careful total (before ++ after) new actions) :
      Route careful total (before ++ o :: after) new (.remove rule o.index :: actions)
  | index {old new : Window} {actions : List Action} (newCount oldCount duplicates : Nat)
      (rest : Route careful total old new actions) :
      Route careful total old new (.index newCount oldCount duplicates :: actions)

namespace Window

theorem keys_numbered (index : Nat) (keys : List Key) : (numbered index keys).map Entry.key = keys := by
  induction keys generalizing index with
  | nil => rfl
  | cons key keys ih => exact congrArg (key :: ·) (ih _)

theorem indices_numbered (index : Nat) (keys : List Key) :
    (numbered index keys).map Entry.index = List.range' index keys.length := by
  induction keys generalizing index with
  | nil => rfl
  | cons key keys ih => exact congrArg (index :: ·) (ih _)

@[simp] theorem keys_ofKeys (keys : List Key) : (ofKeys keys).map Entry.key = keys := keys_numbered 0 keys

theorem indices_ofKeys (keys : List Key) : (ofKeys keys).map Entry.index = List.range' 0 keys.length :=
  indices_numbered 0 keys

@[simp] theorem length_ofKeys (keys : List Key) : (ofKeys keys).length = keys.length := by
  have := congrArg List.length (keys_ofKeys keys)
  rwa [List.length_map] at this

theorem mem_ofKeys {keys : List Key} {entry : Entry} :
    entry ∈ ofKeys keys ↔ keys[entry.index]? = some entry.key := by
  have whole : ∀ (keys : List Key) (first : Nat), entry ∈ numbered first keys ↔
      first ≤ entry.index ∧ keys[entry.index - first]? = some entry.key := by
    intro keys
    induction keys with
    | nil => simp [numbered]
    | cons key keys ih =>
        intro first
        obtain ⟨index, own⟩ := entry
        simp only [numbered, List.mem_cons, ih, Entry.mk.injEq]
        constructor
        · rintro (⟨rfl, rfl⟩ | ⟨later, here⟩)
          · simp
          · refine ⟨by omega, ?_⟩
            rwa [show index - first = (index - (first + 1)) + 1 by omega, List.getElem?_cons_succ]
        · rintro ⟨from_first, here⟩
          rcases Nat.eq_or_lt_of_le from_first with rfl | later
          · exact .inl ⟨rfl, by simpa [eq_comm] using here⟩
          · refine .inr ⟨later, ?_⟩
            rwa [show index - first = (index - (first + 1)) + 1 by omega, List.getElem?_cons_succ] at here
  simpa [ofKeys] using whole keys 0

theorem mem_of_mem_firsts {window : Window} {entry : Entry} (member : entry ∈ window.firsts) :
    entry ∈ window := by
  induction window with
  | nil => exact member
  | cons first window ih =>
      rcases List.mem_cons.1 member with rfl | member
      · exact List.mem_cons_self ..
      · exact List.mem_cons_of_mem _ (ih (List.mem_of_mem_filter member))

theorem nodup_firsts (window : Window) : (window.firsts.map Entry.key).Nodup := by
  induction window with
  | nil => exact List.nodup_nil
  | cons first window ih =>
      simp only [firsts, List.map_cons, List.nodup_cons, List.mem_map, List.mem_filter]
      refine ⟨?_, ih.sublist (List.filter_sublist.map _)⟩
      rintro ⟨other, ⟨-, different⟩, same⟩
      simp [same] at different

theorem exists_first {window : Window} {entry : Entry} (member : entry ∈ window) :
    ∃ first ∈ window.firsts, first.key = entry.key := by
  induction window with
  | nil => cases member
  | cons head window ih =>
      by_cases same : head.key = entry.key
      · exact ⟨head, List.mem_cons_self .., same⟩
      · rcases List.mem_cons.1 member with rfl | member
        · exact absurd rfl same
        · obtain ⟨first, among, here⟩ := ih member
          refine ⟨first, List.mem_cons_of_mem _ (List.mem_filter.2 ⟨among, ?_⟩), here⟩
          simpa [here] using fun again : entry.key = head.key => same again.symm

theorem mem_firsts {window : Window} (distinct : (window.map Entry.key).Nodup) {entry : Entry}
    (member : entry ∈ window) : entry ∈ window.firsts := by
  obtain ⟨first, among, same⟩ := exists_first member
  have := List.inj_on_of_nodup_map distinct (mem_of_mem_firsts among) member same
  exact this ▸ among

end Window

/-- What lookups know of the windows that are left. -/
structure Lookups.Covers (lookups : Lookups) (careful : Prop) (old new : Window) : Prop where
  hasNew : ∀ entry ∈ new, lookups.hasNew entry.key
  distinct : (lookups.old.map Entry.key).Nodup
  same : ∀ known ∈ lookups.old, ∀ entry ∈ old, known.index = entry.index → known.key = entry.key
  whole : careful → ∀ entry ∈ old, entry ∈ lookups.old

namespace Lookups.Covers

variable {lookups : Lookups} {careful : Prop} {old new fewer less : Window}

theorem mono (covers : lookups.Covers careful old new) (fewer_old : ∀ entry ∈ fewer, entry ∈ old)
    (fewer_new : ∀ entry ∈ less, entry ∈ new) : lookups.Covers careful fewer less where
  hasNew entry member := covers.hasNew entry (fewer_new entry member)
  distinct := covers.distinct
  same known among entry member := covers.same known among entry (fewer_old entry member)
  whole care entry member := covers.whole care entry (fewer_old entry member)

theorem ofWindows (indices : (old.map Entry.index).Nodup) (distinct : careful → (old.map Entry.key).Nodup) :
    (Lookups.ofWindows new old).Covers careful old new where
  hasNew entry member := by
    obtain ⟨first, among, same⟩ := Window.exists_first member
    rw [ofWindows_eq, hasNew_iff, ← same]
    exact List.mem_map_of_mem among
  distinct := by
    rw [ofWindows_eq]
    exact Window.nodup_firsts old
  same known among entry member index := by
    rw [ofWindows_eq] at among
    rw [List.inj_on_of_nodup_map indices (Window.mem_of_mem_firsts among) member index]
  whole care entry member := by
    rw [ofWindows_eq]
    exact Window.mem_firsts (distinct care) member

theorem not_mem_of_not_hasNew (covers : lookups.Covers careful old new) {key : Key}
    (gone : ¬ lookups.hasNew key = true) : key ∉ new.map Entry.key := by
  intro member
  obtain ⟨entry, among, rfl⟩ := List.mem_map.1 member
  exact gone (covers.hasNew entry among)

theorem reusable_some (covers : lookups.Covers careful old new) {key : Key} {entry : Entry}
    (found : reusable? lookups key old = some entry) : entry ∈ old ∧ entry.key = key := by
  obtain ⟨index, lookup, hit⟩ := Option.bind_eq_some_iff.1 found
  obtain ⟨known, first, rfl⟩ := Option.map_eq_some_iff.1 lookup
  have here := List.mem_of_find?_eq_some hit
  have same : entry.index = known.index := by simpa using List.find?_some hit
  have asked : known.key = key := by simpa using List.find?_some first
  refine ⟨here, ?_⟩
  rw [← covers.same known (List.mem_of_find?_eq_some first) entry here same.symm, asked]

theorem reusable_none (covers : lookups.Covers careful old new) (care : careful) {key : Key}
    (missed : reusable? lookups key old = none) : key ∉ old.map Entry.key := by
  intro member
  obtain ⟨entry, here, rfl⟩ := List.mem_map.1 member
  have known := covers.whole care entry here
  obtain ⟨first, found⟩ : ∃ first, lookups.old.find? (·.key = entry.key) = some first := by
    rw [← Option.isSome_iff_exists, List.find?_isSome]
    exact ⟨entry, known, by simp⟩
  have asked : first.key = entry.key := by simpa using List.find?_some found
  obtain rfl := List.inj_on_of_nodup_map covers.distinct (List.mem_of_find?_eq_some found) known asked
  have none : old.find? (·.index = first.index) = none := by
    simpa [reusable?, Lookups.oldIndex?, found] using missed
  have := List.find?_eq_none.1 none first here
  simp at this

end Lookups.Covers

/-- What a plan relies on. -/
structure Ready (careful : Prop) (lookups? : Option Lookups) (old new : Window) : Prop where
  indices : (old.map Entry.index).Nodup
  distinct : careful → (old.map Entry.key).Nodup
  covers : ∀ lookups ∈ lookups?, lookups.Covers careful old new

namespace Ready

variable {careful : Prop} {lookups? : Option Lookups} {old new fewer less : Window}

theorem mono (ready : Ready careful lookups? old new) (sublist : fewer.Sublist old)
    (subset : ∀ entry ∈ less, entry ∈ new) : Ready careful lookups? fewer less where
  indices := ready.indices.sublist (sublist.map _)
  distinct care := (ready.distinct care).sublist (sublist.map _)
  covers lookups known := (ready.covers lookups known).mono (fun _ member => sublist.subset member) subset

theorem indexed (ready : Ready careful lookups? old new) :
    (lookups?.getD (.ofWindows new old)).Covers careful old new ∧
      Ready careful (some (lookups?.getD (.ofWindows new old))) old new := by
  have covers : (lookups?.getD (.ofWindows new old)).Covers careful old new := by
    cases lookups? with
    | none => exact .ofWindows ready.indices ready.distinct
    | some lookups => exact ready.covers lookups rfl
  refine ⟨covers, ready.indices, ready.distinct, fun lookups known => ?_⟩
  cases known
  exact covers

end Ready

namespace Route

variable {careful : Prop} {total : Nat}

theorem insertAll (new : Window) : Route careful total [] new (insertAll total new) := by
  simp only [Keyed.insertAll]
  cases ends : new.getLast? with
  | none =>
      rw [List.getLast?_eq_none_iff] at ends
      subst ends
      exact .done
  | some last =>
      simp only
      induction new with
      | nil => exact .done
      | cons n new ih =>
          refine .createLast .insert ends ?_
          cases new with
          | nil => exact .done
          | cons next new => exact ih (by simpa using ends)

theorem removeAll (old : Window) : Route careful total old [] (removeAll old) := by
  induction old with
  | nil => exact .done
  | cons o old ih =>
      have rest : Route careful total ([] ++ old) [] (Keyed.removeAll old) := ih
      exact .remove .leftover (fun _ => by simp) rest

section Ends

variable {first o n : Entry} {old new : Window} {actions : List Action}

theorem removeLast (rest : Route careful total old new actions) (rule : Rule)
    (gone : careful → o.key ∉ new.map Entry.key) :
    Route careful total (old ++ [o]) new (.remove rule o.index :: actions) := by
  rw [← List.append_nil old] at rest
  exact .remove rule gone rest

theorem bringOpposite (rule : Rule) (same : o.key = n.key) (rest : Route careful total (first :: old) new actions) :
    Route careful total (first :: (old ++ [o])) (n :: new)
      (.bring rule o.index n.index (.beforeOld first.index) :: actions) := by
  rw [← List.append_nil old] at rest
  exact .bringFirst rule same rest

end Ends

theorem indexed {old new : Window} {actions : List Action} (lookups? : Option Lookups)
    (route : Route careful total old new actions) :
    Route careful total old new (indexing lookups? new old ++ actions) := by
  unfold indexing
  split
  · exact route
  · exact .index _ _ _ route

theorem filter_index {first entry : Entry} {before after : Window}
    (indices : ((first :: (before ++ entry :: after)).map Entry.index).Nodup) :
    (first :: (before ++ entry :: after)).filter (·.index ≠ entry.index) = first :: (before ++ after) := by
  rw [← List.cons_append] at indices ⊢
  replace indices := List.nodup_cons.1 ((List.perm_middle.map Entry.index).nodup_iff.1 indices)
  have others : ∀ other ∈ (first :: before) ++ after, decide (other.index ≠ entry.index) = true := by
    intro other member
    have : other.index ≠ entry.index := fun same => indices.1 (same ▸ List.mem_map_of_mem member)
    simpa using this
  have kept := List.filter_eq_self.2 others
  rw [List.filter_append] at kept
  have gone : (entry :: after).filter (·.index ≠ entry.index) = after.filter (·.index ≠ entry.index) :=
    List.filter_cons_of_neg (by simp)
  rw [List.filter_append, gone, kept, List.cons_append]

theorem planWindows (lookups? : Option Lookups) (old new : Window) (ready : Ready careful lookups? old new) :
    Route careful total old new (planWindows total lookups? old new) := by
  induction lookups?, old, new using planWindows_rules with
  | insert lookups? new =>
      rw [planWindows_nil_old]
      exact insertAll new
  | leftover lookups? old =>
      rw [planWindows_nil_new]
      exact removeAll old
  | keepFirst lookups? o n old new same ih =>
      rw [planWindows_keepFirst same]
      exact .keepFirst _ same (ih (ready.mono (List.sublist_cons_self ..) fun _ => List.mem_cons_of_mem _))
  | keepLast lookups? o n old new differ same ih =>
      rw [planWindows_keepLast differ same]
      exact .keepLast _ same (ih (ready.mono (List.sublist_append_left ..) fun _ => List.mem_append_left _))
  | bringLast lookups? o n old new differ apart same ih =>
      rw [planWindows_bringLast differ apart same]
      -- A single old item would have stayed, since its key is the last one on both sides.
      have others : old ≠ [] := by
        intro none
        subst none
        exact apart o rfl same
      exact .bringLast _ same others (ih (ready.mono (List.sublist_cons_self ..) fun _ => List.mem_append_left _))
  | bringFirst lookups? first o n old new differ apart same ih =>
      rw [planWindows_bringFirst differ apart same]
      exact bringOpposite _ same
        (ih (ready.mono ((List.sublist_append_left ..).cons_cons first) fun _ => List.mem_cons_of_mem _))
  | dropFirst lookups? o old new stuck gone ih =>
      obtain ⟨covers, indexed⟩ := ready.indexed
      rw [planWindows_dropFirst stuck gone]
      have rest : Route careful total ([] ++ old) new _ := ih (indexed.mono (List.sublist_cons_self ..) fun _ => id)
      exact (rest.remove _ fun _ => covers.not_mem_of_not_hasNew gone).indexed lookups?
  | dropLast lookups? o old new stuck wanted gone ih =>
      obtain ⟨covers, indexed⟩ := ready.indexed
      rw [planWindows_dropLast stuck wanted gone]
      have rest := ih (indexed.mono (List.sublist_append_left ..) fun _ => id)
      exact (rest.removeLast _ fun _ => covers.not_mem_of_not_hasNew gone).indexed lookups?
  | reuse lookups? o n entry old new stuck wanted found ih =>
      obtain ⟨covers, indexed⟩ := ready.indexed
      obtain ⟨member, same⟩ := covers.reusable_some found
      rw [planWindows_reuse stuck wanted found]
      have rest := ih (indexed.mono List.filter_sublist fun _ => List.mem_cons_of_mem _)
      have later : entry ∈ old := by
        rcases List.mem_cons.1 member with rfl | later
        · exact absurd same (stuck_cons.1 stuck).1
        · exact later
      obtain ⟨before, after, rfl⟩ := List.append_of_mem later
      rw [filter_index ready.indices] at rest ⊢
      exact .indexed lookups? (.bringFirst .placeHead same rest)
  | create lookups? o n old new stuck wanted missed ih =>
      obtain ⟨covers, indexed⟩ := ready.indexed
      rw [planWindows_create stuck wanted missed]
      have rest := ih (indexed.mono (List.Sublist.refl _) fun _ => List.mem_cons_of_mem _)
      exact (rest.createFirst _ fun care => covers.reusable_none care missed).indexed lookups?

theorem plan (old new : List Key) (distinct : careful → old.Nodup) :
    Route careful new.length (.ofKeys old) (.ofKeys new) (plan old new) := by
  refine planWindows none _ _ ⟨?_, fun care => by simpa using distinct care, nofun⟩
  rw [Window.indices_ofKeys]
  exact List.nodup_range'

end Route

end DomParts.Keyed
