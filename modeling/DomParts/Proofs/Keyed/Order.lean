import DomParts.Proofs.Keyed.Conservation
import DomParts.Proofs.Keyed.Shortcuts

/-! # Changes that keep the order

If items only come in, or only go away, no part is moved. While the keys of one window are among those of the
other in the same order, neither end of one window can meet the other end of the other; and once keys are
indexed, the lookups tell the items that go from those that stay.
-/

namespace DomParts.Keyed

/-- Lookups that call the key of a waiting item wanted only if a missing item has it. -/
def Lookups.Current (lookups : Lookups) (old new : Window) : Prop :=
  ∀ entry ∈ old, lookups.hasNew entry.key → entry.key ∈ new.map Entry.key

namespace Lookups.Current

variable {lookups : Lookups} {lookups? : Option Lookups} {old rest new less : Window}

theorem ofWindows (old new : Window) : (Lookups.ofWindows new old).Current old new := by
  intro entry _ known
  rw [Lookups.ofWindows_eq, hasNew_iff] at known
  obtain ⟨first, here, same⟩ := List.mem_map.1 known
  exact same ▸ List.mem_map_of_mem (Window.mem_of_mem_firsts here)

theorem settle (current : lookups.Current old new) {key : Key} (subset : ∀ entry ∈ rest, entry ∈ old)
    (others : ∀ other ∈ new.map Entry.key, other = key ∨ other ∈ less.map Entry.key)
    (apart : key ∉ rest.map Entry.key) : lookups.Current rest less := by
  intro entry member known
  cases others _ (current entry (subset entry member) known) with
  | inl same => exact absurd (same ▸ List.mem_map_of_mem member) apart
  | inr here => exact here

theorem fewer (current : lookups.Current old new) (subset : ∀ entry ∈ rest, entry ∈ old) :
    lookups.Current rest new :=
  fun entry member => current entry (subset entry member)

theorem getD (current : ∀ lookups ∈ lookups?, lookups.Current old new) :
    (lookups?.getD (.ofWindows new old)).Current old new := by
  cases lookups? with
  | none => exact ofWindows old new
  | some lookups => exact current lookups rfl

end Lookups.Current

section Ends

variable {few many : Window} {first second : Entry}

/-- If no first key meets the first one of the longer sequence, that one is not needed. -/
theorem sublist_of_head_ne (differ : ∀ one ∈ few.head?, one.key ≠ first.key)
    (sublist : (few.map Entry.key).Sublist ((first :: many).map Entry.key)) :
    (few.map Entry.key).Sublist (many.map Entry.key) := by
  cases few with
  | nil => exact List.nil_sublist _
  | cons one few => exact List.Sublist.of_cons_of_ne (differ one rfl) sublist

/-- If no last key meets the last one of the longer sequence, that one is not needed. -/
theorem sublist_of_last_ne (differ : ∀ one ∈ few.getLast?, one.key ≠ second.key)
    (sublist : (few.map Entry.key).Sublist ((many ++ [second]).map Entry.key)) :
    (few.map Entry.key).Sublist (many.map Entry.key) := by
  have backwards := List.reverse_sublist.2 sublist
  rw [← List.map_reverse, ← List.map_reverse, List.reverse_concat] at backwards
  have shorter := sublist_of_head_ne (by rwa [List.head?_reverse]) backwards
  rwa [← List.reverse_sublist, ← List.map_reverse, ← List.map_reverse]

theorem sublist_of_last_eq (same : first.key = second.key)
    (sublist : ((few ++ [first]).map Entry.key).Sublist ((many ++ [second]).map Entry.key)) :
    (few.map Entry.key).Sublist (many.map Entry.key) := by
  rw [List.map_append, List.map_append, List.map_singleton, List.map_singleton, same] at sublist
  exact (List.append_sublist_append_right [second.key]).1 sublist

theorem not_mem_of_nodup_concat (distinct : ((many ++ [second]).map Entry.key).Nodup) :
    second.key ∉ many.map Entry.key := by
  rw [List.map_append, List.map_singleton, List.nodup_append] at distinct
  exact fun member => distinct.2.2 _ member _ (List.mem_singleton_self _) rfl

theorem nodup_of_nodup_concat (distinct : ((many ++ [second]).map Entry.key).Nodup) :
    (many.map Entry.key).Nodup :=
  distinct.sublist ((List.sublist_append_left ..).map _)

end Ends

section Stuck

variable {lookups : Lookups} {old new : Window} {o n : Entry}

theorem Stuck.head_ne (stuck : Stuck (o :: old) new) : ∀ two ∈ new.head?, two.key ≠ o.key :=
  fun _ first same => stuck.2.2 o (List.mem_cons_self ..) _ (Window.mem_ends_of_mem_head? first) same.symm

/-- If nothing but waiting items is missing, the first old key is not wanted. -/
theorem Stuck.unwanted (stuck : Stuck (o :: old) new) (distinct : ((o :: old).map Entry.key).Nodup)
    (sublist : (new.map Entry.key).Sublist ((o :: old).map Entry.key)) (current : lookups.Current (o :: old) new) :
    ¬ lookups.hasNew o.key := by
  intro wanted
  have missing := current o (List.mem_cons_self ..) wanted
  exact (List.nodup_cons.1 distinct).1 ((sublist_of_head_ne stuck.head_ne sublist).subset missing)

theorem Lookups.Covers.wanted {careful : Prop} (covers : lookups.Covers careful old new)
    (sublist : (old.map Entry.key).Sublist (new.map Entry.key)) {entry : Entry} (member : entry ∈ old) :
    lookups.hasNew entry.key := by
  obtain ⟨partner, here, same⟩ := List.mem_map.1 (sublist.subset (List.mem_map_of_mem member))
  exact same ▸ covers.hasNew partner here

theorem Stuck.fresh (stuck : Stuck old (n :: new)) (distinct : ((n :: new).map Entry.key).Nodup)
    (sublist : (old.map Entry.key).Sublist ((n :: new).map Entry.key)) : n.key ∉ old.map Entry.key := by
  have differ : ∀ one ∈ old.head?, one.key ≠ n.key := fun one first =>
    stuck.2.2 one (Window.mem_ends_of_mem_head? first) n (List.mem_cons_self ..)
  exact fun member => (List.nodup_cons.1 distinct).1 ((sublist_of_head_ne differ sublist).subset member)

end Stuck

section Brings

variable {total : Nat} {lookups? : Option Lookups} {old new : Window} {action : Action}

theorem insertAll_brings (member : action ∈ insertAll total new) : action.brings = false := by
  unfold insertAll at member
  split at member
  · obtain ⟨entry, -, rfl⟩ := List.mem_map.1 member
    rfl
  · cases member

theorem removeAll_brings (member : action ∈ removeAll old) : action.brings = false := by
  obtain ⟨entry, -, rfl⟩ := List.mem_map.1 member
  rfl

theorem indexing_brings (member : action ∈ indexing lookups? new old) : action.brings = false := by
  unfold indexing at member
  split at member
  · cases member
  · cases List.mem_singleton.1 member
    rfl

end Brings

variable {total : Nat}

theorem planWindows_of_fewer (lookups? : Option Lookups) (old new : Window)
    (distinct : (old.map Entry.key).Nodup) (sublist : (new.map Entry.key).Sublist (old.map Entry.key))
    (current : ∀ lookups ∈ lookups?, lookups.Current old new) :
    ∀ action ∈ planWindows total lookups? old new, action.brings = false := by
  induction lookups?, old, new using planWindows_rules with
  | insert lookups? new =>
      rw [planWindows_nil_old]
      exact fun action => insertAll_brings
  | leftover lookups? old =>
      rw [planWindows_nil_new]
      exact fun action => removeAll_brings
  | keepFirst lookups? o n old new same ih =>
      rw [planWindows_keepFirst same, List.forall_mem_cons]
      rw [List.map_cons, List.map_cons] at sublist
      rw [List.map_cons, List.nodup_cons] at distinct
      refine ⟨rfl, ih distinct.2 (by rwa [same, List.cons_sublist_cons] at sublist) ?_⟩
      intro lookups known
      exact (current lookups known).settle (fun _ => List.mem_cons_of_mem _) (fun _ => List.mem_cons.1)
        (same ▸ distinct.1)
  | keepLast lookups? o n old new differ same ih =>
      rw [planWindows_keepLast differ same, List.forall_mem_cons]
      refine ⟨rfl, ih (nodup_of_nodup_concat distinct) (sublist_of_last_eq same.symm sublist) ?_⟩
      intro lookups known
      refine (current lookups known).settle (fun _ => List.mem_append_left _) ?_
        (same ▸ not_mem_of_nodup_concat distinct)
      intro other member
      rw [List.map_append, List.mem_append, List.map_singleton, List.mem_singleton] at member
      exact member.symm
  | bringLast lookups? o n old new differ apart same ih =>
      -- The first old key is not among the others, where all new keys are.
      have shorter := sublist_of_head_ne (fun two first => (differ two first).symm) sublist
      have among := shorter.subset (List.mem_map_of_mem (List.mem_append_right new (List.mem_singleton_self n)))
      exact absurd (same ▸ among) (List.nodup_cons.1 distinct).1
  | bringFirst lookups? first o n old new differ apart same ih =>
      -- The last old key is not among the others, where all new keys are.
      rw [← List.cons_append] at sublist distinct
      have shorter := sublist_of_last_ne (fun two last => (apart two last).1.symm) sublist
      have among := shorter.subset (List.mem_map_of_mem (List.mem_cons_self (a := n) (l := new)))
      exact absurd (same ▸ among) (not_mem_of_nodup_concat distinct)
  | dropFirst lookups? o old new stuck gone ih =>
      have known := Lookups.Current.getD current
      rw [planWindows_dropFirst stuck gone, List.forall_mem_append, List.forall_mem_cons]
      refine ⟨fun action => indexing_brings, rfl,
        ih (List.nodup_cons.1 distinct).2 (sublist_of_head_ne stuck.head_ne sublist) ?_⟩
      intro lookups same
      cases same
      exact known.fewer fun _ => List.mem_cons_of_mem _
  | dropLast lookups? o old new stuck wanted gone ih =>
      have known := Lookups.Current.getD current
      obtain ⟨first, others, olds⟩ := List.exists_cons_of_ne_nil stuck.1
      rw [olds] at stuck distinct sublist known wanted
      exact absurd (wanted first rfl) (stuck.unwanted distinct sublist known)
  | reuse lookups? o n entry old new stuck wanted found ih =>
      have known := Lookups.Current.getD current
      exact absurd (wanted o (List.mem_cons_self ..)) (stuck.unwanted distinct sublist known)
  | create lookups? o n old new stuck wanted missed ih =>
      have known := Lookups.Current.getD current
      exact absurd (wanted o (List.mem_cons_self ..)) (stuck.unwanted distinct sublist known)

theorem planWindows_of_more (lookups? : Option Lookups) (old new : Window) (ready : Ready True lookups? old new)
    (distinct : (new.map Entry.key).Nodup) (sublist : (old.map Entry.key).Sublist (new.map Entry.key)) :
    ∀ action ∈ planWindows total lookups? old new, action.brings = false := by
  induction lookups?, old, new using planWindows_rules with
  | insert lookups? new =>
      rw [planWindows_nil_old]
      exact fun action => insertAll_brings
  | leftover lookups? old =>
      rw [planWindows_nil_new]
      exact fun action => removeAll_brings
  | keepFirst lookups? o n old new same ih =>
      rw [planWindows_keepFirst same, List.forall_mem_cons]
      rw [List.map_cons, List.map_cons] at sublist
      rw [List.map_cons, List.nodup_cons] at distinct
      exact ⟨rfl, ih (ready.mono (List.sublist_cons_self ..) fun _ => List.mem_cons_of_mem _) distinct.2
        (by rwa [same, List.cons_sublist_cons] at sublist)⟩
  | keepLast lookups? o n old new differ same ih =>
      rw [planWindows_keepLast differ same, List.forall_mem_cons]
      exact ⟨rfl, ih (ready.mono (List.sublist_append_left ..) fun _ => List.mem_append_left _)
        (nodup_of_nodup_concat distinct) (sublist_of_last_eq same sublist)⟩
  | bringLast lookups? o n old new differ apart same ih =>
      -- The last new key is not among the others, where all old keys are.
      have shorter := sublist_of_last_ne apart sublist
      have among := shorter.subset (List.mem_map_of_mem (List.mem_cons_self (a := o) (l := old)))
      exact absurd (same ▸ among) (not_mem_of_nodup_concat distinct)
  | bringFirst lookups? first o n old new differ apart same ih =>
      -- The first new key is not among the others, where all old keys are.
      have shorter := sublist_of_head_ne (fun one head => by cases head; exact differ) sublist
      have last := List.mem_cons_of_mem first (List.mem_append_right old (List.mem_singleton_self o))
      exact absurd (same ▸ shorter.subset (List.mem_map_of_mem last)) (List.nodup_cons.1 distinct).1
  | dropFirst lookups? o old new stuck gone ih =>
      exact absurd (ready.indexed.1.wanted sublist (List.mem_cons_self ..)) gone
  | dropLast lookups? o old new stuck wanted gone ih =>
      exact absurd (ready.indexed.1.wanted sublist (List.mem_append_right old (List.mem_singleton_self o))) gone
  | reuse lookups? o n entry old new stuck wanted found ih =>
      obtain ⟨member, same⟩ := ready.indexed.1.reusable_some found
      exact absurd (same ▸ List.mem_map_of_mem member) (stuck.fresh distinct sublist)
  | create lookups? o n old new stuck wanted missed ih =>
      have apart := stuck.fresh distinct sublist
      have shorter := sublist_of_head_ne (fun one first same => apart (same ▸ List.mem_map_of_mem
        (List.mem_of_mem_head? first))) sublist
      rw [planWindows_create stuck wanted missed, List.forall_mem_append, List.forall_mem_cons]
      exact ⟨fun action => indexing_brings, rfl,
        ih (ready.indexed.2.mono (List.Sublist.refl _) fun _ => List.mem_cons_of_mem _)
          (List.nodup_cons.1 distinct).2 shorter⟩

end DomParts.Keyed
