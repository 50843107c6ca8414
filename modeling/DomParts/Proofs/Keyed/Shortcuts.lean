import DomParts.Proofs.Keyed.Route

/-! # Plans that need little thought

Items at the beginning whose keys stay the same are kept one after the other. If no key stays, all old items
go, from the first to the last, and then all new ones are made at the end.
-/

namespace DomParts.Keyed

variable {total : Nat} {lookups? : Option Lookups} {old new : Window} {o n : Entry}

theorem planWindows_self (window : Window) :
    planWindows total lookups? window window = window.map fun entry => .keep .headMatch entry.index entry.index := by
  induction window with
  | nil => exact planWindows_nil_new
  | cons entry window ih => rw [planWindows_keepFirst rfl, ih, List.map_cons]

theorem stuck_of_apart (apart : ∀ one ∈ o :: old, ∀ two ∈ n :: new, one.key ≠ two.key) :
    Stuck (o :: old) (n :: new) := by
  have first := List.mem_cons_self (a := o) (l := old)
  have last := List.getLast_mem (List.cons_ne_nil o old)
  have first' := List.mem_cons_self (a := n) (l := new)
  have last' := List.getLast_mem (List.cons_ne_nil n new)
  exact stuck_cons.2 ⟨apart o first n first', apart _ last _ last', apart o first _ last', apart _ last n first'⟩

theorem planWindows_apart {lookups : Lookups} (apart : ∀ one ∈ old, ∀ two ∈ n :: new, one.key ≠ two.key)
    (unwanted : ∀ entry ∈ old, lookups.hasNew entry.key = false) :
    planWindows total (some lookups) old (n :: new) =
      (old.map fun entry => .remove .dropHead entry.index) ++ insertAll total (n :: new) := by
  induction old with
  | nil => exact planWindows_nil_old
  | cons o old ih =>
      rw [List.forall_mem_cons] at unwanted
      have gone : ¬ ((some lookups).getD (.ofWindows (n :: new) (o :: old))).hasNew o.key :=
        Bool.eq_false_iff.1 unwanted.1
      rw [planWindows_dropFirst (stuck_of_apart apart) gone, Option.getD_some,
        ih (List.forall_mem_cons.1 apart).2 unwanted.2]
      rfl

/-- An action that does nothing but index keys. -/
def Action.indexes : Action → Prop
  | .index .. => True
  | _ => False

instance : DecidablePred Action.indexes
  | .index .. => isTrue trivial
  | .keep .. => isFalse id
  | .bring .. => isFalse id
  | .create .. => isFalse id
  | .remove .. => isFalse id

theorem plan_apart {old new : List Key} (apart : ∀ key ∈ old, key ∉ new) : ∃ reports rule,
    (∀ action ∈ reports, action.indexes) ∧ plan old new = reports ++ (((Window.ofKeys old).map fun entry =>
      .remove rule entry.index) ++ insertAll new.length (.ofKeys new)) := by
  have differ : ∀ one ∈ Window.ofKeys old, ∀ two ∈ Window.ofKeys new, one.key ≠ two.key := by
    intro one here two there same
    exact apart one.key (List.mem_of_getElem? (Window.mem_ofKeys.1 here))
      (same ▸ List.mem_of_getElem? (Window.mem_ofKeys.1 there))
  rw [plan]
  cases olds : Window.ofKeys old with
  | nil => exact ⟨[], .leftover, nofun, planWindows_nil_old⟩
  | cons o others =>
      cases news : Window.ofKeys new with
      | nil => exact ⟨[], .leftover, nofun, by simp [planWindows_nil_new, removeAll, insertAll]⟩
      | cons n rest =>
          rw [olds, news] at differ
          have unwanted : ∀ entry ∈ o :: others,
              (Lookups.ofWindows (n :: rest) (o :: others)).hasNew entry.key = false := by
            intro entry member
            refine Bool.eq_false_iff.2 fun known => ?_
            rw [Lookups.ofWindows_eq, Lookups.hasNew_iff] at known
            obtain ⟨two, here, same⟩ := List.mem_map.1 known
            exact differ entry member two (Window.mem_of_mem_firsts here) same.symm
          rw [List.forall_mem_cons] at unwanted
          have gone : ¬ ((none : Option Lookups).getD (.ofWindows (n :: rest) (o :: others))).hasNew o.key :=
            Bool.eq_false_iff.1 unwanted.1
          refine ⟨indexing none (n :: rest) (o :: others), .dropHead, ?_, ?_⟩
          · intro action member
            obtain rfl := List.mem_singleton.1 member
            exact trivial
          · rw [planWindows_dropFirst (stuck_of_apart differ) gone, Option.getD_none,
              planWindows_apart (List.forall_mem_cons.1 differ).2 unwanted.2]
            rfl

theorem map_numbered (action : Nat → Action) (first : Nat) (keys : List Key) :
    ((Window.numbered first keys).map fun entry => action entry.index) = (List.range' first keys.length).map action := by
  rw [← Window.indices_numbered, List.map_map]
  rfl

theorem insertAll_numbered (first : Nat) (keys : List Key) :
    insertAll (first + keys.length) (.numbered first keys) =
      (List.range' first keys.length).map fun index => .create .insert index .atEnd := by
  cases ends : (Window.numbered first keys).getLast? with
  | none =>
      rw [List.getLast?_eq_none_iff] at ends
      cases keys with
      | nil => rfl
      | cons key keys => cases ends
  | some last =>
      have place : last.index + 1 = first + keys.length := by
        have := congrArg (Option.map Entry.index) ends
        rw [← List.getLast?_map, Window.indices_numbered, List.getLast?_range'] at this
        split at this
        · cases this
        · have := Option.some.inj this
          omega
      have atEnd : Anchor.behind (first + keys.length) last = .atEnd := if_neg (by omega)
      simp only [insertAll, ends, atEnd]
      exact map_numbered (.create .insert · .atEnd) first keys

/-- The keys of items by position, given where they begin. -/
def positions (first count : Nat) : List Key := (List.range' first count).map .index

@[simp] theorem length_positions (first count : Nat) : (positions first count).length = count := by simp [positions]

@[simp] theorem positions_zero (first : Nat) : positions first 0 = [] := rfl

theorem positions_succ (first count : Nat) :
    positions first (count + 1) = .index first :: positions (first + 1) count := by
  rw [positions, List.range'_succ, List.map_cons, positions]

/-- The actions for items by position: `waiting` old ones are kept, as far as there are new ones, and once they run
    out new ones are made at the end. -/
def steps : Nat → Nat → Nat → List Action
  | _, _, 0 => []
  | first, 0, count + 1 => .create .insert first .atEnd :: steps (first + 1) 0 count
  | first, waiting + 1, count + 1 => .keep .headMatch first first :: steps (first + 1) waiting count

@[simp] theorem steps_nil (first waiting : Nat) : steps first waiting 0 = [] := by
  cases waiting <;> rfl

theorem steps_nil_old (first count : Nat) :
    steps first 0 count = (List.range' first count).map fun index => .create .insert index .atEnd := by
  induction count generalizing first with
  | zero => rfl
  | succ count ih => rw [steps, ih, List.range'_succ, List.map_cons]

theorem planWindows_positions (first old new : Nat) (total_eq : first + new = total) :
    planWindows total lookups? (.numbered first (positions first old)) (.numbered first (positions first new)) =
      steps first old new ++ (List.range' (first + new) (old - new)).map (.remove .leftover) := by
  induction new generalizing first old with
  | zero =>
      have all := map_numbered (.remove .leftover) first (positions first old)
      rw [length_positions] at all
      rw [positions_zero, Window.numbered, planWindows_nil_new, removeAll, all, steps_nil, List.nil_append, Nat.add_zero,
        Nat.sub_zero]
  | succ new ih =>
      cases old with
      | zero =>
          have all := insertAll_numbered first (positions first (new + 1))
          rw [length_positions, total_eq] at all
          rw [positions_zero, Window.numbered, planWindows_nil_old, all, steps_nil_old, Nat.zero_sub, List.range'_zero,
            List.map_nil, List.append_nil]
      | succ old =>
          rw [positions_succ, positions_succ, Window.numbered, Window.numbered, planWindows, if_pos rfl,
            ih (first + 1) old (by omega), steps, List.cons_append, Nat.add_sub_add_right, Nat.add_right_comm,
            Nat.add_assoc]

/-- Items are kept where there are old ones, and what is left on one of the sides is made or goes. -/
theorem plan_positions (old new : Nat) : plan (positions 0 old) (positions 0 new) =
    steps 0 old new ++ (List.range' new (old - new)).map (.remove .leftover) := by
  have windows := @planWindows_positions new none 0 old new (Nat.zero_add new)
  rw [Nat.zero_add] at windows
  rw [plan, length_positions]
  exact windows

end DomParts.Keyed
