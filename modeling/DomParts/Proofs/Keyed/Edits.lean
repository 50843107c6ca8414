import DomParts.Proofs.Keyed.Shortcuts
import Mathlib.Data.List.Induction

/-! # Edits that need no lookups

A plan does not index keys if one block of items was put in or taken out, if two items were swapped or if the
whole sequence was reversed. The windows shrink from both ends until the items in question stand at an end of each.
-/

namespace DomParts.Keyed

/-- What is done to a sequence of keys in one go. -/
inductive Edit : List Key → List Key → Prop where
  /-- Neighbours are put in. -/
  | insert (before block after : List Key) : Edit (before ++ after) (before ++ (block ++ after))
  /-- Neighbours are taken out. -/
  | remove (before block after : List Key) : Edit (before ++ (block ++ after)) (before ++ after)
  /-- Two items change places. -/
  | swap (before between after : List Key) (one two : Key) :
      Edit (before ++ one :: (between ++ two :: after)) (before ++ two :: (between ++ one :: after))
  /-- The last item becomes the first one, and so on. -/
  | reverse (keys : List Key) : Edit keys keys.reverse

/-- Two windows are settled without indexing, and that many parts are moved. -/
structure Unindexed (total : Nat) (old new : Window) (moves : Nat) : Prop where
  plain : ∀ action ∈ planWindows total none old new, ¬ action.indexes
  moves : (planWindows total none old new).countP Action.brings = moves

namespace Unindexed

variable {total moves : Nat} {old new : Window} {o n first : Entry} {before between after block : List Key}
  {one two : Key}

theorem keepFirst (same : o.key = n.key) (rest : Unindexed total old new moves) :
    Unindexed total (o :: old) (n :: new) moves := by
  constructor
  · rw [planWindows_keepFirst same, List.forall_mem_cons]
    exact ⟨id, rest.plain⟩
  · rw [planWindows_keepFirst same, List.countP_cons_of_neg (by simp [Action.brings]), rest.moves]

theorem keepLast (differ : ∀ one ∈ (old ++ [o]).head?, ∀ two ∈ (new ++ [n]).head?, one.key ≠ two.key)
    (same : o.key = n.key) (rest : Unindexed total old new moves) :
    Unindexed total (old ++ [o]) (new ++ [n]) moves := by
  constructor
  · rw [planWindows_keepLast differ same, List.forall_mem_cons]
    exact ⟨id, rest.plain⟩
  · rw [planWindows_keepLast differ same, List.countP_cons_of_neg (by simp [Action.brings]), rest.moves]

theorem bringLast (differ : ∀ two ∈ (new ++ [n]).head?, o.key ≠ two.key)
    (apart : ∀ one ∈ (o :: old).getLast?, one.key ≠ n.key) (same : o.key = n.key)
    (rest : Unindexed total old new moves) : Unindexed total (o :: old) (new ++ [n]) (moves + 1) := by
  constructor
  · rw [planWindows_bringLast differ apart same, List.forall_mem_cons]
    exact ⟨id, rest.plain⟩
  · rw [planWindows_bringLast differ apart same, List.countP_cons_of_pos rfl, rest.moves]

theorem bringFirst (differ : first.key ≠ n.key)
    (apart : ∀ two ∈ (n :: new).getLast?, o.key ≠ two.key ∧ first.key ≠ two.key) (same : o.key = n.key)
    (rest : Unindexed total (first :: old) new moves) :
    Unindexed total (first :: (old ++ [o])) (n :: new) (moves + 1) := by
  constructor
  · rw [planWindows_bringFirst differ apart same, List.forall_mem_cons]
    exact ⟨id, rest.plain⟩
  · rw [planWindows_bringFirst differ apart same, List.countP_cons_of_pos rfl, rest.moves]

theorem made (new : Window) : Unindexed total [] new 0 := by
  have creates : ∀ action ∈ insertAll total new, ¬ action.indexes ∧ ¬ action.brings = true := by
    intro action member
    unfold insertAll at member
    split at member
    · obtain ⟨entry, -, rfl⟩ := List.mem_map.1 member
      exact ⟨id, Bool.false_ne_true⟩
    · cases member
  constructor
  · rw [planWindows_nil_old]
    exact fun action member => (creates action member).1
  · rw [planWindows_nil_old, List.countP_eq_zero]
    exact fun action member => (creates action member).2

theorem gone (old : Window) : Unindexed total old [] 0 := by
  have removes : ∀ action ∈ removeAll old, ¬ action.indexes ∧ ¬ action.brings = true := by
    intro action member
    obtain ⟨entry, -, rfl⟩ := List.mem_map.1 member
    exact ⟨id, Bool.false_ne_true⟩
  constructor
  · rw [planWindows_nil_new]
    exact fun action member => (removes action member).1
  · rw [planWindows_nil_new, List.countP_eq_zero]
    exact fun action member => (removes action member).2

theorem same (keys : old.map Entry.key = new.map Entry.key) : Unindexed total old new 0 := by
  induction old generalizing new with
  | nil =>
      cases new with
      | nil => exact made []
      | cons n new => cases keys
  | cons o old ih =>
      cases new with
      | nil => cases keys
      | cons n new =>
          rw [List.map_cons, List.map_cons, List.cons.injEq] at keys
          exact keepFirst keys.1 (ih keys.2)

theorem heads {keys others : List Key}
    (rest : ∀ {old new : Window}, old.map Entry.key = keys → new.map Entry.key = others → Unindexed total old new moves)
    (olds : old.map Entry.key = before ++ keys) (news : new.map Entry.key = before ++ others) :
    Unindexed total old new moves := by
  induction before generalizing old new with
  | nil => exact rest olds news
  | cons key before ih =>
      obtain ⟨o, old, rfl, here, olds⟩ := List.map_eq_cons_iff.1 olds
      obtain ⟨n, new, rfl, there, news⟩ := List.map_eq_cons_iff.1 news
      exact keepFirst (here.trans there.symm) (ih olds news)

/-- What the windows have in common at the end is kept, if they begin with different keys. -/
theorem tails (keys others : List Key)
    (differ : ∀ one ∈ (keys ++ after).head?, ∀ two ∈ (others ++ after).head?, one ≠ two)
    (rest : ∀ {old new : Window}, old.map Entry.key = keys → new.map Entry.key = others → Unindexed total old new moves)
    (olds : old.map Entry.key = keys ++ after) (news : new.map Entry.key = others ++ after) :
    Unindexed total old new moves := by
  induction after using List.reverseRecOn generalizing old new with
  | nil => exact rest (by simpa using olds) (by simpa using news)
  | append_singleton after key ih =>
      rw [← List.append_assoc] at olds news
      obtain ⟨old, last, rfl, ahead, here⟩ := List.map_eq_append_iff.1 olds
      obtain ⟨new, ends, rfl, before, there⟩ := List.map_eq_append_iff.1 news
      obtain ⟨o, rfl, same⟩ := List.map_eq_singleton_iff.1 here
      obtain ⟨n, rfl, key⟩ := List.map_eq_singleton_iff.1 there
      refine keepLast ?_ (same.trans key.symm) (ih ?_ ahead before)
      · intro one first two second
        apply differ
        · rw [← List.append_assoc, ← olds, List.head?_map, first]
          rfl
        · rw [← List.append_assoc, ← news, List.head?_map, second]
          rfl
      · intro one first two second
        apply differ
        · rw [← List.append_assoc, List.head?_append, first]
          rfl
        · rw [← List.append_assoc, List.head?_append, second]
          rfl

theorem inserted (distinct : (new.map Entry.key).Nodup) (olds : old.map Entry.key = before ++ after)
    (news : new.map Entry.key = before ++ (block ++ after)) : Unindexed total old new 0 := by
  rw [news] at distinct
  refine heads (fun {old new} olds news => ?_) olds news
  cases block with
  | nil => exact same (olds.trans news.symm)
  | cons key block =>
      refine tails [] _ ?_ (fun {old new} olds _ => ?_) olds news
      · intro one first two second same
        cases second
        subst same
        have apart := (List.nodup_append.1 distinct).2.1
        exact (List.nodup_cons.1 apart).1 (List.mem_append_right _ (List.mem_of_mem_head? first))
      · rw [List.map_eq_nil_iff] at olds
        subst olds
        exact made new

theorem removed (distinct : (old.map Entry.key).Nodup) (olds : old.map Entry.key = before ++ (block ++ after))
    (news : new.map Entry.key = before ++ after) : Unindexed total old new 0 := by
  rw [olds] at distinct
  refine heads (fun {old new} olds news => ?_) olds news
  cases block with
  | nil => exact same (olds.trans news.symm)
  | cons key block =>
      refine tails _ [] ?_ (fun {old new} _ news => ?_) olds news
      · intro one first two second same
        cases first
        subst same
        have apart := (List.nodup_append.1 distinct).2.1
        exact (List.nodup_cons.1 apart).1 (List.mem_append_right _ (List.mem_of_mem_head? second))
      · rw [List.map_eq_nil_iff] at news
        subst news
        exact gone old

theorem rotated (distinct : (between ++ [two]).Nodup) (olds : old.map Entry.key = between ++ [two])
    (news : new.map Entry.key = two :: between) : Unindexed total old new (if between = [] then 0 else 1) := by
  obtain ⟨old, last, rfl, ahead, here⟩ := List.map_eq_append_iff.1 olds
  obtain ⟨o, rfl, rfl⟩ := List.map_eq_singleton_iff.1 here
  obtain ⟨n, new, rfl, there, behind⟩ := List.map_eq_cons_iff.1 news
  cases between with
  | nil =>
      cases List.map_eq_nil_iff.1 ahead
      cases List.map_eq_nil_iff.1 behind
      exact keepFirst there.symm (made [])
  | cons key between =>
      obtain ⟨first, old, rfl, start, olds⟩ := List.map_eq_cons_iff.1 ahead
      obtain ⟨second, new, rfl, next, news⟩ := List.map_eq_cons_iff.1 behind
      rw [if_neg (List.cons_ne_nil _ _)]
      have apart : first.key ≠ o.key := by
        intro again
        exact (List.nodup_cons.1 distinct).1 (by simp [← start, again])
      cases between with
      | nil =>
          -- A single item between them comes last now, so it is the one that is moved.
          cases List.map_eq_nil_iff.1 olds
          cases List.map_eq_nil_iff.1 news
          have rest : Unindexed total [o] [n] 0 := keepFirst there.symm (made [])
          refine bringLast ?_ ?_ (start.trans next.symm) rest
          · intro two found
            cases found
            exact there ▸ apart
          · intro one found
            cases found
            simpa [next, ← start] using apart.symm
      | cons other between =>
          have rest : Unindexed total (first :: old) (second :: new) 0 := same (by simp [start, next, olds, news])
          refine bringFirst (there ▸ apart) ?_ there.symm rest
          intro ends found
          have among : ends.key ∈ other :: between := by
            have keys := congrArg (Option.map Entry.key) found
            rw [← List.getLast?_map, List.map_cons, List.map_cons, news, List.getLast?_cons_cons,
              List.getLast?_cons_cons] at keys
            exact List.mem_of_getLast? keys
          constructor
          · intro again
            have := (List.nodup_append.1 distinct).2.2 ends.key (List.mem_cons_of_mem _ among) o.key
              (List.mem_singleton_self _)
            exact this again.symm
          · intro again
            exact (List.nodup_cons.1 distinct).1 (List.mem_append_left _ (start ▸ again ▸ among))

theorem swapped (distinct : (old.map Entry.key).Nodup)
    (olds : old.map Entry.key = before ++ one :: (between ++ two :: after))
    (news : new.map Entry.key = before ++ two :: (between ++ one :: after)) :
    Unindexed total old new (if between = [] then 1 else 2) := by
  rw [olds] at distinct
  replace distinct := (List.nodup_append.1 distinct).2.1
  have differ : one ≠ two := by
    intro again
    exact (List.nodup_cons.1 distinct).1 (by simp [again])
  refine heads (fun {old new} olds news => ?_) olds news
  have shape : ∀ (key other : Key), key :: (between ++ other :: after) = (key :: (between ++ [other])) ++ after := by
    simp
  rw [shape] at olds news
  refine tails _ _ ?_ (fun {old new} olds news => ?_) olds news
  · intro first here second there same
    cases here
    cases there
    exact differ same
  · obtain ⟨o, old, rfl, rfl, others⟩ := List.map_eq_cons_iff.1 olds
    rw [← List.cons_append] at news
    obtain ⟨new, last, rfl, begins, ends⟩ := List.map_eq_append_iff.1 news
    obtain ⟨n, rfl, same⟩ := List.map_eq_singleton_iff.1 ends
    have rest : Unindexed total old new _ := rotated (distinct.of_cons.sublist (by simp)) others begins
    have moves : (if between = [] then 1 else 2) = (if between = [] then 0 else 1) + 1 := by split <;> rfl
    rw [moves]
    refine bringLast ?_ ?_ same.symm rest
    · intro entry first again
      have keys := congrArg (Option.map Entry.key) first
      rw [← List.head?_map, List.map_append, begins] at keys
      cases keys
      exact differ again
    · intro entry last again
      have keys := congrArg (Option.map Entry.key) last
      rw [← List.getLast?_map, List.map_cons, others, ← List.cons_append, List.getLast?_concat] at keys
      cases keys
      exact differ (same.symm.trans again.symm)

theorem reversed (distinct : (old.map Entry.key).Nodup) (news : new.map Entry.key = (old.map Entry.key).reverse) :
    Unindexed total old new (old.length - 1) := by
  induction old generalizing new with
  | nil =>
      cases List.map_eq_nil_iff.1 news
      exact made []
  | cons o old ih =>
      rw [List.map_cons, List.reverse_cons] at news
      obtain ⟨new, last, rfl, others, ends⟩ := List.map_eq_append_iff.1 news
      obtain ⟨n, rfl, same⟩ := List.map_eq_singleton_iff.1 ends
      rw [List.map_cons, List.nodup_cons] at distinct
      cases old with
      | nil =>
          cases List.map_eq_nil_iff.1 others
          exact keepFirst same.symm (made [])
      | cons next old =>
          refine bringLast ?_ ?_ same.symm (ih distinct.2 others)
          · intro entry first again
            have among : entry.key ∈ (next :: old).map Entry.key := by
              have keys := congrArg (Option.map Entry.key) first
              rw [← List.head?_map, List.map_append, others, List.head?_append_of_ne_nil _ (by simp),
                List.head?_reverse] at keys
              exact List.mem_of_getLast? keys
            exact distinct.1 (again ▸ among)
          · intro entry last again
            apply distinct.1
            rw [List.getLast?_cons_cons] at last
            rw [← same, ← again]
            exact List.mem_map_of_mem (List.mem_of_getLast? last)

end Unindexed

variable {old new : List Key}

theorem Edit.plain (edit : Edit old new) (olds : old.Nodup) (news : new.Nodup) :
    ∀ action ∈ plan old new, ¬ action.indexes := by
  cases edit with
  | insert before block after =>
      exact (Unindexed.inserted (by simpa using news) (Window.keys_ofKeys _) (Window.keys_ofKeys _)).plain
  | remove before block after =>
      exact (Unindexed.removed (by simpa using olds) (Window.keys_ofKeys _) (Window.keys_ofKeys _)).plain
  | swap before between after one two =>
      exact (Unindexed.swapped (by simpa using olds) (Window.keys_ofKeys _) (Window.keys_ofKeys _)).plain
  | reverse keys => exact (Unindexed.reversed (by simpa using olds) (by simp)).plain

theorem brings_swap {before between after : List Key} {one two : Key}
    (distinct : (before ++ one :: (between ++ two :: after)).Nodup) :
    (plan (before ++ one :: (between ++ two :: after)) (before ++ two :: (between ++ one :: after))).countP
      Action.brings = if between = [] then 1 else 2 :=
  (Unindexed.swapped (by simpa using distinct) (Window.keys_ofKeys _) (Window.keys_ofKeys _)).moves

/-- A sequence is reversed by moving all items but one. -/
theorem brings_reverse (distinct : old.Nodup) : (plan old old.reverse).countP Action.brings = old.length - 1 := by
  have reversed : Unindexed old.reverse.length (.ofKeys old) (.ofKeys old.reverse) _ :=
    .reversed (by simpa using distinct) (by simp)
  rw [Window.length_ofKeys] at reversed
  exact reversed.moves

end DomParts.Keyed
