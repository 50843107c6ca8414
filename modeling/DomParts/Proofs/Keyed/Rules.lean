import DomParts.Keyed.Plan
import Mathlib.Tactic.Tauto

/-! # The rules of a plan

One equation for each way a plan settles an item, given what rules out the ways that come before it, and the
induction that follows them. What entries are left is written so that the one that is settled stands at its end.
-/

namespace DomParts.Keyed

def Window.ends (window : Window) : List Entry := window.head?.toList ++ window.getLast?.toList

/-- Something is left on both sides, but no ends belong together. -/
def Stuck (old new : Window) : Prop :=
  old ≠ [] ∧ new ≠ [] ∧ ∀ o ∈ old.ends, ∀ n ∈ new.ends, o.key ≠ n.key

instance (old new : Window) : Decidable (Stuck old new) :=
  inferInstanceAs (Decidable (old ≠ [] ∧ new ≠ [] ∧ ∀ o ∈ old.ends, ∀ n ∈ new.ends, o.key ≠ n.key))

section Equations

variable {total : Nat} {lookups? : Option Lookups} {old new : Window} {o n first entry : Entry}

theorem stuck_cons : Stuck (o :: old) (n :: new) ↔ o.key ≠ n.key ∧
    ((o :: old).getLast (List.cons_ne_nil _ _)).key ≠ ((n :: new).getLast (List.cons_ne_nil _ _)).key ∧
    o.key ≠ ((n :: new).getLast (List.cons_ne_nil _ _)).key ∧
    ((o :: old).getLast (List.cons_ne_nil _ _)).key ≠ n.key := by
  simp only [Stuck, Window.ends, List.getLast?_eq_some_getLast (List.cons_ne_nil _ _), List.head?_cons,
    Option.toList_some, List.singleton_append, List.forall_mem_cons, List.not_mem_nil, false_implies, implies_true,
    and_true, ne_eq, reduceCtorEq, not_false_eq_true, true_and]
  tauto

theorem Window.mem_ends_of_mem_head? (first : entry ∈ old.head?) : entry ∈ old.ends :=
  List.mem_append_left _ (Option.mem_toList.2 first)

theorem Window.mem_ends_of_mem_getLast? (last : entry ∈ old.getLast?) : entry ∈ old.ends :=
  List.mem_append_right _ (Option.mem_toList.2 last)

theorem planWindows_nil_old : planWindows total lookups? [] new = insertAll total new := by
  rw [planWindows]

theorem planWindows_nil_new : planWindows total lookups? old [] = removeAll old := by
  cases old with
  | nil => rw [planWindows_nil_old, insertAll, List.getLast?_nil, removeAll, List.map_nil]
  | cons entry old => rw [planWindows]; simp

theorem planWindows_keepFirst (same : o.key = n.key) : planWindows total lookups? (o :: old) (n :: new) =
    .keep .headMatch o.index n.index :: planWindows total lookups? old new := by
  rw [planWindows, if_pos same]

theorem planWindows_keepLast
    (differ : ∀ one ∈ (old ++ [o]).head?, ∀ two ∈ (new ++ [n]).head?, one.key ≠ two.key) (same : o.key = n.key) :
    planWindows total lookups? (old ++ [o]) (new ++ [n]) =
      .keep .tailMatch o.index n.index :: planWindows total lookups? old new := by
  obtain ⟨one, ones, olds⟩ := List.exists_cons_of_ne_nil (List.append_ne_nil_of_right_ne_nil old (List.cons_ne_nil o []))
  obtain ⟨two, twos, news⟩ := List.exists_cons_of_ne_nil (List.append_ne_nil_of_right_ne_nil new (List.cons_ne_nil n []))
  rw [olds, news] at differ
  have oldLast : (one :: ones).getLast (List.cons_ne_nil _ _) = o := by simp only [← olds, List.getLast_concat]
  have newLast : (two :: twos).getLast (List.cons_ne_nil _ _) = n := by simp only [← news, List.getLast_concat]
  rw [olds, news, planWindows, if_neg (differ one rfl two rfl), oldLast, newLast, if_pos same, ← olds, ← news,
    List.dropLast_concat, List.dropLast_concat]

/-- The first old item is brought to the end if it comes last and not first. -/
theorem planWindows_bringLast (differ : ∀ two ∈ (new ++ [n]).head?, o.key ≠ two.key)
    (apart : ∀ one ∈ (o :: old).getLast?, one.key ≠ n.key) (same : o.key = n.key) :
    planWindows total lookups? (o :: old) (new ++ [n]) =
      .bring .headToTail o.index n.index (.behind total n) :: planWindows total lookups? old new := by
  obtain ⟨two, twos, news⟩ := List.exists_cons_of_ne_nil (List.append_ne_nil_of_right_ne_nil new (List.cons_ne_nil n []))
  rw [news] at differ
  have newLast : (two :: twos).getLast (List.cons_ne_nil _ _) = n := by simp only [← news, List.getLast_concat]
  have tails := apart _ (List.getLast?_eq_some_getLast (List.cons_ne_nil o old))
  rw [news, planWindows, if_neg (differ two rfl), newLast, if_neg tails, if_pos same, ← news, List.dropLast_concat]

/-- The last old item is brought to the front if it comes first and the items at the other ends differ. -/
theorem planWindows_bringFirst (differ : first.key ≠ n.key)
    (apart : ∀ two ∈ (n :: new).getLast?, o.key ≠ two.key ∧ first.key ≠ two.key) (same : o.key = n.key) :
    planWindows total lookups? (first :: (old ++ [o])) (n :: new) =
      .bring .tailToHead o.index n.index (.beforeOld first.index) :: planWindows total lookups? (first :: old) new := by
  have oldLast : (first :: (old ++ [o])).getLast (List.cons_ne_nil _ _) = o := by
    simp only [← List.cons_append, List.getLast_concat]
  have shorter : (first :: (old ++ [o])).dropLast = first :: old := by
    rw [← List.cons_append, List.dropLast_concat]
  obtain ⟨tails, across⟩ := apart _ (List.getLast?_eq_some_getLast (List.cons_ne_nil n new))
  rw [planWindows, if_neg differ, oldLast, if_neg tails, if_neg across, if_pos same, shorter]

/-- Where no ends belong together, the first old item goes if its key is not wanted. -/
theorem planWindows_dropFirst (stuck : Stuck (o :: old) new)
    (gone : ¬ (lookups?.getD (.ofWindows new (o :: old))).hasNew o.key) :
    planWindows total lookups? (o :: old) new = indexing lookups? new (o :: old) ++ .remove .dropHead o.index ::
      planWindows total (some (lookups?.getD (.ofWindows new (o :: old)))) old new := by
  obtain ⟨n, new, rfl⟩ := List.exists_cons_of_ne_nil stuck.2.1
  obtain ⟨heads, tails, across, back⟩ := stuck_cons.1 stuck
  rw [planWindows, if_neg heads, if_neg tails, if_neg across, if_neg back]
  exact congrArg (indexing lookups? (n :: new) (o :: old) ++ ·) (if_pos gone)

/-- The last old item goes if its key is not wanted and that of the first one is. -/
theorem planWindows_dropLast (stuck : Stuck (old ++ [o]) new)
    (wanted : ∀ one ∈ (old ++ [o]).head?, (lookups?.getD (.ofWindows new (old ++ [o]))).hasNew one.key)
    (gone : ¬ (lookups?.getD (.ofWindows new (old ++ [o]))).hasNew o.key) :
    planWindows total lookups? (old ++ [o]) new = indexing lookups? new (old ++ [o]) ++ .remove .dropTail o.index ::
      planWindows total (some (lookups?.getD (.ofWindows new (old ++ [o])))) old new := by
  obtain ⟨n, new, rfl⟩ := List.exists_cons_of_ne_nil stuck.2.1
  obtain ⟨one, ones, olds⟩ := List.exists_cons_of_ne_nil stuck.1
  have oldLast : (one :: ones).getLast (List.cons_ne_nil _ _) = o := by simp only [← olds, List.getLast_concat]
  have shorter : (one :: ones).dropLast = old := by rw [← olds, List.dropLast_concat]
  rw [olds] at stuck wanted gone ⊢
  obtain ⟨heads, tails, across, back⟩ := stuck_cons.1 stuck
  rw [planWindows, if_neg heads, if_neg tails, if_neg across, if_neg back]
  simp only [oldLast, shorter]
  refine congrArg (indexing lookups? (n :: new) (one :: ones) ++ ·) ?_
  rw [if_neg (not_not.2 (wanted one rfl)), if_pos gone]

/-- An old item is brought to the first new place if it has its key and the ends are wanted elsewhere. -/
theorem planWindows_reuse (stuck : Stuck (o :: old) (n :: new))
    (wanted : ∀ one ∈ Window.ends (o :: old), (lookups?.getD (.ofWindows (n :: new) (o :: old))).hasNew one.key)
    (found : reusable? (lookups?.getD (.ofWindows (n :: new) (o :: old))) n.key (o :: old) = some entry) :
    planWindows total lookups? (o :: old) (n :: new) = indexing lookups? (n :: new) (o :: old) ++
      .bring .placeHead entry.index n.index (.beforeOld o.index) ::
        planWindows total (some (lookups?.getD (.ofWindows (n :: new) (o :: old))))
          ((o :: old).filter (·.index ≠ entry.index)) new := by
  obtain ⟨heads, tails, across, back⟩ := stuck_cons.1 stuck
  have head := wanted o (List.mem_cons_self ..)
  have tail := wanted _ (Window.mem_ends_of_mem_getLast? (List.getLast?_eq_some_getLast (List.cons_ne_nil o old)))
  rw [planWindows, if_neg heads, if_neg tails, if_neg across, if_neg back]
  refine congrArg (indexing lookups? (n :: new) (o :: old) ++ ·) ?_
  rw [if_neg (not_not.2 head), if_neg (not_not.2 tail)]
  split
  next other again => cases found.symm.trans again; rfl
  next missed => cases found.symm.trans missed

/-- An item is made at the first new place if no old one has its key and the ends are wanted elsewhere. -/
theorem planWindows_create (stuck : Stuck (o :: old) (n :: new))
    (wanted : ∀ one ∈ Window.ends (o :: old), (lookups?.getD (.ofWindows (n :: new) (o :: old))).hasNew one.key)
    (missed : reusable? (lookups?.getD (.ofWindows (n :: new) (o :: old))) n.key (o :: old) = none) :
    planWindows total lookups? (o :: old) (n :: new) = indexing lookups? (n :: new) (o :: old) ++
      .create .placeHead n.index (.beforeOld o.index) ::
        planWindows total (some (lookups?.getD (.ofWindows (n :: new) (o :: old)))) (o :: old) new := by
  obtain ⟨heads, tails, across, back⟩ := stuck_cons.1 stuck
  have head := wanted o (List.mem_cons_self ..)
  have tail := wanted _ (Window.mem_ends_of_mem_getLast? (List.getLast?_eq_some_getLast (List.cons_ne_nil o old)))
  rw [planWindows, if_neg heads, if_neg tails, if_neg across, if_neg back]
  refine congrArg (indexing lookups? (n :: new) (o :: old) ++ ·) ?_
  rw [if_neg (not_not.2 head), if_neg (not_not.2 tail)]
  split
  next entry found => cases missed.symm.trans found
  next => rfl

end Equations

/-- What every rule passes on from the windows it leaves to those it starts from holds of all windows. -/
@[elab_as_elim]
theorem planWindows_rules {motive : Option Lookups → Window → Window → Prop}
    (insert : ∀ lookups? new, motive lookups? [] new)
    (leftover : ∀ lookups? old, motive lookups? old [])
    (keepFirst : ∀ lookups? (o n : Entry) old new, o.key = n.key → motive lookups? old new →
      motive lookups? (o :: old) (n :: new))
    (keepLast : ∀ lookups? (o n : Entry) (old new : Window),
      (∀ one ∈ (old ++ [o]).head?, ∀ two ∈ (new ++ [n]).head?, one.key ≠ two.key) → o.key = n.key →
      motive lookups? old new → motive lookups? (old ++ [o]) (new ++ [n]))
    (bringLast : ∀ lookups? (o n : Entry) (old new : Window), (∀ two ∈ (new ++ [n]).head?, o.key ≠ two.key) →
      (∀ one ∈ (o :: old).getLast?, one.key ≠ n.key) → o.key = n.key →
      motive lookups? old new → motive lookups? (o :: old) (new ++ [n]))
    (bringFirst : ∀ lookups? (first o n : Entry) (old new : Window), first.key ≠ n.key →
      (∀ two ∈ (n :: new).getLast?, o.key ≠ two.key ∧ first.key ≠ two.key) → o.key = n.key →
      motive lookups? (first :: old) new → motive lookups? (first :: (old ++ [o])) (n :: new))
    (dropFirst : ∀ lookups? (o : Entry) old new, Stuck (o :: old) new →
      ¬ (lookups?.getD (.ofWindows new (o :: old))).hasNew o.key →
      motive (some (lookups?.getD (.ofWindows new (o :: old)))) old new → motive lookups? (o :: old) new)
    (dropLast : ∀ lookups? (o : Entry) (old new : Window), Stuck (old ++ [o]) new →
      (∀ one ∈ (old ++ [o]).head?, (lookups?.getD (.ofWindows new (old ++ [o]))).hasNew one.key) →
      ¬ (lookups?.getD (.ofWindows new (old ++ [o]))).hasNew o.key →
      motive (some (lookups?.getD (.ofWindows new (old ++ [o])))) old new → motive lookups? (old ++ [o]) new)
    (reuse : ∀ lookups? (o n entry : Entry) (old new : Window), Stuck (o :: old) (n :: new) →
      (∀ one ∈ Window.ends (o :: old), (lookups?.getD (.ofWindows (n :: new) (o :: old))).hasNew one.key) →
      reusable? (lookups?.getD (.ofWindows (n :: new) (o :: old))) n.key (o :: old) = some entry →
      motive (some (lookups?.getD (.ofWindows (n :: new) (o :: old)))) ((o :: old).filter (·.index ≠ entry.index)) new →
      motive lookups? (o :: old) (n :: new))
    (create : ∀ lookups? (o n : Entry) (old new : Window), Stuck (o :: old) (n :: new) →
      (∀ one ∈ Window.ends (o :: old), (lookups?.getD (.ofWindows (n :: new) (o :: old))).hasNew one.key) →
      reusable? (lookups?.getD (.ofWindows (n :: new) (o :: old))) n.key (o :: old) = none →
      motive (some (lookups?.getD (.ofWindows (n :: new) (o :: old)))) (o :: old) new →
      motive lookups? (o :: old) (n :: new))
    (lookups? : Option Lookups) (old new : Window) : motive lookups? old new := by
  induction lookups?, old, new using planWindows.induct with
  | case1 lookups? new => exact insert lookups? new
  | case2 lookups? old filled => exact leftover lookups? old
  | case3 lookups? o os n ns same rest => exact keepFirst lookups? o n os ns same rest
  | case4 lookups? o os n ns oldLast newLast differ same rest =>
      have settled := keepLast lookups? oldLast newLast (o :: os).dropLast (n :: ns).dropLast
      rw [List.dropLast_concat_getLast, List.dropLast_concat_getLast] at settled
      exact settled (by simpa using differ) same rest
  | case5 lookups? o os n ns oldLast newLast differ apart same rest =>
      have settled := bringLast lookups? o newLast os (n :: ns).dropLast
      rw [List.dropLast_concat_getLast, List.getLast?_eq_some_getLast (List.cons_ne_nil o os)] at settled
      exact settled (by simpa using differ) (by simpa using apart) same rest
  | case6 lookups? o os n ns oldLast newLast differ apart across same rest =>
      -- The last old item is not the first one, since their keys differ.
      rcases os.eq_nil_or_concat with rfl | ⟨before, last, shape⟩
      · exact absurd same differ
      · rw [List.concat_eq_append] at shape
        subst shape
        have ends : oldLast = last := by simp only [oldLast, ← List.cons_append, List.getLast_concat]
        rw [ends] at apart same
        rw [← List.cons_append, List.dropLast_concat] at rest
        refine bringFirst lookups? o last n before ns differ (fun two final => ?_) same rest
        rw [List.getLast?_eq_some_getLast (List.cons_ne_nil n ns)] at final
        cases final
        exact ⟨apart, across⟩
  | case7 lookups? o os n ns oldLast newLast differ apart across back lookups one two three four =>
      have stuck : Stuck (o :: os) (n :: ns) := stuck_cons.2 ⟨differ, apart, across, back⟩
      by_cases gone : ¬ lookups.hasNew o.key
      · exact dropFirst lookups? o os (n :: ns) stuck gone one
      by_cases lost : ¬ lookups.hasNew oldLast.key
      · have shape : (o :: os).dropLast ++ [oldLast] = o :: os := List.dropLast_concat_getLast _
        have settled := dropLast lookups? oldLast (o :: os).dropLast (n :: ns)
        rw [shape] at settled
        exact settled stuck (fun first head => by cases head; exact not_not.1 gone) lost two
      have wanted : ∀ entry ∈ Window.ends (o :: os), lookups.hasNew entry.key := by
        rw [Window.ends, List.getLast?_eq_some_getLast (List.cons_ne_nil o os)]
        simpa using ⟨not_not.1 gone, not_not.1 lost⟩
      cases reused : reusable? lookups n.key (o :: os) with
      | some entry => exact reuse lookups? o n entry os ns stuck wanted reused (three entry reused)
      | none => exact create lookups? o n os ns stuck wanted reused four

end DomParts.Keyed
