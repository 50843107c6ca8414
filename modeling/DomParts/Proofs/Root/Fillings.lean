import DomParts.Proofs.Keyed.Lasting
import DomParts.Proofs.Root.Health

/-! # One filling is enough

However a list by key is shown again, its lookups are filled once at most, and it is shown as if they were filled
whenever the pass is stuck.
-/

namespace DomParts

open Keyed RenderM

variable {σ : Type}

namespace Render

/-- Filling lookups forgets what they held, finds each key where it occurs first and counts all repetitions. In a pass
    over old items whose keys are different, the lookups are filled when no ends belong together for the first time.
    From then on they tell of what is left which old items are wanted and where a key is among the old items, however
    often the pass is stuck. So a pass that filled them again each time would have the same result, which are the parts
    and the statistics, and would leave the same tree; it would only report more. -/
theorem keyed_filled_once (client : Client σ) (items : List (Key × Value)) (part : NodePart)
    (distinct : part.content.keys.Nodup) :
    (∀ (earlier : Lookups) (newFirst oldFirst : Nat) (new old : List Key), ∃ lookups,
      Lookups.fill (.numbered newFirst new) (.numbered oldFirst old) earlier = (repeats new + repeats old, lookups) ∧
        (∀ key, lookups.newIndex? key = (new.idxOf? key).map (newFirst + ·)) ∧
        (∀ key, lookups.hasNew key ↔ key ∈ new) ∧
        ∀ key, lookups.oldIndex? key = (old.idxOf? key).map (oldFirst + ·)) ∧
    (∀ progress, Progress.Reached part.content.keys (items.map (·.1)) progress →
      plan part.content.keys (items.map (·.1)) = progress.actions ++
        planWindows (items.map (·.1)).length progress.lookups? progress.old progress.new ∧
      (∀ lookups, progress.lookups? = some lookups → ∃ first,
        Progress.Reached part.content.keys (items.map (·.1)) first ∧ first.lookups? = none ∧
          Stuck first.old first.new ∧ first.old.Unbroken ∧ first.new.Unbroken ∧
          first.actions <+: progress.actions ∧ lookups = .ofWindows first.new first.old) ∧
      (Stuck progress.old progress.new → progress.lookups.Serves progress.old progress.new)) ∧
    (keyedBy planAgain client (Value.keyedRenderings client items) part).Matches
      (keyed client (Value.keyedRenderings client items) part) := by
  refine ⟨Lookups.fill_numbered, fun progress reached => ⟨reached.plan_eq, ?_, fun _ => reached.serves distinct⟩, ?_⟩
  · intro lookups made
    obtain ⟨first, was, unmade, stuck, before, filled⟩ := reached.made_once made
    obtain ⟨olds, news⟩ := was.unbroken unmade
    exact ⟨first, was, unmade, stuck, olds, news, before, filled⟩
  · have renders : ∀ item ∈ Value.keyedRenderings client items, Habit.oblivious.Renders item.2.render := by
      rw [Value.keyedRenderings_eq_map]
      exact List.forall_mem_map.2 fun item _ => Value.oblivious_render client item.2
    rw [← keyedBy_plan]
    exact keyedBy_matches renders part (deeds_planAgain distinct _)

end Render

namespace Root.Example

def numbers (order : List Nat) : List (Key × Value) := order.map fun number => (.int number, .text (toString number))

def eight : (NodePart × Except Error Unit) × Scene Unit :=
  ((fresh.part.stage (.keyed (numbers [1, 2, 3, 4, 5, 6, 7, 8]))).commit wordless).runOn mounted

/-- The same numbers, some of which change places. -/
def shuffled : List (Key × Value) := numbers [2, 3, 1, 4, 5, 7, 8, 6]

theorem eight_keys : eight.1.1.content.keys = [1, 2, 3, 4, 5, 6, 7, 8].map Key.int := by
  unfold eight mounted numbers
  cbv

end Root.Example

open Root.Example in
/-- The two and the three come to the front one after the other, and both times no ends belong together. -/
theorem Render.keyed_filled_once_eight : eight.1.1.content.keys.Nodup ∧
    (∀ progress, Progress.Reached eight.1.1.content.keys (shuffled.map (·.1)) progress →
      Stuck progress.old progress.new → progress.lookups.Serves progress.old progress.new) ∧
    ((keyedBy planAgain wordless (Value.keyedRenderings wordless shuffled) eight.1.1).Matches
      (keyed wordless (Value.keyedRenderings wordless shuffled) eight.1.1)) ∧
    (plan eight.1.1.content.keys (shuffled.map (·.1))).countP (·.indexes) = 1 ∧
    (planAgain eight.1.1.content.keys (shuffled.map (·.1))).countP (·.indexes) = 2 := by
  have distinct : eight.1.1.content.keys.Nodup := by
    rw [eight_keys]
    decide
  obtain ⟨-, serves, same⟩ := keyed_filled_once wordless shuffled eight.1.1 distinct
  refine ⟨distinct, fun progress reached stuck => (serves progress reached).2.2 stuck, same, ?_, ?_⟩
  · rw [eight_keys]
    unfold shuffled numbers
    cbv
  · rw [eight_keys]
    unfold shuffled numbers
    cbv

end DomParts
