import DomParts.Proofs.Keyed.Refilled
import DomParts.Proofs.Render.Oblivious

/-! # Lookups last a whole pass

A pass makes its lookups once, when it is stuck for the first time, and goes on to use them while both windows
shrink. Where no key repeats they stay right to the end, and a pass that makes them anew whenever it is stuck
gives the same nodes, parts and statistics. Only its report is longer.
-/

namespace DomParts

open Keyed RenderM

variable {σ : Type}

namespace Keyed.Setting

variable {setting : Setting σ}

theorem perform_indexes (setting : Setting σ) (pass : Pass) {action : Action} (indexes : action.indexes) :
    (setting.perform pass action).Matches (pure pass) := by
  cases action with
  | index new old duplicates =>
      refine .note_left _ ?_
      by_cases some : duplicates > 0
      · simp only [some, if_true]
        exact .note_left _ (Habit.oblivious.pure pass)
      · simp only [some, if_false]
        exact Habit.oblivious.pure pass
  | _ => exact indexes.elim

variable (renders : ∀ item ∈ setting.items, Habit.oblivious.Renders item.render)
include renders

theorem performAll_deeds (pass : Pass) (actions : List Action) :
    (setting.performAll pass actions).Matches (setting.performAll pass (deeds actions)) := by
  have removes : Habit.oblivious.Removes setting.client := NodePart.oblivious_remove setting.client
  induction actions generalizing pass with
  | nil => exact Habit.oblivious.pure pass
  | cons action actions ih =>
      by_cases indexes : action.indexes
      · have skipped : deeds (action :: actions) = deeds actions := List.filter_cons_of_neg (by simpa using indexes)
        have silent := (setting.perform_indexes pass indexes).bind ih
        rw [pure_bind, ← skipped] at silent
        exact silent
      · have done : deeds (action :: actions) = action :: deeds actions := List.filter_cons_of_pos (by simpa using indexes)
        rw [done]
        exact Matches.bind (Habit.performAny renders removes pass action) ih

theorem performAll_matches {one two : List Action} (same : deeds one = deeds two) (pass : Pass) :
    (setting.performAll pass one).Matches (setting.performAll pass two) := by
  have first := performAll_deeds renders pass one
  have second := performAll_deeds renders pass two
  rw [← same] at second
  exact first.trans second.symm

end Keyed.Setting

def Content.keys : Content → List Key
  | .keyed keys _ _ => keys
  | _ => []

namespace Render

/-- Shows the items of a list by key as a keyed pass does, but with any way to make plans. -/
def passBy (planner : List Key → List Key → List Action) (client : Client σ) (items : List (Key × Rendering σ))
    (part : NodePart) (oldKeys : List Key) (old : List NodePart) : RenderM σ Content := do
  let container ← part.container
  let keys := items.map (·.1)
  let duplicates := (Window.ofKeys keys).duplicates
  if duplicates > 0 then note (.duplicateKeys duplicates)
  let setting := ⟨client, container, part.stop, old, items.map (·.2)⟩
  let pass ← Setting.performAll setting (.start items.length) (planner oldKeys keys)
  note (.passDone pass.stats)
  return .keyed keys pass.parts pass.stats

/-- Shows a list by key with any way to make plans. -/
def keyedBy (planner : List Key → List Key → List Action) (client : Client σ) (items : List (Key × Rendering σ)) :
    Renderer σ := fun part => do
  let (oldKeys, old) ← match part.content with
    | .keyed keys parts _ => pure (keys, parts)
    | _ => do
        part.removeContent
        pure ([], [])
  passBy planner client items part oldKeys old

/-- A list by key is shown by plans that are made with one filling of lookups. -/
theorem keyedBy_plan (client : Client σ) (items : List (Key × Rendering σ)) : keyedBy plan client items = keyed client items :=
  rfl

variable {client : Client σ} {items : List (Key × Rendering σ)} {planner planner' : List Key → List Key → List Action}
  (renders : ∀ item ∈ items, Habit.oblivious.Renders item.2.render)
include renders

theorem passBy_matches (part : NodePart) {oldKeys : List Key} (old : List NodePart)
    (same : deeds (planner oldKeys (items.map (·.1))) = deeds (planner' oldKeys (items.map (·.1)))) :
    (passBy planner client items part oldKeys old).Matches (passBy planner' client items part oldKeys old) := by
  refine Matches.bind Habit.oblivious.container fun container => ?_
  let setting : Setting σ := ⟨client, container, part.stop, old, items.map (·.2)⟩
  have each : ∀ item ∈ setting.items, Habit.oblivious.Renders item.render := List.forall_mem_map.2 renders
  have works : (do
      let pass ← setting.performAll (.start items.length) (planner oldKeys (items.map (·.1)))
      note (.passDone pass.stats)
      return .keyed (items.map (·.1)) pass.parts pass.stats : RenderM σ Content).Matches (do
      let pass ← setting.performAll (.start items.length) (planner' oldKeys (items.map (·.1)))
      note (.passDone pass.stats)
      return .keyed (items.map (·.1)) pass.parts pass.stats) :=
    (Setting.performAll_matches each same _).bind fun _ => (Habit.oblivious.note _).andThen fun _ => Habit.oblivious.pure _
  by_cases some : (Window.ofKeys (items.map (·.1))).duplicates > 0
  · simp only [some, if_true]
    exact Matches.bind (Habit.oblivious.note _) fun _ => works
  · simp only [some, if_false]
    exact works

theorem keyedBy_matches (part : NodePart)
    (same : deeds (planner part.content.keys (items.map (·.1))) = deeds (planner' part.content.keys (items.map (·.1)))) :
    (keyedBy planner client items part).Matches (keyedBy planner' client items part) := by
  have other : part.content.keys = [] → (do part.removeContent; passBy planner client items part [] []).Matches (do
      part.removeContent; passBy planner' client items part [] []) := by
    intro none
    rw [none] at same
    exact Matches.bind Habit.oblivious.removeContent fun _ => passBy_matches renders part [] same
  unfold keyedBy
  cases shown : part.content with
  | keyed keys parts stats =>
      rw [shown] at same
      exact passBy_matches renders part parts same
  | _ => simpa using other (by rw [shown]; rfl)

end Render

end DomParts
