import DomParts.Proofs.Render.Concern

/-! # The record of an overheard client

Two things that rendering for an overheard client respects. A plain value asks the hook nothing. And whatever is
rendered, each node that the hook kept according to the record is one that the report says was kept.
-/

namespace DomParts

open RenderM

variable {σ α : Type}

def Question.isRemoval : Question → Bool
  | .compile .. => false
  | .remove .. => true

def removals (questions : List Question) : List Question := questions.filter Question.isRemoval

theorem removals_append (first second : List Question) :
    removals (first ++ second) = removals first ++ removals second := List.filter_append ..

/-- The questions about some nodes, each with its answer. -/
def questionsOf (container : NodeId) (asked : List (NodeId × Removal)) : List Question :=
  asked.map fun pair => .remove pair.1 container pair.2

theorem mem_questionsOf {container id : NodeId} {answer : Removal} {asked : List (NodeId × Removal)} :
    .remove id container answer ∈ questionsOf container asked ↔ (id, answer) ∈ asked := by
  simp only [questionsOf, List.mem_map, Question.remove.injEq, true_and]
  constructor
  · rintro ⟨pair, member, rfl, rfl⟩
    exact member
  · exact fun member => ⟨(id, answer), member, rfl, rfl⟩

theorem questionsOf_injective (container : NodeId) : Function.Injective (questionsOf container) := by
  refine List.map_injective_iff.2 fun one two same => ?_
  simp only [Question.remove.injEq, true_and] at same
  exact Prod.ext same.1 same.2

theorem removals_questionsOf (container : NodeId) (asked : List (NodeId × Removal)) :
    removals (questionsOf container asked) = questionsOf container asked := by
  rw [removals, List.filter_eq_self]
  intro question member
  obtain ⟨pair, -, rfl⟩ := List.mem_map.1 member
  rfl

namespace Concern

def unheard : Concern (σ × List Question) where
  holds before after := removals after.memory.2 = removals before.memory.2
  steady memory _ := by rw [memory]
  trans first second := second.trans first

end Concern

theorem Client.overheard_unheard (client : Client σ) : client.overheard.Respects .unheard :=
  fun _ _ scene => (removals_append scene.memory.2 _).trans (List.append_nil _)

/-- All nodes that the hook kept are reported to be kept. -/
def Scene.Tells (scene : Scene (σ × List Question)) : Prop :=
  ∀ id container, .remove id container .skip ∈ scene.memory.2 → .kept id ∈ scene.report.toList

namespace Concern

/-- A report that tells all goes on to do so. -/
def told : Concern (σ × List Question) where
  holds before after := before.Tells → after.Tells
  steady memory more tells id container kept := more (tells id container (memory ▸ kept))
  trans first second tells := second (first tells)

end Concern

section Told

variable {client : Client σ} {hook : RemovalHook σ} {container : NodeId}

theorem Client.overheard_told (client : Client σ) : client.overheard.Respects .told := by
  intro kind literal scene tells id container kept
  have earlier := (List.mem_append.1 kept).resolve_right (by simp)
  exact tells id container earlier

namespace RenderM

theorem mayRemove_told (id : NodeId) : (mayRemove hook.overheard container id).Respects .told := by
  refine (respects_look _).bind fun marker => ?_
  cases marker with
  | true => exact respects_pure true
  | false =>
      intro scene
      simp only [Bool.false_eq_true, if_false, leads_bind, leads_consult, hook.overheard_ask]
      cases (hook.ask id container (scene.memory.1, scene.tree)).1 with
      | proceed =>
          intro tells other place kept
          exact tells other place ((List.mem_append.1 kept).resolve_right (by simp))
      | skip =>
          intro tells other place kept
          simp only [Scene.add, Array.toList_push, List.mem_append, List.mem_singleton, Event.kept.injEq]
          refine (List.mem_append.1 kept).imp (tells other place) fun last => ?_
          cases List.mem_singleton.1 last
          rfl

end RenderM

theorem NodePart.remove_told (part : NodePart) (container : NodeId) :
    (part.remove client.overheard container).Respects .told := by
  have removes : Concern.told.habit.Removes client.overheard := by
    refine Habit.removes fun hook guarded container id => ?_
    obtain ⟨original, -, rfl⟩ := Option.map_eq_some_iff.1 guarded
    exact mayRemove_told id
  exact removes part container

end Told

end DomParts
