import DomParts.Proofs.Render.Habit
import DomParts.Proofs.Render.Templates

/-! # Rendering does not listen to itself

What was reported so far makes no difference to what rendering does: not to its result, nor to the tree, the
templates or the client's memory afterwards. The client cannot read the report.
-/

namespace DomParts

variable {σ α β : Type}

namespace Scene.Same

variable {scene other : Scene σ}

theorem symm (same : scene.Same other) : other.Same scene := ⟨same.tree.symm, same.cache.symm, same.memory.symm⟩

theorem add_left (same : scene.Same other) (event : Event) : (scene.add event).Same other :=
  ⟨same.tree, same.cache, same.memory⟩

theorem add_right (same : scene.Same other) (event : Event) : scene.Same (other.add event) :=
  ⟨same.tree, same.cache, same.memory⟩

theorem add (same : scene.Same other) (event event' : Event) : (scene.add event).Same (other.add event') :=
  (same.add_left event).add_right event'

end Scene.Same

namespace RenderM

/-- Two computations that only differ in what they report: on scenes that only differ in what was reported, they
    have the same result, and leave scenes that only differ in what was reported. -/
def Matches (one two : RenderM σ α) : Prop := ∀ scene other : Scene σ, scene.Same other →
  (two.runOn other).1 = (one.runOn scene).1 ∧ (one.runOn scene).2.Same (two.runOn other).2

/-- A computation to which it makes no difference what was reported. -/
def Oblivious (act : RenderM σ α) : Prop := act.Matches act

namespace Matches

variable {one two three : RenderM σ α} {next next' : α → RenderM σ β}

theorem symm (matching : one.Matches two) : two.Matches one := by
  intro scene other same
  obtain ⟨result, after⟩ := matching other scene same.symm
  exact ⟨result.symm, after.symm⟩

theorem trans (first : one.Matches two) (second : two.Matches three) : one.Matches three := by
  intro scene other same
  obtain ⟨result, after⟩ := first scene scene (.refl scene)
  obtain ⟨result', after'⟩ := second scene other same
  exact ⟨result'.trans result, after.trans after'⟩

theorem bind (first : one.Matches two) (rest : ∀ value, (next value).Matches (next' value)) :
    (one >>= next).Matches (two >>= next') := by
  intro scene other same
  obtain ⟨result, after⟩ := first scene other same
  rw [runOn_bind, runOn_bind]
  rcases ran : one.runOn scene with ⟨error | value, between⟩ <;> rw [ran] at result after <;>
    rcases ran' : two.runOn other with ⟨error' | value', between'⟩ <;> rw [ran'] at result after <;> cases result
  · exact ⟨rfl, after⟩
  · exact rest value between between' after

theorem tryCatch {handler handler' : Error → RenderM σ α} (first : one.Matches two)
    (handles : ∀ error, (handler error).Matches (handler' error)) :
    (tryCatch one handler).Matches (tryCatch two handler') := by
  intro scene other same
  obtain ⟨result, after⟩ := first scene other same
  rw [runOn_tryCatch, runOn_tryCatch]
  rcases ran : one.runOn scene with ⟨error | value, between⟩ <;> rw [ran] at result after <;>
    rcases ran' : two.runOn other with ⟨error' | value', between'⟩ <;> rw [ran'] at result after <;> cases result
  · exact handles error between between' after
  · exact ⟨rfl, after⟩

/-- What only reports something gives its value and leaves the scene as it is. -/
theorem leads {value : α} (silent : one.Matches (pure value)) (scene : Scene σ) :
    one.Leads scene (fun result after => result = value ∧ scene.Same after) fun _ _ => False := by
  obtain ⟨result, after⟩ := silent scene scene (.refl scene)
  unfold Leads
  rcases ran : one.runOn scene with ⟨error | value', last⟩ <;> rw [ran] at result after <;> cases result
  exact ⟨rfl, after.symm⟩

theorem note_left (event : Event) {two : RenderM σ β} {one : RenderM σ β} (rest : one.Matches two) :
    (do note event; one).Matches two := by
  intro scene other same
  exact rest (scene.add event) other (same.add_left event)

end Matches

section Steps

variable {act : RenderM σ α} {handler : Error → RenderM σ α}

theorem Matches.of_leads {one two : RenderM σ α} (leads : ∀ scene other : Scene σ, scene.Same other →
    one.Leads scene
      (fun value after => two.Leads other (fun value' last => value' = value ∧ after.Same last) fun _ _ => False)
      fun error after => two.Leads other (fun _ _ => False) fun error' last => error' = error ∧ after.Same last) :
    one.Matches two := by
  intro scene other same
  have ends := leads scene other same
  unfold Leads at ends
  rcases ran : one.runOn scene with ⟨error | value, after⟩ <;> rw [ran] at ends <;>
    rcases ran' : two.runOn other with ⟨error' | value', last⟩ <;> rw [ran'] at ends
  · exact ⟨congrArg Except.error ends.1, ends.2⟩
  · exact ends.elim
  · exact ends.elim
  · exact ⟨congrArg Except.ok ends.1, ends.2⟩

theorem oblivious_tryCatch (first : act.Oblivious) (handles : ∀ error, (handler error).Oblivious) :
    (tryCatch act handler).Oblivious := first.tryCatch handles

theorem oblivious_edit (change : Tree → Except HostFault Tree) : (edit change : RenderM σ Unit).Oblivious := by
  refine .of_leads fun scene other same => ?_
  simp only [leads_edit, same.tree]
  cases change scene.tree with
  | error fault => exact ⟨rfl, same⟩
  | ok tree => exact ⟨trivial, rfl, same.cache, same.memory⟩

theorem oblivious_editInSteps (change : Tree → Except HostFault α × Tree) :
    (editInSteps change : RenderM σ α).Oblivious := by
  refine .of_leads fun scene other same => ?_
  simp only [leads_editInSteps, same.tree]
  rcases change scene.tree with ⟨fault | value, tree⟩
  · exact ⟨rfl, rfl, same.cache, same.memory⟩
  · exact ⟨rfl, rfl, same.cache, same.memory⟩

theorem oblivious_consult (act : StateM (σ × Tree) α) : (consult act : RenderM σ α).Oblivious := by
  refine .of_leads fun scene other same => ?_
  simp only [leads_consult, same.tree, same.memory]
  exact ⟨trivial, rfl, same.cache, rfl⟩

end Steps

end RenderM

open RenderM

def Habit.oblivious : Habit σ where
  has act := act.Oblivious
  pure _ := fun _ _ same => ⟨rfl, same⟩
  throw _ := fun _ _ same => ⟨rfl, same⟩
  bind := Matches.bind
  tryCatch := oblivious_tryCatch
  note event := fun _ _ same => ⟨rfl, same.add event event⟩
  look view := fun _ _ same => ⟨congrArg (fun tree => Except.ok (view tree)) same.tree, same⟩
  grow change := fun _ _ same => ⟨congrArg (fun tree => Except.ok (change tree).1) same.tree,
    ⟨congrArg (fun tree => (change tree).2) same.tree, same.cache, same.memory⟩⟩
  edit := oblivious_edit
  editInSteps := oblivious_editInSteps

namespace RenderM

theorem oblivious_templateFor (client : Client σ) : Habit.oblivious.Compiles client := by
  intro kind literal
  refine .of_leads fun scene other same => ?_
  simp only [templateFor, leads_bind, leads_get, same.cache]
  cases scene.cache.findIdentity? kind literal with
  | some shared => exact ⟨rfl, same.add _ _⟩
  | none =>
      simp only [contentTemplate, leads_bind, leads_get, leads_modify, leads_pure, same.cache]
      cases scene.cache.findContent? kind literal with
      | some shared =>
          simp only [leads_bind, leads_note, leads_pure]
          exact ⟨trivial, same.tree, by simp only [Scene.add, same.cache], same.memory⟩
      | none =>
          simp only [compileNew, leads_bind, leads_consult, same.tree, same.memory]
          cases (client.compile kind literal (scene.memory, scene.tree)).1 with
          | error error =>
              simp only [leads_throw]
              exact ⟨trivial, rfl, same.cache, rfl⟩
          | ok template =>
              simp only [leads_bind, leads_note, leads_get, leads_set, leads_pure]
              exact ⟨by simp only [Scene.add, same.cache], rfl, by simp only [Scene.add, same.cache], rfl⟩

theorem oblivious_mayRemove (hook : RemovalHook σ) (container id : NodeId) : (mayRemove hook container id).Oblivious := by
  refine (Habit.oblivious.look _).andThen fun marker => ?_
  cases marker with
  | true => exact Habit.oblivious.pure true
  | false =>
      have asks : Habit.oblivious.has (consult (hook.ask id container)) := oblivious_consult _
      refine asks.andThen fun answer => ?_
      cases answer with
      | proceed => exact Habit.oblivious.pure true
      | skip => exact (Habit.oblivious.note _).andThen fun _ => Habit.oblivious.pure false

end RenderM

theorem NodePart.oblivious_remove (client : Client σ) : Habit.oblivious.Removes client :=
  Habit.removes fun hook _ container id => oblivious_mayRemove hook container id

theorem Value.oblivious_render (client : Client σ) (value : Value) : Habit.oblivious.Renders (value.render client) :=
  Habit.Compiles.renders (oblivious_templateFor client) (NodePart.oblivious_remove client)

end DomParts
