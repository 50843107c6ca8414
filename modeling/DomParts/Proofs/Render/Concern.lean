import DomParts.Proofs.Render.Habit
import DomParts.Proofs.Render.Plain
import DomParts.Proofs.Render.Templates

/-! # What rendering leaves to the client

The client is asked for templates, and its hook before an item of a list by key goes. Whatever else rendering
does, the client's memory stays the same and the report only grows. So what concerns these two only needs to be
looked at where the client is asked.

What a client is asked leaves no trace in a scene unless the client remembers it. An overheard client is one
whose questions and answers are taken down, so that statements can be made about them.
-/

namespace DomParts

variable {σ α β : Type}

/-- Something that a client was asked, with its answer. -/
inductive Question where
  /-- To compile a literal. -/
  | compile (kind : TemplateKind) (literal : Literal) (answer : Except Error Template)
  /-- Whether a node may leave its container. -/
  | remove (target container : NodeId) (answer : Removal)

/-- The hook, with what it is asked taken down. -/
def RemovalHook.overheard (hook : RemovalHook σ) : RemovalHook (σ × List Question) where
  ask target container := fun ((memory, questions), tree) =>
    let (answer, memory, tree) := hook.ask target container (memory, tree)
    (answer, (memory, questions ++ [.remove target container answer]), tree)
  additions := hook.additions

/-- The client, with everything that it is asked taken down. -/
def Client.overheard (client : Client σ) : Client (σ × List Question) where
  compile kind literal := fun ((memory, questions), tree) =>
    let (answer, memory, tree) := client.compile kind literal (memory, tree)
    (answer, (memory, questions ++ [.compile kind literal answer]), tree)
  hook? := client.hook?.map RemovalHook.overheard

theorem RemovalHook.overheard_ask (hook : RemovalHook σ) (target container : NodeId) (memory : σ × List Question)
    (tree : Tree) : hook.overheard.ask target container (memory, tree) =
      ((hook.ask target container (memory.1, tree)).1,
        ((hook.ask target container (memory.1, tree)).2.1,
          memory.2 ++ [.remove target container (hook.ask target container (memory.1, tree)).1]),
        (hook.ask target container (memory.1, tree)).2.2) := rfl

/-- A relation of the scenes before and after some work that the client has to do with. -/
structure Concern (σ : Type) where
  holds : Scene σ → Scene σ → Prop
  steady : ∀ {before after}, after.memory = before.memory → before.report.toList ⊆ after.report.toList →
    holds before after
  trans : ∀ {first second third}, holds first second → holds second third → holds first third

theorem Concern.noted (concern : Concern σ) (event : Event) (scene : Scene σ) :
    concern.holds scene (scene.add event) := concern.steady rfl (by simp [Scene.add])

/-- A computation that leads to related scenes, however it ends. -/
def RenderM.Respects (concern : Concern σ) (act : RenderM σ α) : Prop :=
  ∀ scene, act.Leads scene (fun _ after => concern.holds scene after) fun _ after => concern.holds scene after

def Renderer.Respects (concern : Concern σ) (render : Renderer σ) : Prop := ∀ part, (render part).Respects concern

/-- A client that does so when it compiles something. -/
def Client.Respects (concern : Concern σ) (client : Client σ) : Prop :=
  ∀ kind literal scene, concern.holds scene (RenderM.compiledScene client kind literal scene)

namespace RenderM

variable {concern : Concern σ} {act : RenderM σ α} {next : α → RenderM σ β}

theorem Respects.bind (respects : act.Respects concern) (onward : ∀ value, (next value).Respects concern) :
    (act >>= next).Respects concern := by
  intro scene
  rw [leads_bind]
  refine (respects scene).mono (fun value between first => ?_) fun _ _ first => first
  exact (onward value between).mono (fun _ _ => concern.trans first) fun _ _ => concern.trans first

theorem respects_of_idle (idle : ∀ scene, act.Leads scene
      (fun _ after => after.memory = scene.memory ∧ after.report = scene.report)
      fun _ after => after.memory = scene.memory ∧ after.report = scene.report) : act.Respects concern := by
  have steady : ∀ {before after : Scene σ}, after.memory = before.memory ∧ after.report = before.report →
      concern.holds before after := fun same => concern.steady same.1 (same.2 ▸ List.Subset.refl _)
  exact fun scene => (idle scene).mono (fun _ _ => steady) fun _ _ => steady

theorem respects_pure (value : α) : (pure value : RenderM σ α).Respects concern :=
  respects_of_idle fun _ => ⟨rfl, rfl⟩

theorem respects_throw (error : Error) : (throw error : RenderM σ α).Respects concern :=
  respects_of_idle fun _ => ⟨rfl, rfl⟩

theorem respects_note (event : Event) : (note event : RenderM σ Unit).Respects concern :=
  fun scene => concern.noted event scene

theorem respects_look (read : Tree → α) : (look read : RenderM σ α).Respects concern :=
  respects_of_idle fun _ => ⟨rfl, rfl⟩

theorem respects_grow (change : Tree → NodeId × Tree) : (grow change : RenderM σ NodeId).Respects concern :=
  respects_of_idle fun _ => ⟨rfl, rfl⟩

theorem respects_edit (change : Tree → Except HostFault Tree) : (edit change : RenderM σ Unit).Respects concern := by
  refine respects_of_idle fun scene => ?_
  rw [leads_edit]
  cases change scene.tree <;> exact ⟨rfl, rfl⟩

theorem respects_editInSteps (change : Tree → Except HostFault α × Tree) :
    (editInSteps change : RenderM σ α).Respects concern := by
  refine respects_of_idle fun scene => ?_
  rw [leads_editInSteps]
  rcases change scene.tree with ⟨_ | _, _⟩ <;> exact ⟨rfl, rfl⟩

theorem respects_tryCatch {handler : Error → RenderM σ α} (respects : act.Respects concern)
    (handles : ∀ error, (handler error).Respects concern) : (tryCatch act handler).Respects concern := by
  intro scene
  rw [leads_tryCatch]
  refine (respects scene).mono (fun _ _ holds => holds) fun error between first => ?_
  exact (handles error between).mono (fun _ _ => concern.trans first) fun _ _ => concern.trans first

end RenderM

open RenderM

def Concern.habit (concern : Concern σ) : Habit σ where
  has act := act.Respects concern
  pure := respects_pure
  throw := respects_throw
  bind := Respects.bind
  tryCatch := respects_tryCatch
  note := respects_note
  look := respects_look
  grow := respects_grow
  edit := respects_edit
  editInSteps := respects_editInSteps

variable {concern : Concern σ}

namespace RenderM

theorem Respects.runOn {attempt : Attempt σ α} (respects : attempt.orThrow.Respects concern) (scene : Scene σ) :
    concern.holds scene (attempt.runOn scene).2 := by
  have leads := respects scene
  rw [leads_orThrow] at leads
  rcases ran : attempt.runOn scene with ⟨⟨value, _ | _⟩, after⟩ <;> rw [ran] at leads <;> exact leads

theorem respects_templateFor {client : Client σ} (respects : client.Respects concern) (kind : TemplateKind)
    (literal : Literal) : (templateFor client kind literal).Respects concern := by
  intro scene
  refine templateFor_leads ?_ ?_ ?_ fun _ _ => respects kind literal scene
  · exact fun _ _ => concern.noted _ scene
  · exact fun _ _ => concern.steady rfl (by simp [sharedScene, Scene.add])
  · exact fun _ _ => concern.trans (respects kind literal scene) (concern.steady rfl (by simp [newScene, Scene.add]))

end RenderM

namespace NodePart

variable {part : NodePart}

theorem respects_insertInto (container : NodeId) (before : Option NodeId) :
    (insertInto container before : RenderM σ NodePart).Respects concern :=
  concern.habit.insertInto container before

theorem respects_removeContent : (part.removeContent : RenderM σ Unit).Respects concern :=
  concern.habit.removeContent

end NodePart

/-- An action that keeps, moves or makes an item concerns the client no more than the item does. -/
theorem Keyed.Setting.respects_perform {setting : Setting σ} (respects : ∀ item ∈ setting.items, item.render.Respects concern)
    (pass : Pass) {action : Action} (stays : action.removes = false) : (setting.perform pass action).Respects concern := by
  have renders : ∀ item ∈ setting.items, concern.habit.Renders item.render := respects
  exact Habit.perform renders pass stays

namespace Value

variable {client : Client σ} {value : Value} (compiles : client.Respects concern)
include compiles

theorem Plain.respects (plain : value.Plain) : (value.render client).Respects concern := by
  have finds : concern.habit.Compiles client := respects_templateFor compiles
  induction plain with
  | nothing => exact concern.habit.renders_nothing
  | text data => exact concern.habit.renders_text data
  | template kind literal each ih =>
      rw [Value.render, renderings_eq_map]
      exact finds.renders_template kind literal (List.forall_mem_map.2 ih)
  | @list items each ih =>
      rw [Value.render, renderings_eq_map]
      have renders : ∀ item ∈ items.map (Value.rendering client), concern.habit.Renders item.render :=
        List.forall_mem_map.2 ih
      exact Habit.renders_list renders

theorem respects (removes : ∀ (part : NodePart) container, (part.remove client container).Respects concern) :
    (value.render client).Respects concern := by
  have finds : concern.habit.Compiles client := respects_templateFor compiles
  exact finds.renders removes

end Value

namespace NodePart

variable {part : NodePart}

theorem respects_commit {client : Client σ} (compiles : client.Respects concern)
    (removes : ∀ (part : NodePart) container, (part.remove client container).Respects concern) :
    (part.commit client).orThrow.Respects concern := by
  have renders : concern.habit.Renders ((part.pending.getD .nothing).render client) := Value.respects compiles removes
  exact renders.commitWith

theorem respects_clear : (part.clear : Attempt σ NodePart).orThrow.Respects concern :=
  concern.habit.removeContent.carry _ _

end NodePart

end DomParts
