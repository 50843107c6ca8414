import DomParts.Proofs.Keyed.Route
import DomParts.Proofs.Render.Leads
import DomParts.Proofs.Render.Values

/-! # Habits

What is true of each step of a computation is often true of all of it. Rendering takes few kinds of steps: it
reads, grows and edits the tree, it reports, and it leaves the rest to the client, who is asked for templates
and when an item of a list by key goes. So what is true of these steps is true of all rendering.
-/

namespace DomParts

open RenderM

variable {σ α β : Type}

namespace Attempt

theorem orThrow_carry (act : RenderM σ β) (kept : β → α) (broken : α) :
    (carry act kept broken).orThrow = (do let result ← act; return kept result) := by
  refine eq_of_leads fun scene good bad leads => ?_
  simpa only [leads_orThrow_carry, leads_bind, leads_pure] using leads

theorem orThrow_map (change : α → β) (attempt : Attempt σ α) :
    (attempt.map change).orThrow = (do let value ← attempt.orThrow; return change value) := by
  refine eq_of_leads fun scene good bad leads => ?_
  simpa only [leads_orThrow_map, leads_bind, leads_pure] using leads

end Attempt

/-- Something that is true of computations if it is true of their steps, and that is true of all steps for which
    the client is not needed. -/
structure Habit (σ : Type) where
  has : ∀ {α : Type}, RenderM σ α → Prop
  pure : ∀ {α : Type} (value : α), has (pure value : RenderM σ α)
  throw : ∀ {α : Type} (error : Error), has (throw error : RenderM σ α)
  bind : ∀ {α β : Type} {act : RenderM σ α} {next : α → RenderM σ β}, has act → (∀ value, has (next value)) →
    has (act >>= next)
  tryCatch : ∀ {α : Type} {act : RenderM σ α} {handler : Error → RenderM σ α}, has act →
    (∀ error, has (handler error)) → has (tryCatch act handler)
  note : ∀ event, has (note event : RenderM σ Unit)
  look : ∀ {α : Type} (view : Tree → α), has (look view : RenderM σ α)
  grow : ∀ change, has (grow change : RenderM σ NodeId)
  edit : ∀ change, has (edit change : RenderM σ Unit)
  editInSteps : ∀ {α : Type} (change : Tree → Except HostFault α × Tree), has (editInSteps change : RenderM σ α)

namespace Habit

def Renders (habit : Habit σ) (render : Renderer σ) : Prop := ∀ part, habit.has (render part)

def Compiles (habit : Habit σ) (client : Client σ) : Prop :=
  ∀ kind literal, habit.has (templateFor client kind literal)

def Removes (habit : Habit σ) (client : Client σ) : Prop :=
  ∀ (part : NodePart) container, habit.has (part.remove client container)

variable {habit : Habit σ}

theorem has.andThen {act : RenderM σ α} {next : α → RenderM σ β} (first : habit.has act)
    (rest : ∀ value, habit.has (next value)) : habit.has (act >>= next) := habit.bind first rest

theorem has.carry {act : RenderM σ β} (carried : habit.has act) (kept : β → α) (broken : α) :
    habit.has (Attempt.carry act kept broken).orThrow := by
  rw [Attempt.orThrow_carry]
  exact carried.andThen fun _ => habit.pure _

theorem has.map {attempt : Attempt σ α} (attempted : habit.has attempt.orThrow) (change : α → β) :
    habit.has (attempt.map change).orThrow := by
  rw [Attempt.orThrow_map]
  exact attempted.andThen fun _ => habit.pure _

section Steps

variable (habit) {part : NodePart}

theorem require (error : Error) (value : Option α) : habit.has (RenderM.require error value : RenderM σ α) := by
  cases value with
  | none => exact habit.throw error
  | some value => exact habit.pure value

theorem removeRun (container start : NodeId) (stop : Option NodeId) :
    habit.has (RenderM.removeRun container start stop : RenderM σ Nat) :=
  (habit.editInSteps _).andThen fun _ => (habit.note _).andThen fun _ => habit.pure _

theorem moveRun (container start : NodeId) (stop before : Option NodeId) :
    habit.has (RenderM.moveRun container start stop before : RenderM σ Nat) :=
  (habit.editInSteps _).andThen fun _ => (habit.note _).andThen fun _ => habit.pure _

theorem done (value : α) : habit.has (Attempt.done value : Attempt σ α).orThrow := habit.pure value

theorem refused (value : α) (error : Error) : habit.has (Attempt.refused value error : Attempt σ α).orThrow :=
  habit.throw error

theorem insertInto (container : NodeId) (before : Option NodeId) :
    habit.has (NodePart.insertInto container before : RenderM σ NodePart) :=
  (habit.grow _).andThen fun _ => (habit.grow _).andThen fun _ => (habit.edit _).andThen fun _ =>
    (habit.edit _).andThen fun _ => habit.pure _

theorem container : habit.has (part.container : RenderM σ NodeId) :=
  (habit.look _).andThen fun _ => habit.require _ _

theorem removeContent : habit.has (part.removeContent : RenderM σ Unit) :=
  (habit.look _).andThen fun _ => (habit.require _ _).andThen fun _ =>
    habit.container.andThen fun _ => (habit.removeRun _ _ _).andThen fun _ => habit.pure _

theorem insertContent (id : NodeId) : habit.has (part.insertContent id : RenderM σ Unit) :=
  habit.container.andThen fun _ => habit.edit _

theorem moveBefore (container before : NodeId) : habit.has (part.moveBefore container before : RenderM σ Bool) := by
  refine (habit.look _).andThen fun after => ?_
  by_cases there : after = some before
  · simp only [there, if_true]
    exact habit.pure _
  · simp only [there, if_false]
    exact (habit.moveRun _ _ _ _).andThen fun _ => habit.pure _

theorem bindPart (nodes : List NodeId) (slot : Slot) : habit.has (Part.bind nodes slot : RenderM σ Part) := by
  refine (habit.require _ _).andThen fun id => ?_
  cases slot with
  | «attribute» index name =>
      exact ((habit.look _).andThen fun _ => habit.pure _).andThen fun _ => habit.pure _
  | node index =>
      refine (habit.look _).andThen fun marker => ?_
      cases marker
      · exact habit.throw _
      · exact (habit.look _).andThen fun _ => (habit.require _ _).andThen fun _ => (habit.grow _).andThen fun _ =>
          (habit.look _).andThen fun _ => (habit.edit _).andThen fun _ => habit.pure _

theorem bindParts (nodes : List NodeId) (slots : List Slot) :
    habit.has (slots.mapM (Part.bind nodes) : RenderM σ (List Part)) := by
  induction slots with
  | nil =>
      rw [List.mapM_nil]
      exact habit.pure _
  | cons slot slots ih =>
      rw [List.mapM_cons]
      exact (habit.bindPart nodes slot).andThen fun _ => ih.andThen fun _ => habit.pure _

theorem commitAttribute (part : AttributePart) : habit.has (part.commit : Attempt σ AttributePart).orThrow := by
  unfold AttributePart.commit
  split
  · exact habit.done _
  · rename_i value _
    cases value <;> simp only [AttributePart.assign]
    case text =>
      split
      · exact habit.done _
      · exact (habit.edit _).carry _ _
    case nothing =>
      split
      · exact habit.done _
      · exact (habit.edit _).carry _ _
    all_goals exact ((habit.note _).andThen fun _ => habit.throw _).carry _ _

theorem instantiate (shared : SharedTemplate) :
    habit.has (TemplateInstance.create shared : RenderM σ (TemplateInstance × NodeId)) :=
  (habit.grow _).andThen fun _ => (habit.look _).andThen fun _ => (habit.require _ _).andThen fun _ =>
    (habit.bindParts _ _).andThen fun _ => (habit.note _).andThen fun _ => habit.pure _

theorem renders_nothing : habit.Renders Render.nothing :=
  fun _ => habit.removeContent.andThen fun _ => habit.pure _

theorem renders_text (data : String) : habit.Renders (Render.text data) := by
  intro part
  unfold Render.text
  split
  · exact habit.pure _
  · refine (habit.look _).andThen fun lone => ?_
    cases lone with
    | some id => exact (habit.note _).andThen fun _ => (habit.edit _).andThen fun _ => habit.pure _
    | none =>
        exact (habit.grow _).andThen fun _ => habit.removeContent.andThen fun _ => (habit.insertContent _).andThen fun _ =>
          habit.pure _

theorem renders_node (id : NodeId) : habit.Renders (Render.node id) := by
  intro part
  unfold Render.node
  split
  · exact habit.pure _
  · exact habit.removeContent.andThen fun _ => (habit.insertContent id).andThen fun _ => habit.pure _

theorem truncate (container stop : NodeId) (parts : List NodePart) (count : Nat) :
    habit.has (Render.truncate container stop parts count : RenderM σ Unit) := by
  unfold Render.truncate
  split
  · exact (habit.note _).andThen fun _ => (habit.removeRun _ _ _).andThen fun _ => habit.pure _
  · exact habit.pure _

end Steps

section Removal

variable {hook : RemovalHook σ} {container : NodeId} (asks : ∀ id, habit.has (mayRemove hook container id))
include asks

theorem removeAsking (id : NodeId) : habit.has (RenderM.removeAsking hook container id) := by
  have goes : ∀ may : Bool, habit.has (if may then do RenderM.edit (·.removeChild container id); return true
      else return false : RenderM σ Bool) := by
    intro may
    cases may with
    | true => exact (habit.edit _).andThen fun _ => habit.pure true
    | false => exact habit.pure false
  refine (habit.look _).andThen fun above => ?_
  by_cases here : above = some container
  · simp only [here, ne_eq, not_true, if_false]
    exact (asks id).andThen goes
  · simp only [here, ne_eq, not_false_eq_true, if_true]
    exact (habit.note _).andThen fun _ => habit.throw _

theorem overRunAsking (stop : Option NodeId) (fuel : Nat) (next : Option NodeId) (count : Nat) :
    habit.has (RenderM.overRunAsking hook container stop fuel next count) := by
  induction fuel generalizing next count with
  | zero =>
      cases next with
      | none => exact habit.pure count
      | some id =>
          rw [RenderM.overRunAsking]
          split
          · exact habit.pure count
          · exact habit.throw _
  | succ fuel ih =>
      cases next with
      | none => exact habit.pure count
      | some id =>
          rw [RenderM.overRunAsking]
          split
          · exact habit.pure count
          · exact (habit.look _).andThen fun next => (removeAsking asks id).andThen fun went => ih next _

end Removal

theorem removes {client : Client σ}
    (asks : ∀ hook ∈ client.hook?, ∀ container id, habit.has (mayRemove hook container id)) :
    habit.Removes client := by
  intro part container
  refine (habit.look _).andThen fun after => ?_
  have goes : habit.has (removeRunFor client container part.start after) := by
    unfold removeRunFor
    cases guarded : client.hook? with
    | none => exact habit.removeRun container part.start after
    | some hook =>
        exact (habit.look _).andThen fun fuel => (overRunAsking (asks hook guarded container) after fuel _ 0).andThen
          fun count => (habit.note _).andThen fun _ => habit.pure count
  exact goes.andThen fun _ => habit.pure _

section Renders

variable {part : NodePart} {item : Rendering σ} {items : List (Rendering σ)}

theorem Renders.commitWith {render : Renderer σ} (renders : habit.Renders render) :
    habit.has (part.commitWith render).orThrow := by
  unfold NodePart.commitWith
  split
  · exact habit.done _
  · dsimp only
    split
    · exact habit.refused _ _
    · have attends : habit.has ({ part with pending := none }.attend render) :=
        habit.tryCatch (renders _) fun _ => (habit.note _).andThen fun _ => habit.throw _
      exact attends.carry _ _

theorem Renders.renderWith (renders : habit.Renders item.render) : habit.has (part.renderWith item) :=
  renders.commitWith

theorem Renders.commitPart {part : Part} {render : Renderer σ} (renders : habit.Renders render) :
    habit.has (part.commitWith render).orThrow := by
  cases part with
  | node part => exact renders.commitWith.map _
  | «attribute» part => exact (habit.commitAttribute part).map _

theorem commitEach {parts : List (Part × Renderer σ)} (renders : ∀ pair ∈ parts, habit.Renders pair.2) :
    habit.has (Part.commitEach parts).orThrow := by
  induction parts with
  | nil => exact habit.done _
  | cons pair parts ih =>
      rw [List.forall_mem_cons] at renders
      rw [Part.orThrow_commitEach]
      exact renders.1.commitPart.andThen fun _ => (ih renders.2).andThen fun _ => habit.pure _

theorem update (shown : TemplateInstance) (renders : ∀ item ∈ values, habit.Renders item.render) :
    habit.has (shown.update values).orThrow := by
  unfold TemplateInstance.update
  split
  · refine (commitEach fun pair member => ?_).map _
    rw [← List.map_uncurry_zip_eq_zipWith, List.mem_map] at member
    obtain ⟨⟨part, item⟩, both, rfl⟩ := member
    exact renders item (List.of_mem_zip both).2
  · exact habit.refused _ _

theorem intoParts (container stop : NodeId) (parts : List NodePart)
    (renders : ∀ item ∈ items, habit.Renders item.render) :
    habit.has (Render.intoParts container stop parts items) := by
  induction items generalizing parts with
  | nil =>
      rw [Render.intoParts]
      exact habit.pure _
  | cons item items ih =>
      rw [List.forall_mem_cons] at renders
      cases parts with
      | nil =>
          rw [Render.intoParts]
          exact (habit.insertInto _ _).andThen fun _ => renders.1.renderWith.andThen fun _ =>
            (ih _ renders.2).andThen fun _ => habit.pure _
      | cons part parts =>
          rw [Render.intoParts]
          exact renders.1.renderWith.andThen fun _ => (ih _ renders.2).andThen fun _ => habit.pure _

theorem renders_list (renders : ∀ item ∈ items, habit.Renders item.render) : habit.Renders (Render.list items) := by
  intro part
  have rest : ∀ parts, habit.has (do
      let container ← part.container
      let shown ← Render.intoParts container part.stop parts items
      Render.truncate container part.stop parts items.length
      return .list shown : RenderM σ Content) := fun parts =>
    habit.container.andThen fun _ => (intoParts _ _ parts renders).andThen fun _ =>
      (habit.truncate _ _ _ _).andThen fun _ => habit.pure _
  by_cases same : ∃ parts, part.content = .list parts
  · obtain ⟨parts, content⟩ := same
    rw [Render.list_of_parts content]
    exact rest parts
  · rw [Render.list_of_other fun parts content => same ⟨parts, content⟩]
    exact habit.removeContent.andThen fun _ => rest []

theorem Compiles.renders_template {client : Client σ} (compiles : habit.Compiles client) (kind : TemplateKind)
    (literal : Literal) (renders : ∀ item ∈ items, habit.Renders item.render) :
    habit.Renders (Render.template client kind literal items) := by
  intro part
  refine (compiles kind literal).andThen fun shared => ?_
  cases part.content.instanceOf? shared with
  | some shown => exact (habit.note _).andThen fun _ => (update shown renders).andThen fun _ => habit.pure _
  | none =>
      exact (habit.note _).andThen fun _ => (habit.instantiate shared).andThen fun (shown, fragment) =>
        (update shown renders).andThen fun _ => habit.removeContent.andThen fun _ =>
          (habit.insertContent fragment).andThen fun _ => habit.pure _

end Renders

section Keyed

open Keyed

variable {setting : Setting σ} (renders : ∀ item ∈ setting.items, habit.Renders item.render)
include renders

/-- An action that keeps, moves or makes an item has the habit if the item does. -/
theorem perform (pass : Pass) {action : Action} (stays : action.removes = false) :
    habit.has (setting.perform pass action) := by
  have shows : ∀ {index : Nat} {item}, setting.items[index]? = some item → habit.Renders item.render :=
    fun wanted => renders _ (List.mem_of_getElem? wanted)
  cases action with
  | keep rule first new =>
      refine (habit.note _).andThen fun _ => ?_
      unfold Setting.keep
      split
      · exact (shows ‹_›).renderWith.andThen fun _ => habit.pure _
      · exact habit.pure _
  | bring rule first new anchor =>
      refine (habit.note _).andThen fun _ => ?_
      unfold Setting.bring
      split
      · exact (shows ‹_›).renderWith.andThen fun _ => (habit.moveBefore _ _).andThen fun _ => habit.pure _
      · exact habit.pure _
  | create rule new anchor =>
      refine (habit.note _).andThen fun _ => ?_
      unfold Setting.create
      split
      · exact (habit.insertInto _ _).andThen fun _ => (shows ‹_›).renderWith.andThen fun _ => habit.pure _
      · exact habit.pure _
  | remove rule first => cases stays
  | index new first duplicates =>
      refine (habit.note _).andThen fun _ => ?_
      by_cases some : duplicates > 0
      · simp only [some, if_true]
        exact (habit.note _).andThen fun _ => habit.pure _
      · simp only [some, if_false]
        exact habit.pure _

/-- Any action has the habit if the items do, and if removing a part does. -/
theorem performAny (removes : habit.Removes setting.client) (pass : Pass) (action : Action) :
    habit.has (setting.perform pass action) := by
  cases stays : action.removes with
  | false => exact perform renders pass stays
  | true =>
      cases action with
      | remove rule first =>
          refine (habit.note _).andThen fun _ => ?_
          unfold Setting.remove
          split
          · exact (removes _ _).andThen fun _ => habit.pure _
          · exact habit.pure _
      | _ => cases stays

theorem performAll (removes : habit.Removes setting.client) (pass : Pass) (actions : List Action) :
    habit.has (setting.performAll pass actions) := by
  induction actions generalizing pass with
  | nil => exact habit.pure _
  | cons action actions ih => exact habit.bind (performAny renders removes pass action) ih

end Keyed

theorem Removes.renders_keyed {client : Client σ} {items : List (Key × Rendering σ)} (removes : habit.Removes client)
    (renders : ∀ item ∈ items, habit.Renders item.2.render) : habit.Renders (Render.keyed client items) := by
  intro part
  have follows : ∀ oldKeys old, habit.has (Render.keyedFrom client items part oldKeys old) := by
    intro oldKeys old
    refine habit.container.andThen fun container => ?_
    let setting : Keyed.Setting σ := ⟨client, container, part.stop, old, items.map (·.2)⟩
    have each : ∀ item ∈ setting.items, habit.Renders item.render := List.forall_mem_map.2 renders
    have works : habit.has (do
        let pass ← setting.performAll (.start items.length) (Keyed.plan oldKeys (items.map (·.1)))
        RenderM.note (.passDone pass.stats)
        return .keyed (items.map (·.1)) pass.parts pass.stats : RenderM σ Content) :=
      (performAll each removes _ _).andThen fun _ => (habit.note _).andThen fun _ => habit.pure _
    by_cases some : (Keyed.Window.ofKeys (items.map (·.1))).duplicates > 0
    · simp only [some, if_true]
      exact (habit.note _).andThen fun _ => works
    · simp only [some, if_false]
      exact works
  by_cases same : ∃ keys parts stats, part.content = .keyed keys parts stats
  · obtain ⟨keys, parts, stats, content⟩ := same
    rw [Render.keyed_of_keyed content]
    exact follows keys parts
  · rw [Render.keyed_of_other fun keys parts stats content => same ⟨keys, parts, stats, content⟩]
    exact habit.removeContent.andThen fun _ => follows [] []

/-- Any value is rendered so, if templates are found and parts removed so. -/
theorem Compiles.renders {client : Client σ} {value : Value} (compiles : habit.Compiles client)
    (removes : habit.Removes client) : habit.Renders (value.render client) := by
  induction value using Value.nested with
  | nothing => exact habit.renders_nothing
  | text data => exact habit.renders_text data
  | node id => exact habit.renders_node id
  | template kind literal values ih =>
      rw [Value.render, Value.renderings_eq_map]
      exact compiles.renders_template kind literal (List.forall_mem_map.2 ih)
  | list items ih =>
      rw [Value.render, Value.renderings_eq_map]
      exact renders_list (List.forall_mem_map.2 ih)
  | keyed items ih =>
      rw [Value.render, Value.keyedRenderings_eq_map]
      exact removes.renders_keyed (List.forall_mem_map.2 ih)

end Habit

end DomParts
