import DomParts.Proofs.Render.Templates
import DomParts.Proofs.Render.Values
import Mathlib.Logic.Relation

/-! # Healthy parts

A part is healthy if neither it nor any part inside it is poisoned. Rendering into a healthy part leaves
a healthy part or fails, and then the part itself is poisoned and holds nothing any more. So poison never
hides below a part that looks usable, and a part that looks usable never refuses a value as poisoned.
-/

namespace DomParts

variable {σ α β : Type}

def Part.node? : Part → Option NodePart
  | .node part => some part
  | .attribute _ => none

/-- The node parts that a content is made of: the items of a list, or the node parts of an instance. -/
def Content.inside : Content → List NodePart
  | .template shown => shown.parts.filterMap Part.node?
  | content => content.items

/-- Whether `inner` is directly inside `outer`. -/
def NodePart.Holds (outer inner : NodePart) : Prop := inner ∈ outer.content.inside

/-- Neither the part nor any part inside it is poisoned. -/
inductive NodePart.Healthy : NodePart → Prop where
  | intro {part : NodePart} (usable : part.isPoisoned = false)
      (inside : ∀ inner, part.Holds inner → inner.Healthy) : part.Healthy

/-- A content that makes a part healthy. -/
structure Content.Healthy (content : Content) : Prop where
  usable : content.isPoisoned = false
  inside : ∀ inner ∈ content.inside, inner.Healthy

def Part.Healthy (part : Part) : Prop := ∀ inner ∈ part.node?, inner.Healthy

/-- A renderer that keeps parts healthy and never calls one poisoned that is not. -/
def Renderer.Wholesome (render : Renderer σ) : Prop :=
  ∀ (part : NodePart) (scene : Scene σ), part.content.Healthy → (render part).Leads scene
    (fun content _ => content.Healthy) (fun error _ => error ≠ .poisoned)

/-- Whoever compiles templates does not report a poisoned part. -/
def Client.Frank (client : Client σ) : Prop :=
  ∀ kind literal state, (client.compile kind literal state).1 ≠ .error .poisoned

/-- A computation that never reports a poisoned part and has nothing to do with templates. -/
def RenderM.Untainted (act : RenderM σ α) : Prop :=
  ∀ scene, act.Leads scene (fun _ after => after.cache = scene.cache)
    (fun error after => error ≠ .poisoned ∧ after.cache = scene.cache)

namespace NodePart

variable {part inner outer : NodePart}

theorem healthy_iff : part.Healthy ↔ part.content.Healthy :=
  ⟨fun ⟨usable, inside⟩ => ⟨usable, inside⟩, fun ⟨usable, inside⟩ => ⟨usable, inside⟩⟩

theorem Healthy.usable (healthy : part.Healthy) : part.isPoisoned = false := (healthy_iff.1 healthy).usable

theorem Healthy.descend (healthy : outer.Healthy) (way : Relation.ReflTransGen Holds outer inner) :
    inner.Healthy := by
  induction way with
  | refl => exact healthy
  | tail _ holds ih => exact (healthy_iff.1 ih).inside _ holds

end NodePart

namespace Content

variable {part : NodePart} {data : String} {id : NodeId} {parts : List NodePart} {keys : List Key} {stats : Stats}
  {shown : TemplateInstance}

theorem healthy_empty : Content.empty.Healthy := ⟨rfl, by simp [inside, items]⟩

theorem healthy_text : (Content.text data).Healthy := ⟨rfl, by simp [inside, items]⟩

theorem healthy_node : (Content.node id).Healthy := ⟨rfl, by simp [inside, items]⟩

theorem healthy_list : (Content.list parts).Healthy ↔ ∀ part ∈ parts, part.Healthy :=
  ⟨fun healthy => healthy.inside, fun inside => ⟨rfl, inside⟩⟩

theorem healthy_keyed : (Content.keyed keys parts stats).Healthy ↔ ∀ part ∈ parts, part.Healthy :=
  ⟨fun healthy => healthy.inside, fun inside => ⟨rfl, inside⟩⟩

theorem healthy_template : (Content.template shown).Healthy ↔ ∀ part ∈ shown.parts, part.Healthy := by
  constructor
  · intro healthy part member inner same
    exact healthy.inside inner (List.mem_filterMap.2 ⟨part, member, same⟩)
  · refine fun inside => ⟨rfl, fun inner member => ?_⟩
    obtain ⟨part, listed, same⟩ := List.mem_filterMap.1 member
    exact inside part listed inner same

end Content

namespace RenderM

variable {act : RenderM σ α} {next : α → RenderM σ β} {good : β → Scene σ → Prop}

theorem Untainted.bind_leads (clean : act.Untainted)
    (onward : ∀ value scene, (next value).Leads scene good fun error _ => error ≠ .poisoned) (scene : Scene σ) :
    (act >>= next).Leads scene good fun error _ => error ≠ .poisoned := by
  rw [leads_bind]
  exact (clean scene).mono (fun value scene _ => onward value scene) fun _ _ fault => fault.1

theorem Untainted.bind (clean : act.Untainted) (onward : ∀ value, (next value).Untainted) :
    (act >>= next).Untainted := by
  intro scene
  rw [leads_bind]
  refine (clean scene).mono (fun value between same => ?_) fun _ _ fault => fault
  exact (onward value between).mono (fun _ _ again => again.trans same) fun _ _ fault => ⟨fault.1, fault.2.trans same⟩

theorem untainted_pure (value : α) : (pure value : RenderM σ α).Untainted := fun _ => rfl

theorem untainted_note (event : Event) : (note event : RenderM σ Unit).Untainted := fun _ => rfl

theorem untainted_look (view : Tree → α) : (look view : RenderM σ α).Untainted := fun _ => rfl

theorem untainted_create (kind : Kind) : (create kind : RenderM σ NodeId).Untainted := fun _ => rfl

theorem untainted_edit (change : Tree → Except HostFault Tree) : (edit change : RenderM σ Unit).Untainted := by
  intro scene
  rw [leads_edit]
  cases change scene.tree <;> simp

theorem untainted_editInSteps (change : Tree → Except HostFault α × Tree) :
    (editInSteps change : RenderM σ α).Untainted := by
  intro scene
  rw [leads_editInSteps]
  rcases change scene.tree with ⟨_ | _, _⟩ <;> simp

theorem untainted_require {error : Error} (other : error ≠ .poisoned) (value : Option α) :
    (require error value : RenderM σ α).Untainted := by
  intro scene
  rw [leads_require]
  cases value <;> simp [other]

theorem untainted_removeRun (container start : NodeId) (stop : Option NodeId) :
    (removeRun container start stop : RenderM σ Nat).Untainted :=
  (untainted_editInSteps _).bind fun _ => (untainted_note _).bind fun _ => untainted_pure _

theorem untainted_moveRun (container start : NodeId) (stop before : Option NodeId) :
    (moveRun container start stop before : RenderM σ Nat).Untainted :=
  (untainted_editInSteps _).bind fun _ => (untainted_note _).bind fun _ => untainted_pure _

theorem untainted_mayRemove (hook : RemovalHook σ) (container id : NodeId) :
    (mayRemove hook container id).Untainted := by
  intro scene
  simp only [mayRemove, leads_bind, leads_look]
  split
  · rfl
  · simp only [leads_bind, leads_consult]
    split <;> simp [Scene.add]

theorem untainted_removeAsking (hook : RemovalHook σ) (container id : NodeId) :
    (removeAsking hook container id).Untainted := by
  have rest : (do
      if ← mayRemove hook container id then
        edit (·.removeChild container id)
        return true
      return false : RenderM σ Bool).Untainted := by
    refine (untainted_mayRemove hook container id).bind fun may => ?_
    cases may
    · exact untainted_pure _
    · exact (untainted_edit _).bind fun _ => untainted_pure _
  refine (untainted_look _).bind fun parent => ?_
  by_cases lost : parent ≠ some container
  · simp only [lost, ne_eq, not_false_eq_true, if_true]
    exact (untainted_note _).bind fun _ _ => by simp
  · simp only [lost, if_false]
    exact rest

theorem untainted_overRunAsking (hook : RemovalHook σ) (container : NodeId) (stop : Option NodeId) (fuel : Nat)
    (current : Option NodeId) (count : Nat) : (overRunAsking hook container stop fuel current count).Untainted := by
  induction fuel generalizing current count with
  | zero =>
      cases current with
      | none => exact untainted_pure _
      | some id =>
          rw [overRunAsking]
          split
          · exact untainted_pure _
          · exact fun _ => by simp
  | succ fuel ih =>
      cases current with
      | none => exact untainted_pure _
      | some id =>
          rw [overRunAsking]
          split
          · exact untainted_pure _
          · exact (untainted_look _).bind fun _ => (untainted_removeAsking _ _ _).bind fun _ => ih _ _

theorem untainted_removeRunFor (client : Client σ) (container start : NodeId) (stop : Option NodeId) :
    (removeRunFor client container start stop).Untainted := by
  unfold removeRunFor
  split
  · exact (untainted_look _).bind fun _ => (untainted_overRunAsking _ _ _ _ _ _).bind fun _ =>
      (untainted_note _).bind fun _ => untainted_pure _
  · exact untainted_removeRun _ _ _

/-- Looking for a template never reports a poisoned part if the client does not. -/
theorem templateFor_frank {client : Client σ} (frank : client.Frank) (kind : TemplateKind) (literal : Literal)
    (scene : Scene σ) : (templateFor client kind literal).Leads scene (fun _ _ => True)
      fun error _ => error ≠ .poisoned := by
  refine templateFor_leads (fun _ _ => trivial) (fun _ _ => trivial) (fun _ _ => trivial) fun error answer => ?_
  rintro rfl
  exact frank kind literal (scene.memory, scene.tree) answer

end RenderM

namespace NodePart

open RenderM

variable {part : NodePart}

theorem untainted_insertInto (container : NodeId) (before : Option NodeId) :
    (insertInto container before : RenderM σ NodePart).Untainted :=
  (untainted_create _).bind fun _ => (untainted_create _).bind fun _ => (untainted_edit _).bind fun _ =>
    (untainted_edit _).bind fun _ => untainted_pure _

theorem untainted_container : (part.container : RenderM σ NodeId).Untainted :=
  (untainted_look _).bind fun _ => untainted_require (by simp) _

theorem untainted_removeContent : (part.removeContent : RenderM σ Unit).Untainted :=
  (untainted_look _).bind fun _ => (untainted_require (by simp) _).bind fun _ =>
    untainted_container.bind fun _ => (untainted_removeRun _ _ _).bind fun _ => untainted_pure _

theorem untainted_insertContent (id : NodeId) : (part.insertContent id : RenderM σ Unit).Untainted :=
  untainted_container.bind fun _ => untainted_edit _

theorem untainted_moveBefore (container before : NodeId) : (part.moveBefore container before : RenderM σ Bool).Untainted := by
  refine (untainted_look _).bind fun after => ?_
  by_cases there : after = some before
  · simp only [there, if_true]
    exact untainted_pure _
  · simp only [there, if_false]
    exact (untainted_moveRun _ _ _ _).bind fun _ => untainted_pure _

theorem untainted_remove (client : Client σ) (container : NodeId) : (part.remove client container).Untainted :=
  (untainted_look _).bind fun _ => (untainted_removeRunFor _ _ _ _).bind fun _ => untainted_pure _

theorem healthy_between (start stop : NodeId) : (between start stop).Healthy := healthy_iff.2 Content.healthy_empty

theorem insertInto_leads (container : NodeId) (before : Option NodeId) (scene : Scene σ) :
    (insertInto container before : RenderM σ NodePart).Leads scene (fun part _ => part.Healthy)
      fun error _ => error ≠ .poisoned :=
  (untainted_create _).bind_leads (fun _ => (untainted_create _).bind_leads fun _ =>
    (untainted_edit _).bind_leads fun _ => (untainted_edit _).bind_leads fun _ _ => (leads_pure _).2 (healthy_between _ _)) scene

theorem renderWith_leads {item : Rendering σ} (wholesome : item.render.Wholesome) (healthy : part.Healthy)
    (scene : Scene σ) : (part.renderWith item).Leads scene (fun part _ => part.Healthy)
      fun error _ => error ≠ .poisoned := by
  have usable : ({ part with pending := none } : NodePart).isPoisoned = false := healthy.usable
  simp only [renderWith, commitWith, stage, usable, Bool.false_eq_true, if_false, settle, attend,
    leads_orThrow_carry, leads_tryCatch, leads_bind, leads_note, leads_throw]
  have sane : part.content.Healthy := healthy_iff.1 healthy
  have leads := wholesome { part with pending := none } scene sane
  refine leads.mono ?_ fun _ _ fault => fault
  exact fun content _ sane => healthy_iff.2 sane

end NodePart

namespace Part

open RenderM

variable {parts : List Part}

theorem healthy_node {part : NodePart} : (Part.node part).Healthy ↔ part.Healthy := by
  simp [Part.Healthy, node?]

theorem healthy_attribute (part : AttributePart) : (Part.attribute part).Healthy := by
  simp [Part.Healthy, node?]

theorem bind_leads (nodes : List NodeId) (slot : Slot) (scene : Scene σ) :
    (Part.bind nodes slot : RenderM σ Part).Leads scene (fun part _ => part.Healthy)
      fun error _ => error ≠ .poisoned := by
  refine (untainted_require (by simp) _).bind_leads (fun id => ?_) scene
  cases slot with
  | «attribute» index name =>
      simp only [AttributePart.bind, leads_bind, leads_look, leads_pure]
      exact fun _ => healthy_attribute _
  | node index =>
      refine (untainted_look _).bind_leads fun marker scene => ?_
      have fresh : ∀ stop, (Part.node (.between id stop)).Healthy := fun stop =>
        healthy_node.2 (NodePart.healthy_between id stop)
      cases marker
      · simp
      · simp only [not_true_eq_false, if_false]
        exact (untainted_look _).bind_leads (fun parent => (untainted_require (by simp) _).bind_leads fun parent =>
          (untainted_create _).bind_leads fun stop => (untainted_look _).bind_leads fun next =>
            (untainted_edit _).bind_leads fun _ _ => (leads_pure _).2 (fresh stop)) scene

theorem bindAll_leads (nodes : List NodeId) (slots : List Slot) (scene : Scene σ) :
    (slots.mapM (Part.bind nodes) : RenderM σ (List Part)).Leads scene
      (fun parts _ => ∀ part ∈ parts, part.Healthy) fun error _ => error ≠ .poisoned := by
  induction slots generalizing scene with
  | nil => simp
  | cons slot slots ih =>
      simp only [List.mapM_cons, leads_bind, leads_pure]
      refine (bind_leads nodes slot scene).mono (fun part scene first => ?_) fun _ _ fault => fault
      refine (ih scene).mono (fun parts scene rest => ?_) fun _ _ fault => fault
      exact List.forall_mem_cons.2 ⟨first, rest⟩

theorem commitWith_leads {part : Part} {item : Rendering σ} (wholesome : item.render.Wholesome)
    (healthy : part.Healthy) (scene : Scene σ) :
    ((part.stage item.value).commitWith item.render).orThrow.Leads scene (fun part _ => part.Healthy)
      fun error _ => error ≠ .poisoned := by
  cases part with
  | node part =>
      simp only [Part.stage, Part.commitWith, leads_orThrow_map]
      refine (NodePart.renderWith_leads wholesome (healthy_node.1 healthy) scene).mono ?_ fun _ _ fault => fault
      exact fun _ _ => healthy_node.2
  | «attribute» part =>
      simp only [Part.stage, Part.commitWith, leads_orThrow_map, AttributePart.commit, AttributePart.stage,
        AttributePart.assign]
      have edits : ∀ (change : Tree → Except HostFault Tree) (kept : Unit → AttributePart) (broken : AttributePart),
          (Attempt.carry (edit change) kept broken).orThrow.Leads scene
            (fun part _ => (Part.attribute part).Healthy) fun error _ => error ≠ .poisoned := by
        intro change kept broken
        rw [leads_orThrow_carry]
        exact (untainted_edit change scene).mono (fun _ _ _ => healthy_attribute _) fun _ _ fault => fault.1
      cases item.value with
      | text data =>
          simp only
          split
          · exact healthy_attribute _
          · exact edits ..
      | nothing =>
          simp only
          split
          · exact healthy_attribute _
          · exact edits ..
      | _ => simp

theorem commitEach_leads {items : List (Rendering σ)} (wholesome : ∀ item ∈ items, item.render.Wholesome)
    (healthy : ∀ part ∈ parts, part.Healthy) (scene : Scene σ) :
    (commitEach (parts.zipWith (fun part item => (part.stage item.value, item.render)) items)).orThrow.Leads scene
      (fun parts _ => ∀ part ∈ parts, part.Healthy) fun error _ => error ≠ .poisoned := by
  induction parts generalizing items scene with
  | nil => simp [commitEach]
  | cons part parts ih =>
      cases items with
      | nil => simp [commitEach]
      | cons item items =>
          rw [List.forall_mem_cons] at wholesome healthy
          rw [List.zipWith_cons_cons, leads_commitEach]
          refine (commitWith_leads wholesome.1 healthy.1 scene).mono (fun part scene first => ?_)
            fun _ _ fault => fault
          refine (ih wholesome.2 healthy.2 scene).mono (fun parts scene rest => ?_) fun _ _ fault => fault
          exact List.forall_mem_cons.2 ⟨first, rest⟩

end Part

namespace Render

open RenderM NodePart

theorem wholesome_nothing : (nothing : Renderer σ).Wholesome := fun _ scene _ =>
  untainted_removeContent.bind_leads (fun _ _ => (leads_pure _).2 Content.healthy_empty) scene

theorem wholesome_node (id : NodeId) : (node id : Renderer σ).Wholesome := by
  intro part scene _
  unfold node
  split
  · exact (leads_pure _).2 Content.healthy_node
  · exact untainted_removeContent.bind_leads (fun _ => (untainted_insertContent id).bind_leads fun _ _ =>
      (leads_pure _).2 Content.healthy_node) scene

theorem wholesome_text (data : String) : (text data : Renderer σ).Wholesome := by
  intro part scene _
  unfold text
  split
  · exact (leads_pure _).2 Content.healthy_text
  · refine (untainted_look _).bind_leads (fun lone scene => ?_) scene
    cases lone with
    | some id =>
        exact (untainted_note _).bind_leads (fun _ => (untainted_edit _).bind_leads fun _ _ =>
          (leads_pure _).2 Content.healthy_text) scene
    | none =>
        exact (untainted_create _).bind_leads (fun id => untainted_removeContent.bind_leads fun _ =>
          (untainted_insertContent id).bind_leads fun _ _ => (leads_pure _).2 Content.healthy_text) scene

section List

variable {items : List (Rendering σ)} {parts : List NodePart}

theorem intoParts_leads (container stop : NodeId) (wholesome : ∀ item ∈ items, item.render.Wholesome)
    (healthy : ∀ part ∈ parts, part.Healthy) (scene : Scene σ) : (intoParts container stop parts items).Leads scene
      (fun parts _ => ∀ part ∈ parts, part.Healthy) fun error _ => error ≠ .poisoned := by
  induction items generalizing parts scene with
  | nil =>
      rw [intoParts, leads_pure]
      simp
  | cons item items ih =>
      rw [List.forall_mem_cons] at wholesome
      cases parts with
      | nil =>
          rw [intoParts]
          simp only [leads_bind, leads_pure]
          refine (insertInto_leads container (some stop) scene).mono (fun fresh scene new => ?_) fun _ _ fault => fault
          refine (renderWith_leads wholesome.1 new scene).mono (fun shown scene first => ?_) fun _ _ fault => fault
          refine (ih wholesome.2 (by simp) scene).mono (fun parts scene rest => ?_) fun _ _ fault => fault
          exact List.forall_mem_cons.2 ⟨first, rest⟩
      | cons part parts =>
          rw [List.forall_mem_cons] at healthy
          rw [intoParts]
          simp only [leads_bind, leads_pure]
          refine (renderWith_leads wholesome.1 healthy.1 scene).mono (fun shown scene first => ?_) fun _ _ fault => fault
          refine (ih wholesome.2 healthy.2 scene).mono (fun parts scene rest => ?_) fun _ _ fault => fault
          exact List.forall_mem_cons.2 ⟨first, rest⟩

theorem untainted_truncate (container stop : NodeId) (count : Nat) :
    (truncate container stop parts count : RenderM σ Unit).Untainted := by
  unfold truncate
  split
  · exact (untainted_note _).bind fun _ => (untainted_removeRun _ _ _).bind fun _ => untainted_pure _
  · exact untainted_pure _

theorem wholesome_list (wholesome : ∀ item ∈ items, item.render.Wholesome) : (list items).Wholesome := by
  intro part scene healthy
  have rest : ∀ parts : List NodePart, (∀ part ∈ parts, part.Healthy) → ∀ scene, (do
      let container ← part.container
      let shown ← intoParts container part.stop parts items
      truncate container part.stop parts items.length
      return .list shown : RenderM σ Content).Leads scene (fun content _ => content.Healthy)
        fun error _ => error ≠ .poisoned := by
    intro parts healthy
    refine untainted_container.bind_leads fun container scene => ?_
    rw [leads_bind]
    refine (intoParts_leads container part.stop wholesome healthy scene).mono (fun shown scene sane => ?_)
      fun _ _ fault => fault
    exact (untainted_truncate container part.stop items.length).bind_leads
      (fun _ _ => (leads_pure _).2 (Content.healthy_list.2 sane)) scene
  by_cases same : ∃ parts, part.content = .list parts
  · obtain ⟨parts, content⟩ := same
    rw [list_of_parts content]
    exact rest parts (Content.healthy_list.1 (content ▸ healthy)) scene
  · rw [list_of_other fun parts content => same ⟨parts, content⟩]
    exact untainted_removeContent.bind_leads (fun _ => rest [] (by simp)) scene

end List

theorem wholesome_template {client : Client σ} (frank : client.Frank) (kind : TemplateKind) (literal : Literal)
    {values : List (Rendering σ)} (wholesome : ∀ item ∈ values, item.render.Wholesome) :
    (template client kind literal values).Wholesome := by
  have updates : ∀ (shown : TemplateInstance), (∀ part ∈ shown.parts, part.Healthy) → ∀ scene,
      (shown.update values).orThrow.Leads scene (fun shown _ => ∀ part ∈ shown.parts, part.Healthy)
        fun error _ => error ≠ .poisoned := by
    intro shown healthy scene
    unfold TemplateInstance.update
    split
    · rw [leads_orThrow_map]
      exact Part.commitEach_leads wholesome healthy scene
    · simp
  intro part scene healthy
  rw [template, leads_bind]
  refine (templateFor_frank frank kind literal scene).mono (fun shared scene _ => ?_) fun _ _ fault => fault
  cases found : part.content.instanceOf? shared with
  | some shown =>
      have content := (Content.instanceOf?_eq_some found).1
      refine (untainted_note _).bind_leads (fun _ scene => ?_) scene
      rw [leads_bind]
      refine (updates shown (Content.healthy_template.1 (content ▸ healthy)) scene).mono (fun shown _ sane => ?_)
        fun _ _ fault => fault
      exact (leads_pure _).2 (Content.healthy_template.2 sane)
  | none =>
      refine (untainted_note _).bind_leads (fun _ scene => ?_) scene
      simp only [TemplateInstance.create, leads_bind, leads_grow, leads_look, leads_note, leads_pure]
      refine (untainted_require (by simp : Error.overflow ≠ .poisoned) _ _).mono (fun nodes scene _ => ?_)
        fun _ _ fault => fault.1
      refine (Part.bindAll_leads _ _ _).mono (fun parts scene bound => ?_) fun _ _ fault => fault
      refine (updates ⟨shared, parts⟩ bound _).mono (fun shown scene sane => ?_) fun _ _ fault => fault
      refine (untainted_removeContent scene).mono (fun _ scene _ => ?_) fun _ _ fault => fault.1
      exact (untainted_insertContent _ scene).mono (fun _ _ _ => Content.healthy_template.2 sane)
        fun _ _ fault => fault.1

end Render

namespace Keyed

open RenderM NodePart

variable {setting : Setting σ} {pass : Pass}

/-- Every part that is in place is healthy. -/
def Pass.Healthy (pass : Pass) : Prop := ∀ part, some part ∈ pass.placed → part.Healthy

theorem Pass.Healthy.place (healthy : pass.Healthy) {part : NodePart} (sane : part.Healthy) (index : Nat)
    (change : Stats → Stats) : ((pass.place index part).count change).Healthy := by
  intro other member
  rcases List.mem_or_eq_of_mem_set member with known | same
  · exact healthy other known
  · exact Option.some.inj same ▸ sane

namespace Setting

variable (old : ∀ part ∈ setting.old, part.Healthy) (wholesome : ∀ item ∈ setting.items, item.render.Wholesome)
include old wholesome

theorem perform_leads (healthy : pass.Healthy) (action : Action) (scene : Scene σ) :
    (setting.perform pass action).Leads scene (fun pass _ => pass.Healthy) fun error _ => error ≠ .poisoned := by
  cases action with
  | keep rule first new =>
      refine (untainted_note _).bind_leads (fun _ scene => ?_) scene
      unfold keep
      split
      · rename_i part item known wanted
        simp only [leads_bind, leads_pure]
        exact (renderWith_leads (wholesome item (List.mem_of_getElem? wanted))
          (old part (List.mem_of_getElem? known)) scene).mono (fun _ _ sane => healthy.place sane _ _)
          fun _ _ fault => fault
      · exact (leads_pure _).2 healthy
  | bring rule first new anchor =>
      refine (untainted_note _).bind_leads (fun _ scene => ?_) scene
      unfold bring
      split
      · rename_i part item known wanted
        simp only [leads_bind, leads_pure]
        refine (renderWith_leads (wholesome item (List.mem_of_getElem? wanted))
          (old part (List.mem_of_getElem? known)) scene).mono (fun part scene sane => ?_) fun _ _ fault => fault
        exact (untainted_moveBefore _ _ scene).mono (fun _ _ _ => healthy.place sane _ _) fun _ _ fault => fault.1
      · exact (leads_pure _).2 healthy
  | create rule new anchor =>
      refine (untainted_note _).bind_leads (fun _ scene => ?_) scene
      unfold create
      split
      · rename_i item wanted
        simp only [leads_bind, leads_pure]
        refine (insertInto_leads _ _ scene).mono (fun fresh scene sane => ?_) fun _ _ fault => fault
        exact (renderWith_leads (wholesome item (List.mem_of_getElem? wanted)) sane scene).mono
          (fun _ _ sane => healthy.place sane _ _) fun _ _ fault => fault
      · exact (leads_pure _).2 healthy
  | remove rule first =>
      refine (untainted_note _).bind_leads (fun _ scene => ?_) scene
      unfold remove
      split
      · exact (untainted_remove _ _).bind_leads (fun _ _ => (leads_pure _).2 healthy) scene
      · exact (leads_pure _).2 healthy
  | index new first duplicates =>
      refine (untainted_note _).bind_leads (fun _ scene => ?_) scene
      by_cases some : duplicates > 0
      · simpa only [some, if_true, leads_bind, leads_note, leads_pure] using healthy
      · simpa only [some, if_false, leads_bind, leads_pure] using healthy

theorem performAll_leads (healthy : pass.Healthy) (actions : List Action) (scene : Scene σ) :
    (setting.performAll pass actions).Leads scene (fun pass _ => pass.Healthy)
      fun error _ => error ≠ .poisoned := by
  induction actions generalizing pass scene with
  | nil => exact (leads_pure _).2 healthy
  | cons action actions ih =>
      rw [performAll, leads_bind]
      exact (perform_leads old wholesome healthy action scene).mono (fun pass scene sane => ih sane scene)
        fun _ _ fault => fault

end Setting

end Keyed

namespace Render

open RenderM NodePart

theorem wholesome_keyed (client : Client σ) {items : List (Key × Rendering σ)}
    (wholesome : ∀ item ∈ items, item.2.render.Wholesome) : (keyed client items).Wholesome := by
  intro part scene healthy
  have rest : ∀ (oldKeys : List Key) (old : List NodePart), (∀ part ∈ old, part.Healthy) → ∀ scene,
      (keyedFrom client items part oldKeys old).Leads scene (fun content _ => content.Healthy)
        fun error _ => error ≠ .poisoned := by
    intro oldKeys old healthy
    refine untainted_container.bind_leads fun container scene => ?_
    have each : ∀ item ∈ items.map (·.2), item.render.Wholesome := by
      intro item member
      obtain ⟨pair, here, rfl⟩ := List.mem_map.1 member
      exact wholesome pair here
    have begun : (Keyed.Pass.start items.length).Healthy := by
      intro part member
      have := List.eq_of_mem_replicate member
      cases this
    have passes : ∀ scene, (Keyed.Setting.performAll ⟨client, container, part.stop, old, items.map (·.2)⟩
        (.start items.length) (Keyed.plan oldKeys (items.map (·.1)))).Leads scene
          (fun pass _ => (Content.keyed (items.map (·.1)) pass.parts pass.stats).Healthy)
          fun error _ => error ≠ .poisoned := by
      intro scene
      refine (Keyed.Setting.performAll_leads healthy each begun _ scene).mono (fun pass _ sane => ?_)
        fun _ _ fault => fault
      refine Content.healthy_keyed.2 fun part member => ?_
      obtain ⟨placed, here, same⟩ := List.mem_filterMap.1 member
      exact sane part (same ▸ here)
    by_cases some : (Keyed.Window.ofKeys (items.map (·.1))).duplicates > 0
    · simpa only [some, if_true, leads_bind, leads_note, leads_pure] using passes _
    · simpa only [some, if_false, leads_bind, leads_note, leads_pure] using passes _
  by_cases same : ∃ keys parts stats, part.content = .keyed keys parts stats
  · obtain ⟨keys, parts, stats, content⟩ := same
    rw [keyed_of_keyed content]
    exact rest keys parts (Content.healthy_keyed.1 (content ▸ healthy)) scene
  · rw [keyed_of_other fun keys parts stats content => same ⟨keys, parts, stats, content⟩]
    exact untainted_removeContent.bind_leads (fun _ => rest [] [] (by simp)) scene

end Render

theorem Value.wholesome {client : Client σ} (frank : client.Frank) (value : Value) :
    (value.render client).Wholesome := by
  induction value using Value.nested with
  | nothing => exact Render.wholesome_nothing
  | text data => exact Render.wholesome_text data
  | node id => exact Render.wholesome_node id
  | template kind literal values ih =>
      rw [Value.render, renderings_eq_map]
      exact Render.wholesome_template frank kind literal (List.forall_mem_map.2 ih)
  | list items ih =>
      rw [Value.render, renderings_eq_map]
      exact Render.wholesome_list (List.forall_mem_map.2 ih)
  | keyed items ih =>
      rw [Value.render, keyedRenderings_eq_map]
      exact Render.wholesome_keyed client (List.forall_mem_map.2 ih)

end DomParts
