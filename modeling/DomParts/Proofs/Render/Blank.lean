import DomParts.Proofs.Render.Leads
import DomParts.Proofs.Render.Values
import Mathlib.Data.List.Forall2

/-! # Rendering into blank parts

A part that nothing was rendered into has no items that could go, so whatever is rendered into it, the removal
hook has no say. That holds for all that is inside a value, too: its parts are made for it and are blank. So what
is rendered for a client with a hook is what would be rendered without the hook.
-/

namespace DomParts

open RenderM

variable {σ α β : Type}

/-- The client without its hook. -/
def Client.unguarded (client : Client σ) : Client σ := { client with hook? := none }

/-- What follows a computation only matters for the results that it can have. -/
theorem RenderM.bind_congr_of_leads {act : RenderM σ α} {one two : α → RenderM σ β}
    (same : ∀ scene, act.Leads scene (fun value _ => one value = two value) fun _ _ => True) :
    act >>= one = act >>= two := by
  refine eq_of_leads fun scene good bad leads => ?_
  rw [leads_bind] at leads ⊢
  apply ((same scene).both leads).mono
  · rintro value after ⟨equal, onward⟩
    rwa [equal]
  · exact fun _ _ failed => failed.2

theorem RenderM.leads_bind_of_all {act : RenderM σ α} {next : α → RenderM σ β} {good : β → Scene σ → Prop}
    (onward : ∀ value scene, (next value).Leads scene good fun _ _ => True) (scene : Scene σ) :
    (act >>= next).Leads scene good fun _ _ => True := by
  rw [leads_bind]
  exact (leads_somehow act scene).imp fun value between _ => onward value between

/-- Two renderings of the same value that do the same in a part that shows nothing. -/
structure Rendering.Agrees (one two : Rendering σ) : Prop where
  value : one.value = two.value
  render : ∀ part : NodePart, part.content = .empty → one.render part = two.render part

namespace NodePart

variable {one two : Rendering σ} {part : NodePart}

theorem commitWith_agrees (agrees : one.Agrees two) (blank : part.content = .empty) :
    (part.stage one.value).commitWith one.render = (part.stage two.value).commitWith two.render := by
  have usable : part.isPoisoned = false := by
    rw [isPoisoned, blank]
    rfl
  have same := agrees.render { part with pending := none } blank
  simp only [stage, commitWith, isPoisoned] at usable ⊢
  simp only [usable, Bool.false_eq_true, if_false, settle, attend, same]

theorem renderWith_agrees (agrees : one.Agrees two) (blank : part.content = .empty) :
    part.renderWith one = part.renderWith two := by
  rw [renderWith, commitWith_agrees agrees blank, renderWith]

theorem insertInto_renderWith (agrees : one.Agrees two) (container : NodeId) (before : Option NodeId)
    (next : NodePart → RenderM σ α) :
    (do let fresh ← insertInto container before; let shown ← fresh.renderWith one; next shown) =
      (do let fresh ← insertInto container before; let shown ← fresh.renderWith two; next shown) := by
  have fresh : ∀ start stop, (between start stop).content = .empty := fun _ _ => rfl
  simp only [insertInto, bind_assoc, pure_bind, fun start stop => renderWith_agrees agrees (fresh start stop)]

end NodePart

namespace Part

variable {ones twos : List (Rendering σ)} {parts : List Part}

/-- Nothing was rendered into the part. -/
def Blank : Part → Prop
  | .node part => part.content = .empty
  | .attribute _ => True

theorem bind_blank (nodes : List NodeId) (slot : Slot) (scene : Scene σ) :
    (Part.bind nodes slot : RenderM σ Part).Leads scene (fun part _ => part.Blank) fun _ _ => True := by
  refine leads_bind_of_all (fun id => ?_) scene
  cases slot with
  | «attribute» index name => exact leads_bind_of_all fun _ _ => trivial
  | node index =>
      refine leads_bind_of_all fun marker => ?_
      cases marker
      · exact fun _ => trivial
      · exact leads_bind_of_all fun above => leads_bind_of_all fun parent => leads_bind_of_all fun stop =>
          leads_bind_of_all fun next => leads_bind_of_all fun _ _ => rfl

theorem bindAll_blank (nodes : List NodeId) (slots : List Slot) (scene : Scene σ) :
    (slots.mapM (Part.bind nodes) : RenderM σ (List Part)).Leads scene (fun parts _ => ∀ part ∈ parts, part.Blank)
      fun _ _ => True := by
  induction slots generalizing scene with
  | nil => exact List.forall_mem_nil _
  | cons slot slots ih =>
      simp only [List.mapM_cons, leads_bind, leads_pure]
      refine (bind_blank nodes slot scene).imp fun part scene first => ?_
      exact (ih scene).imp fun parts scene rest => List.forall_mem_cons.2 ⟨first, rest⟩

theorem commitWith_agrees {part : Part} {one two : Rendering σ} (agrees : one.Agrees two) (blank : part.Blank) :
    (part.stage one.value).commitWith one.render = (part.stage two.value).commitWith two.render := by
  cases part with
  | node part => exact congrArg (Attempt.map Part.node) (NodePart.commitWith_agrees agrees blank)
  | «attribute» part =>
      rw [agrees.value]
      rfl

theorem staged_agrees (agree : List.Forall₂ Rendering.Agrees ones twos) (parts : List Part) :
    (parts.zipWith (fun part item => (part.stage item.value, item.render)) ones).map (·.1) =
      (parts.zipWith (fun part item => (part.stage item.value, item.render)) twos).map (·.1) := by
  induction agree generalizing parts with
  | nil => rfl
  | cons first rest ih => cases parts <;> simp [first.value, ih]

theorem commitEach_agrees (agree : List.Forall₂ Rendering.Agrees ones twos) (blank : ∀ part ∈ parts, part.Blank) :
    commitEach (parts.zipWith (fun part item => (part.stage item.value, item.render)) ones) =
      commitEach (parts.zipWith (fun part item => (part.stage item.value, item.render)) twos) := by
  induction agree generalizing parts with
  | nil => rfl
  | @cons one two ones twos first rest ih =>
      cases parts with
      | nil => rfl
      | cons part parts =>
          obtain ⟨here, later⟩ := List.forall_mem_cons.1 blank
          simp only [List.zipWith_cons_cons, commitEach, commitWith_agrees first here, ih later, staged_agrees rest]

end Part

namespace TemplateInstance

variable {ones twos : List (Rendering σ)} {shared : SharedTemplate}

theorem create_blank (shared : SharedTemplate) (scene : Scene σ) : (create shared).Leads scene
    (fun made _ => ∀ part ∈ made.1.parts, part.Blank) fun _ _ => True := by
  refine leads_bind_of_all (fun fragment => leads_bind_of_all fun walked => leads_bind_of_all fun nodes scene => ?_) scene
  rw [leads_bind]
  exact (Part.bindAll_blank nodes shared.template.slots scene).imp fun parts scene blank => blank

theorem update_agrees {shown : TemplateInstance} (agree : List.Forall₂ Rendering.Agrees ones twos)
    (blank : ∀ part ∈ shown.parts, part.Blank) : shown.update ones = shown.update twos := by
  simp only [update, agree.length_eq, Part.commitEach_agrees agree blank]

end TemplateInstance

namespace Render

variable {ones twos : List (Rendering σ)} {client : Client σ} {part : NodePart}

theorem list_agrees (agree : List.Forall₂ Rendering.Agrees ones twos) (blank : part.content = .empty) :
    list ones part = list twos part := by
  have fills : ∀ container stop, intoParts container stop [] ones = intoParts container stop [] twos := by
    intro container stop
    induction agree with
    | nil => rfl
    | cons first rest ih => simp only [intoParts, ih, NodePart.insertInto_renderWith first]
  simp only [list, blank, pure_bind, fills, agree.length_eq]

theorem template_agrees (kind : TemplateKind) (literal : Literal) (agree : List.Forall₂ Rendering.Agrees ones twos)
    (blank : part.content = .empty) :
    template client kind literal ones part = template client.unguarded kind literal twos part := by
  have none : ∀ shared, part.content.instanceOf? shared = none := fun shared => by rw [blank]; rfl
  have found : templateFor client.unguarded kind literal = templateFor client kind literal := rfl
  simp only [template, none, found]
  refine bind_congr fun shared => bind_congr fun _ => bind_congr_of_leads fun scene => ?_
  refine (TemplateInstance.create_blank shared scene).imp fun made _ blank => ?_
  simp only [TemplateInstance.update_agrees agree blank]

end Render

namespace Keyed.Setting

variable {one two : Client σ} {container stop : NodeId} {ones twos : List (Rendering σ)}

theorem performAll_agrees (agree : List.Forall₂ Rendering.Agrees ones twos) (pass : Pass) (actions : List Action) :
    performAll ⟨one, container, stop, [], ones⟩ pass actions = performAll ⟨two, container, stop, [], twos⟩ pass actions := by
  have performs : ∀ pass action,
      perform ⟨one, container, stop, [], ones⟩ pass action = perform ⟨two, container, stop, [], twos⟩ pass action := by
    intro pass action
    cases action with
    | keep | bring | remove => simp [perform, keep, bring, remove]
    | index => rfl
    | create rule new anchor =>
        obtain ⟨length, agrees⟩ := List.forall₂_iff_get.1 agree
        by_cases inside : new < ones.length
        · simp only [perform, create, List.getElem?_eq_getElem inside, List.getElem?_eq_getElem (length ▸ inside)]
          exact bind_congr fun _ => NodePart.insertInto_renderWith (agrees new inside (length ▸ inside)) _ _ _
        · simp only [perform, create, List.getElem?_eq_none (Nat.not_lt.1 inside),
            List.getElem?_eq_none (length ▸ Nat.not_lt.1 inside)]
  induction actions generalizing pass with
  | nil => rfl
  | cons action actions ih => simp only [performAll, performs, ih]

end Keyed.Setting

theorem Render.keyed_agrees {client : Client σ} {ones twos : List (Key × Rendering σ)} {part : NodePart}
    (keys : ones.map (·.1) = twos.map (·.1)) (agree : List.Forall₂ Rendering.Agrees (ones.map (·.2)) (twos.map (·.2)))
    (blank : part.content = .empty) : keyed client ones part = keyed client.unguarded twos part := by
  have length : ones.length = twos.length := by simpa using congrArg List.length keys
  simp only [keyed, blank, keys, length, pure_bind]
  refine bind_congr fun _ => bind_congr fun container => ?_
  rw [Keyed.Setting.performAll_agrees agree]

theorem Value.renderings_agree_of_mem {client : Client σ} {values : List Value}
    (agree : ∀ value ∈ values, (value.rendering client).Agrees (value.rendering client.unguarded)) :
    List.Forall₂ Rendering.Agrees (renderings client values) (renderings client.unguarded values) := by
  rw [renderings_eq_map, renderings_eq_map, List.forall₂_map_left_iff, List.forall₂_map_right_iff]
  exact List.forall₂_same.2 agree

/-- A client's hook has no say in what is rendered into a part that shows nothing. -/
theorem Value.rendering_agrees (client : Client σ) (value : Value) :
    (value.rendering client).Agrees (value.rendering client.unguarded) := by
  refine ⟨rfl, ?_⟩
  induction value using Value.nested with
  | nothing | text | node => exact fun _ _ => rfl
  | template kind literal values ih =>
      intro part blank
      rw [rendering, rendering, render, render]
      exact Render.template_agrees kind literal (renderings_agree_of_mem fun value member => ⟨rfl, ih value member⟩) blank
  | list items ih =>
      intro part blank
      rw [rendering, rendering, render, render]
      exact Render.list_agrees (renderings_agree_of_mem fun value member => ⟨rfl, ih value member⟩) blank
  | keyed items ih =>
      intro part blank
      rw [rendering, rendering, render, render, keyedRenderings_eq_map, keyedRenderings_eq_map]
      refine Render.keyed_agrees (by simp) ?_ blank
      have agree : ∀ item ∈ items, (item.2.rendering client).Agrees (item.2.rendering client.unguarded) :=
        fun item member => ⟨rfl, ih item member⟩
      simp only [List.map_map, Function.comp_def, List.forall₂_map_left_iff, List.forall₂_map_right_iff]
      exact List.forall₂_same.2 agree

theorem Value.renderings_agree (client : Client σ) (values : List Value) :
    List.Forall₂ Rendering.Agrees (renderings client values) (renderings client.unguarded values) :=
  renderings_agree_of_mem fun value _ => value.rendering_agrees client

end DomParts
