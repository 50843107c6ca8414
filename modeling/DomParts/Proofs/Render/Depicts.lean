import DomParts.Proofs.Render.Healthy
import Mathlib.Data.List.Forall2

/-! # What a content depicts

What a part is said to show once a value was rendered into it depends on the value alone: the parts are
those of the values in it, each showing what its value says, whatever was shown before and whichever parts
were used again. A template is known by the place of its literal.
-/

namespace DomParts

variable {σ α β : Type} {cache more : TemplateCache} {value : Value} {content : Content}

/-- What an attribute is given for a value: a text as it is, and nothing if the value is nothing. -/
def Value.label? : Value → Option (Option String)
  | .text data => some (some data)
  | .nothing => some none
  | _ => none

mutual

/-- A content that comes from rendering a value. -/
inductive Depicts (cache : TemplateCache) : Value → Content → Prop where
  | nothing : Depicts cache .nothing .empty
  | text (data : String) : Depicts cache (.text data) (.text data)
  | node (id : NodeId) : Depicts cache (.node id) (.node id)
  | template {kind : TemplateKind} {literal : Literal} {values : List Value} {shown : TemplateInstance}
      {shared : SharedTemplate} (known : cache.findIdentity? kind literal = some shared)
      (serial : shown.template.serial = shared.serial)
      (parts : List.Forall₂ (DepictsPart cache) values shown.parts) :
      Depicts cache (.template kind literal values) (.template shown)
  | list {items : List Value} {parts : List NodePart}
      (each : List.Forall₂ (fun value part => Depicts cache value part.content) items parts) :
      Depicts cache (.list items) (.list parts)
  | keyed {items : List (Key × Value)} {parts : List NodePart} {stats : Stats}
      (each : parts.length = items.length →
        List.Forall₂ (fun item part => Depicts cache item.2 part.content) items parts) :
      Depicts cache (.keyed items) (.keyed (items.map (·.1)) parts stats)

/-- A part of an instance that shows what its value says. -/
inductive DepictsPart (cache : TemplateCache) : Value → Part → Prop where
  | node {value : Value} {part : NodePart} (depicts : Depicts cache value part.content) :
      DepictsPart cache value (.node part)
  | label {value : Value} {part : AttributePart} (same : value.label? = some part.committed) :
      DepictsPart cache value (.attribute part)

end

theorem Depicts.usable (depicts : Depicts cache value content) : content.isPoisoned = false := by
  cases depicts <;> rfl

/-- What relates the members of two lists may be weakened for the members that there are. -/
theorem forall₂_imp_of_mem {first second : α → β → Prop} {left : List α} {right : List β}
    (each : List.Forall₂ first left right) (weaker : ∀ one ∈ left, ∀ two, first one two → second one two) :
    List.Forall₂ second left right := by
  induction each with
  | nil => exact .nil
  | cons here _ ih =>
      rw [List.forall_mem_cons] at weaker
      exact .cons (weaker.1 _ here) (ih weaker.2)

theorem Depicts.keeps (keeps : cache.Keeps more) (depicts : Depicts cache value content) : Depicts more value content := by
  induction value using Value.nested generalizing content with
  | nothing =>
      cases depicts
      exact .nothing
  | text data =>
      cases depicts
      exact .text data
  | node id =>
      cases depicts
      exact .node id
  | template kind literal values ih =>
      cases depicts with
      | template known serial parts =>
          refine .template (keeps _ _ _ known) serial (forall₂_imp_of_mem parts fun value member part depicts => ?_)
          cases depicts with
          | node depicts => exact .node (ih value member depicts)
          | label same => exact .label same
  | list items ih =>
      cases depicts with
      | list each => exact .list (forall₂_imp_of_mem each fun value member _ => ih value member)
  | keyed items ih =>
      cases depicts with
      | keyed each => exact .keyed fun length => forall₂_imp_of_mem (each length) fun item member _ => ih item member

theorem DepictsPart.keeps {part : Part} (keeps : cache.Keeps more) (depicts : DepictsPart cache value part) :
    DepictsPart more value part := by
  cases depicts with
  | node depicts => exact .node (depicts.keeps keeps)
  | label same => exact .label same

/-- What comes of a computation that forgets no template, not even if it fails. -/
def RenderM.Yields (act : RenderM σ α) (scene : Scene σ) (shows : TemplateCache → α → Prop) : Prop :=
  act.Leads scene (fun result after => scene.cache.Keeps after.cache ∧ shows after.cache result) fun _ after =>
    scene.cache.Keeps after.cache

/-- A renderer that makes parts show what a value says. -/
def Rendering.Faithful (item : Rendering σ) : Prop := ∀ (part : NodePart) (scene : Scene σ),
  (item.render part).Yields scene fun cache content => Depicts cache item.value content

namespace RenderM

variable {act : RenderM σ α} {next : α → RenderM σ β} {scene : Scene σ} {shows good : TemplateCache → α → Prop}
  {further : TemplateCache → β → Prop}

theorem yields_pure {result : α} (here : shows scene.cache result) : (pure result : RenderM σ α).Yields scene shows :=
  ⟨.refl _, here⟩

theorem Yields.bind (first : act.Yields scene shows)
    (rest : ∀ result after, scene.cache.Keeps after.cache → shows after.cache result →
      (next result).Yields after further) : (act >>= next).Yields scene further := by
  unfold Yields
  rw [leads_bind]
  refine Leads.imp first fun result between done => ?_
  exact Leads.mono (rest result between done.1 done.2) (fun _ _ last => ⟨done.1.trans last.1, last.2⟩)
    fun _ _ keeps => done.1.trans keeps

theorem Untainted.yields (clean : act.Untainted) (scene : Scene σ) : act.Yields scene fun _ _ => True :=
  (clean scene).mono (fun _ _ same => ⟨.of_eq same, trivial⟩) fun _ _ fault => .of_eq fault.2

theorem Untainted.bind_yields (clean : act.Untainted)
    (rest : ∀ result after, scene.cache.Keeps after.cache → (next result).Yields after further) :
    (act >>= next).Yields scene further :=
  (clean.yields scene).bind fun result after keeps _ => rest result after keeps

end RenderM

namespace NodePart

open RenderM

variable {item : Rendering σ}

theorem renderWith_yields (faithful : item.Faithful) (part : NodePart) (scene : Scene σ) :
    (part.renderWith item).Yields scene fun cache part => Depicts cache item.value part.content := by
  unfold Yields
  simp only [renderWith, commitWith, stage]
  by_cases poisoned : ({ part with pending := none } : NodePart).isPoisoned = true
  · simp only [poisoned, if_true, leads_orThrow_refused]
    exact .refl _
  · simp only [poisoned, Bool.false_eq_true, if_false, settle, attend, leads_orThrow_carry, leads_tryCatch,
      leads_bind, leads_note, leads_throw]
    exact Leads.mono (faithful { part with pending := none } scene) (fun _ _ done => done) fun _ _ keeps => keeps

end NodePart

namespace Part

open RenderM

theorem commitWith_yields {item : Rendering σ} (faithful : item.Faithful) (part : Part) (scene : Scene σ) :
    ((part.stage item.value).commitWith item.render).orThrow.Yields scene fun cache part =>
      DepictsPart cache item.value part := by
  unfold Yields
  cases part with
  | node part =>
      simp only [Part.stage, Part.commitWith, leads_orThrow_map]
      exact Leads.imp (part.renderWith_yields faithful scene) fun _ _ done => ⟨done.1, .node done.2⟩
  | «attribute» part =>
      have edits : ∀ (change : Tree → Except HostFault Tree) (part broken : AttributePart),
          item.value.label? = some part.committed →
          (Attempt.carry (edit change) (fun () => part) broken).orThrow.Leads scene
            (fun part after => scene.cache.Keeps after.cache ∧ DepictsPart after.cache item.value (.attribute part))
            fun _ after => scene.cache.Keeps after.cache := by
        intro change part broken same
        rw [leads_orThrow_carry]
        exact Leads.mono (untainted_edit change scene) (fun _ _ kept => ⟨.of_eq kept, .label same⟩)
          fun _ _ fault => .of_eq fault.2
      simp only [Part.stage, Part.commitWith, leads_orThrow_map, AttributePart.commit, AttributePart.stage,
        AttributePart.assign]
      cases value : item.value with
      | text data =>
          rw [value] at edits
          simp only
          split
          · exact ⟨.refl _, .label (by simp_all [Value.label?])⟩
          · exact edits _ _ _ rfl
      | nothing =>
          rw [value] at edits
          simp only
          split
          · exact ⟨.refl _, .label rfl⟩
          · exact edits _ _ _ rfl
      | _ =>
          simp only [leads_orThrow_carry, leads_bind, leads_note, leads_throw]
          exact .refl _

theorem commitEach_yields {items : List (Rendering σ)} {parts : List Part} (faithful : ∀ item ∈ items, item.Faithful)
    (length : items.length = parts.length) (scene : Scene σ) :
    (commitEach (parts.zipWith (fun part item => (part.stage item.value, item.render)) items)).orThrow.Yields scene
      fun cache parts => List.Forall₂ (fun item part => DepictsPart cache item.value part) items parts := by
  induction items generalizing parts scene with
  | nil =>
      obtain rfl := List.eq_nil_of_length_eq_zero length.symm
      exact ⟨.refl _, .nil⟩
  | cons item items ih =>
      obtain ⟨part, parts, rfl⟩ := List.exists_cons_of_length_eq_add_one length.symm
      rw [List.forall_mem_cons] at faithful
      unfold Yields
      rw [List.zipWith_cons_cons, leads_commitEach]
      refine Leads.imp (commitWith_yields faithful.1 part scene) fun part after one => ?_
      refine Leads.mono (ih faithful.2 (Nat.succ.inj length) after) (fun parts last rest => ?_)
        fun _ _ keeps => one.1.trans keeps
      exact ⟨one.1.trans rest.1, .cons (one.2.keeps rest.1) rest.2⟩

end Part

namespace Render

open RenderM NodePart

theorem faithful_nothing : (⟨.nothing, nothing⟩ : Rendering σ).Faithful := fun _ _ =>
  untainted_removeContent.bind_yields fun _ _ _ => yields_pure .nothing

theorem faithful_node (id : NodeId) : (⟨.node id, node id⟩ : Rendering σ).Faithful := by
  intro part scene
  simp only [node]
  split
  · exact yields_pure (.node id)
  · exact untainted_removeContent.bind_yields fun _ _ _ => (untainted_insertContent id).bind_yields fun _ _ _ =>
      yields_pure (.node id)

theorem faithful_text (data : String) : (⟨.text data, text data⟩ : Rendering σ).Faithful := by
  intro part scene
  simp only [text]
  split
  · exact yields_pure (.text data)
  · refine (untainted_look _).bind_yields fun lone _ _ => ?_
    cases lone with
    | some id => exact (untainted_note _).bind_yields fun _ _ _ => (untainted_edit _).bind_yields fun _ _ _ =>
        yields_pure (.text data)
    | none => exact (untainted_create _).bind_yields fun id _ _ => untainted_removeContent.bind_yields fun _ _ _ =>
        (untainted_insertContent id).bind_yields fun _ _ _ => yields_pure (.text data)

section List

variable {items : List (Rendering σ)}

/-- What parts show when each shows its item. -/
def Portrayed (items : List (Rendering σ)) (cache : TemplateCache) (parts : List NodePart) : Prop :=
  List.Forall₂ (fun item part => Depicts cache item.value part.content) items parts

theorem Portrayed.keeps {parts : List NodePart} (portrayed : Portrayed items cache parts) (keeps : cache.Keeps more) :
    Portrayed items more parts := List.Forall₂.imp (fun _ _ depicts => depicts.keeps keeps) portrayed

theorem intoParts_yields (container stop : NodeId) (faithful : ∀ item ∈ items, item.Faithful) (parts : List NodePart)
    (scene : Scene σ) : (intoParts container stop parts items).Yields scene (Portrayed items) := by
  induction items generalizing parts scene with
  | nil =>
      rw [intoParts]
      exact yields_pure .nil
  | cons item items ih =>
      rw [List.forall_mem_cons] at faithful
      have onward : ∀ (part : NodePart) parts scene, (do
          let shown ← part.renderWith item
          return shown :: (← intoParts container stop parts items) : RenderM σ _).Yields scene
            (Portrayed (item :: items)) := by
        intro part parts scene
        refine (renderWith_yields faithful.1 part scene).bind fun shown after _ one => ?_
        exact (ih faithful.2 parts after).bind fun others last keeps rest => yields_pure (.cons (one.keeps keeps) rest)
      cases parts with
      | nil =>
          rw [intoParts]
          exact (untainted_insertInto _ _).bind_yields fun fresh after _ => onward fresh [] after
      | cons part parts =>
          rw [intoParts]
          exact onward part parts scene

theorem faithful_list {values : List Value} (value : items.map Rendering.value = values)
    (faithful : ∀ item ∈ items, item.Faithful) : (⟨.list values, list items⟩ : Rendering σ).Faithful := by
  intro part scene
  have rest : ∀ (parts : List NodePart) scene, (do
      let container ← part.container
      let shown ← intoParts container part.stop parts items
      truncate container part.stop parts items.length
      return .list shown : RenderM σ Content).Yields scene fun cache content => Depicts cache (.list values) content := by
    intro parts scene
    refine untainted_container.bind_yields fun container after _ => ?_
    refine (intoParts_yields container part.stop faithful parts after).bind fun shown after _ portrayed => ?_
    refine (untainted_truncate container part.stop items.length).bind_yields fun _ after keeps => yields_pure (.list ?_)
    exact value ▸ List.forall₂_map_left_iff.2 (portrayed.keeps keeps)
  simp only
  by_cases same : ∃ parts, part.content = .list parts
  · obtain ⟨parts, content⟩ := same
    rw [list_of_parts content]
    exact rest parts scene
  · rw [list_of_other fun parts content => same ⟨parts, content⟩]
    exact untainted_removeContent.bind_yields fun _ after _ => rest [] after

end List

theorem untainted_bind (nodes : List NodeId) (slot : Slot) : (Part.bind nodes slot : RenderM σ Part).Untainted := by
  refine (untainted_require (by simp) _).bind fun id => ?_
  cases slot with
  | «attribute» index name =>
      have bound : (AttributePart.bind id name : RenderM σ AttributePart).Untainted :=
        (untainted_look _).bind fun _ => untainted_pure _
      exact bound.bind fun _ => untainted_pure _
  | node index =>
      refine (untainted_look _).bind fun marker => ?_
      cases marker with
      | false => exact fun _ => by simp
      | true =>
          exact (untainted_look _).bind fun _ => (untainted_require (by simp) _).bind fun _ =>
            (untainted_create _).bind fun _ => (untainted_look _).bind fun _ => (untainted_edit _).bind fun _ =>
              untainted_pure _

theorem untainted_bindAll (nodes : List NodeId) (slots : List Slot) :
    (slots.mapM (Part.bind nodes) : RenderM σ (List Part)).Untainted := by
  induction slots with
  | nil => exact untainted_pure _
  | cons slot slots ih =>
      rw [List.mapM_cons]
      exact (untainted_bind nodes slot).bind fun _ => ih.bind fun _ => untainted_pure _

theorem create_yields (shared : SharedTemplate) (scene : Scene σ) :
    (TemplateInstance.create shared).Yields scene fun _ made => made.1.template = shared := by
  have grows : (grow (·.cloneDeep shared.template.fragment) : RenderM σ NodeId).Untainted := fun _ => rfl
  exact grows.bind_yields fun _ _ _ => (untainted_look _).bind_yields fun _ _ _ =>
    (untainted_require (by simp) _).bind_yields fun _ _ _ => (untainted_bindAll _ _).bind_yields fun _ _ _ =>
      (untainted_note _).bind_yields fun _ _ _ => yields_pure rfl

theorem faithful_template (client : Client σ) (kind : TemplateKind) (literal : Literal) {items : List (Rendering σ)}
    {values : List Value} (value : items.map Rendering.value = values) (faithful : ∀ item ∈ items, item.Faithful) :
    (⟨.template kind literal values, template client kind literal items⟩ : Rendering σ).Faithful := by
  have updates : ∀ (shown : TemplateInstance) scene, (shown.update items).orThrow.Yields scene fun cache new =>
      new.template = shown.template ∧
        List.Forall₂ (fun item part => DepictsPart cache item.value part) items new.parts := by
    intro shown scene
    unfold Yields TemplateInstance.update
    split
    · rename_i length
      rw [leads_orThrow_map]
      exact Leads.imp (Part.commitEach_yields faithful length scene) fun _ _ done => ⟨done.1, rfl, done.2⟩
    · rw [leads_orThrow_refused]
      exact .refl _
  intro part scene
  have looked : (templateFor client kind literal).Yields scene fun cache shared =>
      cache.findIdentity? kind literal = some shared := templateFor_keeps
  refine looked.bind fun shared after _ known => ?_
  have depicts : ∀ {new : TemplateInstance} {cache : TemplateCache}, after.cache.Keeps cache →
      new.template.serial = shared.serial →
      List.Forall₂ (fun item part => DepictsPart cache item.value part) items new.parts →
      Depicts cache (.template kind literal values) (.template new) := fun keeps serial parts =>
    .template (keeps _ _ _ known) serial (value ▸ List.forall₂_map_left_iff.2 parts)
  cases found : part.content.instanceOf? shared with
  | some shown =>
      have serial := (Content.instanceOf?_eq_some found).2
      refine (untainted_note _).bind_yields fun _ between first => ?_
      refine (updates shown between).bind fun new last second done => yields_pure ?_
      exact depicts (first.trans second) (done.1 ▸ serial) done.2
  | none =>
      refine (untainted_note _).bind_yields fun _ between first => ?_
      refine (create_yields shared between).bind fun made last second same => ?_
      refine (updates made.1 last).bind fun new finish third done => ?_
      refine untainted_removeContent.bind_yields fun _ cleared fourth => ?_
      refine (untainted_insertContent _).bind_yields fun _ placed fifth => yields_pure ?_
      have keeps := (((first.trans second).trans third).trans fourth).trans fifth
      refine depicts keeps (by rw [done.1, same]) (List.Forall₂.imp (fun _ _ here => ?_) done.2)
      exact here.keeps (fourth.trans fifth)

end Render

namespace Keyed

open RenderM NodePart

variable {setting : Setting σ} {pass : Pass}

/-- Every part that is in place shows the item at its place. -/
structure Pass.Portrays (items : List (Rendering σ)) (cache : TemplateCache) (pass : Pass) : Prop where
  length : pass.placed.length = items.length
  each : ∀ (index : Nat) (part : NodePart), pass.placed[index]? = some (some part) →
    ∃ item : Rendering σ, items[index]? = some item ∧ Depicts cache item.value part.content

theorem places_of_full {places : List (Option NodePart)} (full : (places.filterMap id).length = places.length) :
    places = (places.filterMap id).map some := by
  have taken : ∀ place ∈ places, place.isSome := List.filterMap_length_eq_length.1 full
  clear full
  induction places with
  | nil => rfl
  | cons place places ih =>
      rw [List.forall_mem_cons] at taken
      obtain ⟨part, rfl⟩ := Option.isSome_iff_exists.1 taken.1
      exact congrArg (some part :: ·) (ih taken.2)

namespace Pass.Portrays

variable {items : List (Rendering σ)}

theorem keeps (portrays : pass.Portrays items cache) (keeps : cache.Keeps more) : pass.Portrays items more where
  length := portrays.length
  each index part placed := by
    obtain ⟨item, listed, depicts⟩ := portrays.each index part placed
    exact ⟨item, listed, depicts.keeps keeps⟩

theorem start (items : List (Rendering σ)) (cache : TemplateCache) : (Pass.start items.length).Portrays items cache where
  length := List.length_replicate
  each index part placed := by
    have := List.eq_of_mem_replicate (List.mem_of_getElem? placed)
    cases this

theorem place (portrays : pass.Portrays items cache) {index : Nat} {item : Rendering σ} (listed : items[index]? = some item)
    {part : NodePart} (depicts : Depicts cache item.value part.content) (change : Stats → Stats) :
    ((pass.place index part).count change).Portrays items cache where
  length := by
    rw [← portrays.length]
    exact List.length_set
  each other known placed := by
    simp only [Pass.place, Pass.count, List.getElem?_set] at placed
    split at placed
    · rename_i same
      subst same
      split at placed
      · cases placed
        exact ⟨item, listed, depicts⟩
      · cases placed
    · exact portrays.each other known placed

theorem counted (portrays : pass.Portrays items cache) (change : Stats → Stats) :
    (pass.count change).Portrays items cache := { portrays with }

theorem finish (portrays : pass.Portrays items cache) (full : pass.parts.length = items.length) :
    Render.Portrayed items cache pass.parts := by
  have placed : pass.placed = pass.parts.map some := places_of_full (full.trans portrays.length.symm)
  refine List.forall₂_iff_get.2 ⟨full.symm, fun index inside within => ?_⟩
  obtain ⟨item, listed, depicts⟩ := portrays.each index pass.parts[index] (by simp [placed])
  rw [List.getElem?_eq_getElem inside] at listed
  cases listed
  exact depicts

end Pass.Portrays

namespace Setting

variable (faithful : ∀ item ∈ setting.items, item.Faithful)
include faithful

theorem perform_yields (action : Action) (scene : Scene σ) (portrays : pass.Portrays setting.items scene.cache) :
    (setting.perform pass action).Yields scene fun cache pass => pass.Portrays setting.items cache := by
  cases action with
  | keep rule first new =>
      refine (untainted_note _).bind_yields fun _ between one => ?_
      unfold keep
      split
      · rename_i part item known wanted
        refine (renderWith_yields (faithful item (List.mem_of_getElem? wanted)) part between).bind
          fun part after two depicts => yields_pure ?_
        exact (portrays.keeps (one.trans two)).place wanted depicts _
      · exact yields_pure (portrays.keeps one)
  | bring rule first new anchor =>
      refine (untainted_note _).bind_yields fun _ between one => ?_
      unfold bring
      split
      · rename_i part item known wanted
        refine (renderWith_yields (faithful item (List.mem_of_getElem? wanted)) part between).bind
          fun part after two depicts => ?_
        refine (untainted_moveBefore _ _).bind_yields fun moved last three => yields_pure ?_
        exact (portrays.keeps ((one.trans two).trans three)).place wanted (depicts.keeps three) _
      · exact yields_pure (portrays.keeps one)
  | create rule new anchor =>
      refine (untainted_note _).bind_yields fun _ between one => ?_
      unfold create
      split
      · rename_i item wanted
        refine (untainted_insertInto _ _).bind_yields fun fresh after two => ?_
        refine (renderWith_yields (faithful item (List.mem_of_getElem? wanted)) fresh after).bind
          fun part last three depicts => yields_pure ?_
        exact (portrays.keeps ((one.trans two).trans three)).place wanted depicts _
      · exact yields_pure (portrays.keeps one)
  | remove rule first =>
      refine (untainted_note _).bind_yields fun _ between one => ?_
      unfold remove
      split
      · exact (untainted_remove _ _).bind_yields fun _ after two => yields_pure
          ((portrays.keeps (one.trans two)).counted _)
      · exact yields_pure (portrays.keeps one)
  | index new first duplicates =>
      refine (untainted_note _).bind_yields fun _ between one => ?_
      by_cases some : duplicates > 0
      · simp only [some, if_true]
        exact (untainted_note _).bind_yields fun _ after two => yields_pure (portrays.keeps (one.trans two))
      · simp only [some, if_false]
        exact yields_pure (portrays.keeps one)

theorem performAll_yields (actions : List Action) (scene : Scene σ) (portrays : pass.Portrays setting.items scene.cache) :
    (setting.performAll pass actions).Yields scene fun cache pass => pass.Portrays setting.items cache := by
  induction actions generalizing pass scene with
  | nil => exact yields_pure portrays
  | cons action actions ih =>
      rw [performAll]
      exact (perform_yields faithful action scene portrays).bind fun pass after _ here => ih after here

end Setting

end Keyed

namespace Render

open RenderM NodePart

theorem faithful_keyed (client : Client σ) {items : List (Key × Rendering σ)} {values : List (Key × Value)}
    (value : items.map (fun item => (item.1, item.2.value)) = values) (faithful : ∀ item ∈ items, item.2.Faithful) :
    (⟨.keyed values, keyed client items⟩ : Rendering σ).Faithful := by
  have keys : items.map (·.1) = values.map (·.1) := by simp [← value]
  have each : ∀ item ∈ items.map (·.2), item.Faithful := List.forall_mem_map.2 faithful
  have depicts : ∀ {cache : TemplateCache} {pass : Keyed.Pass}, pass.Portrays (items.map (·.2)) cache →
      Depicts cache (.keyed values) (.keyed (items.map (·.1)) pass.parts pass.stats) := by
    intro cache pass portrays
    rw [keys]
    refine .keyed fun full => ?_
    have shown := portrays.finish (by simpa [← value] using full)
    rw [← value]
    exact List.forall₂_map_left_iff.2 (List.forall₂_map_left_iff.1 shown)
  have rest : ∀ (part : NodePart) (oldKeys : List Key) (old : List NodePart) scene,
      (keyedFrom client items part oldKeys old).Yields scene fun cache content =>
        Depicts cache (.keyed values) content := by
    intro part oldKeys old scene
    refine untainted_container.bind_yields fun container between _ => ?_
    have passes : ∀ scene, (do
        let pass ← Keyed.Setting.performAll ⟨client, container, part.stop, old, items.map (·.2)⟩
          (.start items.length) (Keyed.plan oldKeys (items.map (·.1)))
        note (.passDone pass.stats)
        return .keyed (items.map (·.1)) pass.parts pass.stats : RenderM σ Content).Yields scene fun cache content =>
          Depicts cache (.keyed values) content := by
      intro scene
      have begun : (Keyed.Pass.start items.length).Portrays (items.map (·.2)) scene.cache := by
        have start := Keyed.Pass.Portrays.start (items.map (·.2)) scene.cache
        rwa [List.length_map] at start
      refine (Keyed.Setting.performAll_yields each _ scene begun).bind fun pass after _ portrays => ?_
      exact (untainted_note _).bind_yields fun _ last keeps => yields_pure (depicts (portrays.keeps keeps))
    by_cases some : (Keyed.Window.ofKeys (items.map (·.1))).duplicates > 0
    · simp only [some, if_true]
      exact (untainted_note _).bind_yields fun _ after _ => passes after
    · simp only [some, if_false]
      exact passes between
  intro part scene
  simp only
  by_cases same : ∃ keys parts stats, part.content = .keyed keys parts stats
  · obtain ⟨keys, parts, stats, content⟩ := same
    rw [keyed_of_keyed content]
    exact rest part keys parts scene
  · rw [keyed_of_other fun keys parts stats content => same ⟨keys, parts, stats, content⟩]
    exact untainted_removeContent.bind_yields fun _ after _ => rest part [] [] after

end Render

theorem Value.faithful (client : Client σ) (value : Value) : (value.rendering client).Faithful := by
  induction value using Value.nested with
  | nothing => exact Render.faithful_nothing
  | text data => exact Render.faithful_text data
  | node id => exact Render.faithful_node id
  | template kind literal values ih =>
      rw [rendering, Value.render, renderings_eq_map]
      refine Render.faithful_template client kind literal ?_ (List.forall_mem_map.2 ih)
      simp [Function.comp_def, rendering]
  | list items ih =>
      rw [rendering, Value.render, renderings_eq_map]
      refine Render.faithful_list ?_ (List.forall_mem_map.2 ih)
      simp [Function.comp_def, rendering]
  | keyed items ih =>
      rw [rendering, Value.render, keyedRenderings_eq_map]
      refine Render.faithful_keyed client ?_ (List.forall_mem_map.2 ih)
      simp [Function.comp_def, rendering]

end DomParts
