import DomParts.Proofs.Keyed.Ledger
import DomParts.Proofs.Render.Oblivious

/-! # What a pass itself reports

The report of a pass also holds what its items report, and these may well be lists by key, too. If the items are
kept quiet, the pass goes the same way and only reports its own doings: one run that was moved for each part that is
counted as moved, and one more thing each time that it indexes keys.
-/

namespace DomParts

open Keyed RenderM

variable {σ α β : Type}

def Event.isMoved : Event → Bool
  | .moved _ => true
  | _ => false

def Event.isIndexing : Event → Bool
  | .indexing .. => true
  | _ => false

/-- How many events of some kind were reported. -/
def Scene.reported (kind : Event → Bool) (scene : Scene σ) : Nat := scene.report.toList.countP kind

@[simp] theorem Scene.reported_add (kind : Event → Bool) (event : Event) (scene : Scene σ) :
    (scene.add event).reported kind = scene.reported kind + (if kind event then 1 else 0) := by
  simp [reported, add, List.countP_append, List.countP_singleton]

namespace RenderM

variable {kind : Event → Bool} {act : RenderM σ α} {next : α → RenderM σ β}

/-- A computation that reports nothing of some kind if it goes well. -/
def Omits (kind : Event → Bool) (act : RenderM σ α) : Prop :=
  ∀ scene, act.Leads scene (fun _ after => after.reported kind = scene.reported kind) fun _ _ => True

theorem Omits.bind (omits : act.Omits kind) (onward : ∀ value, (next value).Omits kind) :
    (act >>= next).Omits kind := by
  intro scene
  rw [leads_bind]
  exact (omits scene).imp fun value between same => (onward value between).imp fun _ _ again => again.trans same

theorem omits_pure (value : α) : (pure value : RenderM σ α).Omits kind := fun _ => rfl

theorem omits_throw (error : Error) : (throw error : RenderM σ α).Omits kind := fun _ => trivial

theorem omits_note {event : Event} (other : kind event = false) : (note event : RenderM σ Unit).Omits kind := by
  intro scene
  simp [other]

theorem omits_look (view : Tree → α) : (look view : RenderM σ α).Omits kind := fun _ => rfl

theorem omits_grow (change : Tree → NodeId × Tree) : (grow change : RenderM σ NodeId).Omits kind := fun _ => rfl

theorem omits_edit (change : Tree → Except HostFault Tree) : (edit change : RenderM σ Unit).Omits kind := by
  intro scene
  rw [leads_edit]
  cases change scene.tree with
  | ok => rfl
  | error => trivial

theorem omits_editInSteps (change : Tree → Except HostFault α × Tree) : (editInSteps change : RenderM σ α).Omits kind := by
  intro scene
  rw [leads_editInSteps]
  rcases change scene.tree with ⟨_ | _, _⟩
  · trivial
  · rfl

theorem omits_consult (act : StateM (σ × Tree) α) : (consult act : RenderM σ α).Omits kind := fun _ => rfl

theorem omits_require (error : Error) (value : Option α) : (require error value : RenderM σ α).Omits kind := by
  cases value with
  | none => exact omits_throw error
  | some value => exact omits_pure value

section Removal

variable {hook : RemovalHook σ} {container : NodeId}

theorem omits_mayRemove (other : ∀ id, kind (.kept id) = false) (id : NodeId) :
    (mayRemove hook container id).Omits kind := by
  refine (omits_look _).bind fun marker => ?_
  cases marker with
  | true => exact omits_pure true
  | false =>
      refine (omits_consult _).bind fun answer => ?_
      cases answer with
      | proceed => exact omits_pure true
      | skip => exact (omits_note (other id)).bind fun _ => omits_pure false

theorem omits_removeAsking (other : ∀ id, kind (.kept id) = false) (id : NodeId) :
    (removeAsking hook container id).Omits kind := by
  have goes : ∀ may : Bool, (if may then do edit (·.removeChild container id); return true
      else return false : RenderM σ Bool).Omits kind := by
    intro may
    cases may with
    | true => exact (omits_edit _).bind fun _ => omits_pure true
    | false => exact omits_pure false
  refine (omits_look _).bind fun above => ?_
  by_cases here : above = some container
  · simp only [here, ne_eq, not_true, if_false]
    exact (omits_mayRemove other id).bind goes
  · -- What is reported of a lost node does not count: the walk fails.
    simp only [here, ne_eq, not_false_eq_true, if_true]
    intro scene
    simp

theorem omits_overRunAsking (other : ∀ id, kind (.kept id) = false) (stop : Option NodeId) (fuel : Nat)
    (next : Option NodeId) (count : Nat) : (overRunAsking hook container stop fuel next count).Omits kind := by
  induction fuel generalizing next count with
  | zero =>
      cases next with
      | none => exact omits_pure count
      | some id =>
          rw [overRunAsking]
          split
          · exact omits_pure count
          · exact omits_throw _
  | succ fuel ih =>
      cases next with
      | none => exact omits_pure count
      | some id =>
          rw [overRunAsking]
          split
          · exact omits_pure count
          · exact (omits_look _).bind fun next => (omits_removeAsking other id).bind fun went => ih next _

end Removal

end RenderM

/-- Kinds of events that are not about removal. -/
structure Event.Keeps (kind : Event → Bool) : Prop where
  removed : ∀ count, kind (.removed count) = false
  removedAsking : ∀ count, kind (.removedAsking count) = false
  kept : ∀ id, kind (.kept id) = false

theorem Event.keeps_isMoved : Event.Keeps Event.isMoved := ⟨fun _ => rfl, fun _ => rfl, fun _ => rfl⟩

theorem Event.keeps_isIndexing : Event.Keeps Event.isIndexing := ⟨fun _ => rfl, fun _ => rfl, fun _ => rfl⟩

namespace NodePart

variable {kind : Event → Bool} {part : NodePart} (keeps : Event.Keeps kind)

theorem omits_insertInto (container : NodeId) (before : Option NodeId) :
    (insertInto container before : RenderM σ NodePart).Omits kind :=
  (omits_grow _).bind fun _ => (omits_grow _).bind fun _ => (omits_edit _).bind fun _ => (omits_edit _).bind fun _ =>
    omits_pure _

theorem omits_container : (part.container : RenderM σ NodeId).Omits kind := (omits_look _).bind fun _ => omits_require _ _

include keeps

theorem omits_removeContent : (part.removeContent : RenderM σ Unit).Omits kind :=
  (omits_look _).bind fun _ => (omits_require _ _).bind fun _ => omits_container.bind fun _ =>
    ((omits_editInSteps _).bind fun _ => (omits_note (keeps.removed _)).bind fun _ => omits_pure _).bind fun _ => omits_pure _

theorem omits_remove (client : Client σ) (container : NodeId) : (part.remove client container).Omits kind := by
  refine (omits_look _).bind fun after => ?_
  have goes : (removeRunFor client container part.start after).Omits kind := by
    unfold removeRunFor
    cases client.hook? with
    | none => exact (omits_editInSteps _).bind fun _ => (omits_note (keeps.removed _)).bind fun _ => omits_pure _
    | some hook =>
        exact (omits_look _).bind fun _ => (omits_overRunAsking keeps.kept _ _ _ _).bind fun count =>
          (omits_note (keeps.removedAsking count)).bind fun _ => omits_pure count
  exact goes.bind fun _ => omits_pure _

end NodePart

/-! ## Quiet items -/

/-- Reports nothing of what a computation reports. -/
def RenderM.quietly (act : RenderM σ α) : RenderM σ α := fun scene =>
  let (result, after) := act.runOn scene
  (result, { after with report := scene.report })

theorem RenderM.quietly_matches {act : RenderM σ α} (oblivious : act.Oblivious) : act.Matches act.quietly := by
  intro scene other same
  obtain ⟨result, after⟩ := oblivious scene other same
  exact ⟨result, after.tree, after.cache, after.memory⟩

theorem RenderM.omits_quietly (kind : Event → Bool) (act : RenderM σ α) : act.quietly.Omits kind := by
  intro scene
  refine leads_iff.2 ⟨?_, fun _ _ _ => trivial⟩
  intro value after ran
  have last := congrArg Prod.snd ran
  cases last
  rfl

/-- An item that keeps its report to itself. -/
def Rendering.muted (item : Rendering σ) : Rendering σ := ⟨item.value, fun part => (item.render part).quietly⟩

namespace NodePart

variable {part : NodePart}

theorem attend_matches {one two : Renderer σ} (same : (one part).Matches (two part)) :
    (part.attend one).Matches (part.attend two) :=
  same.tryCatch fun error => Matches.bind (Habit.oblivious.note _) fun _ => Habit.oblivious.throw error

theorem commitWith_matches {one two : Renderer σ} (same : ∀ part, (one part).Matches (two part)) {scene other : Scene σ}
    (alike : scene.Same other) : ((part.commitWith two).runOn other).1 = ((part.commitWith one).runOn scene).1 ∧
      ((part.commitWith one).runOn scene).2.Same ((part.commitWith two).runOn other).2 := by
  unfold commitWith
  cases part.pending with
  | none => exact ⟨rfl, alike⟩
  | some value =>
      dsimp only
      by_cases poisoned : ({ part with pending := none } : NodePart).isPoisoned = true
      · rw [if_pos poisoned, if_pos poisoned]
        exact ⟨rfl, alike⟩
      · rw [if_neg poisoned, if_neg poisoned]
        obtain ⟨result, after⟩ := attend_matches (same { part with pending := none }) scene other alike
        unfold settle Attempt.runOn Attempt.carry
        rcases ran : (attend { part with pending := none } one).runOn scene with ⟨error | content, last⟩ <;>
          rw [ran] at result after <;>
          rcases ran' : (attend { part with pending := none } two).runOn other with ⟨error' | content', last'⟩ <;>
          rw [ran'] at result after <;> cases result
        · exact ⟨rfl, after⟩
        · exact ⟨rfl, after⟩

theorem renderWith_matches {one two : Rendering σ} (value : two.value = one.value)
    (same : ∀ part, (one.render part).Matches (two.render part)) : (part.renderWith one).Matches (part.renderWith two) := by
  intro scene other alike
  obtain ⟨result, after⟩ : (((part.stage one.value).commitWith two.render).runOn other).1 = _ ∧ _ :=
    commitWith_matches same alike
  rw [renderWith, renderWith, value]
  unfold RenderM.runOn Attempt.orThrow
  rcases ran : ((part.stage one.value).commitWith one.render).runOn scene with ⟨⟨shown, error | _⟩, last⟩ <;>
    rw [ran] at result after <;>
    rcases ran' : ((part.stage one.value).commitWith two.render).runOn other with ⟨⟨shown', error' | _⟩, last'⟩ <;>
    rw [ran'] at result after <;> cases result
  · exact ⟨rfl, after⟩
  · exact ⟨rfl, after⟩

end NodePart

variable {item : Rendering σ}

theorem Rendering.muted_matches (renders : Habit.oblivious.Renders item.render) (part : NodePart) :
    (part.renderWith item).Matches (part.renderWith item.muted) :=
  NodePart.renderWith_matches rfl fun part => quietly_matches (renders part)

theorem Rendering.omits_muted (kind : Event → Bool) (item : Rendering σ) (part : NodePart) :
    (part.renderWith item.muted).Omits kind := by
  intro scene
  have muted := omits_quietly kind (item.render { part with pending := none }) scene
  cases poisoned : ({ part with pending := none } : NodePart).isPoisoned with
  | true =>
      simp only [NodePart.renderWith, NodePart.commitWith, NodePart.stage, poisoned, if_true, leads_orThrow_refused]
  | false =>
      simp only [NodePart.renderWith, NodePart.commitWith, NodePart.stage, poisoned, Bool.false_eq_true, if_false,
        NodePart.settle, leads_orThrow_carry, NodePart.attend_leads]
      exact muted.mono (fun _ _ same => same) fun _ _ _ => trivial

namespace Keyed

/-- What a pass reports on its way: each part that it counts as moved, and no keys being indexed. -/
structure Pass.Tells (pass next : Pass) (before after : Scene σ) : Prop where
  moved : after.reported Event.isMoved + pass.stats.moved = before.reported Event.isMoved + next.stats.moved
  indexing : after.reported Event.isIndexing = before.reported Event.isIndexing

theorem Pass.Tells.trans {pass next last : Pass} {before between after : Scene σ} (one : pass.Tells next before between)
    (two : next.Tells last between after) : pass.Tells last before after where
  moved := by
    have here := one.moved
    have beyond := two.moved
    omega
  indexing := two.indexing.trans one.indexing

theorem leads_told {act : RenderM σ α} {pass next : Pass} {before : Scene σ} (moved : act.Omits Event.isMoved)
    (indexing : act.Omits Event.isIndexing) (scene : Scene σ) (tells : pass.Tells next before scene) :
    act.Leads scene (fun _ after => pass.Tells next before after) fun _ _ => True := by
  refine ((moved scene).both (indexing scene)).mono ?_ fun _ _ _ => trivial
  rintro value after ⟨moves, indexings⟩
  exact ⟨by rw [moves, tells.moved], by rw [indexings, tells.indexing]⟩

namespace Setting

/-- The setting with items that keep their reports to themselves. -/
def muted (setting : Setting σ) : Setting σ := { setting with items := setting.items.map Rendering.muted }

variable {setting : Setting σ}

theorem moveBefore_tells (part : NodePart) (container id : NodeId) (scene : Scene σ) :
    (part.moveBefore container id).Leads scene (fun moved after =>
      after.reported Event.isMoved = scene.reported Event.isMoved + (if moved then 1 else 0) ∧
      after.reported Event.isIndexing = scene.reported Event.isIndexing) fun _ _ => True := by
  rw [NodePart.moveBefore, leads_bind, leads_look]
  by_cases there : scene.tree.nextSibling part.stop = some id
  · simp only [there, if_true, leads_pure]
    exact ⟨rfl, trivial⟩
  · simp only [there, if_false, moveRun, leads_bind, leads_pure, leads_note]
    let act : RenderM σ Nat := editInSteps (·.moveRun container part.start (scene.tree.nextSibling part.stop) (some id))
    have moved : act.Omits Event.isMoved := omits_editInSteps _
    have indexing : act.Omits Event.isIndexing := omits_editInSteps _
    refine ((moved scene).both (indexing scene)).mono ?_ fun _ _ _ => trivial
    rintro count after ⟨moves, indexings⟩
    simp only [Scene.reported_add, moves, indexings]
    exact ⟨rfl, rfl⟩

variable (quiet : ∀ item ∈ setting.items, ∀ part : NodePart, ∀ kind, (part.renderWith item).Omits kind)
include quiet

theorem perform_tells (pass : Pass) {action : Action} (plain : ¬ action.indexes) (scene : Scene σ) :
    (setting.perform pass action).Leads scene (fun next after => pass.Tells next scene after) fun _ _ => True := by
  have settling : ∀ rule, pass.Tells pass scene (scene.add (.settling rule)) := fun rule =>
    ⟨by simp [Event.isMoved], by simp [Event.isIndexing]⟩
  have shows : ∀ {index : Nat} {item}, setting.items[index]? = some item → ∀ (part : NodePart) kind,
      (part.renderWith item).Omits kind := fun wanted => quiet _ (List.mem_of_getElem? wanted)
  cases action with
  | keep rule old new =>
      rw [perform, leads_bind, leads_note, keep]
      split
      · rename_i part item known wanted
        rw [leads_bind]
        exact (leads_told (shows wanted part _) (shows wanted part _) _ (settling rule)).imp
          fun _ _ told => ⟨told.moved, told.indexing⟩
      · exact settling rule
  | bring rule old new anchor =>
      rw [perform, leads_bind, leads_note, bring]
      split
      · rename_i part item known wanted
        rw [leads_bind]
        refine (leads_told (shows wanted part _) (shows wanted part _) _ (settling rule)).imp fun shown between told => ?_
        rw [leads_bind]
        refine (moveBefore_tells shown _ _ between).imp ?_
        rintro moved after ⟨moves, indexings⟩
        refine ⟨?_, indexings.trans told.indexing⟩
        have before := told.moved
        cases moved with
        | true =>
            show _ + pass.stats.moved = _ + (pass.stats.moved + 1)
            rw [moves, if_pos rfl]
            omega
        | false =>
            rw [moves]
            exact before
      · exact settling rule
  | create rule new anchor =>
      rw [perform, leads_bind, leads_note, create]
      split
      · rename_i item wanted
        rw [leads_bind]
        refine (leads_told (NodePart.omits_insertInto _ _) (NodePart.omits_insertInto _ _) _ (settling rule)).imp
          fun fresh between told => ?_
        rw [leads_bind]
        exact (leads_told (shows wanted fresh _) (shows wanted fresh _) _ told).imp
          fun _ _ told => ⟨told.moved, told.indexing⟩
      · exact settling rule
  | remove rule old =>
      rw [perform, leads_bind, leads_note, remove]
      split
      · rename_i part known
        rw [leads_bind]
        exact (leads_told (part.omits_remove Event.keeps_isMoved _ _) (part.omits_remove Event.keeps_isIndexing _ _) _
          (settling rule)).imp fun _ _ told => ⟨told.moved, told.indexing⟩
      · exact settling rule
  | index new old duplicates => exact absurd trivial plain

theorem performAll_tells (pass : Pass) {actions : List Action} (plain : ∀ action ∈ actions, ¬ action.indexes)
    (scene : Scene σ) :
    (setting.performAll pass actions).Leads scene (fun next after => pass.Tells next scene after) fun _ _ => True := by
  induction actions generalizing pass scene with
  | nil => exact ⟨rfl, rfl⟩
  | cons action actions ih =>
      rw [List.forall_mem_cons] at plain
      rw [performAll, leads_bind]
      refine (perform_tells quiet pass plain.1 scene).imp fun next between one => ?_
      exact (ih next plain.2 between).imp fun last after rest => one.trans rest

end Setting

end Keyed

/-! ## A pass with quiet items -/

namespace Keyed.Setting

variable {setting : Setting σ} (renders : ∀ item ∈ setting.items, Habit.oblivious.Renders item.render)
include renders

theorem perform_matches (pass : Pass) (action : Action) :
    (setting.perform pass action).Matches (setting.muted.perform pass action) := by
  have shows : ∀ {index : Nat} {item}, setting.items[index]? = some item → ∀ part : NodePart,
      (part.renderWith item).Matches (part.renderWith item.muted) :=
    fun wanted => Rendering.muted_matches (renders _ (List.mem_of_getElem? wanted))
  have items : ∀ index : Nat, setting.muted.items[index]? = (setting.items[index]?).map Rendering.muted :=
    fun _ => List.getElem?_map ..
  have old : setting.muted.old = setting.old := rfl
  cases action with
  | keep rule place new =>
      refine Matches.bind (Habit.oblivious.note _) fun _ => ?_
      simp only [keep, items, old]
      cases setting.old[place]? <;> cases wanted : setting.items[new]?
      case some.some part item => exact (shows wanted part).bind fun _ => Habit.oblivious.pure _
      all_goals exact Habit.oblivious.pure pass
  | bring rule place new anchor =>
      refine Matches.bind (Habit.oblivious.note _) fun _ => ?_
      simp only [bring, items, old]
      cases setting.old[place]? <;> cases wanted : setting.items[new]?
      case some.some part item =>
        exact (shows wanted part).bind fun _ => Matches.bind (Habit.oblivious.moveBefore _ _) fun _ => Habit.oblivious.pure _
      all_goals exact Habit.oblivious.pure pass
  | create rule new anchor =>
      refine Matches.bind (Habit.oblivious.note _) fun _ => ?_
      simp only [create, items]
      cases wanted : setting.items[new]?
      case some item =>
        exact Matches.bind (Habit.oblivious.insertInto _ _) fun fresh => (shows wanted fresh).bind fun _ =>
          Habit.oblivious.pure _
      all_goals exact Habit.oblivious.pure pass
  | remove rule place =>
      have same : setting.muted.perform pass (.remove rule place) = setting.perform pass (.remove rule place) := rfl
      rw [same]
      exact Habit.performAny renders (NodePart.oblivious_remove setting.client) pass _
  | index new old duplicates =>
      have same : setting.muted.perform pass (.index new old duplicates) = setting.perform pass (.index new old duplicates) :=
        rfl
      rw [same]
      exact Habit.perform renders pass rfl

theorem performAll_muted (pass : Pass) (actions : List Action) :
    (setting.performAll pass actions).Matches (setting.muted.performAll pass actions) := by
  induction actions generalizing pass with
  | nil => exact Habit.oblivious.pure pass
  | cons action actions ih => exact (perform_matches renders pass action).bind ih

end Keyed.Setting

namespace Render

variable {client : Client σ} {items : List (Key × Rendering σ)}

/-- Items with keys that keep their reports to themselves. -/
def mutedItems (items : List (Key × Rendering σ)) : List (Key × Rendering σ) :=
  items.map fun item => (item.1, item.2.muted)

@[simp] theorem keys_mutedItems : (mutedItems items).map (·.1) = items.map (·.1) := by
  simp [mutedItems]

@[simp] theorem length_mutedItems : (mutedItems items).length = items.length := by
  simp [mutedItems]

theorem keyedFrom_muted (renders : ∀ item ∈ items, Habit.oblivious.Renders item.2.render) (part : NodePart)
    (oldKeys : List Key) (old : List NodePart) :
    (keyedFrom client items part oldKeys old).Matches (keyedFrom client (mutedItems items) part oldKeys old) := by
  refine Matches.bind Habit.oblivious.container fun container => ?_
  let setting : Setting σ := ⟨client, container, part.stop, old, items.map (·.2)⟩
  have muted : setting.muted = ⟨client, container, part.stop, old, (mutedItems items).map (·.2)⟩ := by
    simp [setting, Setting.muted, mutedItems, Function.comp_def]
  have each : ∀ item ∈ setting.items, Habit.oblivious.Renders item.render := List.forall_mem_map.2 renders
  simp only [keys_mutedItems, length_mutedItems, ← muted]
  have works : (do
      let pass ← setting.performAll (.start items.length) (plan oldKeys (items.map (·.1)))
      note (.passDone pass.stats)
      return .keyed (items.map (·.1)) pass.parts pass.stats : RenderM σ Content).Matches (do
      let pass ← setting.muted.performAll (.start items.length) (plan oldKeys (items.map (·.1)))
      note (.passDone pass.stats)
      return .keyed (items.map (·.1)) pass.parts pass.stats) :=
    (Setting.performAll_muted each _ _).bind fun _ => Matches.bind (Habit.oblivious.note _) fun _ => Habit.oblivious.pure _
  by_cases some : (Window.ofKeys (items.map (·.1))).duplicates > 0
  · simp only [some, if_true]
    exact Matches.bind (Habit.oblivious.note _) fun _ => works
  · simp only [some, if_false]
    exact works

theorem keyed_muted (renders : ∀ item ∈ items, Habit.oblivious.Renders item.2.render) (part : NodePart) :
    (Render.keyed client items part).Matches (Render.keyed client (mutedItems items) part) := by
  by_cases same : ∃ keys parts stats, part.content = .keyed keys parts stats
  · obtain ⟨keys, parts, stats, content⟩ := same
    rw [keyed_of_keyed content, keyed_of_keyed content]
    exact keyedFrom_muted renders part keys parts
  · have other : ∀ keys parts stats, part.content ≠ .keyed keys parts stats :=
      fun keys parts stats content => same ⟨keys, parts, stats, content⟩
    rw [keyed_of_other other, keyed_of_other other]
    exact Matches.bind Habit.oblivious.removeContent fun _ => keyedFrom_muted renders part [] []

/-- What is reported of a list by key that is shown: its moved parts, and no keys being indexed. -/
def Tells (before after : Scene σ) (content : Content) : Prop := ∃ keys parts stats, content = .keyed keys parts stats ∧
  after.reported Event.isMoved = before.reported Event.isMoved + stats.moved ∧
  after.reported Event.isIndexing = before.reported Event.isIndexing

theorem keyedFrom_tells (items : List (Key × Rendering σ)) (part : NodePart) {oldKeys : List Key} (old : List NodePart)
    (plain : ∀ action ∈ plan oldKeys (items.map (·.1)), ¬ action.indexes) (before scene : Scene σ)
    (told : Pass.Tells (.start items.length) (.start items.length) before scene) :
    (keyedFrom client (mutedItems items) part oldKeys old).Leads scene (fun content after => Tells before after content)
      fun _ _ => True := by
  have noted : ∀ {pass : Pass} {scene : Scene σ} (event : Event), event.isMoved = false → event.isIndexing = false →
      Pass.Tells (.start items.length) pass before scene →
      Pass.Tells (.start items.length) pass before (scene.add event) := by
    intro pass scene event unmoved unindexed tells
    exact ⟨by simpa [unmoved] using tells.moved, by simpa [unindexed] using tells.indexing⟩
  rw [keyedFrom, leads_bind]
  refine (leads_told NodePart.omits_container NodePart.omits_container scene told).imp fun container between told => ?_
  let setting : Setting σ := ⟨client, container, part.stop, old, (mutedItems items).map (·.2)⟩
  have quiet : ∀ item ∈ setting.items, ∀ part : NodePart, ∀ kind, (part.renderWith item).Omits kind := by
    intro item member
    obtain ⟨muted, among, rfl⟩ := List.mem_map.1 member
    obtain ⟨given, -, rfl⟩ := List.mem_map.1 among
    exact fun part kind => Rendering.omits_muted kind given.2 part
  have works : ∀ scene, Pass.Tells (.start items.length) (.start items.length) before scene → (do
      let pass ← setting.performAll (.start items.length) (plan oldKeys (items.map (·.1)))
      note (.passDone pass.stats)
      return .keyed (items.map (·.1)) pass.parts pass.stats : RenderM σ Content).Leads scene
        (fun content after => Tells before after content) fun _ _ => True := by
    intro scene told
    rw [leads_bind]
    refine (Setting.performAll_tells quiet _ plain scene).imp fun pass after tells => ?_
    have tells := noted (.passDone pass.stats) rfl rfl (told.trans tells)
    exact ⟨_, _, _, rfl, by simpa [Pass.start] using tells.moved, tells.indexing⟩
  simp only [keys_mutedItems, length_mutedItems]
  by_cases some : (Window.ofKeys (items.map (·.1))).duplicates > 0
  · simp only [some, if_true]
    exact works _ (noted _ rfl rfl told)
  · simp only [some, if_false]
    exact works _ told

theorem keyed_tells (items : List (Key × Rendering σ)) {part : NodePart} {oldKeys : List Key} (lists : part.ListsKeys oldKeys)
    (plain : ∀ action ∈ plan oldKeys (items.map (·.1)), ¬ action.indexes) (scene : Scene σ) :
    (Render.keyed client (mutedItems items) part).Leads scene (fun content after => Tells scene after content)
      fun _ _ => True := by
  unfold NodePart.ListsKeys at lists
  split at lists
  · rename_i keys parts stats content
    obtain ⟨rfl, -⟩ := lists
    rw [keyed_of_keyed content]
    exact keyedFrom_tells items part parts plain scene scene ⟨rfl, rfl⟩
  · rename_i other
    subst lists
    rw [keyed_of_other other, leads_bind]
    have told : Pass.Tells (.start items.length) (.start items.length) scene scene := ⟨rfl, rfl⟩
    exact (leads_told (NodePart.omits_removeContent Event.keeps_isMoved) (NodePart.omits_removeContent Event.keeps_isIndexing)
      scene told).imp fun _ between told => keyedFrom_tells items part [] plain scene between told

end Render

namespace NodePart

variable {client : Client σ} {items : List (Key × Value)} {part : NodePart}

/-- Commits a list by key whose items keep their reports to themselves. -/
def commitQuietly (client : Client σ) (items : List (Key × Value)) (part : NodePart) : Attempt σ NodePart :=
  (part.stage (.keyed items)).commitWith
    (Render.keyed client (Render.mutedItems (Value.keyedRenderings client items)))

/-- Whether its items report anything or not, a list comes out the same and leaves the same scene. -/
theorem commitQuietly_matches (client : Client σ) (items : List (Key × Value)) (part : NodePart) (scene : Scene σ) :
    ((part.commitQuietly client items).runOn scene).1 = (((part.stage (.keyed items)).commit client).runOn scene).1 ∧
      (((part.stage (.keyed items)).commit client).runOn scene).2.Same ((part.commitQuietly client items).runOn scene).2 := by
  refine commitWith_matches (fun part => ?_) (.refl scene)
  refine Render.keyed_muted ?_ part
  intro item member
  rw [Value.keyedRenderings_eq_map] at member
  obtain ⟨given, -, rfl⟩ := List.mem_map.1 member
  exact Value.oblivious_render client given.2

/-- If the plan makes no lookups, the pass reports none, and it reports each part that it counts as moved. -/
theorem commitQuietly_tells {oldKeys : List Key} (lists : part.ListsKeys oldKeys)
    (plain : ∀ action ∈ plan oldKeys (items.map (·.1)), ¬ action.indexes) {scene after : Scene σ} {new : NodePart}
    (ran : (part.commitQuietly client items).runOn scene = ((new, .ok ()), after)) : Render.Tells scene after new.content := by
  have keys : (Value.keyedRenderings client items).map (·.1) = items.map (·.1) := by
    simp [Value.keyedRenderings_eq_map, Function.comp_def]
  rw [← keys] at plain
  have tells : (Render.keyed client (Render.mutedItems (Value.keyedRenderings client items))
      { part.stage (.keyed items) with pending := none }).Leads scene
      (fun content after => Render.Tells scene after content) fun _ _ => True :=
    Render.keyed_tells _ lists plain scene
  exact commitWith_ok rfl tells ran

end NodePart

end DomParts
