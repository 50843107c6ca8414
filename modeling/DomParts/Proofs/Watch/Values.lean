import DomParts.Proofs.Render.Values
import DomParts.Proofs.Watch.Parts

/-! # Values that are watched

Whatever value is rendered into a part that has its place outside what is set aside for templates, the work is done
outside, and everything in the part then has its place there, too. So no attribute is ever misplaced.
-/

namespace DomParts

open RenderM

variable {σ : Type} {watch : Watch σ} {scene : Scene σ}

namespace Watch

/-- A renderer whose work is done outside. -/
def Renders (watch : Watch σ) (render : Renderer σ) : Prop :=
  ∀ (part : NodePart) (scene : Scene σ), watch.Guards scene → part.Lodged watch scene →
    watch.Heeds (render part) scene fun content after => content.Lodged watch after

section Parts

variable {part : NodePart} {item : Rendering σ} (guards : watch.Guards scene)
include guards

theorem heeds_attend {render : Renderer σ} (renders : watch.Renders render) (lodged : part.Lodged watch scene) :
    watch.Heeds (part.attend render) scene fun content after => content.Lodged watch after := by
  unfold Heeds NodePart.attend
  rw [leads_tryCatch]
  refine Leads.mono (renders part scene guards lodged) (fun _ _ done => done) ?_
  rintro error after ⟨keeps, placed⟩
  simp only [leads_bind, leads_note, leads_throw]
  have noted : watch.Keeps after (after.add (.commitFailed error)) := keeps.guards.same rfl rfl rfl
  exact ⟨keeps.trans noted, placed⟩

theorem heeds_renderWith (renders : watch.Renders item.render) (lodged : part.Lodged watch scene) :
    watch.Heeds (part.renderWith item) scene fun part after => part.Lodged watch after := by
  have bare : NodePart.Lodged watch scene { part with pending := none } := lodged.shows lodged.content
  cases poisoned : (part.stage item.value).isPoisoned with
  | true =>
    rw [NodePart.renderWith, NodePart.commitWith_of_poisoned rfl poisoned]
    exact heeds_throw guards (by simp [Error.Misplaced])
  | false =>
    rw [NodePart.renderWith, NodePart.commitWith_of_usable rfl poisoned]
    unfold Heeds NodePart.settle
    rw [leads_orThrow_carry]
    exact (heeds_attend guards renders bare).mono fun content after keeps shown => (bare.kept keeps).shows shown

theorem heeds_commitWith {part : Part} (renders : watch.Renders item.render) (lodged : part.Lodged watch scene) :
    watch.Heeds ((part.stage item.value).commitWith item.render).orThrow scene fun part after => part.Lodged watch after := by
  unfold Heeds
  cases part with
  | node part =>
      simp only [Part.stage, Part.commitWith, leads_orThrow_map]
      exact heeds_renderWith guards renders lodged
  | «attribute» part =>
      simp only [Part.stage, Part.commitWith, leads_orThrow_map]
      have labels : watch.Labels scene (part.stage item.value) := lodged
      exact heeds_commit guards labels

theorem heeds_commitEach {parts : List Part} {items : List (Rendering σ)}
    (renders : ∀ item ∈ items, watch.Renders item.render)
    (lodged : ∀ part ∈ parts, part.Lodged watch scene) :
    watch.Heeds (Part.commitEach (parts.zipWith (fun part item => (part.stage item.value, item.render)) items)).orThrow
      scene fun parts after => ∀ part ∈ parts, part.Lodged watch after := by
  induction parts generalizing items scene with
  | nil => exact heeds_pure guards (List.forall_mem_nil _)
  | cons part parts ih =>
      cases items with
      | nil => exact heeds_pure guards (List.forall_mem_nil _)
      | cons item items =>
          rw [List.forall_mem_cons] at renders lodged
          rw [List.zipWith_cons_cons, Part.orThrow_commitEach]
          refine (heeds_commitWith guards renders.1 lodged.1).bind fun first _ keeps here => ?_
          have lodged : ∀ part ∈ parts, part.Lodged watch _ := fun part member => (lodged.2 part member).kept keeps
          refine (ih keeps.guards renders.2 lodged).map fun others _ keeps rest => ?_
          exact List.forall_mem_cons.2 ⟨Part.Lodged.kept keeps here, rest⟩

theorem heeds_update {shown : TemplateInstance} {values : List (Rendering σ)}
    (renders : ∀ item ∈ values, watch.Renders item.render)
    (lodged : ∀ part ∈ shown.parts, part.Lodged watch scene) :
    watch.Heeds (shown.update values).orThrow scene fun shown after => ∀ part ∈ shown.parts, part.Lodged watch after := by
  unfold TemplateInstance.update
  split
  · unfold Heeds
    rw [leads_orThrow_map]
    exact heeds_commitEach guards renders lodged
  · exact heeds_throw guards (by simp [Error.Misplaced])

theorem heeds_templateFor (provides : watch.client.Provides watch.shelf) (kind : TemplateKind) (literal : Literal) :
    watch.Heeds (templateFor watch.client kind literal) scene fun shared after => watch.Early after →
      shared.template.Distinct ∧ shared.template.Fits (after.tree.subtree shared.template.fragment) := by
  have leads : (templateFor watch.client kind literal).Leads scene (fun shared after => watch.Keeps scene after ∧
      (watch.Early after → Layout.Answers shared after)) fun error after => watch.Keeps scene after ∧
        (watch.Early after → ¬ error.Misplaced) := by
    have grows : (templateFor watch.client kind literal).Leads scene
        (fun _ after => after.tree.WellFormed ∧ scene.tree.size ≤ after.tree.size)
        fun _ after => after.tree.WellFormed ∧ scene.tree.size ≤ after.tree.size := by
      have compiles := provides.grows kind literal scene.memory scene.tree guards.wellFormed
      have stays : scene.tree.WellFormed ∧ scene.tree.size ≤ scene.tree.size := ⟨guards.wellFormed, Nat.le_refl _⟩
      exact templateFor_leads (fun _ _ => stays) (fun _ _ => stays) (fun _ _ => compiles) fun _ _ => compiles
    by_cases early : watch.Early scene
    · refine (grows.both ((guards.guarded early).templateFor provides kind literal)).mono ?_ ?_
      · rintro shared after ⟨⟨wellFormed, size_le⟩, minds, answers⟩
        exact ⟨guards.keeps wellFormed size_le fun _ _ => minds, fun _ => answers⟩
      · rintro error after ⟨⟨wellFormed, size_le⟩, minds, placed⟩
        exact ⟨guards.keeps wellFormed size_le fun _ _ => minds, fun _ => placed⟩
    · have late : ∀ {after : Scene σ}, scene.tree.size ≤ after.tree.size → ¬ watch.Early after :=
        fun size_le later => early (Nat.le_trans size_le later)
      refine grows.mono ?_ ?_ <;> rintro _ after ⟨wellFormed, size_le⟩
      all_goals
        have late := late size_le
        exact ⟨guards.keeps wellFormed size_le fun later => absurd later late, fun later => absurd later late⟩
  refine Leads.imp leads fun shared after ⟨keeps, answers⟩ => ⟨keeps, fun early => ?_⟩
  exact ⟨(answers early).distinct, (keeps.guards.guarded early).fits provides (answers early).prepared.listed⟩

end Parts

end Watch

namespace Render

open Watch

theorem watched_nothing : watch.Renders nothing := by
  intro part scene guards lodged
  exact (heeds_removeContent guards lodged).map fun _ _ _ _ => Content.lodged_empty

theorem watched_text (data : String) : watch.Renders (text data) := by
  intro part scene guards lodged
  unfold text
  split
  · exact heeds_pure guards Content.lodged_text
  · refine (heeds_look guards _).bind ?_
    rintro lone _ - ⟨found, rfl⟩
    cases lone with
    | some id =>
        obtain ⟨follows, -⟩ := Option.filter_eq_some_iff.1 found.symm
        have outside := guards.outside_sibling lodged.start follows
        refine (heeds_note guards _).bind fun _ _ keeps _ => ?_
        exact (heeds_setText keeps.guards (keeps.outside outside).clear).map fun _ _ _ _ => Content.lodged_text
    | none =>
        have named : (Kind.text data).attributeNames.Nodup := List.nodup_nil
        refine (heeds_create guards named).bind fun id _ first ⟨new, _⟩ => ?_
        refine (heeds_removeContent first.guards (lodged.kept first)).bind fun _ _ second _ => ?_
        have lodged := (lodged.kept first).kept second
        exact (heeds_insertContent second.guards lodged (second.outside new).clear).map fun _ _ _ _ => Content.lodged_text

theorem watched_node {id : NodeId} (guest : watch.guest id) : watch.Renders (node id) := by
  intro part scene guards lodged
  unfold node
  split
  · exact heeds_pure guards Content.lodged_node
  · refine (heeds_removeContent guards lodged).bind fun _ _ keeps _ => ?_
    have clear := keeps.guards.clear guest
    exact (heeds_insertContent keeps.guards (lodged.kept keeps) clear).map fun _ _ _ _ => Content.lodged_node

section List

variable {items : List (Rendering σ)} {parts : List NodePart} (renders : ∀ item ∈ items, watch.Renders item.render)
  (guards : watch.Guards scene) {container : NodeId} (off : watch.Outside scene container)
  (lodged : ∀ part ∈ parts, part.Lodged watch scene)
include guards off lodged

include renders in
theorem heeds_intoParts (stop : NodeId) : watch.Heeds (intoParts container stop parts items) scene
    fun parts after => ∀ part ∈ parts, part.Lodged watch after := by
  induction items generalizing parts scene with
  | nil =>
      rw [intoParts]
      exact heeds_pure guards (List.forall_mem_nil _)
  | cons item items ih =>
      rw [List.forall_mem_cons] at renders
      cases parts with
      | nil =>
          rw [intoParts]
          refine (heeds_insertInto guards (some stop) off.clear).bind fun fresh _ first place => ?_
          refine (heeds_renderWith first.guards renders.1 place).bind fun shown _ second here => ?_
          have off := second.outside (first.outside off)
          refine (ih renders.2 second.guards off (List.forall_mem_nil _)).map fun others _ third rest => ?_
          exact List.forall_mem_cons.2 ⟨here.kept third, rest⟩
      | cons part parts =>
          rw [List.forall_mem_cons] at lodged
          rw [intoParts]
          refine (heeds_renderWith guards renders.1 lodged.1).bind fun shown _ first here => ?_
          have lodged : ∀ part ∈ parts, part.Lodged watch _ := fun part member => (lodged.2 part member).kept first
          refine (ih renders.2 first.guards (first.outside off) lodged).map fun others _ second rest => ?_
          exact List.forall_mem_cons.2 ⟨here.kept second, rest⟩

theorem heeds_truncate (stop : NodeId) (count : Nat) :
    watch.Heeds (truncate container stop parts count) scene fun _ _ => True := by
  unfold truncate
  split
  case h_1 stale found =>
    have start := (lodged stale (List.mem_of_getElem? found)).start
    refine (heeds_note guards _).bind fun _ _ keeps _ => ?_
    exact (heeds_removeRun keeps.guards _ (keeps.outside off).clear (keeps.outside start).clear).map
      fun _ _ _ _ => trivial
  case h_2 => exact heeds_pure guards trivial

end List

theorem watched_list {items : List (Rendering σ)} (renders : ∀ item ∈ items, watch.Renders item.render) :
    watch.Renders (list items) := by
  intro part scene guards lodged
  have rest : ∀ (parts : List NodePart) (scene : Scene σ), watch.Guards scene → part.Lodged watch scene →
      (∀ part ∈ parts, part.Lodged watch scene) → watch.Heeds (do
        let container ← part.container
        let shown ← intoParts container part.stop parts items
        truncate container part.stop parts items.length
        return .list shown : RenderM σ Content) scene fun content after => content.Lodged watch after := by
    intro parts scene guards lodged inside
    refine (heeds_container guards lodged).bind ?_
    rintro container _ - ⟨off, rfl⟩
    refine (heeds_intoParts renders guards off inside part.stop).bind fun shown _ first here => ?_
    have inside : ∀ part ∈ parts, part.Lodged watch _ := fun part member => (inside part member).kept first
    refine (heeds_truncate first.guards (first.outside off) inside _ _).map fun _ _ second _ => ?_
    exact Content.lodged_list.2 fun part member => (here part member).kept second
  by_cases same : ∃ parts, part.content = .list parts
  · obtain ⟨parts, content⟩ := same
    rw [list_of_parts content]
    exact rest parts scene guards lodged (Content.lodged_list.1 (content ▸ lodged.content))
  · rw [list_of_other fun parts content => same ⟨parts, content⟩]
    exact (heeds_removeContent guards lodged).bind fun _ after keeps _ =>
      rest [] after keeps.guards (lodged.kept keeps) (List.forall_mem_nil _)

theorem watched_template (provides : watch.client.Provides watch.shelf) (kind : TemplateKind) (literal : Literal)
    {values : List (Rendering σ)} (renders : ∀ item ∈ values, watch.Renders item.render) :
    watch.Renders (template watch.client kind literal values) := by
  intro part scene guards lodged
  rw [template]
  refine (heeds_templateFor guards provides kind literal).bind fun shared _ first fits => ?_
  have lodged := lodged.kept first
  cases found : part.content.instanceOf? shared with
  | some shown =>
      have inside := Content.lodged_template.1 ((Content.instanceOf?_eq_some found).1 ▸ lodged.content)
      refine (heeds_note first.guards _).bind fun _ _ second _ => ?_
      have inside : ∀ part ∈ shown.parts, part.Lodged watch _ := fun part member => (inside part member).kept second
      exact (heeds_update second.guards renders inside).map fun shown _ _ here => Content.lodged_template.2 here
  | none =>
      refine (heeds_note first.guards _).bind fun _ _ second same => ?_
      rw [← same] at fits
      refine (heeds_instantiate second.guards fun early => fits (second.early early)).bind fun made _ third here => ?_
      obtain ⟨shown, fragment⟩ := made
      obtain ⟨inside, outside⟩ := here
      refine (heeds_update third.guards renders inside).bind fun shown _ fourth inside => ?_
      have lodged := ((lodged.kept second).kept third).kept fourth
      refine (heeds_removeContent fourth.guards lodged).bind fun _ _ fifth _ => ?_
      have clear := (fifth.outside (fourth.outside outside)).clear
      refine (heeds_insertContent fifth.guards (lodged.kept fifth) clear).map fun _ _ sixth _ => ?_
      exact Content.lodged_template.2 fun part member => ((inside part member).kept fifth).kept sixth

end Render

namespace Keyed

open Watch

variable {setting : Setting σ} {pass : Pass}

/-- Every part that is in place has its place outside. -/
def Pass.Lodged (watch : Watch σ) (scene : Scene σ) (pass : Pass) : Prop :=
  ∀ part, some part ∈ pass.placed → part.Lodged watch scene

theorem Pass.Lodged.kept {before after : Scene σ} (keeps : watch.Keeps before after) (lodged : pass.Lodged watch before) :
    pass.Lodged watch after := fun part member => (lodged part member).kept keeps

theorem Pass.Lodged.place (lodged : pass.Lodged watch scene) {part : NodePart} (here : part.Lodged watch scene) (index : Nat)
    (change : Stats → Stats) : ((pass.place index part).count change).Lodged watch scene := by
  intro other member
  rcases List.mem_or_eq_of_mem_set member with known | same
  · exact lodged other known
  · exact Option.some.inj same ▸ here

structure Setting.Lodged (watch : Watch σ) (scene : Scene σ) (setting : Setting σ) : Prop where
  client : setting.client = watch.client
  container : watch.Outside scene setting.container
  old : ∀ part ∈ setting.old, part.Lodged watch scene
  items : ∀ item ∈ setting.items, watch.Renders item.render

theorem Setting.Lodged.kept {before after : Scene σ} (keeps : watch.Keeps before after)
    (lodged : setting.Lodged watch before) : setting.Lodged watch after :=
  ⟨lodged.client, keeps.outside lodged.container, fun part member => (lodged.old part member).kept keeps, lodged.items⟩

section Pass

variable (provides : watch.client.Provides watch.shelf) (guards : watch.Guards scene) (settled : setting.Lodged watch scene)
  (lodged : pass.Lodged watch scene)
include provides guards settled lodged

theorem heeds_perform (action : Action) :
    watch.Heeds (setting.perform pass action) scene fun pass after => pass.Lodged watch after := by
  have noted : ∀ {act : RenderM σ Pass} (event : Event), (∀ scene, watch.Guards scene → setting.Lodged watch scene →
      pass.Lodged watch scene → watch.Heeds act scene fun pass after => pass.Lodged watch after) →
      watch.Heeds (do note event; act) scene fun pass after => pass.Lodged watch after := by
    intro act event rest
    refine (heeds_note guards event).bind fun _ after keeps _ => ?_
    exact rest after keeps.guards (settled.kept keeps) (lodged.kept keeps)
  cases action with
  | keep rule first new =>
      refine noted _ fun scene guards settled lodged => ?_
      unfold Setting.keep
      split
      · rename_i part item known wanted
        refine (heeds_renderWith guards (settled.items item (List.mem_of_getElem? wanted))
          (settled.old part (List.mem_of_getElem? known))).map fun part _ keeps here => ?_
        exact (lodged.kept keeps).place here _ _
      · exact heeds_pure guards lodged
  | bring rule first new anchor =>
      refine noted _ fun scene guards settled lodged => ?_
      unfold Setting.bring
      split
      · rename_i part item known wanted
        refine (heeds_renderWith guards (settled.items item (List.mem_of_getElem? wanted))
          (settled.old part (List.mem_of_getElem? known))).bind fun part _ first here => ?_
        have into := (first.outside settled.container).clear
        refine (heeds_moveBefore first.guards here _ into).map fun moved _ second _ => ?_
        exact ((lodged.kept first).kept second).place (here.kept second) _ _
      · exact heeds_pure guards lodged
  | create rule new anchor =>
      refine noted _ fun scene guards settled lodged => ?_
      unfold Setting.create
      split
      · rename_i item wanted
        refine (heeds_insertInto guards _ settled.container.clear).bind fun fresh _ first place => ?_
        have renders := settled.items item (List.mem_of_getElem? wanted)
        refine (heeds_renderWith first.guards renders place).map fun part _ second here => ?_
        exact ((lodged.kept first).kept second).place here _ _
      · exact heeds_pure guards lodged
  | remove rule first =>
      refine noted _ fun scene guards settled lodged => ?_
      unfold Setting.remove
      split
      · rename_i part known
        rw [settled.client]
        have old := settled.old part (List.mem_of_getElem? known)
        exact (heeds_remove guards old provides settled.container).map fun _ _ keeps _ => lodged.kept keeps
      · exact heeds_pure guards lodged
  | index new first duplicates =>
      refine noted _ fun scene guards _ lodged => ?_
      by_cases some : duplicates > 0
      · simp only [some, if_true]
        exact (heeds_note guards _).map fun _ _ keeps _ => lodged.kept keeps
      · simp only [some, if_false]
        exact heeds_pure guards lodged

theorem heeds_performAll (actions : List Action) :
    watch.Heeds (setting.performAll pass actions) scene fun pass after => pass.Lodged watch after := by
  induction actions generalizing pass scene with
  | nil => exact heeds_pure guards lodged
  | cons action actions ih =>
      rw [Setting.performAll]
      exact (heeds_perform provides guards settled lodged action).bind fun pass after keeps here =>
        ih keeps.guards (settled.kept keeps) here

end Pass

end Keyed

namespace Render

open Watch

theorem watched_keyed (provides : watch.client.Provides watch.shelf) {items : List (Key × Rendering σ)}
    (renders : ∀ item ∈ items, watch.Renders item.2.render) : watch.Renders (keyed watch.client items) := by
  have each : ∀ item ∈ items.map (·.2), watch.Renders item.render := by
    intro item member
    obtain ⟨pair, here, rfl⟩ := List.mem_map.1 member
    exact renders pair here
  have begun : ∀ scene, (Keyed.Pass.start items.length).Lodged watch scene := by
    intro scene part member
    cases List.eq_of_mem_replicate member
  intro part scene guards lodged
  have rest : ∀ (oldKeys : List Key) (old : List NodePart) (scene : Scene σ), watch.Guards scene →
      part.Lodged watch scene → (∀ part ∈ old, part.Lodged watch scene) →
      watch.Heeds (keyedFrom watch.client items part oldKeys old) scene fun content after => content.Lodged watch after := by
    intro oldKeys old scene guards lodged inside
    refine (heeds_container guards lodged).bind ?_
    rintro container _ - ⟨off, rfl⟩
    have passes : ∀ scene, watch.Guards scene →
        (⟨watch.client, container, part.stop, old, items.map (·.2)⟩ : Keyed.Setting σ).Lodged watch scene →
        watch.Heeds (do
          let pass ← Keyed.Setting.performAll ⟨watch.client, container, part.stop, old, items.map (·.2)⟩
            (.start items.length) (Keyed.plan oldKeys (items.map (·.1)))
          note (.passDone pass.stats)
          return .keyed (items.map (·.1)) pass.parts pass.stats : RenderM σ Content) scene
          fun content after => content.Lodged watch after := by
      intro scene guards settled
      refine (Keyed.heeds_performAll provides guards settled (begun scene) _).bind fun pass _ keeps here => ?_
      refine (heeds_note keeps.guards _).map fun _ _ noted _ => Content.lodged_keyed.2 fun part member => ?_
      obtain ⟨placed, among, same⟩ := List.mem_filterMap.1 member
      exact (here part (same ▸ among)).kept noted
    have settled : (⟨watch.client, container, part.stop, old, items.map (·.2)⟩ : Keyed.Setting σ).Lodged watch scene :=
      ⟨rfl, off, inside, each⟩
    by_cases some : (Keyed.Window.ofKeys (items.map (·.1))).duplicates > 0
    · simp only [some, if_true]
      exact (heeds_note guards _).bind fun _ after keeps _ => passes after keeps.guards (settled.kept keeps)
    · simp only [some, if_false]
      exact passes scene guards settled
  by_cases same : ∃ keys parts stats, part.content = .keyed keys parts stats
  · obtain ⟨keys, parts, stats, content⟩ := same
    rw [keyed_of_keyed content]
    exact rest keys parts scene guards lodged (Content.lodged_keyed.1 (content ▸ lodged.content))
  · rw [keyed_of_other fun keys parts stats content => same ⟨keys, parts, stats, content⟩]
    exact (heeds_removeContent guards lodged).bind fun _ after keeps _ =>
      rest [] [] after keeps.guards (lodged.kept keeps) (List.forall_mem_nil _)

end Render

theorem Value.watched (provides : watch.client.Provides watch.shelf) {value : Value}
    (guests : ∀ id ∈ value.leaves, watch.guest id) : watch.Renders (value.render watch.client) := by
  induction value using Value.nested with
  | nothing => exact Render.watched_nothing
  | text data => exact Render.watched_text data
  | node id => exact Render.watched_node (guests id (by simp [Value.leaves]))
  | template kind literal values ih =>
      rw [Value.render, renderings_eq_map]
      exact Render.watched_template provides kind literal (List.forall_mem_map.2 fun value member =>
        ih value member fun id leaf => guests id (mem_leavesOfAll member leaf))
  | list items ih =>
      rw [Value.render, renderings_eq_map]
      exact Render.watched_list (List.forall_mem_map.2 fun value member =>
        ih value member fun id leaf => guests id (mem_leavesOfAll member leaf))
  | keyed items ih =>
      rw [Value.render, keyedRenderings_eq_map]
      exact Render.watched_keyed provides (List.forall_mem_map.2 fun item member =>
        ih item member fun id leaf => guests id (mem_leavesOfItems member leaf))

/-- What an attempt leaves, and that it does not fail because an attribute is misplaced. -/
structure Watch.Attempts (watch : Watch σ) (attempt : Attempt σ NodePart) (scene : Scene σ) : Prop where
  keeps : watch.Keeps scene (attempt.runOn scene).2
  lodged : (attempt.runOn scene).1.1.Lodged watch (attempt.runOn scene).2
  placed : watch.Early (attempt.runOn scene).2 → ∀ error, (attempt.runOn scene).1.2 = .error error → ¬ error.Misplaced

namespace Watch

section Attempts

variable {part : NodePart} (guards : watch.Guards scene) (lodged : part.Lodged watch scene)
include guards lodged

omit guards in
theorem attempts_carry {α : Type} {act : RenderM σ α} {pending : Option Value} {kept : α → Content} {broken : Content}
    (heeds : watch.Heeds act scene fun value after => (kept value).Lodged watch after)
    (stays : ∀ after, broken.Lodged watch after) :
    watch.Attempts (.carry act (fun value => ⟨part.start, part.stop, pending, kept value⟩)
      ⟨part.start, part.stop, pending, broken⟩) scene := by
  rcases Attempt.carry_ends heeds (fun value => (⟨part.start, part.stop, pending, kept value⟩ : NodePart))
    ⟨part.start, part.stop, pending, broken⟩ with ⟨value, after, ran, keeps, shown⟩ | ⟨error, after, ran, keeps, placed⟩
  · constructor <;> rw [ran]
    · exact keeps
    · exact (lodged.kept keeps).shows shown
    · exact fun _ _ => nofun
  · constructor <;> rw [ran]
    · exact keeps
    · exact (lodged.kept keeps).shows (stays after)
    · rintro early _ ⟨⟩
      exact placed early

theorem attempts_clear : watch.Attempts part.clear scene := by
  have bare : NodePart.Lodged watch scene { part with content := .empty } := lodged.shows Content.lodged_empty
  refine attempts_carry lodged ((heeds_removeContent guards bare).mono fun _ _ _ _ => ?_) fun _ => ?_
  · exact Content.lodged_empty
  · exact Content.lodged_empty

theorem attempts_commit (provides : watch.client.Provides watch.shelf) {value : Value}
    (guests : ∀ id ∈ value.leaves, watch.guest id) : watch.Attempts ((part.stage value).commit watch.client) scene := by
  have bare : NodePart.Lodged watch scene { part with pending := none } := lodged.shows lodged.content
  cases poisoned : (part.stage value).isPoisoned with
  | true =>
      rw [NodePart.commit_of_poisoned rfl poisoned]
      refine ⟨guards.refl, bare, ?_⟩
      rintro - _ ⟨⟩
      exact id
  | false =>
      rw [NodePart.commit_of_usable rfl poisoned]
      have attends := heeds_attend guards (Value.watched provides guests) bare
      exact attempts_carry lodged attends fun _ => Content.lodged_poisoned

end Attempts

theorem heeds_createRoot {container : NodeId} (guards : watch.Guards scene) (into : watch.Clear scene container) :
    watch.Heeds (Root.create container) scene fun root after => root.part.Lodged watch after := by
  refine (heeds_insertInto guards none into).bind fun _ _ first lodged => ?_
  exact (heeds_note first.guards _).map fun _ _ second _ => lodged.kept second

end Watch

end DomParts
