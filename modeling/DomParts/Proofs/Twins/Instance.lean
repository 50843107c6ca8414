import DomParts.Proofs.Layout.Install
import DomParts.Proofs.Twins.Parts

/-! # Twin instances

Instances of the same template are made in lockstep, and their parts are twins. They are given their values in
lockstep, too, as long as the parts of the one have their layout.
-/

namespace DomParts

open RenderM

variable {σ : Type} {scene scene' : Scene σ}

namespace Part

theorem bind_mirrors (nodes : List NodeId) (slot : Slot) (same : scene.Same scene') :
    (Part.bind nodes slot).Mirrors (Part.bind nodes slot) scene scene' Part.Twin := by
  refine (blind_require _ _ scene scene' same).andThen ?_
  rintro id _ after last same rfl
  cases slot with
  | «attribute» index name =>
      have bound : (AttributePart.bind id name : RenderM σ AttributePart).Blind :=
        (blind_look _).bind fun _ => blind_pure _
      refine (bound after last same).andThen ?_
      rintro part _ after last same rfl
      exact mirrors_pure same (.attribute part)
  | node index =>
      refine (blind_look _ after last same).andThen ?_
      rintro marker _ after last same rfl
      cases marker with
      | false => exact mirrors_throw same _
      | true =>
          refine (blind_look _ after last same).andThen ?_
          rintro above _ after last same rfl
          refine (blind_require _ _ after last same).andThen ?_
          rintro parent _ after last same rfl
          refine (blind_create _ after last same).andThen ?_
          rintro stop _ after last same rfl
          refine (blind_look _ after last same).andThen ?_
          rintro next _ after last same rfl
          refine (blind_insert _ _ _ after last same).andThen fun _ _ after last same _ => ?_
          exact mirrors_pure same (.node ⟨rfl, rfl, .empty⟩)

theorem bindAll_mirrors (nodes : List NodeId) (slots : List Slot) (same : scene.Same scene') :
    (slots.mapM (Part.bind nodes)).Mirrors (slots.mapM (Part.bind nodes)) scene scene' (List.Forall₂ Part.Twin) := by
  induction slots generalizing scene scene' with
  | nil => exact mirrors_pure same .nil
  | cons slot slots ih =>
      rw [List.mapM_cons]
      refine (bind_mirrors nodes slot same).andThen fun _ _ after last same first => ?_
      exact (ih same).andThen fun _ _ after last same rest => mirrors_pure same (.cons first rest)

end Part

theorem TemplateInstance.create_mirrors (shared : SharedTemplate) (same : scene.Same scene') :
    (TemplateInstance.create shared).Mirrors (TemplateInstance.create shared) scene scene'
      fun one two => one.1.Twin two.1 ∧ two.2 = one.2 := by
  refine (blind_grow _ scene scene' same).andThen ?_
  rintro fragment _ after last same rfl
  refine (blind_look _ after last same).andThen ?_
  rintro walked _ after last same rfl
  refine (blind_require _ _ after last same).andThen ?_
  rintro nodes _ after last same rfl
  refine (Part.bindAll_mirrors nodes shared.template.slots same).andThen fun parts others after last same twins => ?_
  rw [mirrors_note_left, mirrors_note_right]
  exact mirrors_pure (same.add _ _) ⟨⟨rfl, twins⟩, rfl⟩

namespace Layout

variable {realm : Realm σ} {one two : Rendering σ}

/-- Values with positions for keys are like the others to an attribute part, but for what a list is called. -/
theorem assign_mirrors (part : AttributePart) (value : Value) (same : scene.Same scene') :
    (part.assign value).orThrow.Mirrors (part.assign value.indexed).orThrow scene scene' Eq := by
  have refused : ∀ {act : RenderM σ Unit} (what : String),
      act = (do note (.misfit what part.name); throw (.usage what)) →
      act.Mirrors act scene scene' fun _ _ => part = part := by
    rintro _ what rfl
    rw [mirrors_note_left, mirrors_note_right]
    exact mirrors_throw (same.add _ _) _
  cases value with
  | nothing =>
      simp only [Value.indexed, AttributePart.assign]
      split
      · exact ⟨same, rfl⟩
      · rw [mirrors_orThrow_carry]
        exact (blind_edit _ scene scene' same).mono fun _ _ _ => rfl
  | text data =>
      simp only [Value.indexed, AttributePart.assign]
      split
      · exact ⟨same, rfl⟩
      · rw [mirrors_orThrow_carry]
        exact (blind_edit _ scene scene' same).mono fun _ _ _ => rfl
  | list items =>
      simp only [Value.indexed, AttributePart.assign, mirrors_orThrow_carry, mirrors_note_left, mirrors_note_right]
      refine ⟨same.add _ _, .inr ⟨.misfit (Value.list items).describe part.name, ?_, ?_⟩⟩
      · simp [Scene.add]
      · simp [Event.refusesList, Value.describe]
  | _ =>
      simp only [Value.indexed, AttributePart.assign, mirrors_orThrow_carry]
      exact refused _ rfl

namespace Job.Mending

variable {job : Job σ} {now : World σ} {ahead behind : List Fitting} {fitting : Fitting}
  {before left right : List (Rendering σ)} {other : Part} {others : List Part}

theorem commit_mirrors (mending : job.Mending now ahead (fitting :: behind) before) (paired : job.realm.Paired one two)
    (admits : job.realm.Admits job.start.tree one.value.leaves)
    (twin : fitting.part.Twin other) (same : now.scene.Same scene') :
    ((fitting.part.stage one.value).commitWith one.render).orThrow.Mirrors
      ((other.stage two.value).commitWith two.render).orThrow now.scene scene' Part.Twin := by
  cases fitting with
  | node plot =>
      cases twin with
      | @node _ other twin =>
          obtain ⟨touched, taken, headway, -⟩ := mending.headway
          obtain ⟨line, member, first, later, split⟩ := headway.bench.place
          have sound := headway.change.sound
          have ready : job.realm.Ready now.scene plot.part one.value.leaves :=
            ⟨now.kept, _, _, _, plot, _, rfl, sound, ⟨headway.bench.siteOf member split sound,
              mending.waiting plot (List.mem_cons_self ..)⟩, mending.admits admits⟩
          have staged : ∀ (part : NodePart) (item : Rendering σ),
              ((Part.node part).stage item.value).commitWith item.render =
                ((part.stage item.value).commitWith item.render).map .node := fun _ _ => rfl
          rw [Fitting.part, staged, staged, mirrors_orThrow_map]
          exact (paired.renderWith ready twin same).mono fun _ _ => .node
  | label part =>
      cases twin with
      | «attribute» =>
          have staged : ∀ item : Rendering σ, ((Part.attribute part).stage item.value).commitWith item.render =
              (AttributePart.assign { part with pending := none } item.value).map .attribute := fun _ => rfl
          rw [Fitting.part, staged, staged, mirrors_orThrow_map, paired.value]
          refine (assign_mirrors _ _ same).mono ?_
          rintro part _ rfl
          exact .attribute part

theorem commitEach_mirrors (lawful : job.realm.Lawful) (mending : job.Mending now ahead behind before)
    (values : job.values = before ++ left) (count : left.length = behind.length)
    (paired : List.Forall₂ job.realm.Paired left right) (admits : job.realm.Admits job.start.tree (leavesIn job.values))
    (twins : List.Forall₂ Part.Twin (behind.map Fitting.part) others) (same : now.scene.Same scene') :
    (Part.commitEach ((behind.map Fitting.part).zipWith
        (fun part item => (part.stage item.value, item.render)) left)).orThrow.Mirrors
      (Part.commitEach (others.zipWith (fun part item => (part.stage item.value, item.render)) right)).orThrow
      now.scene scene' (List.Forall₂ Part.Twin) := by
  induction paired generalizing now ahead behind before others scene' with
  | nil =>
      cases List.length_eq_zero_iff.1 count.symm
      cases twins
      exact ⟨same, .nil⟩
  | @cons one two left right paired rest ih =>
      cases behind with
      | nil => cases count
      | cons fitting behind =>
          cases twins with
          | @cons _ other _ others twin twins =>
              have among : one ∈ job.values := by simp [values]
              rw [List.map_cons, List.zipWith_cons_cons, List.zipWith_cons_cons, Part.orThrow_commitEach,
                Part.orThrow_commitEach]
              refine (mending.commit_mirrors paired (admits.of_mem one among) twin same).bind
                (mending.commit_next lawful values paired.honest (admits.of_mem one among)) ?_
              rintro part part' after last same ⟨kept, taken, new, -, -, mending⟩ shown
              have rest := ih mending (by simpa using values) (by simpa using count)
                ((parts_fitting_without behind).symm ▸ twins) same
              rw [parts_fitting_without] at rest
              exact rest.andThen fun parts parts' after last same each => mirrors_pure same (.cons shown each)

theorem update_mirrors {fittings : List Fitting} {values : List (Rendering σ)} {shown other : TemplateInstance}
    (lawful : job.realm.Lawful) (mending : job.Mending now [] fittings [])
    (parts : shown.parts = fittings.map Fitting.part) (paired : List.Forall₂ job.realm.Paired job.values values)
    (admits : job.realm.Admits job.start.tree (leavesIn job.values)) (twin : shown.Twin other)
    (same : now.scene.Same scene') :
    (shown.update job.values).orThrow.Mirrors (other.update values).orThrow now.scene scene' TemplateInstance.Twin := by
  have number := paired.length_eq
  have size := twin.parts.length_eq
  by_cases count : job.values.length = shown.parts.length
  · have count' : values.length = other.parts.length := by rw [← number, count, size]
    simp only [TemplateInstance.update, count, count', if_true, mirrors_orThrow_map]
    rw [parts]
    have length : job.values.length = fittings.length := by rw [count, parts, List.length_map]
    have committed := mending.commitEach_mirrors lawful (List.nil_append _).symm length paired admits
      (parts ▸ twin.parts) same
    exact committed.mono fun _ _ each => ⟨twin.template, each⟩
  · have count' : values.length ≠ other.parts.length := by rwa [← number, ← size]
    simp only [TemplateInstance.update, count, count', if_false]
    exact ⟨same, .inl (by rw [number, size])⟩

end Job.Mending

namespace Realm

variable {world : World σ} {container : NodeId} {front rest : List NodeId} {plot : Plot} {slack : Slack}
  {shared : SharedTemplate} {values others : List (Rendering σ)} {shown shown' : TemplateInstance} {other : NodePart}

theorem exchange_mirrors (lawful : realm.Lawful) (sound : realm.Sound world)
    (shape : realm.shape world.scene shared (world.tree.subtree shared.template.fragment))
    (paired : List.Forall₂ realm.Paired values others) (admits : realm.Admits world.tree (leavesIn values))
    {part : NodePart} (twin : part.Twin other) (same : world.scene.Same scene') :
    (do
      let (shown, fragment) ← TemplateInstance.create shared
      let shown ← (shown.update values).orThrow
      part.removeContent
      part.insertContent fragment
      return .template shown : RenderM σ Content).Mirrors (do
      let (shown, fragment) ← TemplateInstance.create shared
      let shown ← (shown.update others).orThrow
      other.removeContent
      other.insertContent fragment
      return .template shown : RenderM σ Content) world.scene scene' Content.Twin := by
  refine (TemplateInstance.create_mirrors shared same).bind
    (create_leads ⟨fun _ => True, fun _ => True⟩ values lawful sound (lawful.distinct _ _ _ shape)) ?_
  rintro ⟨_, fragment⟩ ⟨two, _⟩ after last same ⟨fittings, created, mending⟩ ⟨twins, rfl⟩
  cases created
  refine (mending.update_mirrors lawful rfl paired admits twins same).andThen ?_
  intro one two after last same twins
  rw [twin.removeContent_eq]
  refine (part.blind_removeContent after last same).andThen fun _ _ after last same _ => ?_
  rw [twin.insertContent_eq]
  refine (part.blind_insertContent _ after last same).andThen fun _ _ after last same _ => ?_
  exact mirrors_pure same (.template twins.template twins.parts)

theorem twins_template (lawful : realm.Lawful) (kind : TemplateKind) (literal : Literal)
    (paired : List.Forall₂ realm.Paired values others) :
    realm.Twins (leavesIn values) (Render.template realm.client kind literal values)
      (Render.template realm.client kind literal others) := by
  rintro scene scene' _ other ⟨kept, container, front, rest, plot, slack, rfl, sound, placed, admits⟩ twin same
  rw [Render.template, Render.template]
  refine (blind_templateFor _ kind literal scene scene' same).bind (lawful.compiled ⟨scene, kept⟩ kind literal sound) ?_
  rintro shared _ after last same ⟨found, shape⟩ rfl
  have related := twin.content.instanceOf? shared
  generalize other.content.instanceOf? shared = found' at related ⊢
  rcases known : plot.part.content.instanceOf? shared with _ | shown
  · rw [known] at related
    cases related
    have change := found.noted lawful .instanceStarted fun _ same => by cases same
    have idle : realm.Change ⟨after, kept⟩ ⟨after, kept⟩ (fun _ => False) [] := .refl found.sound
    have shape := (idle.noted lawful .instanceStarted fun _ same => by cases same).shape _ _ shape
    simp only [mirrors_note_left, mirrors_note_right]
    exact exchange_mirrors lawful change.sound shape paired (change.admits admits) twin (same.add _ _)
  · rw [known] at related
    cases related with
    | @some _ shown' twin' =>
        obtain ⟨content, serial⟩ := Content.instanceOf?_eq_some known
        have change := found.noted lawful .instanceUpdated fun _ same => by cases same
        have remains := change.shows slack placed.shows (fun id owned => ⟨placed.site.present id owned, not_false⟩)
          ⟨fun _ => id, fun _ _ lost => lost.resolve_right List.not_mem_nil⟩
        simp only [List.not_mem_nil, not_false_eq_true, decide_true, List.filter_true] at remains
        have here := (placed.site.untouched sound change).site
        simp only [List.not_mem_nil, not_false_eq_true, decide_true, List.filter_true] at here
        obtain ⟨original, forest, reach, fittings, parts, installed⟩ := here.installed change.sound content remains
        simp only [mirrors_note_left, mirrors_note_right]
        refine (installed.begin.update_mirrors lawful parts paired (change.admits admits) twin'
          (same.add _ _)).andThen ?_
        intro one two after last same twins
        exact mirrors_pure same (.template twins.template twins.parts)

end Realm

end Layout

end DomParts
