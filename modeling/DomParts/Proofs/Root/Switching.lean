import DomParts.Proofs.Render.Blank
import DomParts.Proofs.Root.Calls

/-! # Switching templates

A part that is to show another template keeps what it shows until the new instance is complete. So if
compiling, binding or any of the values fails, the part is poisoned, but every node that was there stays
as it was: new nodes are all that is left of the attempt. The removal hook has no say in that, whatever it
does. Where a part is in its place and the hook only thinks, nothing else can fail.
-/

namespace DomParts

open Layout RenderM

variable {σ : Type} {client : Client σ} {scene : Scene σ} {part : NodePart} {kind : TemplateKind} {literal : Literal}

/-- What every scene keeps to, whoever changes the tree: nodes know their parents, the node slots of each
    template are at markers of their own, and the hook was asked about nodes that exist. -/
structure Scene.Kempt (scene : Scene σ) : Prop where
  wellFormed : scene.tree.WellFormed
  separate : scene.cache.All SharedTemplate.Separate
  answered : ∀ id, .kept id ∈ scene.report.toList → scene.tree.size > id

/-- The part does not show an instance of the literal's template already, be it that there is no such
    template. -/
def NodePart.Switches (part : NodePart) (client : Client σ) (kind : TemplateKind) (literal : Literal)
    (scene : Scene σ) : Prop :=
  ∀ shared after, (templateFor client kind literal).runOn scene = (.ok shared, after) →
    part.content.instanceOf? shared = none

theorem Client.Additive.unguarded (additive : client.Additive) : client.unguarded.Regular :=
  ⟨⟨additive.grows, additive.separate⟩, nofun⟩

namespace Render

/-- Completes a new instance of the literal's template, beside whatever the part shows. -/
def prepare (client : Client σ) (kind : TemplateKind) (literal : Literal) (values : List (Rendering σ)) :
    RenderM σ (TemplateInstance × NodeId) := do
  let shared ← templateFor client kind literal
  note .instanceStarted
  TemplateInstance.complete shared values

theorem prepare_unguarded (client : Client σ) (kind : TemplateKind) (literal : Literal) (values : List Value) :
    prepare client kind literal (Value.renderings client values) =
      prepare client.unguarded kind literal (Value.renderings client.unguarded values) := by
  have found : templateFor client.unguarded kind literal = templateFor client kind literal := rfl
  simp only [prepare, found]
  refine bind_congr fun shared => bind_congr fun _ => bind_congr_of_leads fun scene => ?_
  refine (TemplateInstance.create_blank shared scene).imp fun made _ blank => ?_
  simp only [TemplateInstance.update_agrees (Value.renderings_agree client values) blank]

theorem template_of_switches (switches : part.Switches client kind literal scene) (values : List (Rendering σ)) :
    (template client kind literal values part).runOn scene = (do
      let (shown, fragment) ← prepare client kind literal values
      part.removeContent
      part.insertContent fragment
      return .template shown : RenderM σ Content).runOn scene := by
  simp only [template, prepare, bind_assoc]
  rw [runOn_bind, runOn_bind]
  cases found : (templateFor client kind literal).runOn scene with
  | mk result after =>
      cases result with
      | error error => rfl
      | ok shared =>
          have other := switches shared after found
          simp only [other, TemplateInstance.complete, bind_assoc, pure_bind]

end Render

namespace Layout

variable {realm : Realm σ} {world after : World σ} {touched : NodeId → Prop} {slack : Slack}
  {shared : SharedTemplate} {copy : Subtree} {values : List (Rendering σ)}

/-- A change that neither works on a node that was there nor takes one only adds nodes. -/
theorem Realm.Change.only_adds (change : realm.Change world after touched [])
    (untouched : ∀ id, world.tree.size > id → ¬ touched id) : world.tree.Extends after.tree where
  size_le := change.size_le
  node?_eq id inside := by
    have spared := change.spared id inside (untouched id inside)
    exact Tree.node?_ext spared.kindOf (spared.parentOf List.not_mem_nil) (by simpa using spared.childrenOf)

/-- Whatever is left of an unfinished instance that shows no nodes of the host is new. -/
theorem Job.Broken.only_adds (broken : (realm.workshop world slack shared copy values).Broken scene)
    (plain : leavesIn values = []) : world.tree.Extends scene.tree := by
  obtain ⟨kept, touched, taken, fittings, headway⟩ := broken
  have none : taken = [] := by
    apply List.eq_nil_iff_forall_not_mem.2
    intro id member
    have leaf : id ∈ leavesIn values := headway.among id member
    rw [plain] at leaf
    cases leaf
  subst none
  exact headway.change.only_adds headway.within

namespace Realm

/-- A complete instance waits beside a site for its old content to go, or what there is of it is new. -/
theorem prepare_leads (lawful : realm.Lawful) (sound : realm.Sound world)
    (honest : ∀ item ∈ values, realm.Honest item.value.leaves item.render) (plain : leavesIn values = []) :
    (Render.prepare realm.client kind literal values).Leads world.scene
      (fun made now => ∀ {container front rest plot}, realm.Site world container front rest plot →
        (do
          plot.part.removeContent
          plot.part.insertContent made.2
          return .template made.1 : RenderM σ Content).Leads now (fun _ _ => True) fun _ _ => False)
      (fun _ now => world.tree.Extends now.tree) := by
  rw [Render.prepare, leads_bind]
  refine (lawful.compiled world kind literal sound).mono ?_ fun _ _ found => found.only_adds fun _ _ => id
  rintro shared now ⟨found, shape⟩
  have change := found.noted lawful .instanceStarted nofun
  have idle : realm.Change ⟨now, world.kept⟩ ⟨now, world.kept⟩ (fun _ => False) [] := .refl found.sound
  have shape := (idle.noted lawful .instanceStarted nofun).shape _ _ shape
  have admits : realm.Admits (now.add .instanceStarted).tree (leavesIn values) := by
    rw [plain]
    exact nofun
  rw [leads_bind, leads_note]
  have begun := change.only_adds fun _ _ => id
  refine (complete_leads noSlack lawful change.sound shape honest admits).mono ?_
    fun _ _ broken => begun.trans (broken.only_adds plain)
  rintro _ scene ⟨kept, fittings, rfl, mending⟩ container front rest plot site
  have here := (site.untouched sound change).site
  simp only [List.not_mem_nil, not_false_eq_true, decide_true, List.filter_true] at here
  exact ((copied_clone change.sound shape).install lawful here mending).mono (fun _ _ _ => trivial)
    fun _ _ none => none

end Realm

end Layout

namespace Scene.Kempt

variable (kempt : scene.Kempt)
include kempt

theorem sound (client : Client σ) : (regularRealm client fun _ => False).Sound ⟨scene, fun _ => False⟩ where
  wellFormed := kempt.wellFormed
  surveyed := Nat.zero_le _
  holds := kempt.separate
  guest_exists _ := False.elim
  guest_below _ _ := False.elim
  stock_exists _ := False.elim
  stock_below _ _ := False.elim
  stock_own _ := False.elim
  answered_exists := kempt.answered
  kept_exists _ := False.elim
  answered _ := False.elim

end Scene.Kempt

/-- The part is somewhere inside a usable part of a page that rendering has led to. -/
def NodePart.Lives (part : NodePart) (client : Client σ) (scene : Scene σ) : Prop :=
  ∃ stage root, Reached client stage ∧ stage.scene = scene ∧ root ∈ stage.parts ∧ root.isPoisoned = false ∧
    Relation.ReflTransGen NodePart.Holds root part

theorem Reached.kempt {stage : Stage σ} (regular : client.Regular) (reached : Reached client stage) :
    stage.scene.Kempt := by
  obtain ⟨kept, lots, stands⟩ := reached.stands regular
  have sound := stands.standing.sound
  exact ⟨sound.wellFormed, sound.holds, sound.answered_exists⟩

namespace Layout.Realm

variable {realm : Realm σ} {world : World σ} {values : List Value}

/-- What can be prepared of a template's values that show no nodes of the host. -/
theorem prepare_values_leads (lawful : realm.Lawful) (sound : realm.Sound world)
    (plain : (Value.template kind literal values).leaves = []) :
    (Render.prepare realm.client kind literal (Value.renderings realm.client values)).Leads world.scene
      (fun made now => ∀ {container front rest plot}, realm.Site world container front rest plot →
        (do
          plot.part.removeContent
          plot.part.insertContent made.2
          return .template made.1 : RenderM σ Content).Leads now (fun _ _ => True) fun _ _ => False)
      (fun _ now => world.tree.Extends now.tree) := by
  have honest : ∀ item ∈ Value.renderings realm.client values, realm.Honest item.value.leaves item.render := by
    rw [Value.renderings_eq_map, List.forall_mem_map]
    exact fun value _ => honest_value lawful value
  have none : leavesIn (Value.renderings realm.client values) = [] := by
    rw [Value.renderings_eq_map, Value.leavesIn_renderings, ← plain, Value.leaves]
  exact prepare_leads lawful sound honest none

end Layout.Realm

section Values

variable {values : List Value}

/-- A failure while a new instance is prepared leaves new nodes only, and where the part lives nothing fails
    later. -/
theorem switch_leads (additive : client.Additive) (kempt : scene.Kempt)
    (plain : (Value.template kind literal values).leaves = []) (switches : part.Switches client kind literal scene) :
    (Render.template client kind literal (Value.renderings client values) part).Leads scene (fun _ _ => True)
      fun error now =>
        (∃ after, (Render.prepare client kind literal (Value.renderings client values)).runOn scene =
          (.error error, after)) ∨ client.Regular ∧ part.Lives client scene → scene.tree.Extends now.tree := by
  rw [Leads, Render.template_of_switches switches, runOn_bind]
  have prepared := Realm.prepare_values_leads (regular_lawful additive.unguarded fun _ => False)
    (kempt.sound client.unguarded) plain
  rw [show (regularRealm client.unguarded fun _ => False).client = client.unguarded from rfl,
    ← Render.prepare_unguarded] at prepared
  cases ran : (Render.prepare client kind literal (Value.renderings client values)).runOn scene with
  | mk result now =>
      cases result with
      | error error => exact fun _ => prepared.error ran
      | ok made =>
          show Leads _ _ _ _
          apply leads_iff.2
          refine ⟨fun _ _ _ => trivial, fun error after failed => ?_⟩
          rintro (⟨_, again⟩ | ⟨regular, stage, root, reached, rfl, member, usable, inside⟩)
          · cases again
          · obtain ⟨kept, slack, container, front, rest, plot, rfl, sound, placed⟩ :=
              reached.placed regular member usable inside
            have prepared := Realm.prepare_values_leads (regular_lawful regular stage.guest) sound plain
            exact ((prepared.ok ran placed.site).error failed).elim

/-- Values that do not fit the instance that is shown are refused at once. -/
theorem miscount_leads (additive : client.Additive) (kempt : scene.Kempt) {shared : SharedTemplate}
    {shown : TemplateInstance} {after : Scene σ}
    (found : (templateFor client kind literal).runOn scene = (.ok shared, after))
    (same : part.content.instanceOf? shared = some shown) (count : values.length ≠ shown.parts.length) :
    (Render.template client kind literal (Value.renderings client values) part).Leads scene (fun _ _ => False)
      fun error now => error = .template (.valueCount shown.parts.length values.length) ∧
        scene.tree.Extends now.tree := by
  have lawful := regular_lawful additive.unguarded fun _ => False
  have compiled := ((lawful.compiled ⟨scene, fun _ => False⟩ kind literal (kempt.sound client.unguarded)).ok found).1
  have length : (Value.renderings client values).length = values.length := by
    rw [Value.renderings_eq_map, List.length_map]
  have adds := compiled.only_adds fun _ _ => id
  rw [Render.template, leads_bind_of_ran found]
  simp only [same, leads_bind, leads_note, TemplateInstance.update, length, if_neg count, leads_orThrow_refused]
  exact ⟨trivial, adds⟩

end Values

/-- A switch that fails leaves what was shown. If a usable part is to show a template that it does not show
    yet, with values that show no nodes of the host, and the new instance cannot be completed, for whatever
    reason, then the part is poisoned and nothing happened to the nodes that were there, whatever hook there is.
    Where the part is in its place and the hook only thinks, there is no other way to fail. The same holds if the
    part shows the template already and the number of values is wrong. -/
theorem Scene.Kempt.failed_switch (additive : client.Additive) (kempt : scene.Kempt) (usable : part.isPoisoned = false)
    {values : List Value} (plain : (Value.template kind literal values).leaves = []) :
    let answer := ((part.stage (.template kind literal values)).commit client).runOn scene
    (part.Switches client kind literal scene → ∀ error, answer.1.2 = .error error →
      (∃ after, (Render.prepare client kind literal (Value.renderings client values)).runOn scene =
        (.error error, after)) ∨ client.Regular ∧ part.Lives client scene →
      answer.1.1.isPoisoned = true ∧ scene.tree.Extends answer.2.tree) ∧
    ∀ shared after shown, (templateFor client kind literal).runOn scene = (.ok shared, after) →
      part.content.instanceOf? shared = some shown → values.length ≠ shown.parts.length →
      answer.1.2 = .error (.template (.valueCount shown.parts.length values.length)) ∧
        answer.1.1.isPoisoned = true ∧ scene.tree.Extends answer.2.tree := by
  have staged : (part.stage (.template kind literal values)).pending = some (.template kind literal values) := rfl
  rcases ran : ((part.stage (.template kind literal values)).commit client).runOn scene with ⟨⟨new, result⟩, after⟩
  constructor
  · rintro switches error rfl cause
    have leads := switch_leads additive kempt plain switches
    obtain ⟨poisoned, before, adds, rfl⟩ := NodePart.commit_error staged usable leads ran
    exact ⟨poisoned, adds cause⟩
  · intro shared found shown asked same count
    have leads := miscount_leads additive kempt asked same count
    cases result with
    | ok => exact (NodePart.commit_ok staged leads ran).elim
    | error error =>
        obtain ⟨poisoned, before, ⟨rfl, adds⟩, rfl⟩ := NodePart.commit_error staged usable leads ran
        exact ⟨rfl, poisoned, adds⟩

namespace Root.Example

def ruled : Scene Unit := ((Root.create 0).runOn (.onTree sheet ())).2

/-- The sheet with a root on it, and nothing that values could show. -/
def lined : Stage Unit := ⟨ruled, [.between 4 5], fun id => sheet.size > id, fun _ => False⟩

def printed : (NodePart × Except Error Unit) × Scene Unit :=
  (((NodePart.between 4 5).stage (paragraph [.text "c", .text "d"])).commit patterned).runOn lined.scene

def printing : Stage Unit := { lined with scene := printed.2, parts := [] ++ printed.1.1 :: [] }

theorem lined_reached : Reached patterned lined := by
  have wellFormed : sheet.WellFormed := Tree.WellFormed.empty.perform _
  have begun : Reached patterned ⟨.onTree sheet (), [], fun id => sheet.size > id, fun _ => False⟩ :=
    .fresh wellFormed ⟨fun _ none => none.elim, fun _ _ none => none.elim⟩
  have created : (Root.create 0).runOn (.onTree sheet ()) = (.ok (Root.mk (.between 4 5)), ruled) := by
    unfold ruled
    cbv
  exact begun.rooted (show 0 < sheet.size by decide) not_false created

theorem printing_reached : Reached patterned printing := by
  have allowed : lined.Allows (paragraph [.text "c", .text "d"]) := by
    intro id leaf
    simp [paragraph, Value.leaves, Value.leavesOfAll] at leaf
  unfold printing printed
  exact lined_reached.rendered [] [] rfl allowed

/-- Values for another paragraph, which give a list for its class. -/
def misprint : List Value := [.list [], .text "e"]

theorem printed_switches : printed.1.1.Switches patterned .html ⟨1, ["x"]⟩ printing.scene := by
  intro shared after ran
  have found : ((templateFor patterned .html ⟨1, ["x"]⟩).runOn printing.scene).1 =
      .ok ⟨1, ⟨1, [.attribute 0 "class", .node 1]⟩⟩ := by decide +kernel
  rw [ran] at found
  cases found
  have serial : (printed.1.1.content.instanceOf? ⟨1, ⟨1, [.attribute 0 "class", .node 1]⟩⟩).isSome = false := by
    decide +kernel
  simpa using serial

end Root.Example

open Root.Example in
/-- The paragraph stays on the sheet when another one cannot be completed. -/
theorem Scene.Kempt.failed_switch_misprint : patterned.Additive ∧ printing.scene.Kempt ∧
    printed.1.1.isPoisoned = false ∧ (Value.template .html ⟨1, ["x"]⟩ misprint).leaves = [] ∧
    printed.1.1.Switches patterned .html ⟨1, ["x"]⟩ printing.scene ∧ printed.1.1.Lives patterned printing.scene ∧
    let answer := ((printed.1.1.stage (.template .html ⟨1, ["x"]⟩ misprint)).commit patterned).runOn printing.scene
    answer.1.2 = .error (.usage "a list") ∧ answer.1.1.isPoisoned = true ∧
      printing.scene.tree.Extends answer.2.tree := by
  have kempt := printing_reached.kempt patterned_regular
  have usable : printed.1.1.isPoisoned = false := by decide +kernel
  have plain : (Value.template .html ⟨1, ["x"]⟩ misprint).leaves = [] := rfl
  have lives : printed.1.1.Lives patterned printing.scene :=
    ⟨printing, printed.1.1, printing_reached, rfl, List.mem_singleton.2 rfl, usable, .refl⟩
  have failed : (((printed.1.1.stage (.template .html ⟨1, ["x"]⟩ misprint)).commit patterned).runOn
      printing.scene).1.2 = .error (.usage "a list") := by decide +kernel
  have kept := (Scene.Kempt.failed_switch patterned_regular.toAdditive kempt usable plain).1 printed_switches _
    failed (.inr ⟨patterned_regular, lives⟩)
  exact ⟨patterned_regular.toAdditive, kempt, usable, plain, printed_switches, lives, failed, kept⟩

end DomParts
