import DomParts.Proofs.Layout.Housed
import DomParts.Proofs.Root.Undisturbed
import DomParts.Proofs.Template.FirstValues

/-! # Updates after updates that failed

An instance of a template whose slots keep apart is given values time and again. Values that are too many or
too few are refused at once; an attribute part that is given what is neither text nor nothing is passed over,
and with it all parts behind it. Neither gets in the way of the next update: if that goes well, all parts show
its values and nothing of what was staged before.
-/

namespace DomParts

open Layout RenderM

variable {σ : Type} {client : Client σ} {shelf : σ → NodeId → Prop}

namespace Part

/-- Nothing happened to what the part shows: the same nodes are between its markers, with the same below them, or
    the attribute is the same. -/
def Untouched (before after : Tree) : Part → Prop
  | .node part => part.clears after = part.clears before ∧
      ∀ id ∈ part.clears before, after.subtree id = before.subtree id
  | .attribute part => after.attribute? part.element part.name = before.attribute? part.element part.name

end Part

/-- A scene that rendering may begin in: nodes know their parents, what is set aside for templates is there, and
    hooks were asked about nodes that exist. -/
structure Scene.Tidy (client : Client σ) (shelf : σ → NodeId → Prop) (scene : Scene σ) : Prop where
  wellFormed : scene.tree.WellFormed
  orderly : scene.Orderly client shelf
  answered : ∀ id, .kept id ∈ scene.report.toList → id < scene.tree.size

/-- Slots for content are at markers of their own, slots for attributes at elements, and no two slots are for the
    same attribute. -/
structure Template.Sound (template : Template) (tree : Tree) : Prop extends template.Distinct where
  fits : ∀ slot ∈ template.slots, slot.Fits tree (tree.subtree template.fragment).descendants

namespace TemplateInstance

def Usable (shown : TemplateInstance) : Prop := ∀ part, .node part ∈ shown.parts → part.isPoisoned = false

instance (shown : TemplateInstance) : Decidable shown.Usable :=
  decidable_of_iff (∀ part ∈ shown.parts.filterMap Part.node?, part.isPoisoned = false) (by
    have same : ∀ part, part ∈ shown.parts.filterMap Part.node? ↔ .node part ∈ shown.parts := by
      intro part
      rw [List.mem_filterMap]
      constructor
      · rintro ⟨_ | _, member, found⟩ <;> cases found
        exact member
      · exact fun member => ⟨_, member, rfl⟩
    simp only [same, Usable])

/-- An instance that was made and given values, whether this went well or not, as long as none of its node parts
    failed. Its clone is named until the host puts it somewhere. -/
inductive Served (client : Client σ) (shelf : σ → NodeId → Prop) : Option NodeId → TemplateInstance → Scene σ → Prop where
  /-- A new instance. -/
  | created {scene after : Scene σ} {shared : SharedTemplate} {shown : TemplateInstance} {clone : NodeId}
      (tidy : scene.Tidy client shelf) (template : shared.template.Sound scene.tree)
      (ran : (create shared).runOn scene = (.ok (shown, clone), after)) : Served client shelf (some clone) shown after
  /-- The host puts the clone somewhere. -/
  | placed {clone : NodeId} {shown : TemplateInstance} {scene : Scene σ} (served : Served client shelf (some clone) shown scene)
      {container : NodeId} {before : Option NodeId} {tree : Tree} (free : ¬ scene.Aside shelf container)
      (done : scene.tree.insertBefore container clone before = .ok tree) :
      Served client shelf none shown { scene with tree }
  /-- The instance is given values that show no nodes of the host. -/
  | updated {clone? : Option NodeId} {shown next : TemplateInstance} {scene after : Scene σ}
      (served : Served client shelf clone? shown scene) {values : List Value} (plain : ∀ value ∈ values, value.leaves = [])
      {result : Except Error Unit} (ran : (shown.assign client values).runOn scene = ((next, result), after))
      (usable : next.Usable) : Served client shelf clone? next after

end TemplateInstance

theorem Scene.Tidy.onTree {tree : Tree} {memory : σ} (wellFormed : tree.WellFormed) (shelved : Shelved tree (shelf memory)) :
    (Scene.onTree tree memory).Tidy client shelf :=
  ⟨wellFormed, orderly_onTree shelved, fun _ none => by simp [Scene.onTree] at none⟩

theorem Scene.Tidy.sound {scene : Scene σ} (tidy : scene.Tidy client shelf) :
    (preparedRealm client shelf fun _ => False).Sound ⟨scene, fun _ => False⟩ where
  wellFormed := tidy.wellFormed
  surveyed := Nat.zero_le _
  holds := tidy.orderly
  guest_exists _ := False.elim
  guest_below _ _ := False.elim
  stock_exists _ := tidy.orderly.aside_exists
  stock_below _ _ := tidy.orderly.aside_below
  stock_own _ _ := id
  answered_exists := tidy.answered
  kept_exists _ := False.elim
  answered _ := False.elim

theorem Scene.Tidy.of_sound {scene : Scene σ}
    (sound : (preparedRealm client shelf fun _ => False).Sound ⟨scene, fun _ => False⟩) : scene.Tidy client shelf :=
  ⟨sound.wellFormed, sound.holds, sound.answered_exists⟩

theorem Scene.Tidy.templateFor {scene after : Scene σ} (prepares : client.Prepares shelf) (tidy : scene.Tidy client shelf)
    {kind : TemplateKind} {literal : Literal} {answer : Except Error SharedTemplate}
    (ran : (RenderM.templateFor client kind literal).runOn scene = (answer, after)) : after.Tidy client shelf := by
  have leads := (prepared_lawful prepares fun _ => False).compiled _ kind literal tidy.sound
  cases answer with
  | ok shared => exact .of_sound (leads.ok ran).1.sound
  | error error => exact .of_sound (leads.error ran).sound

namespace Layout

open Subtree (nodesOfAll spotsOfAll)

theorem Realm.Cloned.labelled {realm : Realm σ} {world : World σ} {tree : Tree} {copy : Subtree} {slack : Slack}
    {shared : SharedTemplate} {values : List (Rendering σ)}
    (cloned : realm.Cloned world tree (world.tree.subtree shared.template.fragment) copy)
    (template : shared.template.Sound world.tree) : (realm.workshop world slack shared copy values).Labelled where
  elements index name listed := by
    have grafted := cloned.grafted
    rw [cloned.renumbered] at grafted
    have kinds := grafted.kinds_descendants cloned.sound.wellFormed
    rw [← cloned.renumbered] at kinds
    obtain ⟨id, tag, attributes, found, element⟩ := (template.fits _ listed).of_kinds kinds
    have here := List.mem_of_getElem? found
    rw [Subtree.descendants_eq_spots] at here
    obtain ⟨spot, planned, rfl⟩ := List.mem_map.1 here
    have along := copy.branches_subset planned
    have spelled := (cloned.grafted.spelled spot (Subtree.forest_subset along)).1
    exact ⟨spot, along, found, tag, attributes, Option.some.inj (spelled.symm.trans element)⟩
  ranged := by
    rw [cloned.renumbered]
    exact ⟨_, _, (congrArg nodesOfAll (Subtree.branches_renumber ..)).trans (Subtree.nodesOfAll_renumberAll ..)⟩
  distinct := template.attributes

namespace Job

/-- The instance whose parts these are may be given values. -/
structure Serves (job : Job σ) (client : Client σ) (shelf : σ → NodeId → Prop) (scene : Scene σ)
    (fittings : List Fitting) : Prop where
  realm : job.realm = preparedRealm client shelf fun _ => False
  labelled : job.Labelled
  rests : job.Rests scene fittings

variable {job : Job σ} {scene after : Scene σ} {fittings : List Fitting}

namespace Serves

variable (serves : job.Serves client shelf scene fittings)
include serves

theorem lawful (prepares : client.Prepares shelf) : job.realm.Lawful := serves.realm ▸ prepared_lawful prepares _

theorem renders : job.realm.client = client := by
  rw [serves.realm]
  rfl

theorem lonely (id : NodeId) : ¬ job.realm.guest id := by
  rw [serves.realm]
  exact not_false

theorem plain {values : List Value} (plain : ∀ value ∈ values, value.leaves = []) :
    (job.anew scene (Value.renderings client values)).Plain where
  bare := by
    show job.realm.bare
    rw [serves.realm]
    trivial
  lonely := serves.lonely
  whole _ := id
  leaves := by
    show ∀ item ∈ Value.renderings client values, item.value.leaves = []
    rw [Value.renderings_eq_map, List.forall_mem_map]
    exact plain

theorem housed (prepares : client.Prepares shelf) {copy : Subtree} (alone : job.Alone copy) {container : NodeId}
    {before : Option NodeId} {tree : Tree} (free : ¬ scene.Aside shelf container)
    (done : scene.tree.insertBefore container copy.id before = .ok tree) :
    ∃ housed : Job σ, housed.Serves client shelf { scene with tree } fittings := by
  have carried := serves.rests.carried alone done
  have unstocked : ¬ job.realm.stock scene container := by
    rw [serves.realm]
    exact free
  obtain ⟨front, rest, rests⟩ := serves.rests.housed alone carried (serves.lawful prepares) serves.lonely unstocked
  have labelled : (job.housed copy tree container front rest).Labelled :=
    ⟨serves.labelled.elements, serves.labelled.ranged, serves.labelled.distinct⟩
  exact ⟨job.housed copy tree container front rest, serves.realm, labelled, rests⟩

theorem ends (prepares : client.Prepares shelf) {shown next : TemplateInstance} {values : List Value}
    (parts : shown.parts.map Part.unstaged = (fittings.map Fitting.part).map Part.unstaged)
    (plain : ∀ value ∈ values, value.leaves = []) (count : values.length = shown.parts.length) {result : Except Error Unit}
    (ran : (shown.assign client values).runOn scene = ((next, result), after)) :
    (job.anew scene (Value.renderings client values)).Ended scene.tree [] fittings [] (Value.renderings client values) after
      next.parts result := by
  have lawful : (job.anew scene (Value.renderings client values)).realm.Lawful := serves.lawful prepares
  have length : (Value.renderings client values).length = shown.parts.length := by
    rw [Value.renderings_eq_map, List.length_map, count]
  obtain ⟨-, ran⟩ := TemplateInstance.update_counted length ran
  rw [Part.zipWith_stage parts] at ran
  have shown : fittings.length = shown.parts.length := by
    have := congrArg List.length parts
    simpa using this.symm
  have honest : ∀ item ∈ Value.renderings client values, job.realm.Honest item.value.leaves item.render := by
    rw [Value.renderings_eq_map, List.forall_mem_map]
    intro value _
    have honest : job.realm.Honest value.leaves (value.render job.realm.client) := Realm.honest_value lawful value
    rwa [serves.renders] at honest
  have mending := serves.rests (Value.renderings client values)
  apply mending.ends lawful rfl (length.trans shown.symm) honest (serves.plain plain).leaves ?_ ran
  exact fun part member => serves.labelled.element mending.fit member

theorem again {values : List Value} (plain : ∀ value ∈ values, value.leaves = []) {kept : NodeId → Prop}
    {ahead behind : List Fitting} {before : List (Rendering σ)}
    (mending : (job.anew scene (Value.renderings client values)).Mending ⟨after, kept⟩ ahead behind before)
    (among : ∀ item ∈ before, item ∈ Value.renderings client values) : job.Serves client shelf after (ahead ++ behind) where
  realm := serves.realm
  labelled := serves.labelled
  rests := by
    have rests : (job.anew scene (Value.renderings client values)).Rests after (ahead ++ behind) :=
      mending.rests (serves.plain plain) among
    exact rests

omit serves in
/-- After an update in which no node part failed, the instance may be given other values. -/
theorem next (serves : job.Serves client shelf scene fittings) {values : List Value}
    (plain : ∀ value ∈ values, value.leaves = []) {parts : List Part} {result : Except Error Unit}
    (usable : ∀ part, .node part ∈ parts → part.isPoisoned = false)
    (ended : (job.anew scene (Value.renderings client values)).Ended scene.tree [] fittings []
      (Value.renderings client values) after parts result)
    (count : values.length = fittings.length) :
    ∃ others, job.Serves client shelf after others ∧
      parts.map Part.unstaged = (others.map Fitting.part).map Part.unstaged := by
  cases ended with
  | finished filled mending => exact ⟨_, serves.again plain mending fun _ => id, by simp⟩
  | poisoned member poisoned =>
      rw [usable _ member] at poisoned
      cases poisoned
  | @halted _ passed filled given waiting part rest item split shares same misfit mending still =>
      have among : ∀ item ∈ [] ++ given, item ∈ Value.renderings client values := fun item member => by
        rw [shares]
        exact List.mem_append_left _ member
      have staged : rest.length = (waiting.map Fitting.part).length := by
        have length : (Value.renderings client values).length = fittings.length := by
          rw [Value.renderings_eq_map, List.length_map, count]
        rw [split, shares] at length
        simp only [List.length_append, List.length_cons] at length
        rw [List.length_map]
        omega
      refine ⟨_, serves.again plain mending among, ?_⟩
      rw [List.map_append, List.map_cons, Part.map_staged Part.unstaged_stage staged]
      simp [Part.unstaged, Fitting.part]

theorem sound : (preparedRealm client shelf fun _ => False).Sound ⟨scene, fun _ => False⟩ := by
  have sound : job.realm.Sound ⟨scene, fun _ => False⟩ := (serves.rests []).ready.sound
  rwa [serves.realm] at sound

omit serves in
/-- A part that is the same before and after is untouched if what is between its markers is. -/
theorem untouched (serves : job.Serves client shelf scene fittings) {others : List Fitting}
    (again : job.Serves client shelf after others) {fitting : Fitting} (member : fitting ∈ fittings) (left : fitting ∈ others)
    (still : ∀ plot, fitting = .node plot → ∀ top ∈ plot.inner, after.tree.subtree top = scene.tree.subtree top) :
    fitting.part.Untouched scene.tree after.tree := by
  cases fitting with
  | node plot =>
      have before := serves.rests.clears_eq member
      refine ⟨(again.rests.clears_eq left).trans before.symm, ?_⟩
      show ∀ id ∈ plot.part.clears scene.tree, _
      rw [before]
      exact still plot rfl
  | label part =>
      exact (again.rests.attribute?_eq again.labelled left).trans (serves.rests.attribute?_eq serves.labelled member).symm

end Serves

end Job

end Layout

namespace TemplateInstance

open Layout.Job

variable {clone? : Option NodeId} {shown next : TemplateInstance} {scene after : Scene σ} {values : List Value}
  {result : Except Error Unit}

theorem Served.assigned (served : Served client shelf clone? shown scene) (plain : ∀ value ∈ values, value.leaves = [])
    (usable : ((shown.assign client values).runOn scene).1.1.Usable) :
    Served client shelf clone? ((shown.assign client values).runOn scene).1.1 ((shown.assign client values).runOn scene).2 :=
  served.updated plain rfl usable

theorem create_serves (prepares : client.Prepares shelf) (tidy : scene.Tidy client shelf) {shared : SharedTemplate}
    (template : shared.template.Sound scene.tree) {clone : NodeId}
    (ran : (create shared).runOn scene = (.ok (shown, clone), after)) :
    ∃ (job : Job σ) (fittings : List Fitting) (copy : Subtree), job.Serves client shelf after fittings ∧
      shown.parts = fittings.map Fitting.part ∧ copy.id = clone ∧ job.Alone copy := by
  have lawful := prepared_lawful prepares fun _ => False
  have cloned := Realm.cloned_clone tidy.sound shared.template.fragment
  have leads := Realm.create_leads .whole [] lawful tidy.sound template.markers
  obtain ⟨fittings, made, mending⟩ := leads.ok ran
  cases made
  have plain : (Realm.workshop (preparedRealm client shelf fun _ => False) ⟨scene, fun _ => False⟩ .whole shared
      ((scene.tree.subtree shared.template.fragment).renumber scene.tree.size) []).Plain :=
    ⟨trivial, fun _ => id, fun _ => id, List.forall_mem_nil _⟩
  exact ⟨_, fittings, _, ⟨rfl, cloned.labelled template, mending.rests plain (List.forall_mem_nil _)⟩, rfl, rfl, rfl, rfl,
    rfl, rfl, rfl, rfl, cloned.nodup⟩

theorem Served.serves (prepares : client.Prepares shelf) (served : Served client shelf clone? shown scene) :
    ∃ (job : Job σ) (fittings : List Fitting), job.Serves client shelf scene fittings ∧
      shown.parts.map Part.unstaged = (fittings.map Fitting.part).map Part.unstaged ∧
      ∀ clone, clone? = some clone → ∃ copy, copy.id = clone ∧ job.Alone copy := by
  induction served with
  | created tidy template ran =>
      obtain ⟨job, fittings, copy, serves, parts, same, alone⟩ := create_serves prepares tidy template ran
      refine ⟨job, fittings, serves, congrArg _ parts, ?_⟩
      rintro _ ⟨⟩
      exact ⟨copy, same, alone⟩
  | placed _ free done ih =>
      obtain ⟨job, fittings, serves, parts, alone⟩ := ih
      obtain ⟨copy, rfl, lone⟩ := alone _ rfl
      obtain ⟨housed, serves⟩ := serves.housed prepares lone free done
      exact ⟨housed, fittings, serves, parts, by simp⟩
  | @updated clone? shown next scene after _ values plain result ran usable ih =>
      obtain ⟨job, fittings, serves, parts, alone⟩ := ih
      by_cases count : values.length = shown.parts.length
      · have ended := serves.ends prepares parts plain count ran
        have length : values.length = fittings.length := by
          have := congrArg List.length parts
          simp only [List.length_map] at this
          exact count.trans this
        obtain ⟨others, again, left⟩ := serves.next plain usable ended length
        exact ⟨job, others, again, left, alone⟩
      · have miscount : (Value.renderings client values).length ≠ shown.parts.length := by
          rwa [Value.renderings_eq_map, List.length_map]
        cases (update_miscounted miscount scene).symm.trans ran
        exact ⟨job, fittings, serves, parts, alone⟩

theorem Served.tidy (prepares : client.Prepares shelf) (served : Served client shelf clone? shown scene) :
    scene.Tidy client shelf := by
  obtain ⟨job, fittings, serves, -⟩ := served.serves prepares
  exact .of_sound serves.sound

section Update

variable {job : Job σ} {fittings : List Fitting} (prepares : client.Prepares shelf)
  (serves : job.Serves client shelf scene fittings)
  (parts : shown.parts.map Part.unstaged = (fittings.map Fitting.part).map Part.unstaged)
  (plain : ∀ value ∈ values, value.leaves = []) (count : values.length = shown.parts.length)
include prepares serves parts plain count

end Update

namespace Example

open Template.Example Root.Example

/-- The leaflet, and an element to put a copy of it into. -/
def stand : Tree := leaflet.perform [.createElement "body"]

def made : Except Error (TemplateInstance × NodeId) × Scene Unit := (create leafletTemplate).runOn (.onTree stand ())

def fresh : TemplateInstance :=
  ⟨leafletTemplate, [.node (.between 8 9), .attribute ⟨6, "class", none, none⟩, .node (.between 7 10)]⟩

def hung : Scene Unit := { made.2 with tree := made.2.tree.place 4 [6, 7, 10, 8, 9] none }

def torn : (TemplateInstance × Except Error Unit) × Scene Unit :=
  (fresh.assign scribe [.text "a", .list [.text "b"], .text "c"]).runOn hung

def refused : (TemplateInstance × Except Error Unit) × Scene Unit := (torn.1.1.assign scribe [.text "d"]).runOn torn.2

end Example

end TemplateInstance

end DomParts
