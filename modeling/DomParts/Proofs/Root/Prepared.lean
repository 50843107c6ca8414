import DomParts.Proofs.Layout.Standing
import DomParts.Proofs.Picture.Reading
import DomParts.Proofs.Template.Numbered
import DomParts.Proofs.Tree.Spelling

/-! # Clients that prepare templates

A client prepares its templates aside if whoever compiles them only adds nodes and hands out fragments that
nobody else has to do with: new ones, or such as lie on a shelf of its own. There is no removal hook. What is
set aside for templates then stays as it is, and each instance is a copy of the template of its literal.
-/

namespace DomParts

variable {σ : Type}

/-- The nodes are in the tree, and so is what is below them. -/
structure Shelved (tree : Tree) (shelf : NodeId → Prop) : Prop where
  present : ∀ id, shelf id → id < tree.size
  below : ∀ id child, shelf id → child ∈ tree.childrenOf id → shelf child

structure Template.Distinct (template : Template) : Prop where
  markers : (template.slots.filterMap Slot.markerIndex?).Nodup
  attributes : (template.slots.filterMap Slot.attribute?).Nodup

/-- What comes of compiling a literal aside. -/
structure Preparation (shelf : σ → NodeId → Prop) (memory : σ) (tree : Tree) (outcome : Except Error Template × σ × Tree) :
    Prop where
  wellFormed : outcome.2.2.WellFormed
  extended : tree.Extends outcome.2.2
  shelved : Shelved outcome.2.2 (shelf outcome.2.1)
  /-- Only new nodes are put on the shelf. -/
  stays : ∀ id, id < tree.size → (shelf outcome.2.1 id ↔ shelf memory id)
  fragment : ∀ template, outcome.1 = .ok template → outcome.2.2.kindOf template.fragment = some .fragment
  aside : ∀ template, outcome.1 = .ok template → shelf outcome.2.1 template.fragment ∨ tree.size ≤ template.fragment
  distinct : ∀ template, outcome.1 = .ok template → template.Distinct

/-- Templates are prepared aside, and nobody guards removals. What lies on the shelf depends on the client's
    memory. -/
structure Client.Prepares (client : Client σ) (shelf : σ → NodeId → Prop) : Prop where
  unguarded : client.hook? = none
  prepared : ∀ kind literal memory (tree : Tree), tree.WellFormed → Shelved tree (shelf memory) →
    Preparation shelf memory tree (client.compile kind literal (memory, tree))

/-- The client makes this of the literal: a template, and what is below its fragment. -/
def Client.Makes (client : Client σ) (kind : TemplateKind) (literal : Literal) (template : Template)
    (original : Subtree) : Prop :=
  ∃ memory tree, tree.WellFormed ∧ (client.compile kind literal (memory, tree)).1 = .ok template ∧
    (client.compile kind literal (memory, tree)).2.2.subtree template.fragment = original

/-- No template is a single text with something below it. A part that is to show a text writes into such a text if
    it shows nothing else, and what is below the text stays there. -/
def Client.Leafy (client : Client σ) : Prop :=
  ∀ kind literal template fragment top data below,
    client.Makes kind literal template (.branch fragment .fragment [.branch top (.text data) below]) → below = []

/-- The client makes this of a literal, or of one with the same content as a literal at the same place. -/
def Client.Plans (client : Client σ) (kind : TemplateKind) (literal : Literal) (plan : Blueprint) : Prop :=
  ∃ (same other : Literal) (template : Template), same.id = literal.id ∧ other.contentKey = same.contentKey ∧
    template.slots = plan.slots ∧ client.Makes kind other template (.branch template.fragment .fragment plan.body)

namespace Scene

/-- What is below the fragment of a template that was compiled. -/
structure Prepared (scene : Scene σ) (shared : SharedTemplate) (original : Subtree) : Prop where
  listed : scene.cache.Lists shared
  top : ∃ body, original = .branch shared.template.fragment .fragment body
  spelled : scene.tree.Spells original.spots

/-- The cache can be relied on, and what is set aside for templates is there. -/
structure Orderly (client : Client σ) (shelf : σ → NodeId → Prop) (scene : Scene σ) : Prop where
  numbered : scene.cache.Numbered
  distinct : ∀ shared, scene.cache.Lists shared → shared.template.Distinct
  made : ∀ kind key shared, ((kind, key), shared) ∈ scene.cache.byContent → ∃ literal original,
    literal.contentKey = key ∧ scene.Prepared shared original ∧ client.Makes kind literal shared.template original
  shelved : Shelved scene.tree (shelf scene.memory)

/-- The nodes on the shelf and those of compiled templates. -/
def Aside (shelf : σ → NodeId → Prop) (scene : Scene σ) (id : NodeId) : Prop :=
  shelf scene.memory id ∨ ∃ shared original, scene.Prepared shared original ∧ id ∈ original.nodes

/-- What asking for a template leads to: nodes are added, and of the old ones no others are set aside. -/
structure Supplied (client : Client σ) (shelf : σ → NodeId → Prop) (before after : Scene σ) : Prop where
  wellFormed : after.tree.WellFormed
  extended : before.tree.Extends after.tree
  orderly : Orderly client shelf after
  aside : ∀ id, id < before.tree.size → (Aside shelf after id ↔ Aside shelf before id)
  prepared : ∀ shared original, before.Prepared shared original → after.Prepared shared original
  report : ∀ id, .kept id ∈ after.report.toList ↔ .kept id ∈ before.report.toList

variable {client : Client σ} {shelf : σ → NodeId → Prop} {before after scene : Scene σ} {shared : SharedTemplate}
  {one two : Subtree} {id child : NodeId}

theorem Prepared.unique (first : scene.Prepared shared one) (second : scene.Prepared shared two) : one = two := by
  obtain ⟨body, rfl⟩ := first.top
  obtain ⟨body', rfl⟩ := second.top
  exact first.spelled.unique second.spelled rfl

namespace Orderly

variable (orderly : Orderly client shelf scene)
include orderly

theorem prepared (listed : scene.cache.Lists shared) : ∃ original, scene.Prepared shared original := by
  obtain ⟨key, member⟩ := listed
  obtain ⟨literal, original, -, prepared, -⟩ := orderly.made _ _ shared member
  exact ⟨original, prepared⟩

theorem aside_exists (aside : Aside shelf scene id) : id < scene.tree.size := by
  rcases aside with shelved | ⟨shared, original, prepared, member⟩
  · exact orderly.shelved.present id shelved
  · exact prepared.spelled.lt_size member

theorem aside_below (aside : Aside shelf scene id) (link : child ∈ scene.tree.childrenOf id) :
    Aside shelf scene child := by
  rcases aside with shelved | ⟨shared, original, prepared, member⟩
  · exact .inl (orderly.shelved.below id child shelved link)
  · exact .inr ⟨shared, original, prepared, prepared.spelled.below member link⟩

end Orderly

section Fresh

variable {tree : Tree} {memory : σ}

theorem orderly_onTree (shelved : Shelved tree (shelf memory)) : Orderly client shelf (.onTree tree memory) where
  numbered := ⟨fun _ _ _ member => absurd member List.not_mem_nil, List.nodup_nil, fun _ listed =>
    absurd listed TemplateCache.not_lists_empty⟩
  distinct _ listed := absurd listed TemplateCache.not_lists_empty
  made _ _ _ member := absurd member List.not_mem_nil
  shelved := shelved

theorem aside_onTree : Aside shelf (.onTree tree memory) id ↔ shelf memory id := by
  refine or_iff_left ?_
  rintro ⟨shared, original, prepared, -⟩
  exact TemplateCache.not_lists_empty prepared.listed

end Fresh

section Steady

variable (orderly : Orderly client shelf before) (contents : after.cache.byContent = before.cache.byContent)
  (prepares : ∀ shared original, before.Prepared shared original → after.tree.Spells original.spots)
include orderly contents prepares

omit orderly prepares in
theorem lists_iff : after.cache.Lists shared ↔ before.cache.Lists shared := by
  rw [TemplateCache.Lists, contents, TemplateCache.Lists]

theorem prepared_iff : after.Prepared shared one ↔ before.Prepared shared one := by
  constructor
  · intro prepared
    obtain ⟨two, was⟩ := orderly.prepared ((lists_iff contents).1 prepared.listed)
    have now : after.Prepared shared two := ⟨prepared.listed, was.top, prepares shared two was⟩
    exact prepared.unique now ▸ was
  · exact fun was => ⟨(lists_iff contents).2 was.listed, was.top, prepares shared one was⟩

theorem Orderly.steady (numbered : after.cache.Numbered) (shelved : Shelved after.tree (shelf after.memory)) :
    Orderly client shelf after := by
  refine ⟨numbered, fun shared listed => orderly.distinct shared ((lists_iff contents).1 listed), ?_, shelved⟩
  intro kind key shared member
  obtain ⟨literal, original, same, was, makes⟩ := orderly.made kind key shared (contents ▸ member)
  exact ⟨literal, original, same, (prepared_iff orderly contents prepares).2 was, makes⟩

theorem aside_iff (shelves : shelf after.memory id ↔ shelf before.memory id) :
    Aside shelf after id ↔ Aside shelf before id := by
  simp only [Aside, shelves, prepared_iff orderly contents prepares]

end Steady

end Scene

namespace Layout

open Scene

open Subtree (renumberAll)

variable {client : Client σ} {shelf : σ → NodeId → Prop} {guest : NodeId → Prop} {world : World σ}

/-- The realm of a client that prepares its templates aside, given the nodes that values may show. -/
def preparedRealm (client : Client σ) (shelf : σ → NodeId → Prop) (guest : NodeId → Prop) : Realm σ where
  client := client
  survey := .blank
  guest := guest
  stock := Aside shelf
  shape scene shared original := shared.template.Distinct ∧ scene.Prepared shared original
  holds := Orderly client shelf
  bare := True
  leafy := client.Leafy

theorem prepared_change (sound : (preparedRealm client shelf guest).Sound world) {after : Scene σ}
    (supplied : Supplied client shelf world.scene after) :
    (preparedRealm client shelf guest).Change world ⟨after, world.kept⟩ (fun _ => False) [] :=
  .ofExtended sound supplied.wellFormed supplied.extended supplied.orderly supplied.aside
    (fun _ => supplied.orderly.aside_exists) (fun _ _ => supplied.orderly.aside_below)
    (fun shared original shape => ⟨shape.1, supplied.prepared shared original shape.2⟩) supplied.report

section Prepared

variable {tree : Tree} {scene : Scene σ} {shared : SharedTemplate} {original : Subtree} {id : NodeId}

theorem prepared_eq (sound : scene.tree.WellFormed) (prepared : scene.Prepared shared original) :
    scene.tree.subtree shared.template.fragment = original := by
  obtain ⟨body, rfl⟩ := prepared.top
  exact sound.subtree_of_spells prepared.spelled

theorem prepared_subtree (sound : scene.tree.WellFormed) (listed : scene.cache.Lists shared)
    (fragment : scene.tree.kindOf shared.template.fragment = some .fragment) :
    scene.Prepared shared (scene.tree.subtree shared.template.fragment) where
  listed := listed
  top := by
    rw [sound.subtree_unfold, fragment]
    exact ⟨_, rfl⟩
  spelled := sound.spells_subtree (Tree.lt_size_of_kindOf fragment)

theorem shelved_below {nodes : NodeId → Prop} (sound : tree.WellFormed) (shelved : Shelved tree nodes) {top : NodeId}
    (here : nodes top) (below : id ∈ (tree.subtree top).nodes) : nodes id := by
  have way := sound.mem_nodes_subtree.1 below
  clear below
  induction way using Relation.ReflTransGen.head_induction_on with
  | refl => exact here
  | head link _ ih => exact shelved.below _ _ ih (sound.mem_childrenOf link)

theorem blueprint?_eq (sound : scene.tree.WellFormed) {kind : TemplateKind} {literal : Literal}
    (found : scene.cache.findIdentity? kind literal = some shared) (prepared : scene.Prepared shared original) :
    ∃ body, original = .branch shared.template.fragment .fragment body ∧
      scene.blueprint? kind literal = some ⟨shared.template.slots, body⟩ := by
  have same := prepared_eq sound prepared
  obtain ⟨body, rfl⟩ := prepared.top
  rw [sound.subtree_unfold, Subtree.branch.injEq] at same
  refine ⟨body, rfl, ?_⟩
  rw [Scene.blueprint?, found, Option.map_some, same.2.2]

end Prepared

section Filed

open RenderM (newScene)

variable {scene : Scene σ} {template : Template} {kind : TemplateKind} {literal : Literal} {shared : SharedTemplate}
  {original : Subtree} {id : NodeId} (sound : scene.tree.WellFormed)
  (fragment : scene.tree.kindOf template.fragment = some .fragment)
include sound fragment

/-- A template that is remembered is prepared from then on, and no other is. -/
theorem filed_prepared : (newScene kind literal ⟨scene.cache.size, template⟩ scene).Prepared shared original ↔
    shared = ⟨scene.cache.size, template⟩ ∧ original = scene.tree.subtree template.fragment ∨
      scene.Prepared shared original := by
  have listed : ∀ other, (newScene kind literal ⟨scene.cache.size, template⟩ scene).cache.Lists other ↔
      other = ⟨scene.cache.size, template⟩ ∨ scene.cache.Lists other := fun _ => TemplateCache.lists_recordContent
  have here : (newScene kind literal ⟨scene.cache.size, template⟩ scene).Prepared ⟨scene.cache.size, template⟩
      (scene.tree.subtree template.fragment) := prepared_subtree sound ((listed _).2 (.inl rfl)) fragment
  constructor
  · intro prepared
    rcases (listed shared).1 prepared.listed with rfl | old
    · exact .inl ⟨rfl, prepared.unique here⟩
    · exact .inr ⟨old, prepared.top, prepared.spelled⟩
  · rintro (⟨rfl, rfl⟩ | prepared)
    · exact here
    · exact ⟨(listed _).2 (.inr prepared.listed), prepared.top, prepared.spelled⟩

theorem filed_orderly (orderly : Orderly client shelf scene) (distinct : template.Distinct)
    (makes : client.Makes kind literal template (scene.tree.subtree template.fragment)) :
    Orderly client shelf (newScene kind literal ⟨scene.cache.size, template⟩ scene) := by
  refine ⟨orderly.numbered.recordContent.recordIdentity (List.mem_cons_self ..), ?_, ?_, orderly.shelved⟩
  · intro shared listed
    rcases TemplateCache.lists_recordContent.1 listed with rfl | listed
    · exact distinct
    · exact orderly.distinct shared listed
  · intro kind' key shared member
    rcases List.mem_cons.1 member with new | old
    · cases new
      exact ⟨literal, _, rfl, (filed_prepared sound fragment).2 (.inl ⟨rfl, rfl⟩), makes⟩
    · obtain ⟨other, original, same, prepared, makes⟩ := orderly.made kind' key shared old
      exact ⟨other, original, same, (filed_prepared sound fragment).2 (.inr prepared), makes⟩

theorem filed_aside : Aside shelf (newScene kind literal ⟨scene.cache.size, template⟩ scene) id ↔
    Aside shelf scene id ∨ id ∈ (scene.tree.subtree template.fragment).nodes := by
  constructor
  · rintro (shelved | ⟨shared, original, prepared, member⟩)
    · exact .inl (.inl shelved)
    · rcases (filed_prepared sound fragment).1 prepared with ⟨-, rfl⟩ | prepared
      · exact .inr member
      · exact .inl (.inr ⟨shared, original, prepared, member⟩)
  · rintro ((shelved | ⟨shared, original, prepared, member⟩) | member)
    · exact .inl shelved
    · exact .inr ⟨shared, original, (filed_prepared sound fragment).2 (.inr prepared), member⟩
    · exact .inr ⟨_, _, (filed_prepared sound fragment).2 (.inl ⟨rfl, rfl⟩), member⟩

end Filed

/-- What a template was asked for to be: one without two slots in the same place, and prepared. -/
structure Answers (shared : SharedTemplate) (scene : Scene σ) : Prop where
  distinct : shared.template.Distinct
  prepared : scene.Prepared shared (scene.tree.subtree shared.template.fragment)

section Asking

variable {scene after : Scene σ} {shared : SharedTemplate} {kind : TemplateKind} {literal : Literal}
  (wellFormed : scene.tree.WellFormed) (orderly : Orderly client shelf scene)
include wellFormed orderly

theorem supplied_found (same : after.tree = scene.tree) (memory : after.memory = scene.memory)
    (contents : after.cache.byContent = scene.cache.byContent) (numbered : after.cache.Numbered)
    (report : ∀ id, .kept id ∈ after.report.toList ↔ .kept id ∈ scene.report.toList) (listed : scene.cache.Lists shared) :
    Supplied client shelf scene after ∧ Answers shared after := by
  have spelled : ∀ shared original, scene.Prepared shared original → after.tree.Spells original.spots := by
    rw [same]
    exact fun _ _ prepared => prepared.spelled
  have shelved : Shelved after.tree (shelf after.memory) := by
    rw [same, memory]
    exact orderly.shelved
  have still : ∀ {shared original}, scene.Prepared shared original → after.Prepared shared original :=
    (prepared_iff orderly contents spelled).2
  obtain ⟨original, was⟩ := orderly.prepared listed
  have wellFormed : after.tree.WellFormed := same ▸ wellFormed
  refine ⟨⟨wellFormed, same ▸ .refl _, orderly.steady contents spelled numbered shelved,
    fun id _ => aside_iff orderly contents spelled (memory ▸ Iff.rfl), fun _ _ => still, report⟩,
    orderly.distinct shared listed, ?_⟩
  rw [prepared_eq wellFormed (still was)]
  exact still was

section Compiling

variable (preparation : Preparation shelf scene.memory scene.tree (client.compile kind literal (scene.memory, scene.tree)))
include preparation

omit wellFormed in
theorem supplied_compiled : Supplied client shelf scene (RenderM.compiledScene client kind literal scene) := by
  have still : ∀ shared original, scene.Prepared shared original →
      (RenderM.compiledScene client kind literal scene).Prepared shared original :=
    fun _ _ prepared => ⟨prepared.listed, prepared.top, prepared.spelled.grown preparation.extended⟩
  have spelled := fun shared original prepared => (still shared original prepared).spelled
  exact ⟨preparation.wellFormed, preparation.extended, orderly.steady rfl spelled orderly.numbered preparation.shelved,
    fun id old => aside_iff orderly rfl spelled (preparation.stays id old), still, fun _ => Iff.rfl⟩

theorem supplied_new {template : Template} (done : (client.compile kind literal (scene.memory, scene.tree)).1 = .ok template) :
    let after := RenderM.newScene kind literal ⟨scene.cache.size, template⟩ (RenderM.compiledScene client kind literal scene)
    Supplied client shelf scene after ∧ Answers ⟨scene.cache.size, template⟩ after := by
  have compiled := supplied_compiled orderly preparation
  have fragment := preparation.fragment template done
  have distinct := preparation.distinct template done
  have makes : client.Makes kind literal template
    ((RenderM.compiledScene client kind literal scene).tree.subtree template.fragment) := ⟨_, _, wellFormed, done, rfl⟩
  -- Nothing that was there before is below the new template's fragment unless it is on the shelf.
  have aside : ∀ id, id < scene.tree.size → (Aside shelf (RenderM.newScene kind literal ⟨scene.cache.size, template⟩
      (RenderM.compiledScene client kind literal scene)) id ↔ Aside shelf scene id) := by
    intro id old
    refine (filed_aside preparation.wellFormed fragment).trans (or_iff_left_of_imp fun below => ?_) |>.trans
      (compiled.aside id old)
    rcases preparation.aside template done with here | new
    · exact .inl (shelved_below preparation.wellFormed preparation.shelved here below)
    · exact absurd old (Nat.not_lt.2 (wellFormed.new_above preparation.wellFormed preparation.extended new below))
  refine ⟨⟨preparation.wellFormed, preparation.extended, filed_orderly preparation.wellFormed fragment compiled.orderly
    distinct makes, aside, fun shared original was => ?_, fun id => ?_⟩, distinct,
    (filed_prepared preparation.wellFormed fragment).2 (.inl ⟨rfl, rfl⟩)⟩
  · exact (filed_prepared preparation.wellFormed fragment).2 (.inr (compiled.prepared shared original was))
  · exact Realm.kept_mem_push fun same => Event.noConfusion same

end Compiling

/-- Asking for a template leads to one that is prepared, or fails with what the client says. -/
theorem templateFor_supplied (preparation : Preparation shelf scene.memory scene.tree
      (client.compile kind literal (scene.memory, scene.tree))) :
    (RenderM.templateFor client kind literal).Leads scene
      (fun shared after => Supplied client shelf scene after ∧ Answers shared after)
      fun error after => Supplied client shelf scene after ∧
        (client.compile kind literal (scene.memory, scene.tree)).1 = .error error := by
  have other : ∀ {event : Event}, (∀ id, event ≠ .kept id) → ∀ id,
      .kept id ∈ (scene.report.push event).toList ↔ .kept id ∈ scene.report.toList :=
    fun other id => Realm.kept_mem_push (other id)
  refine RenderM.templateFor_leads ?_ ?_ ?_ ?_
  · intro shared found
    exact supplied_found wellFormed orderly rfl rfl rfl orderly.numbered (other fun _ same => Event.noConfusion same)
      (orderly.numbered.of_identity found)
  · intro shared found
    exact supplied_found wellFormed orderly rfl rfl rfl
      (orderly.numbered.recordIdentity (TemplateCache.mem_of_lookup found))
      (other fun _ same => Event.noConfusion same) (.of_content found)
  · intro template done
    exact supplied_new wellFormed orderly preparation done
  · intro error failed
    exact ⟨supplied_compiled orderly preparation, failed⟩

end Asking

theorem leafy_body (leafy : client.Leafy) {kind : TemplateKind} {literal : Literal} {template : Template}
    {fragment first id : NodeId} {body below : List Subtree} {data : String}
    (makes : client.Makes kind literal template (.branch fragment .fragment body))
    (single : renumberAll first body = [.branch id (.text data) below]) : below = [] := by
  match body, single with
  | [.branch top kind children], single =>
      simp only [renumberAll, Subtree.renumber, List.cons.injEq, Subtree.branch.injEq, and_true] at single
      obtain ⟨-, rfl, rfl⟩ := single
      rw [leafy _ _ _ _ _ _ _ makes, renumberAll]

theorem prepared_lawful (prepares : client.Prepares shelf) (guest : NodeId → Prop) :
    (preparedRealm client shelf guest).Lawful where
  steady before after holds cache memory grown same := by
    have orderly : Orderly client shelf before := holds
    have contents : after.cache.byContent = before.cache.byContent := congrArg TemplateCache.byContent cache
    have spelled : ∀ shared original, before.Prepared shared original → after.tree.Spells original.spots :=
      fun shared original prepared => prepared.spelled.stays fun id member =>
        same id (.inr ⟨shared, original, prepared, member⟩)
    have shelved : Shelved after.tree (shelf after.memory) := by
      rw [memory]
      refine ⟨fun id here => Nat.lt_of_lt_of_le (orderly.shelved.present id here) grown, fun id child here link => ?_⟩
      rw [(same id (.inl here)).2] at link
      exact orderly.shelved.below id child here link
    exact ⟨orderly.steady contents spelled (cache ▸ orderly.numbered) shelved,
      fun id => aside_iff orderly contents spelled (memory ▸ Iff.rfl),
      fun shared original shape => ⟨shape.1, (prepared_iff orderly contents spelled).2 shape.2⟩⟩
  compiled world kind literal sound := by
    have orderly : Orderly client shelf world.scene := sound.holds
    have preparation := prepares.prepared kind literal world.scene.memory world.scene.tree sound.wellFormed orderly.shelved
    exact (templateFor_supplied sound.wellFormed orderly preparation).mono
      (fun _ _ done => ⟨prepared_change sound done.1, done.2.distinct, done.2.prepared⟩)
      fun _ _ failed => prepared_change sound failed.1
  distinct _ _ _ shape := shape.1.markers
  unasked _ := prepares.unguarded
  leaves leafy := by
    refine ⟨trivial, fun scene shared original holds shape forest reach planted id data below single => ?_⟩
    have orderly : Orderly client shelf scene := holds
    have prepared : scene.Prepared shared original := shape.2
    obtain ⟨key, member⟩ := prepared.listed
    obtain ⟨literal, made, -, was, makes⟩ := orderly.made _ _ shared member
    obtain rfl := was.unique prepared
    obtain ⟨body, rfl⟩ := prepared.top
    cases planted with
    | loose first _ children => exact leafy_body leafy makes single
    | solid _ _ _ solid => exact absurd rfl solid
  asked hook known := by
    have known : client.hook? = some hook := known
    rw [prepares.unguarded] at known
    cases known

theorem prepared_legible (sound : (preparedRealm client shelf guest).Sound world) {slack : Slack} {hosts : List NodeId}
    (guests : ∀ id ∈ hosts, guest id) (present : ∀ id ∈ hosts, ¬ slack.lost id) {sight : Sight}
    (leafy : sight = .whole → client.Leafy) :
    Legible ((preparedRealm client shelf guest).premises world slack) world.tree world.scene.cache sight
      world.scene.blueprint? hosts where
  wellFormed := sound.wellFormed
  bare := trivial
  leafy := leafy
  guests := guests
  present := present
  planned {kind literal shared template original} found serial shape := by
    have orderly : Orderly client shelf world.scene := sound.holds
    have shape : template.template.Distinct ∧ world.scene.Prepared template original := shape
    obtain rfl := orderly.numbered.unique shape.2.listed (orderly.numbered.of_identity found) serial
    obtain ⟨body, top, plan⟩ := blueprint?_eq sound.wellFormed found shape.2
    exact ⟨_, body, top, plan, shape.1.attributes⟩

theorem blueprint?_planned {scene : Scene σ} (orderly : Orderly client shelf scene) (sound : scene.tree.WellFormed)
    {kind : TemplateKind} {literal : Literal} {plan : Blueprint} (known : scene.blueprint? kind literal = some plan) :
    client.Plans kind literal plan := by
  obtain ⟨shared, found, -⟩ := Option.map_eq_some_iff.1 known
  obtain ⟨same, place, member⟩ := orderly.numbered.known kind literal.id shared (TemplateCache.mem_of_lookup found)
  obtain ⟨other, original, content, prepared, makes⟩ := orderly.made kind same.contentKey shared member
  obtain ⟨body, rfl, made⟩ := blueprint?_eq sound found prepared
  cases known.symm.trans made
  exact ⟨same, other, shared.template, place, content, rfl, makes⟩

theorem blueprint?_kept {after : World σ} {touched : NodeId → Prop} {taken : List NodeId}
    (sound : (preparedRealm client shelf guest).Sound world)
    (change : (preparedRealm client shelf guest).Change world after touched taken)
    (keeps : world.scene.cache.Keeps after.scene.cache) {kind : TemplateKind} {literal : Literal} {plan : Blueprint}
    (known : world.scene.blueprint? kind literal = some plan) : after.scene.blueprint? kind literal = some plan := by
  have orderly : Orderly client shelf world.scene := sound.holds
  obtain ⟨shared, found, -⟩ := Option.map_eq_some_iff.1 known
  have listed := orderly.numbered.of_identity found
  obtain ⟨original, prepared⟩ := orderly.prepared listed
  obtain ⟨body, rfl, was⟩ := blueprint?_eq sound.wellFormed found prepared
  obtain ⟨body', same, is⟩ := blueprint?_eq change.sound.wellFormed (keeps kind literal shared found)
    (change.shape shared _ ⟨orderly.distinct shared listed, prepared⟩).2
  rw [Subtree.branch.injEq] at same
  rw [is, ← known, was, same.2.2]

end Layout

end DomParts
