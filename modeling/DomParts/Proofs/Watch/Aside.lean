import DomParts.Proofs.Renaming.Lockstep
import DomParts.Proofs.Root.Prepared
import DomParts.Proofs.Template.Binding
import DomParts.Proofs.Tree.Fence

/-! # Nodes that are set aside

What a client sets aside for its templates is linked with nothing else, and remains so if nobody goes there. Then what
was made of a literal stays as it was made: in particular, a slot for an attribute stays that of an element.
-/

namespace DomParts

open Layout Scene RenderM

variable {σ : Type} {client : Client σ} {shelf : σ → NodeId → Prop} {scene after : Scene σ} {shared : SharedTemplate}

/-- Every slot for an attribute is that of an element. -/
def Template.Fits (template : Template) (original : Subtree) : Prop :=
  ∀ index name, .attribute index name ∈ template.slots →
    ∃ spot tag attributes, (Subtree.spotsOfAll original.branches)[index]? = some spot ∧ spot.kind = .element tag attributes

theorem Template.Fits.renumber {template : Template} {original : Subtree} (fits : template.Fits original) (first : NodeId) :
    template.Fits (original.renumber first) := by
  intro index name listed
  obtain ⟨spot, tag, attributes, found, kind⟩ := fits index name listed
  have same := congrArg (·[index]?) (Subtree.kinds_renumberAll (first + 1) original.branches)
  simp only [List.getElem?_map, found, Option.map_some, kind] at same
  obtain ⟨other, here, standing⟩ := Option.map_eq_some_iff.1 same
  exact ⟨other, tag, attributes, by rw [Subtree.branches_renumber, here], standing⟩

namespace Scene

/-- The nodes set aside for templates are in order, and linked with nothing else. -/
structure Guarded (client : Client σ) (shelf : σ → NodeId → Prop) (scene : Scene σ) : Prop where
  orderly : scene.Orderly client shelf
  fenced : scene.tree.Fenced (shelf scene.memory)

/-- Whether there is such a node, and it is not set aside. -/
def Outside (shelf : σ → NodeId → Prop) (scene : Scene σ) (id : NodeId) : Prop := scene.tree.Outside (Aside shelf scene) id

/-- A scene in which other nodes may be different, but not those that are set aside. -/
structure Skirts (shelf : σ → NodeId → Prop) (before after : Scene σ) : Prop where
  tree : before.tree.Skirts (Aside shelf before) after.tree
  cache : after.cache = before.cache
  shelf : ∀ id, shelf after.memory id ↔ shelf before.memory id

/-- A scene in which no others of the old nodes are set aside, and elements are still elements. -/
structure Minds (shelf : σ → NodeId → Prop) (before after : Scene σ) : Prop where
  aside : ∀ id, id < before.tree.size → (Aside shelf after id ↔ Aside shelf before id)
  elements : ∀ id, before.tree.IsElement id → after.tree.IsElement id

theorem Prepared.fragment {original : Subtree} (prepared : scene.Prepared shared original) :
    scene.tree.kindOf shared.template.fragment = some .fragment := by
  obtain ⟨body, rfl⟩ := prepared.top
  exact (prepared.spelled _ (List.mem_cons_self ..)).1

end Scene

/-- The client sets aside what it needs for templates, has slots for attributes at elements only, and says in its own
    words why a literal cannot be compiled. Its hook keeps off the nodes set aside if it is asked about others. -/
structure Client.Provides (client : Client σ) (shelf : σ → NodeId → Prop) : Prop where
  grows : ∀ kind literal memory (tree : Tree), tree.WellFormed →
    (client.compile kind literal (memory, tree)).2.2.WellFormed ∧
      tree.size ≤ (client.compile kind literal (memory, tree)).2.2.size
  prepared : ∀ kind literal memory (tree : Tree), tree.Fenced (shelf memory) →
    Preparation shelf memory tree (client.compile kind literal (memory, tree))
  fenced : ∀ kind literal memory (tree : Tree), tree.Fenced (shelf memory) →
    let after := (client.compile kind literal (memory, tree)).2
    after.2.Fenced (shelf after.1)
  fits : ∀ kind literal template original, client.Makes kind literal template original → template.Fits original
  worded : ∀ kind literal state error, (client.compile kind literal state).1 = .error error → ¬ error.Misplaced
  hookGrows : ∀ hook, client.hook? = some hook → ∀ target container memory (tree : Tree), tree.WellFormed →
    (hook.ask target container (memory, tree)).2.2.WellFormed ∧
      tree.size ≤ (hook.ask target container (memory, tree)).2.2.size
  hookSkirts : ∀ hook, client.hook? = some hook → ∀ target container (scene : Scene σ), scene.Guarded client shelf →
    scene.Outside shelf target → scene.Outside shelf container →
      let after := (hook.ask target container (scene.memory, scene.tree)).2
      scene.Skirts shelf { scene with memory := after.1, tree := after.2 }

namespace Scene.Guarded

variable (guarded : scene.Guarded client shelf)
include guarded

theorem wellFormed : scene.tree.WellFormed := guarded.fenced.wellFormed

/-- A fragment has no parent, and what is below it has its parent there, too. So templates are fenced in. -/
theorem aside : scene.tree.Fenced (Aside shelf scene) where
  wellFormed := guarded.wellFormed
  present _ := guarded.orderly.aside_exists
  linked child parent above := by
    constructor
    · rintro (shelved | ⟨shared, original, prepared, member⟩)
      · exact .inl ((guarded.fenced.linked child parent above).1 shelved)
      · refine .inr ⟨shared, original, prepared, ?_⟩
        have fragment := prepared.fragment
        obtain rfl := prepared_eq guarded.wellFormed prepared
        rcases (guarded.wellFormed.mem_nodes_subtree.1 member).cases_head with rfl | ⟨between, link, way⟩
        · cases above.symm.trans (guarded.wellFormed.loose _ fragment)
        · cases above.symm.trans link
          exact guarded.wellFormed.mem_nodes_subtree.2 way
    · exact fun aside => guarded.orderly.aside_below aside (guarded.wellFormed.mem_childrenOf above)

theorem fits (provides : client.Provides shelf) (listed : scene.cache.Lists shared) :
    shared.template.Fits (scene.tree.subtree shared.template.fragment) := by
  obtain ⟨key, member⟩ := listed
  obtain ⟨literal, original, -, prepared, makes⟩ := guarded.orderly.made _ _ shared member
  rw [prepared_eq guarded.wellFormed prepared]
  exact provides.fits _ _ _ _ makes

/-- Whatever keeps off what is set aside leaves it as it is, and nothing else is set aside. -/
theorem skirted (skirts : scene.Skirts shelf after) :
    after.Guarded client shelf ∧ scene.Minds shelf after ∧ ∀ id, Aside shelf after id ↔ Aside shelf scene id := by
  have contents : after.cache.byContent = scene.cache.byContent := congrArg TemplateCache.byContent skirts.cache
  have spelled : ∀ shared original, scene.Prepared shared original → after.tree.Spells original.spots := by
    intro shared original prepared
    apply prepared.spelled.stays
    intro id member
    have aside : Aside shelf scene id := .inr ⟨shared, original, prepared, member⟩
    exact ⟨skirts.tree.kindOf id aside, skirts.tree.childrenOf id aside⟩
  have fenced : after.tree.Fenced (shelf after.memory) := by
    rw [funext fun id => propext (skirts.shelf id)]
    exact guarded.fenced.skirted (skirts.tree.mono fun _ => .inl)
  have shelved : Shelved after.tree (shelf after.memory) :=
    ⟨fenced.present, fun id child here link => (fenced.linked child id (fenced.wellFormed.parentOf_of_mem link)).2 here⟩
  have same : ∀ id, Aside shelf after id ↔ Aside shelf scene id := fun id =>
    aside_iff guarded.orderly contents spelled (skirts.shelf id)
  exact ⟨⟨guarded.orderly.steady contents spelled (skirts.cache ▸ guarded.orderly.numbered) shelved, fenced⟩,
    ⟨fun id _ => same id, skirts.tree.elements⟩, same⟩

/-- Asking for a template leads to one that fits, or fails in the client's words. -/
theorem templateFor (provides : client.Provides shelf) (kind : TemplateKind) (literal : Literal) :
    (templateFor client kind literal).Leads scene
      (fun shared after => (after.Guarded client shelf ∧ scene.Minds shelf after) ∧ Answers shared after)
      fun error after => (after.Guarded client shelf ∧ scene.Minds shelf after) ∧ ¬ error.Misplaced := by
  have minds : ∀ {after : Scene σ}, Supplied client shelf scene after → scene.Minds shelf after := fun supplied =>
    ⟨supplied.aside, fun _ element => element.of_kindOf (supplied.extended.kindOf_eq element.lt_size)⟩
  have fenced : (RenderM.templateFor client kind literal).Leads scene
      (fun _ after => after.tree.Fenced (shelf after.memory)) fun _ after => after.tree.Fenced (shelf after.memory) :=
    templateFor_leads (fun _ _ => guarded.fenced) (fun _ _ => guarded.fenced)
      (fun _ _ => provides.fenced kind literal _ _ guarded.fenced) fun _ _ => provides.fenced kind literal _ _ guarded.fenced
  have supplied := templateFor_supplied guarded.wellFormed guarded.orderly
    (provides.prepared kind literal _ _ guarded.fenced)
  refine (supplied.both fenced).mono ?_ ?_
  · rintro shared after ⟨⟨supplied, answers⟩, fenced⟩
    exact ⟨⟨⟨supplied.orderly, fenced⟩, minds supplied⟩, answers⟩
  · rintro error after ⟨⟨supplied, failed⟩, fenced⟩
    exact ⟨⟨⟨supplied.orderly, fenced⟩, minds supplied⟩, provides.worded kind literal _ error failed⟩

end Scene.Guarded

section Overheard

def Scene.unheard (scene : Scene (σ × List Question)) : Scene σ := ⟨scene.tree, scene.cache, scene.memory.1, scene.report⟩

variable {scene : Scene (σ × List Question)}

theorem Scene.aside_unheard {id : NodeId} :
    Aside (fun memory : σ × List Question => shelf memory.1) scene id ↔ Aside shelf scene.unheard id := by
  have same : ∀ shared original, scene.Prepared shared original ↔ scene.unheard.Prepared shared original := fun _ _ =>
    ⟨fun prepared => ⟨prepared.listed, prepared.top, prepared.spelled⟩, fun prepared =>
      ⟨prepared.listed, prepared.top, prepared.spelled⟩⟩
  simp only [Aside, same]
  rfl

theorem Client.makes_overheard {kind : TemplateKind} {literal : Literal} {template : Template} {original : Subtree}
    (makes : client.overheard.Makes kind literal template original) : client.Makes kind literal template original := by
  obtain ⟨memory, tree, wellFormed, done, same⟩ := makes
  exact ⟨memory.1, tree, wellFormed, done, same⟩

theorem Scene.Guarded.unheard (guarded : scene.Guarded client.overheard fun memory => shelf memory.1) :
    scene.unheard.Guarded client shelf where
  orderly := by
    refine ⟨guarded.orderly.numbered, guarded.orderly.distinct, fun kind key shared member => ?_, guarded.orderly.shelved⟩
    obtain ⟨literal, original, same, prepared, makes⟩ := guarded.orderly.made kind key shared member
    exact ⟨literal, original, same, ⟨prepared.listed, prepared.top, prepared.spelled⟩, Client.makes_overheard makes⟩
  fenced := guarded.fenced

theorem Client.Provides.overheard (provides : client.Provides shelf) :
    client.overheard.Provides fun memory => shelf memory.1 where
  grows kind literal memory tree := provides.grows kind literal memory.1 tree
  prepared kind literal memory tree fenced := by
    obtain ⟨wellFormed, extended, shelved, stays, fragment, aside, distinct⟩ :=
      provides.prepared kind literal memory.1 tree fenced
    exact ⟨wellFormed, extended, shelved, stays, fragment, aside, distinct⟩
  fenced kind literal memory tree := provides.fenced kind literal memory.1 tree
  fits kind literal template original makes := provides.fits kind literal template original (Client.makes_overheard makes)
  worded kind literal state := provides.worded kind literal (state.1.1, state.2)
  hookGrows hook known target container memory tree := by
    obtain ⟨silent, asked, rfl⟩ := Option.map_eq_some_iff.1 known
    exact provides.hookGrows silent asked target container memory.1 tree
  hookSkirts hook known target container scene guarded outside off := by
    obtain ⟨silent, asked, rfl⟩ := Option.map_eq_some_iff.1 known
    have same : Aside (fun memory : σ × List Question => shelf memory.1) scene = Aside shelf scene.unheard :=
      funext fun _ => propext aside_unheard
    have unheard : ∀ {id}, scene.Outside (fun memory => shelf memory.1) id → scene.unheard.Outside shelf id :=
      fun outside => ⟨outside.1, fun aside => outside.2 (aside_unheard.2 aside)⟩
    obtain ⟨tree, cache, shelf⟩ := provides.hookSkirts silent asked target container scene.unheard guarded.unheard
      (unheard outside) (unheard off)
    exact ⟨same ▸ tree, cache, shelf⟩

end Overheard

end DomParts
