import DomParts.Proofs.Layout.Below
import DomParts.Proofs.Root.Identity
import DomParts.Proofs.Root.Recovery

/-! # What a commit leaves alone

Whatever is not between the markers of a part is left alone when a value without nodes of the host is
committed in the part or the part is cleared, whether this goes well or not; the container only gets other
children between the markers.
-/

namespace DomParts

variable {σ : Type} {client : Client σ} {stage : Stage σ}

/-- Nothing but what is between two markers in a container is touched. -/
structure Tree.KeptAround (tree changed : Tree) (container : NodeId) (front between rest : List NodeId)
    (start stop : NodeId) : Prop where
  before : tree.childrenOf container = front ++ start :: (between ++ stop :: rest)
  after : ∃ region, changed.childrenOf container = front ++ start :: (region ++ stop :: rest)
  kind : changed.kindOf container = tree.kindOf container
  parent : changed.parentOf container = tree.parentOf container
  frame : ∀ id, tree.size > id → id ≠ container → (∀ top ∈ between, id ∉ (tree.subtree top).nodes) →
    changed.kindOf id = tree.kindOf id ∧ changed.parentOf id = tree.parentOf id ∧
      changed.childrenOf id = tree.childrenOf id

namespace Layout.Realm

variable {realm : Realm σ} {world after : World σ} {container : NodeId} {front rest : List NodeId} {plot new : Plot}
  {slack : Slack}

theorem Placed.keptAround (sound : realm.Sound world) (placed : realm.Placed world slack container front rest plot)
    (outcome : realm.Outcome world after container front rest plot [] new) :
    world.tree.KeptAround after.tree container front plot.inner rest plot.part.start plot.part.stop := by
  have before := placed.site.listed
  have listed := outcome.site.listed
  simp only [Plot.nodes, outcome.start, outcome.stop] at before listed
  refine ⟨by simpa using before, ⟨new.inner, by simpa using listed⟩, outcome.container_kind, outcome.container_parent,
    fun id inside away outside => ?_⟩
  have unowned : id ∉ plot.owned := by
    intro owned
    obtain ⟨top, here, way⟩ := placed.shows.owned_below sound.wellFormed id owned
    exact outside top here (sound.wellFormed.mem_nodes_subtree.2 way)
  have spared := outcome.change.spared id inside (by simp [away, unowned])
  exact ⟨spared.kindOf, spared.parentOf List.not_mem_nil, by simpa using spared.childrenOf⟩

/-- Committing and clearing keep everything around a part wherever the part has its place, also inside of something
    that is being rendered. -/
theorem Placed.commit_keptAround (lawful : realm.Lawful) (sound : realm.Sound world)
    (placed : realm.Placed world slack container front rest plot) {value : Value} (plain : value.leaves = []) :
    world.tree.KeptAround (((plot.part.stage value).commit realm.client).runOn world.scene).2.tree container front
        plot.inner rest plot.part.start plot.part.stop ∧
      world.tree.KeptAround (plot.part.clear.runOn world.scene).2.tree container front plot.inner rest plot.part.start
        plot.part.stop := by
  have staged := placed.staging (some value)
  have admits : realm.Admits world.tree value.leaves := by
    rw [plain]
    exact nofun
  obtain ⟨result, scene, held, taken, new, ran, committed⟩ := staged.commit lawful sound rfl admits
  have ran : ((plot.part.stage value).commit realm.client).runOn world.scene = ((new.part, result), scene) := ran
  have none : taken = [] := List.eq_nil_iff_forall_not_mem.2 fun id member => by
    have := committed.among id member
    rw [plain] at this
    cases this
  subst none
  obtain ⟨bare, cleared, outcome⟩ := placed.site.clear lawful sound
  constructor
  · rw [ran]
    exact staged.keptAround sound committed.outcome
  · rw [cleared]
    exact placed.keptAround sound outcome

end Layout.Realm

/-- Committing a value without nodes of the host, in a part anywhere inside a usable one, keeps everything around
    the part, whatever comes of it, and so does clearing the part. -/
theorem Reached.commit_frame (regular : client.Regular) (reached : Reached client stage) {root part : NodePart}
    (member : root ∈ stage.parts) (usable : root.isPoisoned = false)
    (inside : Relation.ReflTransGen NodePart.Holds root part) {value : Value} (plain : value.leaves = []) :
    ∃ container front between rest,
      stage.scene.tree.KeptAround (((part.stage value).commit client).runOn stage.scene).2.tree container front between
        rest part.start part.stop ∧
      stage.scene.tree.KeptAround (part.clear.runOn stage.scene).2.tree container front between rest part.start
        part.stop := by
  have lawful := Layout.regular_lawful regular stage.guest
  obtain ⟨kept, slack, container, front, rest, plot, rfl, sound, placed⟩ := reached.placed regular member usable inside
  exact ⟨container, front, plot.inner, rest, placed.commit_keptAround lawful sound plain⟩

open Root.Example in
/-- Another text in the first item of a list keeps everything around the item. -/
theorem Reached.commit_frame_item : wordless.Regular ∧ Reached wordless listing ∧ listed.1.1 ∈ listing.parts ∧
    listed.1.1.isPoisoned = false ∧ Relation.ReflTransGen NodePart.Holds listed.1.1 item ∧
    (Value.text "c").leaves = [] ∧ ∃ container front between rest,
      listing.scene.tree.KeptAround (((item.stage (.text "c")).commit wordless).runOn listing.scene).2.tree container
        front between rest item.start item.stop ∧
      listing.scene.tree.KeptAround (item.clear.runOn listing.scene).2.tree container front between rest item.start
        item.stop := by
  have usable : listed.1.1.isPoisoned = false := by
    rw [listed_eq]
    rfl
  exact ⟨wordless_regular, listing_reached, listed_mem, usable, item_inside, rfl,
    Reached.commit_frame wordless_regular listing_reached listed_mem usable item_inside rfl⟩

end DomParts
