import DomParts.Proofs.Root.History

/-! # Nodes of the host

A part that shows a node of the host remembers which one. A commit of that node is taken as done, even if the
node was shown elsewhere in between and the part is left with nothing; a commit of any other node shows it.
-/

namespace DomParts

open Layout RenderM

variable {σ : Type} {client : Client σ} {stage : Stage σ} {root part new : NodePart} {id : NodeId}

theorem Reached.hosts (regular : client.Regular) (reached : Reached client stage) (member : root ∈ stage.parts)
    (usable : root.isPoisoned = false) (inside : Relation.ReflTransGen NodePart.Holds root part)
    (allows : stage.Allows (.node id)) {scene : Scene σ}
    (ran : ((part.stage (.node id)).commit client).runOn stage.scene = ((new, .ok ()), scene)) :
    new.content = .node id ∧ ∃ container front between rest,
      scene.tree.childrenOf container = front ++ part.start :: (between ++ part.stop :: rest) ∧
      (part.content.node? ≠ some id → between = [id]) ∧
      (part.content.node? = some id → scene = stage.scene ∧ (between = [id] ∨ between = [])) := by
  obtain ⟨kept, slack, container, front, rest, plot, rfl, sound, placed⟩ := reached.placed regular member usable inside
  have lawful := regular_lawful regular stage.guest
  obtain ⟨guest, name, attributes, kind⟩ := allows id (List.mem_singleton.2 rfl)
  have staged : (plot.part.stage (.node id)).pending = some (.node id) := rfl
  have site : (regularRealm client stage.guest).Site ⟨stage.scene, kept⟩ container front rest
      { plot with part := { plot.part.stage (.node id) with pending := none } } := placed.site.relabel rfl rfl
  have leads : (Render.node id { plot.part.stage (.node id) with pending := none }).Leads stage.scene
      (fun content scene => content = .node id ∧ ∃ front between rest,
        scene.tree.childrenOf container = front ++ plot.part.start :: (between ++ plot.part.stop :: rest) ∧
        (plot.part.content.node? ≠ some id → between = [id]) ∧
        (plot.part.content.node? = some id → scene = stage.scene ∧ (between = [id] ∨ between = [])))
      (fun _ _ => False) := by
    unfold Render.node
    split
    · rename_i same
      have remembered : plot.part.content.node? = some id := same
      have listed := placed.site.listed
      rw [leads_pure]
      refine ⟨rfl, front, plot.inner, rest, by simpa [Plot.nodes] using listed, fun other => absurd remembered other,
        fun _ => ⟨rfl, ?_⟩⟩
      exact (placed.shows.of_node remembered).imp And.left And.left
    · rename_i differs
      have other : plot.part.content.node? ≠ some id := differs
      have hosted := site.host_leads lawful sound guest fun fragment => by
        rw [show stage.scene.tree.kindOf id = _ from kind] at fragment
        cases fragment
      simp only [leads_bind, leads_pure] at hosted ⊢
      refine hosted.mono (fun _ _ rest => rest.mono (fun _ last outcome => ?_) fun _ _ none => none) fun _ _ none => none
      have listed := outcome.site.listed
      exact ⟨trivial, _, [id], _, by simpa [Plot.nodes, NodePart.stage] using listed, fun _ => rfl,
        fun same => absurd same other⟩
  obtain ⟨shown, front, between, rest, found⟩ := NodePart.commit_ok staged leads ran
  exact ⟨shown, container, front, between, rest, found⟩

/-- The root that showed the element first is left with nothing, although its last render goes well. -/
example : ((do
    let one ← Root.create 0
    let two ← Root.create 0
    let one ← (one.render Root.Example.wordless (.node 1)).orThrow
    let _ ← (two.render Root.Example.wordless (.node 1)).orThrow
    let _ ← (one.render Root.Example.wordless (.node 1)).orThrow
    look (·.childrenOf 0) : RenderM Unit (List NodeId)).runOn
      (.onTree ((Tree.empty.create (.plain "body")).2.create (.plain "p")).2 ())).1 = .ok [2, 3, 4, 1, 5] := by
  cbv

end DomParts
