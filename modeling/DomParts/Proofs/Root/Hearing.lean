import DomParts.Proofs.Render.Heard
import DomParts.Proofs.Root.Regions

/-! # What a hook hears

A list by key drops an item node by node. The hook is asked about each of them but the markers, and those that it
lets go leave the container. Nothing else in an item is asked about, and nobody asks when a root is cleared.
-/

namespace DomParts

open RenderM

variable {σ : Type}

namespace NodePart

variable {client : Client σ} {hook : RemovalHook σ} {part : NodePart} {container : NodeId}
  {front between rest : List NodeId}

theorem remove_heard (asks : client.hook? = some hook)
    (thinks : ∀ target container memory (tree : Tree), (hook.ask target container (memory, tree)).2.2 = tree)
    {scene : Scene (σ × List Question)} (sound : scene.tree.WellFormed)
    (listed : scene.tree.childrenOf container = front ++ part.start :: (between ++ part.stop :: rest)) :
    (part.remove client.overheard container).Leads scene
      (fun _ after => ∃ questions gone,
        Heard scene.tree container (part.start :: (between ++ [part.stop])) questions gone ∧
        after.tree = scene.tree.detachAll gone ∧ after.memory.2 = scene.memory.2 ++ questions) fun _ _ => False := by
  have overheard : client.overheard.hook? = some hook.overheard := by rw [Client.overheard, asks, Option.map_some]
  have run : scene.tree.childrenOf container = front ++ ((part.start :: (between ++ [part.stop])) ++ rest) := by
    simpa using listed
  have split : scene.tree.childrenOf container = (front ++ part.start :: between) ++ part.stop :: rest := by
    simpa using listed
  have behind := sound.nextSibling_eq split
  have distinct := sound.nodup container
  rw [run, List.nodup_append'] at distinct
  have whole := Tree.upTo_append distinct.2.1
  have room : (Tree.upTo rest.head? ((part.start :: (between ++ [part.stop])) ++ rest)).length ≤
      scene.tree.size + hook.overheard.additions := by
    rw [whole]
    exact Nat.le_add_right_of_le (sound.length_run_le (run.trans (List.append_assoc ..).symm))
  have walked := overRunAsking_sifted thinks sound run rest.head? room 0
  rw [whole, List.cons_append, List.head?_cons] at walked
  simp only [remove, removeRunFor, overheard, removeRunAsking, leads_bind, leads_look, behind, leads_note, leads_pure]
  refine walked.mono ?_ fun _ _ none => none
  rintro _ after ⟨asked, gone, sifted, -⟩
  exact ⟨_, gone, sifted.heard, sifted.tree, sifted.memory⟩

end NodePart

open Layout in
/-- Whatever was rendered and cleared before, a part inside a list by key that is dropped is dropped in the hook's
    hearing: it is asked about each node between the part's markers that is no marker itself, and about nothing
    else, and the node leaves its container if and only if the hook said so. -/
theorem Reached.drop_heard {client : Client σ} {hook : RemovalHook σ} {stage : Stage σ} (regular : client.Regular)
    (asks : client.hook? = some hook) (reached : Reached client stage) {root part : NodePart}
    (member : root ∈ stage.parts) (usable : root.isPoisoned = false) (inside : Relation.ReflTransGen NodePart.Holds root part) :
    ∃ container front between rest after, part.WellPlaced stage.scene container front between rest ∧
      (part.remove client.overheard container).runOn
          ⟨stage.scene.tree, stage.scene.cache, (stage.scene.memory, []), stage.scene.report⟩ = (.ok (), after) ∧
        (∀ question ∈ after.memory.2, ∃ id ∈ between, ∃ answer, question = .remove id container answer) ∧
        ∀ id ∈ between, stage.scene.tree.isMarker id = false →
          (∃ answer, .remove id container answer ∈ after.memory.2) ∧
            (after.tree.parentOf id = none ↔ .remove id container .proceed ∈ after.memory.2) := by
  obtain ⟨kept, slack, container, front, rest, plot, rfl, sound, placed⟩ := reached.placed regular member usable inside
  have well := placed.wellPlaced sound
  have leads := @NodePart.remove_heard _ _ _ plot.part container front plot.inner rest asks (regular.thinks hook asks)
    ⟨stage.scene.tree, stage.scene.cache, (stage.scene.memory, []), stage.scene.report⟩ sound.wellFormed well.children
  obtain ⟨_, after, ran, questions, gone, heard, tree, asked⟩ := leads.ran
  obtain rfl : after.memory.2 = questions := asked
  have run : (plot.part.start :: (plot.inner ++ [plot.part.stop])).Nodup := by
    have distinct := well.distinct
    rw [well.children, List.nodup_append'] at distinct
    refine distinct.2.1.sublist ?_
    simp
  have marker : ∀ id, id = plot.part.start ∨ id = plot.part.stop → stage.scene.tree.isMarker id = true := by
    rintro id (rfl | rfl)
    · exact Tree.isMarker_iff.2 placed.site.marked.start
    · exact Tree.isMarker_iff.2 placed.site.marked.stop
  refine ⟨container, front, plot.inner, rest, after, well, ran, fun question among => ?_, fun id between solid => ?_⟩
  · obtain ⟨id, here, solid, answer, same⟩ := heard.about question among
    have solid : stage.scene.tree.isMarker id = false := solid
    refine ⟨id, ?_, answer, same⟩
    have apart : ¬ (id = plot.part.start ∨ id = plot.part.stop) := fun which => by
      rw [marker id which] at solid
      cases solid
    simp only [List.mem_cons, List.mem_append, List.not_mem_nil, or_false] at here
    tauto
  · have here : id ∈ plot.part.start :: (plot.inner ++ [plot.part.stop]) := by simp [between]
    obtain ⟨answered, goes⟩ := heard.answered run here solid
    refine ⟨answered, ?_⟩
    have above : stage.scene.tree.parentOf id = some container :=
      sound.wellFormed.parentOf_of_mem (by rw [well.children]; simp [between])
    rw [← goes, tree, Tree.parentOf_detachAll]
    by_cases left : id ∈ gone <;> simp [left, above]

theorem Root.clear_memory (root : Root) (scene : Scene σ) : (root.clear.runOn scene).2.memory = scene.memory := by
  have leads : ∀ part : NodePart, part.removeContent.Leads scene (fun _ after => after.memory = scene.memory)
      fun _ after => after.memory = scene.memory := by
    intro part
    simp only [NodePart.removeContent, NodePart.container, removeRun, leads_bind, leads_look, leads_require,
      leads_editInSteps, leads_note, leads_pure]
    rcases scene.tree.nextSibling part.start with _ | first
    · trivial
    · rcases scene.tree.parentOf part.start with _ | container
      · trivial
      · dsimp only
        split <;> trivial
  rcases Attempt.carry_ends (leads { root.part with content := .empty })
    (fun () => ({ root.part with content := .empty } : NodePart)) { root.part with content := .empty } with
    ⟨_, after, ran, same⟩ | ⟨_, after, ran, same⟩
  · exact congrArg (fun ended => ended.2.memory) ran ▸ same
  · exact congrArg (fun ended => ended.2.memory) ran ▸ same

end DomParts
