import DomParts.Proofs.Render.Idle
import DomParts.Proofs.Root.Undisturbed

/-! # Rendering a value again

Once a value was rendered, whatever happened before, rendering it again changes nothing. There is nothing to
compile and nothing to remove, so nobody is asked for anything.
-/

namespace DomParts

variable {σ : Type} {client : Client σ} {stage : Stage σ}

namespace Layout

theorem Shows.inner_of_empty {premises : Premises} {tree : Tree} {content : Content} {inner owned : List NodeId}
    (shows : Shows premises tree content inner owned) (empty : content = .empty) : inner = [] := by
  subst empty
  cases shows with
  | empty => rfl
  | row arranged => cases arranged

namespace Realm

variable {realm : Realm σ} {world : World σ} {container : NodeId} {front rest : List NodeId} {plot : Plot} {slack : Slack}

theorem Placed.upright (sound : realm.Sound world) (placed : realm.Placed world slack container front rest plot) :
    plot.part.Upright world.tree where
  held := ⟨container, sound.wellFormed.parentOf_of_mem placed.site.start_mem⟩
  closed content := by
    have bare : plot.inner = [] := placed.shows.inner_of_empty content
    have next := placed.site.nextSibling_start sound
    simpa [bare] using next
  complete keys parts stats content := by
    obtain ⟨blocks, arranged, -⟩ := placed.shows.of_row (.inr ⟨keys, parts, stats, content⟩)
    rw [content] at arranged
    exact arranged.2

end Realm

end Layout

theorem NodePart.commit_again {part : NodePart} {value : Value} {scene : Scene σ}
    (depicts : Depicts scene.cache value part.content) (steady : part.Steady scene.tree) (client : Client σ) :
    ∃ again after, ((part.stage value).commit client).runOn scene = ((again, .ok ()), after) ∧ scene.Same after ∧
      again.Rested := by
  have attended : (attend { part with pending := none } (value.render client)).Leads scene
      (fun content after => scene.Same after ∧ content.Rested) fun _ _ => False :=
    attend_leads.2 (RenderM.Leads.mono (value.idle client _ scene depicts (steady.restage none)) (fun _ _ => id)
      fun _ _ => False.elim)
  have usable : (part.stage value).isPoisoned = false := depicts.usable
  rw [commit_of_usable rfl usable]
  rcases Attempt.carry_ends attended (fun content => ({ part with content, pending := none } : NodePart))
    { part with content := .poisoned, pending := none } with ⟨content, after, done, same, rested⟩ | ⟨_, _, _, none⟩
  · exact ⟨_, after, done, same, rested_iff.2 rested⟩
  · exact none.elim

theorem Root.ran_of_part {root : Root} {value : Value} {part : NodePart} {result : Except Error Unit} {scene after : Scene σ}
    (ran : ((root.part.stage value).commit client).runOn scene = ((part, result), after)) :
    (root.render client value).runOn scene = ((⟨part⟩, result), after) := by
  simp only [render, Attempt.runOn, Attempt.map] at ran ⊢
  rw [ran]

theorem Reached.steady (regular : client.Regular) (reached : Reached client stage) {part : NodePart}
    (member : part ∈ stage.parts) (usable : part.isPoisoned = false) : part.Steady stage.scene.tree := by
  intro inner way
  obtain ⟨kept, slack, container, front, rest, plot, rfl, sound, placed⟩ := reached.placed regular member usable way
  exact placed.upright sound

/-- A root that was given a value and showed it is given the value again: this goes well and leaves the tree as
    it is. Whoever would compile templates or guard removals by then, and whatever they remember, they are not
    asked for anything. Each list by key keeps all its items where they are. -/
theorem Reached.render_again (regular : client.Regular) (reached : Reached client stage) {part : NodePart}
    (member : part ∈ stage.parts) {value : Value} (allows : stage.Allows value) {root : Root} {scene : Scene σ}
    (ran : ((Root.mk part).render client value).runOn stage.scene = ((root, .ok ()), scene))
    {τ : Type} (other : Client τ) (memory : τ) (report : Array Event) :
    ∃ again longer, (root.render other value).runOn ⟨scene.tree, scene.cache, memory, report⟩ =
        ((again, .ok ()), ⟨scene.tree, scene.cache, memory, longer⟩) ∧
      ∀ inner, Relation.ReflTransGen NodePart.Holds again.part inner → ∀ keys parts stats,
        inner.content = .keyed keys parts stats → stats = { updated := parts.length } := by
  have ran : ((part.stage value).commit client).runOn stage.scene = ((root.part, .ok ()), scene) := Root.part_ran ran
  have depicts : Depicts scene.cache value root.part.content := NodePart.commit_depicts rfl ran
  obtain ⟨left, right, split⟩ := List.append_of_mem member
  have reached := reached.rendered left right split allows
  rw [ran] at reached
  have steady : root.part.Steady scene.tree := reached.steady regular (by simp) depicts.usable
  let later : Scene τ := ⟨scene.tree, scene.cache, memory, report⟩
  have shown : Depicts later.cache value root.part.content := depicts
  obtain ⟨again, after, done, same, rested⟩ := NodePart.commit_again shown steady other
  refine ⟨⟨again⟩, after.report, ?_, fun inner way => (NodePart.rested_iff.1 (rested.descend way)).counts⟩
  rw [same.eq] at done
  exact Root.ran_of_part done

namespace Root.Example

def repeated : Value := .keyed [(.int 1, .text "a"), (.int 1, .list [.text "b", .nothing])]

def repeating : (Root × Except Error Unit) × Scene Unit := (fresh.render wordless repeated).runOn opened.scene

theorem repeating_ok : repeating.1.2 = .ok () := by decide +kernel

end Root.Example

open Root.Example in
/-- Equal keys are no hindrance. -/
theorem Reached.render_again_repeated : wordless.Regular ∧ Reached wordless opened ∧ Root.Example.fresh.part ∈ opened.parts ∧
    opened.Allows repeated ∧ repeating.1.2 = .ok () ∧ ∀ (memory : Nat) (report : Array Event),
      ∃ again longer, (repeating.1.1.render ⟨fun _ _ (memory, tree) => (.error .poisoned, memory + 1, tree), none⟩
          repeated).runOn ⟨repeating.2.tree, repeating.2.cache, memory, report⟩ =
        ((again, .ok ()), ⟨repeating.2.tree, repeating.2.cache, memory, longer⟩) ∧
      ∀ inner, Relation.ReflTransGen NodePart.Holds again.part inner → ∀ keys parts stats,
        inner.content = .keyed keys parts stats → stats = { updated := parts.length } := by
  have member : Root.Example.fresh.part ∈ opened.parts := List.mem_singleton.2 rfl
  have allowed : opened.Allows repeated := by
    intro id leaf
    simp [repeated, Value.leaves, Value.leavesOfItems, Value.leavesOfAll] at leaf
  have ran : repeating = ((repeating.1.1, .ok ()), repeating.2) := Prod.ext (Prod.ext rfl repeating_ok) rfl
  exact ⟨wordless_regular, opened_reached wordless, member, allowed, repeating_ok,
    Reached.render_again wordless_regular (opened_reached wordless) member allowed ran _⟩

end DomParts
