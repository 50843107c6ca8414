import DomParts.Proofs.Render.Leads
import DomParts.Proofs.Tree.Siblings
import Mathlib.Data.List.TakeWhile

/-! # Clearing a part whose markers may have moved

Clearing starts behind the start marker and goes on until it meets the end marker. Nothing else tells it
where the part ends: if the end marker is elsewhere, all later siblings of the start marker go, whoever
put them there, and only a start marker without a later sibling makes it fail.
-/

namespace DomParts

namespace NodePart

open RenderM DomParts.Tree

variable {σ : Type} {part : NodePart} {scene : Scene σ} {tree : Tree} {container : NodeId} {front between rest : List NodeId}

/-- The nodes that clearing the part removes: the later siblings of its start marker, as far as its end
    marker. -/
def clears (part : NodePart) (tree : Tree) : List NodeId := upTo (some part.stop) (tree.behind part.start)

theorem lt_size_of_clears (sound : tree.WellFormed) {id : NodeId} (member : id ∈ part.clears tree) : id < tree.size := by
  have follows := (List.takeWhile_sublist _).subset member
  cases above : tree.parentOf part.start with
  | none => simp [behind, above] at follows
  | some parent =>
      obtain ⟨before, split⟩ := sound.split_at above
      have listed : id ∈ tree.childrenOf parent := by
        rw [split]
        exact List.mem_append_right _ (List.mem_cons_of_mem _ follows)
      exact sound.lt_size_of_mem listed

/-- If the end marker is a later sibling of the start marker, clearing removes what is between them. -/
theorem clears_between (sound : tree.WellFormed)
    (split : tree.childrenOf container = front ++ part.start :: (between ++ part.stop :: rest)) :
    part.clears tree = between := by
  have distinct := sound.nodup container
  rw [split, List.nodup_append'] at distinct
  rw [clears, sound.behind_eq split]
  exact upTo_append (List.nodup_cons.1 distinct.2.1).2

theorem clears_lone (sound : tree.WellFormed) {id : NodeId} (follows : tree.nextSibling part.start = some id)
    (last : tree.nextSibling id = some part.stop) : part.clears tree = [id] ∧
      ∃ parent, tree.parentOf part.start = some parent ∧ tree.parentOf part.stop = some parent := by
  obtain ⟨parent, before, rest, above, split⟩ := sound.split_next follows
  have onward := split
  rw [List.append_cons before part.start] at onward
  rw [sound.nextSibling_eq onward] at last
  obtain ⟨rest, rfl⟩ := List.head?_eq_some_iff.1 last
  have distinct := sound.nodup parent
  rw [onward, List.nodup_middle, List.nodup_cons, List.mem_append, not_or] at distinct
  have other : some part.stop ≠ some id := by
    intro same
    apply distinct.1.2
    rw [Option.some.inj same]
    exact List.mem_cons_self ..
  refine ⟨?_, parent, above, sound.parentOf_of_mem (by simp [split])⟩
  rw [clears, sound.behind_eq split, upTo_cons other, upTo_cons_self]

theorem clear_eq (part : NodePart) (scene : Scene σ) : part.clear.runOn scene =
    (({ part with content := .empty }, (({ part with content := .empty } : NodePart).removeContent.runOn scene).1),
      (({ part with content := .empty } : NodePart).removeContent.runOn scene).2) := by
  simp only [clear, Attempt.runOn, Attempt.carry]
  rcases ({ part with content := .empty } : NodePart).removeContent.runOn scene with ⟨_ | _, _⟩ <;> rfl

/-- Removing what a part shows: it goes through as soon as anything follows the start marker, and removes all that
    follows as far as the end marker. Otherwise nothing is removed. -/
theorem removeContent_takes (sound : scene.tree.WellFormed) (part : NodePart) :
    (part.removeContent : RenderM σ Unit).Leads scene
      (fun _ after => scene.tree.behind part.start ≠ [] ∧ after.tree = scene.tree.detachAll (part.clears scene.tree))
      (fun error after => scene.tree.behind part.start = [] ∧ error = .illegalMutation .endDetached ∧ after = scene) := by
  cases begins : scene.tree.behind part.start with
  | nil => simp [removeContent, nextSibling_eq_behind, begins]
  | cons first others =>
      cases above : scene.tree.parentOf part.start with
      | none => simp [behind, above] at begins
      | some parent =>
          obtain ⟨before, split⟩ := sound.split_at above
          have listed : scene.tree.childrenOf parent = (before ++ [part.start]) ++ scene.tree.behind part.start := by
            simpa using split
          have next : (scene.tree.behind part.start).head? = some first := by simp [begins]
          have removed := removeRun_upTo sound listed next (some part.stop)
          simp [removeContent, NodePart.container, RenderM.removeRun, nextSibling_eq_behind, begins, above, removed,
            clears, Scene.add]

theorem clear_ok (sound : scene.tree.WellFormed) (followed : scene.tree.behind part.start ≠ []) :
    ∃ after, part.clear.runOn scene = (({ part with content := .empty }, .ok ()), after) ∧
      after.tree = scene.tree.detachAll (part.clears scene.tree) := by
  have leads := removeContent_takes sound { part with content := .empty }
  rw [clear_eq]
  rcases ran : ({ part with content := .empty } : NodePart).removeContent.runOn scene with ⟨error | _, after⟩
  · exact absurd (leads.error ran).1 followed
  · exact ⟨after, rfl, (leads.ok ran).2⟩

/-- Clearing fails if nothing follows the start marker. Nothing is removed then, but the part forgets what
    it showed, and also that it was poisoned. -/
theorem clear_error (sound : scene.tree.WellFormed) (alone : scene.tree.behind part.start = []) : part.clear.runOn scene =
    (({ part with content := .empty }, .error (.illegalMutation .endDetached)), scene) := by
  have leads := removeContent_takes sound { part with content := .empty }
  rw [clear_eq]
  rcases ran : ({ part with content := .empty } : NodePart).removeContent.runOn scene with ⟨error | _, after⟩
  · obtain ⟨-, rfl, rfl⟩ := leads.error ran
    rfl
  · exact absurd alone (leads.ok ran).1

/-- If the end marker is a later sibling of the start marker, clearing detaches exactly the nodes between
    them. -/
theorem clear_between (sound : scene.tree.WellFormed)
    (split : scene.tree.childrenOf container = front ++ part.start :: (between ++ part.stop :: rest)) :
    ∃ after, part.clear.runOn scene = (({ part with content := .empty }, .ok ()), after) ∧
      after.tree = scene.tree.detachAll between ∧
      after.tree.childrenOf container = front ++ part.start :: part.stop :: rest := by
  have followed : scene.tree.behind part.start ≠ [] := by simp [sound.behind_eq split]
  have listed : scene.tree.childrenOf container = (front ++ [part.start]) ++ between ++ (part.stop :: rest) := by
    simpa using split
  have distinct := sound.nodup container
  obtain ⟨after, ran, shape⟩ := clear_ok sound followed
  rw [clears_between sound split] at shape
  refine ⟨after, ran, shape, ?_⟩
  rw [listed] at distinct
  rw [shape, childrenOf_detachAll sound, listed, filter_run distinct]
  simp

/-- If the end marker is not a later sibling of the start marker and there is another one, clearing takes
    all later siblings for the part's content. -/
theorem clear_beyond (sound : scene.tree.WellFormed) (elsewhere : part.stop ∉ rest)
    (split : scene.tree.childrenOf container = front ++ part.start :: rest) (followed : rest ≠ []) :
    ∃ after, part.clear.runOn scene = (({ part with content := .empty }, .ok ()), after) ∧
      after.tree = scene.tree.detachAll rest ∧ after.tree.childrenOf container = front ++ [part.start] := by
  have behind := sound.behind_eq split
  have listed : scene.tree.childrenOf container = (front ++ [part.start]) ++ rest ++ [] := by simpa using split
  have distinct := sound.nodup container
  rw [listed] at distinct
  have here : part.clears scene.tree = rest := by
    rw [clears, behind, upTo, List.takeWhile_eq_self_iff]
    intro id member
    simpa using fun same : id = part.stop => elsewhere (same ▸ member)
  obtain ⟨after, ran, shape⟩ := clear_ok sound (behind ▸ followed)
  rw [here] at shape
  refine ⟨after, ran, shape, ?_⟩
  rw [shape, childrenOf_detachAll sound, listed, filter_run distinct, List.append_nil]

end NodePart

end DomParts
