import DomParts.Proofs.Layout.Commit
import DomParts.Proofs.Renaming.Instance
import DomParts.Proofs.Renaming.Lists

/-! # Values with other keys and texts

Every value is rendered in the same way as the value with other keys and texts, since the values in it are. The same
goes for a commit, which keeps what it did before it failed, and for a part that is cleared.
-/

namespace DomParts

open RenderM

variable {σ α β γ δ : Type} {r : Renaming} {client : Client σ} {scene other : Scene σ}

namespace Value

theorem renamed_renderings {values : List Value} (each : ∀ value ∈ values,
      Renderer.Renamed r (value.render client) ((value.rename r).render client)) :
    List.Forall₂ (Rendering.Renamed r) (renderings client values) (renderings client (renameAll r values)) := by
  rw [renderings_eq_map, renderings_eq_map, renameAll_eq_map, List.map_map, List.forall₂_map_left_iff,
    List.forall₂_map_right_iff, List.forall₂_same]
  exact fun value member => ⟨rfl, each value member⟩

theorem renamed_render (discreet : client.Discreet r) (value : Value) :
    Renderer.Renamed r (value.render client) ((value.rename r).render client) := by
  induction value using nested with
  | nothing =>
      rw [rename, render]
      exact Render.renamed_nothing
  | text data =>
      rw [rename, render, render]
      exact Render.renamed_text data
  | node id =>
      rw [rename, render]
      exact Render.renamed_node id
  | template kind literal values each =>
      rw [rename, render, render]
      exact Render.renamed_template discreet kind literal (renamed_renderings each)
  | list items each =>
      rw [rename, render, render]
      exact Render.renamed_list (renamed_renderings each)
  | keyed items each =>
      rw [rename, render, render, renameItems_eq_map, keyedRenderings_eq_map, keyedRenderings_eq_map]
      refine Render.renamed_keyed discreet ?_ ?_
      · simp only [List.map_map, Function.comp_def]
      · simp only [List.map_map, Function.comp_def]
        rw [List.forall₂_map_left_iff, List.forall₂_map_right_iff, List.forall₂_same]
        exact fun item member => ⟨rfl, each item member⟩

end Value

namespace Attempt

/-- Both attempts end the same way, leave things that belong together, and scenes that are the same but for texts.
    Nothing is said of an attribute that is misplaced. -/
def Alike (r : Renaming) (one : Attempt σ α) (two : Attempt σ β) (scene other : Scene σ)
    (shows : α → β → Prop) : Prop :=
  (∀ error, (one.runOn scene).1.2 = .error error → ¬ error.Misplaced) →
    (two.runOn other).1.2 = (one.runOn scene).1.2 ∧ shows (one.runOn scene).1.1 (two.runOn other).1.1 ∧
      (one.runOn scene).2.Paired r (two.runOn other).2

theorem carry_alike {one : RenderM σ α} {two : RenderM σ β} {shows : α → β → Prop} {further : γ → δ → Prop}
    {kept : α → γ} {kept' : β → δ} {broken : γ} {broken' : δ} (follows : one.Follows r 0 two scene other shows)
    (onward : ∀ left right, shows left right → further (kept left) (kept' right)) (fallback : further broken broken') :
    (carry one kept broken).Alike r (carry two kept' broken') scene other further := by
  intro placed
  rcases follows.ends with ⟨left, after, right, last, ran, ran', changes, shown⟩ | ⟨error, after, ran, follows⟩
  · simp only [runOn, carry, ran, ran']
    exact ⟨trivial, onward _ _ shown, changes.paired⟩
  · simp only [runOn, carry, ran] at placed ⊢
    obtain ⟨last, ran', changes⟩ := follows (placed error rfl)
    simp only [ran']
    exact ⟨trivial, fallback, changes.paired⟩

end Attempt

namespace NodePart

theorem clear_alike (paired : scene.Paired r other) (part : NodePart) :
    part.clear.Alike r (part.rename r).clear scene other fun left right => right = left.rename r := by
  obtain ⟨start, stop, pending, content⟩ := part
  have emptied : (⟨start, stop, pending.map (Value.rename r), .empty⟩ : NodePart) =
      NodePart.rename r ⟨start, stop, pending, .empty⟩ := by rw [rename, Content.rename]
  simp only [clear, rename, emptied]
  exact Attempt.carry_alike ((alike_removeContent _) scene other paired (Nat.zero_le _)) (fun _ _ _ => rfl) rfl

/-- A value is committed in the same way, whether the part refuses it, fails or goes on. -/
theorem commit_alike (discreet : client.Discreet r) (paired : scene.Paired r other) (part : NodePart) (value : Value) :
    ((part.stage value).commit client).Alike r (((part.rename r).stage (value.rename r)).commit client) scene other
      fun left right => right = left.rename r := by
  by_cases poisoned : part.isPoisoned = true
  · have poisoned' : (part.rename r).isPoisoned = true := (part.isPoisoned_rename r).trans poisoned
    rw [commit_of_poisoned rfl (show (part.stage value).isPoisoned = true from poisoned),
      commit_of_poisoned rfl (show ((part.rename r).stage (value.rename r)).isPoisoned = true from poisoned')]
    refine fun _ => ⟨rfl, ?_, paired⟩
    cases part
    simp only [Attempt.refused, Attempt.runOn, stage, rename, Option.map_none]
  · rw [Bool.not_eq_true] at poisoned
    have usable' : (part.rename r).isPoisoned = false := (part.isPoisoned_rename r).trans poisoned
    rw [commit_of_usable rfl (show (part.stage value).isPoisoned = false from poisoned),
      commit_of_usable rfl (show ((part.rename r).stage (value.rename r)).isPoisoned = false from usable')]
    obtain ⟨start, stop, pending, content⟩ := part
    have rendered := (Value.renamed_render discreet value 0 ⟨start, stop, none, content⟩ (.inr rfl)).attend
    simp only [rename, Option.map_none] at rendered
    refine Attempt.carry_alike (rendered scene other paired (Nat.zero_le _)) (fun left _ shown => ?_) ?_
    · simp only [stage, rename, shown, Option.map_none]
    · simp only [stage, rename, Content.rename, Option.map_none]

end NodePart

theorem Root.alike_create (container : NodeId) :
    (Root.create container : RenderM σ Root).Alike r 0 (Root.create container) fun left right => right.part = left.part.rename r := by
  refine (NodePart.alike_insertInto container none).bind ?_
  rintro part _ ⟨rfl, -⟩
  exact (alike_note _).andThen fun _ => alike_pure rfl

end DomParts
