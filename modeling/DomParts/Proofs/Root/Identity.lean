import DomParts.Proofs.Keyed.Identity
import DomParts.Proofs.Root.History

/-! # Keys and parts

Wherever a list by key is shown, rendering another list by key keeps the parts of the keys that stay, makes
parts for the keys that are new and takes away the others. The statistics of the pass count exactly that. It makes
no difference whether the list is committed on its own or while something around it is being rendered.
-/

namespace DomParts

variable {σ : Type} {client : Client σ} {stage : Stage σ}

namespace Layout.Realm

variable {realm : Realm σ} {world : World σ} {container : NodeId} {front rest : List NodeId} {plot : Plot} {slack : Slack}

/-- A pass goes by the keys in every part that has its place when it is committed, also inside of something that is
    being rendered. -/
theorem Placed.commit_keyed (lawful : realm.Lawful) (sound : realm.Sound world)
    (placed : realm.Placed world slack container front rest plot) {oldKeys : List Key} {olds : List NodePart}
    {oldStats : Stats} (content : plot.part.content = .keyed oldKeys olds oldStats) (oldDistinct : oldKeys.Nodup)
    {items : List (Key × Value)} (admits : realm.Admits world.tree (Value.keyed items).leaves)
    (newDistinct : (items.map (·.1)).Nodup) {new : NodePart} {scene : Scene σ}
    (ran : ((plot.part.stage (.keyed items)).commit realm.client).runOn world.scene = ((new, .ok ()), scene)) :
    ∃ news stats, new.content = .keyed (items.map (·.1)) news stats ∧
      KeyedPass world.tree scene.tree oldKeys olds items news stats := by
  have leads := (placed.staging none).keyedPass lawful sound content admits oldDistinct newDistinct
  have staged : (plot.part.stage (.keyed items)).pending = some (.keyed items) := rfl
  exact NodePart.commit_ok staged leads ran

end Layout.Realm

/-- A pass that goes well on distinct keys goes by the keys. -/
theorem Reached.keyed_pass (regular : client.Regular) (reached : Reached client stage) {root part : NodePart}
    (member : root ∈ stage.parts) (usable : root.isPoisoned = false)
    (inside : Relation.ReflTransGen NodePart.Holds root part) {oldKeys : List Key} {olds : List NodePart} {oldStats : Stats}
    (content : part.content = .keyed oldKeys olds oldStats) (oldDistinct : oldKeys.Nodup) {items : List (Key × Value)}
    (allows : stage.Allows (.keyed items)) (newDistinct : (items.map (·.1)).Nodup) {new : NodePart} {scene : Scene σ}
    (ran : ((part.stage (.keyed items)).commit client).runOn stage.scene = ((new, .ok ()), scene)) :
    ∃ news stats, new.content = .keyed (items.map (·.1)) news stats ∧
      KeyedPass stage.scene.tree scene.tree oldKeys olds items news stats := by
  obtain ⟨kept, slack, container, front, rest, plot, rfl, sound, placed⟩ := reached.placed regular member usable inside
  have lawful := Layout.regular_lawful regular stage.guest
  exact placed.commit_keyed lawful sound content oldDistinct allows newDistinct ran

namespace Root.Example

def numbered : (NodePart × Except Error Unit) × Scene Unit :=
  ((fresh.part.stage (.keyed [(.int 1, .text "1"), (.int 2, .text "2")])).commit wordless).runOn opened.scene

def numbering : Stage Unit := { opened with scene := numbered.2, parts := [] ++ numbered.1.1 :: [] }

def renumbered : (NodePart × Except Error Unit) × Scene Unit :=
  ((numbered.1.1.stage (.keyed [(.int 3, .text "3"), (.int 1, .text "one")])).commit wordless).runOn numbering.scene

theorem numbered_eq : numbered.1.1 = ⟨1, 2, none, .keyed [.int 1, .int 2]
    [⟨3, 4, none, .text "1"⟩, ⟨6, 7, none, .text "2"⟩] ⟨2, 0, 0, 0⟩⟩ := by
  unfold numbered opened mounted
  cbv

theorem renumbered_ok : renumbered.1.2 = .ok () := by
  unfold renumbered numbering numbered opened mounted
  cbv

theorem numbering_reached : Reached wordless numbering := by
  have allowed : opened.Allows (.keyed [(.int 1, .text "1"), (.int 2, .text "2")]) := by
    intro id leaf
    simp [Value.leaves, Value.leavesOfItems] at leaf
  unfold numbering numbered
  exact (opened_reached wordless).rendered [] [] rfl allowed

end Root.Example

open Root.Example in
/-- One of two numbers stays, another one is put before it. -/
theorem Reached.keyed_pass_renumbered : wordless.Regular ∧ Reached wordless numbering ∧
    numbered.1.1 ∈ numbering.parts ∧ numbered.1.1.isPoisoned = false ∧
    ([.int 1, .int 2] : List Key).Nodup ∧ numbering.Allows (.keyed [(.int 3, .text "3"), (.int 1, .text "one")]) ∧
    ([.int 3, .int 1] : List Key).Nodup ∧ renumbered.1.2 = .ok () ∧
    ∃ news stats, renumbered.1.1.content = .keyed [.int 3, .int 1] news stats ∧
      KeyedPass numbering.scene.tree renumbered.2.tree [.int 1, .int 2]
        [⟨3, 4, none, .text "1"⟩, ⟨6, 7, none, .text "2"⟩] [(.int 3, .text "3"), (.int 1, .text "one")] news stats := by
  have member : numbered.1.1 ∈ numbering.parts := by
    unfold numbering
    exact List.mem_singleton.2 rfl
  have usable : numbered.1.1.isPoisoned = false := by
    rw [numbered_eq]
    rfl
  have content : numbered.1.1.content = .keyed [.int 1, .int 2]
      [⟨3, 4, none, .text "1"⟩, ⟨6, 7, none, .text "2"⟩] ⟨2, 0, 0, 0⟩ := congrArg NodePart.content numbered_eq
  have allowed : numbering.Allows (.keyed [(.int 3, .text "3"), (.int 1, .text "one")]) := by
    intro id leaf
    simp [Value.leaves, Value.leavesOfItems] at leaf
  have ran : renumbered = ((renumbered.1.1, .ok ()), renumbered.2) := Prod.ext (Prod.ext rfl renumbered_ok) rfl
  exact ⟨wordless_regular, numbering_reached, member, usable, by decide, allowed, by decide, renumbered_ok,
    Reached.keyed_pass wordless_regular numbering_reached member usable .refl content (by decide) allowed (by decide) ran⟩

end DomParts
