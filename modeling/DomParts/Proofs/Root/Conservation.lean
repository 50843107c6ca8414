import DomParts.Proofs.Keyed.Conservation
import DomParts.Proofs.Root.Identity

/-! # Parts of a list

Wherever a list by key is shown, rendering another list by key loses no part and gives none away twice, even if
keys repeat.
-/

namespace DomParts

variable {σ : Type} {client : Client σ} {stage : Stage σ}

/-- What becomes of the parts of a list by key in every part that has its place when it is committed, also inside of
    something that is being rendered. -/
theorem Layout.Realm.Placed.commit_conserves {realm : Realm σ} {world : World σ} {container : NodeId}
    {front rest : List NodeId} {plot : Plot} {slack : Slack} (lawful : realm.Lawful) (sound : realm.Sound world)
    (placed : realm.Placed world slack container front rest plot) {oldKeys : List Key} {olds : List NodePart}
    {oldStats : Stats} (content : plot.part.content = .keyed oldKeys olds oldStats) {items : List (Key × Value)}
    (admits : realm.Admits world.tree (Value.keyed items).leaves) {new : NodePart} {scene : Scene σ}
    (ran : ((plot.part.stage (.keyed items)).commit realm.client).runOn world.scene = ((new, .ok ()), scene)) :
    ∃ news stats, new.content = .keyed (items.map (·.1)) news stats ∧
      PartsConserved world.tree scene.tree oldKeys (items.map (·.1)) olds news stats ∧
      (oldKeys.Nodup → ∀ (place : Nat) key old, oldKeys[place]? = some key → olds[place]? = some old →
        key ∈ items.map (·.1) → ¬ old.Detached scene.tree) := by
  have leads := (placed.staging none).conserves lawful sound content admits
  have staged : (plot.part.stage (.keyed items)).pending = some (.keyed items) := rfl
  exact NodePart.commit_ok staged leads ran

theorem Reached.conserves (regular : client.Regular) (reached : Reached client stage) {root part : NodePart}
    (member : root ∈ stage.parts) (usable : root.isPoisoned = false)
    (inside : Relation.ReflTransGen NodePart.Holds root part) {oldKeys : List Key} {olds : List NodePart} {oldStats : Stats}
    (content : part.content = .keyed oldKeys olds oldStats) {items : List (Key × Value)}
    (allows : stage.Allows (.keyed items)) {new : NodePart} {scene : Scene σ}
    (ran : ((part.stage (.keyed items)).commit client).runOn stage.scene = ((new, .ok ()), scene)) :
    ∃ news stats, new.content = .keyed (items.map (·.1)) news stats ∧
      PartsConserved stage.scene.tree scene.tree oldKeys (items.map (·.1)) olds news stats ∧
      (oldKeys.Nodup → ∀ (place : Nat) key old, oldKeys[place]? = some key → olds[place]? = some old →
        key ∈ items.map (·.1) → ¬ old.Detached scene.tree) := by
  obtain ⟨kept, slack, container, front, rest, plot, rfl, sound, placed⟩ := reached.placed regular member usable inside
  exact placed.commit_conserves (Layout.regular_lawful regular stage.guest) sound content allows ran

/-- A pass that goes well has one part for each item, and every part that was shown before goes to one item with
    its key or goes away, whether keys repeat or not. -/
theorem Reached.parts_conserved (regular : client.Regular) (reached : Reached client stage) {root part : NodePart}
    (member : root ∈ stage.parts) (usable : root.isPoisoned = false)
    (inside : Relation.ReflTransGen NodePart.Holds root part) {oldKeys : List Key} {olds : List NodePart} {oldStats : Stats}
    (content : part.content = .keyed oldKeys olds oldStats) {items : List (Key × Value)}
    (allows : stage.Allows (.keyed items)) {new : NodePart} {scene : Scene σ}
    (ran : ((part.stage (.keyed items)).commit client).runOn stage.scene = ((new, .ok ()), scene)) :
    ∃ news stats, new.content = .keyed (items.map (·.1)) news stats ∧
      PartsConserved stage.scene.tree scene.tree oldKeys (items.map (·.1)) olds news stats := by
  obtain ⟨news, stats, shown, conserved, -⟩ := reached.conserves regular member usable inside content allows ran
  exact ⟨news, stats, shown, conserved⟩

namespace Root.Example

/-- What comes of a list that has a number twice. -/
def doubled : (NodePart × Except Error Unit) × Scene Unit :=
  ((fresh.part.stage (.keyed [(.int 1, .text "1"), (.int 2, .text "2"), (.int 1, .text "3")])).commit wordless).runOn
    opened.scene

def doubling : Stage Unit := { opened with scene := doubled.2, parts := [] ++ doubled.1.1 :: [] }

/-- What comes of a list that has the number twice again, but elsewhere. -/
def redoubled : (NodePart × Except Error Unit) × Scene Unit :=
  ((doubled.1.1.stage (.keyed [(.int 3, .text "a"), (.int 1, .text "b"), (.int 1, .text "c")])).commit wordless).runOn
    doubling.scene

theorem doubled_eq : doubled.1.1 = ⟨1, 2, none, .keyed [.int 1, .int 2, .int 1]
    [⟨3, 4, none, .text "1"⟩, ⟨6, 7, none, .text "2"⟩, ⟨9, 10, none, .text "3"⟩] ⟨3, 0, 0, 0⟩⟩ := by
  unfold doubled opened mounted
  cbv

theorem redoubled_ok : redoubled.1.2 = .ok () := by
  unfold redoubled doubling doubled opened mounted
  cbv

theorem doubling_reached : Reached wordless doubling := by
  have allowed : opened.Allows (.keyed [(.int 1, .text "1"), (.int 2, .text "2"), (.int 1, .text "3")]) := by
    intro id leaf
    simp [Value.leaves, Value.leavesOfItems] at leaf
  unfold doubling doubled
  exact (opened_reached wordless).rendered [] [] rfl allowed

end Root.Example

open Root.Example in
/-- A number that is there twice is there twice again, and another one is replaced. -/
theorem Reached.parts_conserved_redoubled : wordless.Regular ∧ Reached wordless doubling ∧
    doubled.1.1 ∈ doubling.parts ∧ doubled.1.1.isPoisoned = false ∧
    doubling.Allows (.keyed [(.int 3, .text "a"), (.int 1, .text "b"), (.int 1, .text "c")]) ∧ redoubled.1.2 = .ok () ∧
    ∃ news stats, redoubled.1.1.content = .keyed [.int 3, .int 1, .int 1] news stats ∧
      PartsConserved doubling.scene.tree redoubled.2.tree [.int 1, .int 2, .int 1] [.int 3, .int 1, .int 1]
        [⟨3, 4, none, .text "1"⟩, ⟨6, 7, none, .text "2"⟩, ⟨9, 10, none, .text "3"⟩] news stats := by
  have member : doubled.1.1 ∈ doubling.parts := by
    unfold doubling
    exact List.mem_singleton.2 rfl
  have usable : doubled.1.1.isPoisoned = false := by
    rw [doubled_eq]
    rfl
  have content : doubled.1.1.content = .keyed [.int 1, .int 2, .int 1]
      [⟨3, 4, none, .text "1"⟩, ⟨6, 7, none, .text "2"⟩, ⟨9, 10, none, .text "3"⟩] ⟨3, 0, 0, 0⟩ :=
    congrArg NodePart.content doubled_eq
  have allowed : doubling.Allows (.keyed [(.int 3, .text "a"), (.int 1, .text "b"), (.int 1, .text "c")]) := by
    intro id leaf
    simp [Value.leaves, Value.leavesOfItems] at leaf
  have ran : redoubled = ((redoubled.1.1, .ok ()), redoubled.2) := Prod.ext (Prod.ext rfl redoubled_ok) rfl
  exact ⟨wordless_regular, doubling_reached, member, usable, allowed, redoubled_ok,
    Reached.parts_conserved wordless_regular doubling_reached member usable .refl content allowed ran⟩

/-- If the keys shown are distinct, the part of a key that is wanted goes to one of its items, and all other items with
    that key get new parts. -/
theorem Reached.one_occurrence (regular : client.Regular) (reached : Reached client stage) {root part : NodePart}
    (member : root ∈ stage.parts) (usable : root.isPoisoned = false)
    (inside : Relation.ReflTransGen NodePart.Holds root part) {oldKeys : List Key} {olds : List NodePart} {oldStats : Stats}
    (content : part.content = .keyed oldKeys olds oldStats) (distinct : oldKeys.Nodup) {items : List (Key × Value)}
    (allows : stage.Allows (.keyed items)) {new : NodePart} {scene : Scene σ}
    (ran : ((part.stage (.keyed items)).commit client).runOn stage.scene = ((new, .ok ()), scene)) :
    ∃ news stats, new.content = .keyed (items.map (·.1)) news stats ∧
      ∀ (place : Nat) key old, oldKeys[place]? = some key → olds[place]? = some old → key ∈ items.map (·.1) →
        ∃ (index : Nat) (new : NodePart), (items.map (·.1))[index]? = some key ∧ news[index]? = some new ∧
          new.Succeeds old ∧ ∀ (other : Nat) part, other ≠ index → (items.map (·.1))[other]? = some key →
            news[other]? = some part → stage.scene.tree.size ≤ part.start ∧ stage.scene.tree.size ≤ part.stop := by
  obtain ⟨news, stats, shown, conserved, wanted⟩ := reached.conserves regular member usable inside content allows ran
  refine ⟨news, stats, shown, ?_⟩
  intro place key old known was among
  exact conserved.one_occurrence distinct known was (wanted distinct place key old known was among)

/-- The item that gets the part need not be the first one with its key: if the last keys agree, it is the last one. -/
example : Keyed.plan [.int 2, .int 1] [.int 1, .int 1] =
    [.keep .tailMatch 1 1, .index 1 1 0, .remove .dropHead 0, .create .insert 0 (.beforeNew 1)] := by
  cbv

end DomParts
