import DomParts.Proofs.Root.History

/-! # Poison and recovery

A commit poisons its part if and only if it fails. A poisoned part refuses every value and leaves
everything as it is. Clearing always makes it usable again, wherever the failed commit stopped, since the
markers and the order of the nodes between them outlive every failure.
-/

namespace DomParts

variable {σ : Type} {client : Client σ} {stage : Stage σ} {part : NodePart}

namespace NodePart

/-- Renders values one after the other, whatever comes of each, and collects the answers. -/
def renderEach (client : Client σ) : List Value → NodePart → Scene σ →
    (NodePart × List (Except Error Unit)) × Scene σ
  | [], part, scene => ((part, []), scene)
  | value :: values, part, scene =>
      match ((part.stage value).commit client).runOn scene with
      | ((part, answer), scene) =>
          match renderEach client values part scene with
          | ((part, answers), scene) => ((part, answer :: answers), scene)

theorem renderEach_of_poisoned (poisoned : part.isPoisoned = true) {values : List Value} (some : values ≠ [])
    (scene : Scene σ) : renderEach client values part scene =
      (({ part with pending := none }, List.replicate values.length (.error .poisoned)), scene) := by
  induction values generalizing part with
  | nil => exact absurd rfl some
  | cons value values ih =>
      have refused : (part.stage value).commit client = .refused { part with pending := none } .poisoned :=
        commit_of_poisoned rfl poisoned
      have ran : (Attempt.refused (σ := σ) ({ part with pending := none } : NodePart) .poisoned).runOn scene =
          (({ part with pending := none }, .error .poisoned), scene) := rfl
      simp only [renderEach, refused, ran]
      cases values with
      | nil => rfl
      | cons next values =>
          have still : ({ part with pending := none } : NodePart).isPoisoned = true := poisoned
          rw [ih still (List.cons_ne_nil _ _)]
          rfl

end NodePart

/-- How poison comes to a part, what it does there, and how it goes. -/
structure PoisonProtocol (client : Client σ) (stage : Stage σ) (part : NodePart) : Prop where
  /-- A commit poisons a usable part if and only if it fails. -/
  poisons : part.isPoisoned = false → ∀ value, stage.Allows value →
    ((∃ error, (((part.stage value).commit client).runOn stage.scene).1.2 = .error error) ↔
      (((part.stage value).commit client).runOn stage.scene).1.1.isPoisoned = true)
  /-- A poisoned part refuses values one by one and leaves the scene as it is. -/
  refuses : part.isPoisoned = true → ∀ values, values ≠ [] → part.renderEach client values stage.scene =
    (({ part with pending := none }, List.replicate values.length (.error .poisoned)), stage.scene)
  /-- Clearing a poisoned part goes through and leaves an empty part between the same markers. -/
  recovers : part.isPoisoned = true → ∃ scene container front between rest,
    part.clear.runOn stage.scene = (({ part with content := .empty }, .ok ()), scene) ∧
    stage.scene.tree.childrenOf container = front ++ part.start :: (between ++ part.stop :: rest) ∧
    scene.tree.childrenOf container = front ++ part.start :: part.stop :: rest ∧
    scene.tree.kindOf part.start = some .marker ∧ scene.tree.kindOf part.stop = some .marker
  /-- A root does what its part does. -/
  root : ∀ value, (Root.mk part).render client value = ((part.stage value).commit client).map .mk ∧
    ((Root.mk part).clear : Attempt σ Root) = part.clear.map .mk

open Layout Realm in
theorem Reached.poison_protocol (regular : client.Regular) (reached : Reached client stage) :
    ∀ part ∈ stage.parts, PoisonProtocol client stage part := by
  intro part member
  obtain ⟨kept, lots, stands⟩ := reached.stands regular
  obtain ⟨lot, listed, rfl⟩ := stands.lot member
  obtain ⟨front, rest, site⟩ := stands.standing.sites lot listed
  have lawful := regular_lawful regular stage.guest
  have sound := stands.standing.sound
  refine ⟨fun usable value allows => ?_, fun poisoned values some => ?_, fun poisoned => ?_,
    fun value => ⟨rfl, rfl⟩⟩
  · have shows := (stands.standing.shown lot listed).resolve_left (by simp [usable])
    have placed : (regularRealm client stage.guest).Placed ⟨stage.scene, kept⟩ lot.slack lot.container front rest
        lot.plot := ⟨site, shows⟩
    have staged := placed.staging (some value)
    obtain ⟨result, scene, held, taken, new, ran, committed⟩ := staged.commit lawful sound rfl allows
    have ran : ((lot.plot.part.stage value).commit client).runOn stage.scene = ((new.part, result), scene) := ran
    rw [ran]
    cases result with
    | ok =>
        have usable := (committed.shows rfl).usable
        simp [NodePart.isPoisoned, usable]
    | error error => simp [NodePart.isPoisoned, committed.poisoned error rfl, Content.isPoisoned]
  · exact NodePart.renderEach_of_poisoned poisoned some stage.scene
  · obtain ⟨scene, ran, outcome⟩ := site.clear lawful sound
    have marked := outcome.site.marked
    have after := outcome.site.listed
    have before := site.listed
    exact ⟨scene, lot.container, front, lot.plot.inner, rest, ran, by simpa [Plot.nodes] using before,
      by simpa [Plot.nodes] using after, marked.start, marked.stop⟩

namespace Root.Example

def halfway : (NodePart × Except Error Unit) × Scene Unit :=
  ((fresh.part.stage (.list [.text "a", .template .html ⟨0, []⟩ []])).commit wordless).runOn opened.scene

def stuck : Stage Unit := { opened with scene := halfway.2, parts := [] ++ halfway.1.1 :: [] }

theorem stuck_reached : Reached wordless stuck := by
  have allowed : opened.Allows (.list [.text "a", .template .html ⟨0, []⟩ []]) := by
    intro id leaf
    simp [Value.leaves, Value.leavesOfAll] at leaf
  unfold stuck halfway
  exact (opened_reached wordless).rendered [] [] rfl allowed

end Root.Example

open Root.Example in
/-- A list that failed halfway leaves a poisoned root, which refuses values until it is cleared. -/
theorem Reached.poison_protocol_halfway : wordless.Regular ∧ Reached wordless stuck ∧ halfway.1.1 ∈ stuck.parts ∧
    halfway.1.1.isPoisoned = true ∧ PoisonProtocol wordless stuck halfway.1.1 := by
  have member : halfway.1.1 ∈ stuck.parts := by
    unfold stuck
    exact List.mem_singleton.2 rfl
  exact ⟨wordless_regular, stuck_reached, member, by decide +kernel,
    Reached.poison_protocol wordless_regular stuck_reached halfway.1.1 member⟩

end DomParts
