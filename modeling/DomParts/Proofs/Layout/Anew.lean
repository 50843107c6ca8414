import DomParts.Proofs.Layout.Attempts
import DomParts.Proofs.Picture.Reading
import DomParts.Proofs.Render.Clearing
import DomParts.Proofs.Render.Plain

/-! # Taking up the work again

As long as no value shows a node of the host, and nobody guards removals, nothing is ever missing from an
instance: whatever came of giving its parts values, the parts that are left may be given others.
-/

namespace DomParts.Layout

variable {σ : Type}

def Slack.whole : Slack := ⟨fun _ => True, fun _ => False⟩

theorem Slack.whole_allows {more : Slack} (wanted : ∀ id, more.wanted id) : Slack.whole.Allows [] more :=
  ⟨fun id _ => wanted id, fun _ _ lost => (lost.resolve_right List.not_mem_nil).elim⟩

/-- Without guests and strays, no node of a content is in the hands of the removal hook. -/
theorem Shows.free {premises : Premises} {tree : Tree} {content : Content} {inner owned : List NodeId}
    (shows : Shows premises tree content inner owned) (bare : premises.bare) (lonely : ∀ id, ¬ premises.guest id) :
    ∀ id ∈ owned, ¬ premises.kept id := by
  induction shows with
  | empty => nofun
  | text kind own free => simpa using free
  | guest guest => exact absurd guest (lonely _)
  | absent => nofun
  | @row blocks content arranged marked shown strays complete ih =>
      intro id member
      obtain ⟨block, listed, claimed⟩ := List.mem_flatMap.1 member
      cases block with
      | stray other => exact absurd listed (complete bare other)
      | plot plot =>
          simp only [Block.claimed, Plot.claimed, List.mem_cons] at claimed
          rcases claimed with rfl | rfl | owned
          · exact (marked plot listed).start_free
          · exact (marked plot listed).stop_free
          · exact ih plot listed id owned
  | @template shown original forest reach fittings shape planted parts fit distinct own kinds children marked
      nested ih =>
      intro id member
      rcases List.mem_append.1 member with node | claimed
      · exact (own id node).2
      · obtain ⟨fitting, listed, claimed⟩ := List.mem_flatMap.1 claimed
        cases fitting with
        | label part => cases claimed
        | node plot =>
            rcases List.mem_cons.1 claimed with rfl | owned
            · exact (marked plot listed).stop_free
            · exact ih plot listed id owned

namespace Realm

variable {realm : Realm σ} {world : World σ} {scene : Scene σ} {kept : NodeId → Prop}

theorem Sound.release (sound : realm.Sound ⟨scene, kept⟩) : realm.Sound ⟨scene, fun _ => False⟩ :=
  { sound with kept_exists := fun _ => False.elim, answered := fun _ => False.elim }

theorem Bench.release {lines : List Line} {fittings : List Fitting} (bench : realm.Bench ⟨scene, kept⟩ lines fittings) :
    realm.Bench ⟨scene, fun _ => False⟩ lines fittings :=
  bench.altered (fun _ => rfl) (fun _ => rfl) rfl (fun _ => False.elim) (fun _ => id) fun _ => id

theorem Shows.release {content : Content} {inner owned : List NodeId} {slack : Slack}
    (shows : realm.Shows ⟨scene, kept⟩ slack content inner owned) (bare : realm.bare) (lonely : ∀ id, ¬ realm.guest id)
    {more : Slack} (allows : slack.Allows [] more) : realm.Shows ⟨scene, fun _ => False⟩ more content inner owned := by
  have carries : Carries (realm.premises ⟨scene, kept⟩ slack) (realm.premises ⟨scene, fun _ => False⟩ more) scene.tree
      scene.tree [] owned := {
    guest := fun _ => id
    own := fun _ _ => id
    allows := allows
    shape := fun _ _ => id
    bare := id
    leafy := id
    survey := rfl
    guests := by simp
    held := fun id member => ⟨False.elim, shows.free bare lonely id member⟩
    alike := fun _ _ => ⟨rfl, by simp⟩ }
  simpa using shows.carry carries

end Realm

namespace Job

variable {job : Job σ} {scene after : Scene σ} {kept : NodeId → Prop} {ahead behind fittings : List Fitting}
  {before values : List (Rendering σ)}

/-- The same work from now on with other values, if nothing is missing. -/
def anew (job : Job σ) (scene : Scene σ) (values : List (Rendering σ)) : Job σ :=
  { job with start := ⟨scene, fun _ => False⟩, scope := fun _ => True, slack := .whole, values }

/-- The parts may be given whatever values. -/
def Rests (job : Job σ) (scene : Scene σ) (fittings : List Fitting) : Prop :=
  ∀ values, (job.anew scene values).Mending ⟨scene, fun _ => False⟩ [] fittings []

/-- Work after which the parts may be given other values, wherever it ends. -/
structure Plain (job : Job σ) : Prop where
  bare : job.realm.bare
  lonely : ∀ id, ¬ job.realm.guest id
  whole : ∀ id, ¬ job.slack.lost id
  leaves : ∀ item ∈ job.values, item.value.leaves = []

namespace Plain

variable (plain : job.Plain)
include plain

theorem leaves_eq (among : ∀ item ∈ before, item ∈ job.values) : leavesIn before = [] :=
  List.flatMap_eq_nil_iff.2 fun item member => plain.leaves item (among item member)

theorem untaken {now : World σ} {touched : NodeId → Prop} {taken : List NodeId}
    (headway : job.Headway now touched taken fittings) : taken = [] := by
  apply List.eq_nil_iff_forall_not_mem.2
  intro id gone
  exact plain.lonely id (headway.change.guests id gone)

end Plain

theorem Mending.rests (plain : job.Plain) (mending : job.Mending ⟨scene, kept⟩ ahead behind before)
    (among : ∀ item ∈ before, item ∈ job.values) : job.Rests scene (ahead ++ behind) := by
  intro values
  obtain ⟨touched, taken, headway, -⟩ := mending.headway
  obtain rfl := plain.untaken headway
  have bench : job.realm.Bench ⟨scene, fun _ => False⟩ (job.lines.map (Line.without [])) (ahead ++ behind) :=
    headway.bench.release
  have sound := headway.change.sound.release
  have filled : (job.filled before).Allows [] .whole := by
    refine ⟨fun _ _ => trivial, fun id _ lost => ?_⟩
    simp [Job.filled, plain.whole, plain.leaves_eq fun _ member => member] at lost
  have waiting : (job.waiting before).Allows [] .whole := by
    refine ⟨fun _ _ => trivial, fun id _ lost => ?_⟩
    simp [Job.waiting, plain.whole, plain.leaves_eq among] at lost
  have shown : ∀ plot, .node plot ∈ ahead ++ behind →
      job.realm.Shows ⟨scene, fun _ => False⟩ .whole plot.part.content plot.inner plot.owned := by
    intro plot member
    rcases List.mem_append.1 member with here | here
    · exact (mending.filled plot here).release plain.bare plain.lonely filled
    · exact (mending.waiting plot here).release plain.bare plain.lonely waiting
  refine ⟨⟨sound, mending.ready.homely, fun _ _ _ => trivial, mending.ready.spotted⟩,
    ⟨fun _ => False, [], ⟨.refl sound, fun _ _ => False.elim, fun _ _ => .inl trivial, by simp, bench, headway.kind,
      headway.parent, headway.kinds, headway.labels⟩, ?_⟩, mending.fit, by simp, fun plot member => ?_⟩
  · exact fun plot member id owned => ⟨bench.present id (Realm.Bench.claimed_of_owned member owned), not_false, by simp⟩
  · exact (shown plot member).weaken (Slack.whole_allows fun _ => trivial)

theorem Rests.shows (rests : job.Rests scene fittings) {plot : Plot} (member : .node plot ∈ fittings) :
    job.realm.Shows ⟨scene, fun _ => False⟩ .whole plot.part.content plot.inner plot.owned :=
  ((rests []).waiting plot member).weaken ⟨fun _ => id, fun _ _ lost => by
    simp [Job.waiting, anew, leavesIn, Slack.whole, Realm.premises] at lost⟩

/-- What stands between the markers of a part is what clearing the part would remove. -/
theorem Rests.clears_eq (rests : job.Rests scene fittings) {plot : Plot} (member : .node plot ∈ fittings) :
    plot.part.clears scene.tree = plot.inner := by
  have mending := rests []
  obtain ⟨touched, taken, headway, -⟩ := mending.headway
  obtain ⟨line, -, front, rest, children⟩ := headway.bench.encloses member
  exact NodePart.clears_between mending.ready.sound.wellFormed children

/-- The slots for attributes are at elements, and no two of them are for the same attribute. -/
structure Labelled (job : Job σ) : Prop where
  elements : ∀ index name, .attribute index name ∈ job.slots →
    ∃ spot ∈ job.spots, job.reach[index]? = some spot.id ∧ ∃ tag attributes, spot.kind = .element tag attributes
  ranged : ∃ first count, job.reach = List.range' first count
  distinct : (job.slots.filterMap Slot.attribute?).Nodup

namespace Labelled

variable (labelled : job.Labelled) (fit : List.Forall₂ (Fits job.reach) job.slots fittings)
include labelled fit

theorem element {part : AttributePart} (member : .label part ∈ fittings) :
    ∃ spot ∈ job.spots, spot.id = part.element ∧ ∃ tag attributes, spot.kind = .element tag attributes := by
  obtain ⟨slot, listed, fits⟩ := exists_left_of_forall₂ fit member
  cases slot with
  | node index => exact fits.elim
  | «attribute» index name =>
      obtain ⟨spot, planned, found, element⟩ := labelled.elements index name listed
      exact ⟨spot, planned, Option.some.inj (found.symm.trans fits.1), element⟩

theorem separate : Separate fittings := by
  obtain ⟨first, count, ranged⟩ := labelled.ranged
  exact separate_of_fit (ranged ▸ fit) labelled.distinct

end Labelled

theorem Rests.attribute?_eq (rests : job.Rests scene fittings) (labelled : job.Labelled) {part : AttributePart}
    (member : .label part ∈ fittings) : scene.tree.attribute? part.element part.name = part.committed := by
  have mending := rests []
  have fit : List.Forall₂ (Fits job.reach) job.slots fittings := mending.fit
  obtain ⟨touched, taken, headway, -⟩ := mending.headway
  obtain ⟨spot, listed, same, tag, attributes, element⟩ := labelled.element fit member
  obtain ⟨kind, found, accords⟩ := headway.kinds spot listed
  rw [element, same] at accords
  obtain ⟨actual, rfl, look⟩ := accords
  obtain ⟨ahead, behind, rfl⟩ := List.append_of_mem member
  have own := look (labelled.separate fit) part.name
  have committed := boundText?_own (labelled.separate fit)
  rw [List.nil_append, committed, Option.getD_some] at own
  have found : scene.tree.kindOf part.element = some (.element tag actual) := same ▸ found
  simpa [Tree.attribute?, found, Kind.attribute?] using own

end Job

end DomParts.Layout
