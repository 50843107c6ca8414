import DomParts.Proofs.Layout.Standing
import DomParts.Proofs.Layout.Starts

/-! # Surveying anew

No two parts that stand in a tree begin with the same marker, whatever they are inside. So what is known of nodes
can be restated part by part while the parts stand.
-/

namespace DomParts.Layout

open Relation (ReflTransGen TransGen)

variable {σ : Type} {realm : Realm σ} {world : World σ} {made : NodeId → Prop} {lots : List Lot} {part other : NodePart}

/-- Whether a part is inside one of several parts. -/
def Within (lots : List Lot) (part : NodePart) : Prop :=
  ∃ lot ∈ lots, TransGen NodePart.Holds lot.plot.part part

theorem usable_of_holds (holds : part.Holds other) : part.isPoisoned = false := by
  rw [NodePart.Holds] at holds
  rw [NodePart.isPoisoned]
  cases shown : part.content with
  | poisoned =>
      rw [shown] at holds
      cases holds
  | _ => rfl

namespace Realm.Standing

variable (standing : realm.Standing made world lots)
include standing

theorem lot_shows {lot : Lot} (member : lot ∈ lots) (holds : lot.plot.part.Holds other) :
    lot.plot.owned.Nodup ∧ realm.Shows world lot.slack lot.plot.part.content lot.plot.inner lot.plot.owned := by
  obtain ⟨front, rest, site⟩ := standing.sites lot member
  exact ⟨site.owned_nodup, (standing.shown lot member).resolve_left (by simp [usable_of_holds holds])⟩

theorem start_owned {lot : Lot} (member : lot ∈ lots) (way : TransGen NodePart.Holds lot.plot.part part) :
    part.start ∈ lot.plot.owned := by
  obtain ⟨child, holds, way⟩ := TransGen.head'_iff.1 way
  obtain ⟨distinct, shows⟩ := standing.lot_shows member holds
  exact shows.start_owned distinct holds way

theorem same_lot {one two : Lot} (first : one ∈ lots) (second : two ∈ lots) {id : NodeId}
    (here : id ∈ one.plot.claimed) (there : id ∈ two.plot.claimed) : one = two := by
  by_contra different
  have symm : Std.Symm fun one two : Lot => ∀ id ∈ one.plot.claimed, id ∉ two.plot.claimed :=
    ⟨fun _ _ apart id here there => apart id there here⟩
  exact standing.apart.forall first second different id here there

theorem start_inner (within : Within lots part) {lot : Lot} (member : lot ∈ lots) :
    part.start ≠ lot.plot.part.start := by
  intro same
  obtain ⟨outer, listed, way⟩ := within
  have owned := standing.start_owned listed way
  have claimed : part.start ∈ outer.plot.claimed := List.mem_cons_of_mem _ (List.mem_cons_of_mem _ owned)
  obtain rfl := standing.same_lot listed member claimed (same ▸ List.mem_cons_self ..)
  obtain ⟨front, rest, site⟩ := standing.sites outer listed
  exact site.start_new.2 (same ▸ owned)

theorem start_unique (within : Within lots part) (beside : Within lots other) (same : part.start = other.start) :
    part = other := by
  obtain ⟨one, first, way⟩ := within
  obtain ⟨two, second, byway⟩ := beside
  have claimed : ∀ {lot : Lot} {part : NodePart}, lot ∈ lots → TransGen NodePart.Holds lot.plot.part part →
      part.start ∈ lot.plot.claimed := fun member way =>
    List.mem_cons_of_mem _ (List.mem_cons_of_mem _ (standing.start_owned member way))
  obtain rfl := standing.same_lot first second (claimed first way) (same ▸ claimed second byway)
  obtain ⟨child, holds, way⟩ := TransGen.head'_iff.1 way
  obtain ⟨inner, within, byway⟩ := TransGen.head'_iff.1 byway
  obtain ⟨distinct, shows⟩ := standing.lot_shows first holds
  exact shows.start_unique distinct holds way within byway same

theorem known_within (within : Within lots part) : realm.survey.Knows part := by
  obtain ⟨lot, member, way⟩ := within
  obtain ⟨child, holds, way⟩ := TransGen.head'_iff.1 way
  obtain ⟨distinct, shows⟩ := standing.lot_shows member holds
  exact shows.known distinct holds way

/-- What is known of nodes may be replaced by what is known of them part by part. -/
theorem resurvey {survey : Survey} (base : survey.base ≤ world.tree.size)
    (stakes : ∀ lot ∈ lots, ∀ id ∈ lot.plot.owned,
      survey.base ≤ id ∨ realm.guest id ∨ survey.fits lot.plot.part.start id)
    (known : ∀ lot ∈ lots, survey.Knows lot.plot.part)
    (charts : ∀ (slack : Slack) (plot : Plot), Within lots plot.part →
      Charted realm.survey realm.guest world.kept world.tree plot →
      realm.Shows world slack plot.part.content plot.inner plot.owned →
      Charted survey realm.guest world.kept world.tree plot) :
    Realm.Standing { realm with survey } made world lots := by
  have sound := standing.sound
  refine ⟨?_, standing.made_exists, standing.above, standing.free, standing.housed, ?_, standing.foreign,
    standing.apart, ?_, known⟩
  · exact ⟨sound.wellFormed, base, sound.holds, sound.guest_exists, sound.guest_below, sound.stock_exists,
      sound.stock_below, sound.stock_own, sound.answered_exists, sound.kept_exists, sound.answered⟩
  · intro lot member
    obtain ⟨front, rest, site⟩ := standing.sites lot member
    exact ⟨front, rest, site.listed, ⟨site.marked.toMarked, stakes lot member⟩, site.container_own,
      site.container_free, site.distinct, site.inside, site.present, site.unstocked, site.apart⟩
  · intro lot member
    refine (standing.shown lot member).imp_right fun shows => ?_
    exact shows.resurvey fun plot child inside way => charts lot.slack plot ⟨lot, member, .head' inside way⟩

end Realm.Standing

end DomParts.Layout
