import DomParts.Proofs.Layout.Standing

/-! # Nodes that the caller makes

Parts stand as they did when the caller makes nodes, whichever of these are to be shown.
-/

namespace DomParts.Layout

variable {σ : Type} {realm : Realm σ} {world : World σ} {tree : Tree} {made guest : NodeId → Prop}
  {container : NodeId} {front rest : List NodeId} {plot : Plot} {slack : Slack} {content : Content}
  {inner owned : List NodeId} {lots : List Lot}

namespace Realm

/-- The caller makes nodes, some of which are to be shown. -/
structure Grown (realm : Realm σ) (world : World σ) (tree : Tree) (guest : NodeId → Prop) : Prop where
  wellFormed : tree.WellFormed
  extended : world.tree.Extends tree
  present : ∀ id, guest id → tree.size > id
  below : ∀ id child, guest id → child ∈ tree.childrenOf id → guest child
  old : ∀ id, world.tree.size > id → (guest id ↔ realm.guest id)

namespace Grown

variable (grown : realm.Grown world tree guest)
include grown

theorem foreign {id : NodeId} (inside : world.tree.size > id) (own : ¬ realm.guest id) : ¬ guest id := fun guest =>
  own ((grown.old id inside).1 guest)

theorem welcome (sound : realm.Sound world) {id : NodeId} (own : realm.guest id) : guest id :=
  (grown.old id (sound.guest_exists id own)).2 own

theorem change (lawful : realm.Lawful) (sound : realm.Sound world) :
    realm.Change world ⟨{ world.scene with tree }, world.kept⟩ (fun _ => False) [] :=
  lawful.extended sound grown.wellFormed grown.extended

theorem unstocked (lawful : realm.Lawful) (sound : realm.Sound world) {id : NodeId}
    (stock : realm.stock { world.scene with tree } id) : realm.stock world.scene id :=
  lawful.stock_of_extended sound grown.wellFormed grown.extended stock

theorem sound (lawful : realm.Lawful) (sound : realm.Sound world) :
    ({ realm with guest } : Realm σ).Sound ⟨{ world.scene with tree }, world.kept⟩ :=
  { (grown.change lawful sound).sound with
    guest_exists := grown.present
    guest_below := grown.below
    stock_own := fun id stock => by
      have stock := grown.unstocked lawful sound stock
      exact grown.foreign (sound.stock_exists id stock) (sound.stock_own id stock) }

theorem shows (sound : realm.Sound world) (present : ∀ id ∈ owned, world.tree.size > id)
    (shows : realm.Shows ⟨{ world.scene with tree }, world.kept⟩ slack content inner owned) :
    ({ realm with guest } : Realm σ).Shows ⟨{ world.scene with tree }, world.kept⟩ slack content inner owned := by
  have carries : Carries (realm.premises ⟨{ world.scene with tree }, world.kept⟩ slack)
      (({ realm with guest } : Realm σ).premises ⟨{ world.scene with tree }, world.kept⟩ slack) tree tree [] owned := {
    guest := fun _ => grown.welcome sound
    own := fun id owned guest => (grown.old id (present id owned)).1 guest
    allows := ⟨fun _ => id, fun _ _ lost => lost.resolve_right List.not_mem_nil⟩
    shape := fun _ _ => id
    bare := id
    leafy := id
    survey := rfl
    guests := by simp
    held := fun _ _ => Iff.rfl
    alike := fun _ _ => ⟨rfl, by simp⟩ }
  have carried := shows.carry carries
  simpa using carried

theorem above (standing : realm.Standing made world lots) {id parent : NodeId}
    (known : made id ∨ world.tree.size ≤ id ∧ tree.size > id) (own : ¬ guest id)
    (link : tree.parentOf id = some parent) :
    (made parent ∨ world.tree.size ≤ parent ∧ tree.size > parent) ∧ ¬ guest parent := by
  have sound := standing.sound
  rcases known with known | fresh
  · rw [grown.extended.parentOf_eq (standing.made_exists id known)] at link
    obtain ⟨made, own⟩ := standing.above id parent known (fun guest => own (grown.welcome sound guest)) link
    exact ⟨.inl made, grown.foreign (standing.made_exists parent made) own⟩
  · have child := grown.wellFormed.mem_childrenOf link
    have new : world.tree.size ≤ parent := by
      refine Nat.le_of_not_lt fun inside => ?_
      rw [grown.extended.childrenOf_eq inside] at child
      exact Nat.not_lt.2 fresh.1 (sound.wellFormed.lt_size_of_mem child)
    exact ⟨.inr ⟨new, grown.wellFormed.lt_size_of_parent link⟩, fun guest => own (grown.below parent id guest child)⟩

end Grown

/-- Parts stand as they did when the caller makes nodes and some of them are to be shown. -/
theorem Standing.grown (lawful : realm.Lawful) (standing : realm.Standing made world lots)
    (grown : realm.Grown world tree guest) :
    ({ realm with guest } : Realm σ).Standing (fun id => made id ∨ world.tree.size ≤ id ∧ tree.size > id)
      ⟨{ world.scene with tree }, world.kept⟩ lots := by
  have sound := standing.sound
  have kept := standing.untouched (grown.change lawful sound)
  have exist := standing.claimed_exists
  have housed : ∀ lot ∈ lots, ¬ guest lot.container := fun lot member =>
    grown.foreign (standing.made_exists _ (standing.housed lot member).1) (standing.housed lot member).2
  have made_exists : ∀ id, made id ∨ world.tree.size ≤ id ∧ tree.size > id → tree.size > id := by
    rintro id (known | fresh)
    · exact kept.made_exists id known
    · exact fresh.2
  have claimed_guest : ∀ lot ∈ lots, ∀ id ∈ lot.plot.claimed, made id ∨ world.tree.size ≤ id ∧ tree.size > id →
      guest id := by
    rintro lot member id claimed (known | fresh)
    · exact grown.welcome sound (standing.foreign lot member id claimed known)
    · exact absurd (exist lot member id claimed) (Nat.not_lt.2 fresh.1)
  refine ⟨grown.sound lawful sound, made_exists, fun id parent => grown.above standing, ?_, fun lot member =>
    ⟨.inl (standing.housed lot member).1, housed lot member⟩, ?_, claimed_guest, standing.apart, ?_,
    standing.known⟩
  · rintro id (known | fresh) own
    · obtain ⟨free, unstocked⟩ := standing.free id known fun guest => own (grown.welcome sound guest)
      exact ⟨free, fun stock => unstocked (grown.unstocked lawful sound stock)⟩
    · exact ⟨fun kept => Nat.not_lt.2 fresh.1 (sound.kept_exists id kept), fun stock =>
        Nat.not_lt.2 fresh.1 (sound.stock_exists id (grown.unstocked lawful sound stock))⟩
  · intro lot member
    obtain ⟨front, rest, site⟩ := kept.sites lot member
    have marked : Staked realm.survey guest world.kept tree lot.plot :=
      { site.marked with
        surveyed := fun id owned =>
          (site.marked.surveyed id owned).imp_right (Or.imp_left (grown.welcome sound))
        start_own := grown.foreign (exist lot member _ (by simp [Plot.claimed])) site.marked.start_own
        stop_own := grown.foreign (exist lot member _ (by simp [Plot.claimed])) site.marked.stop_own }
    refine ⟨front, rest, { site with marked, container_own := housed lot member, apart := ?_ }⟩
    refine ⟨fun id => (made id ∨ world.tree.size ≤ id ∧ tree.size > id) ∧ ¬ guest id, ?_,
      ⟨.inl (standing.housed lot member).1, housed lot member⟩, fun id up => ⟨fun owned => ?_, up.2, made_exists id up.1⟩⟩
    · exact fun child parent up link => grown.above standing up.1 up.2 link
    · exact up.2 (claimed_guest lot member id (by simp [Plot.claimed, owned]) up.1)
  · intro lot member
    refine (kept.shown lot member).imp_right fun shows => grown.shows sound (fun id owned => ?_) shows
    exact exist lot member id (by simp [Plot.claimed, owned])

end Realm

end DomParts.Layout
