import DomParts.Proofs.Layout.Values
import DomParts.Proofs.Render.Healthy

/-! # Parts inside parts

A part inside a part that has its layout has a site and its layout, too, down to any depth.
-/

namespace DomParts.Layout

theorem Arranges.inside {blocks : List Block} {content : Content} (arranged : Arranges blocks content) :
    content.inside = (plotsOf blocks).map Plot.part := by
  cases content with
  | list parts => exact arranged.1.symm.trans parts_eq_plotsOf
  | keyed keys parts stats => exact arranged.1.symm.trans parts_eq_plotsOf
  | _ => exact arranged.elim

end DomParts.Layout

namespace DomParts.Layout.Realm

open Relation (ReflTransGen)

variable {σ : Type} {realm : Realm σ} {world : World σ} {container : NodeId} {front rest : List NodeId}
  {plot : Plot} {slack : Slack} {inner : NodePart}

/-- A part with its place and its layout. -/
structure Placed (realm : Realm σ) (world : World σ) (slack : Slack) (container : NodeId)
    (front rest : List NodeId) (plot : Plot) : Prop where
  site : realm.Site world container front rest plot
  shows : realm.Shows world slack plot.part.content plot.inner plot.owned

theorem Placed.staging (placed : realm.Placed world slack container front rest plot) (pending : Option Value) :
    realm.Placed world slack container front rest { plot with part := { plot.part with pending } } :=
  ⟨placed.site.relabel rfl rfl, placed.shows⟩

theorem Row.placed {part : NodePart} {blocks : List Block} {item : Plot}
    (row : realm.Row world container front rest part blocks)
    (shown : ∀ plot, .plot plot ∈ blocks → realm.Shows world slack plot.part.content plot.inner plot.owned)
    (member : .plot item ∈ blocks) : ∃ front rest, realm.Placed world slack container front rest item := by
  obtain ⟨left, right, rfl⟩ := List.append_of_mem member
  exact ⟨_, _, row.siteOf, shown item member⟩

theorem Installed.placed {shared : SharedTemplate} {original : Subtree} {forest : List Subtree} {reach : List NodeId}
    {fittings : List Fitting} {bound : Plot}
    (installed : realm.Installed world container front rest plot slack shared original forest reach fittings)
    (member : .node bound ∈ fittings) : ∃ container front rest, realm.Placed world slack container front rest bound := by
  obtain ⟨ahead, behind, split⟩ := List.append_of_mem member
  have bench := installed.bench []
  have nested := installed.nested bound member
  rw [split] at bench
  obtain ⟨line, among, first, later, here⟩ := bench.place
  exact ⟨_, _, _, bench.siteOf among here installed.sound, nested⟩

namespace Placed

theorem row (placed : realm.Placed world slack container front rest plot)
    (row : (∃ parts, plot.part.content = .list parts) ∨
      ∃ keys parts stats, plot.part.content = .keyed keys parts stats) :
    ∃ blocks, Arranges blocks plot.part.content ∧ plot.inner = nodesOf blocks ∧ plot.owned = claimedOf blocks ∧
      realm.Row world container front rest plot.part blocks ∧
      ∀ plot, .plot plot ∈ blocks → realm.Shows world slack plot.part.content plot.inner plot.owned := by
  obtain ⟨part, inner, owned⟩ := plot
  obtain ⟨blocks, arranged, rfl, rfl, shown, strays, complete⟩ := placed.shows.of_row row
  exact ⟨blocks, arranged, rfl, rfl, ⟨placed.site, fun plot member => (shown plot member).1,
    fun plot member => (shown plot member).2.inner_subset, strays, complete⟩, fun plot member => (shown plot member).2⟩

theorem descend_one (sound : realm.Sound world) (placed : realm.Placed world slack container front rest plot)
    (holds : plot.part.Holds inner) :
    ∃ container front rest new, new.part = inner ∧ realm.Placed world slack container front rest new := by
  have item : ((∃ parts, plot.part.content = .list parts) ∨
      ∃ keys parts stats, plot.part.content = .keyed keys parts stats) →
      ∃ container front rest new, new.part = inner ∧ realm.Placed world slack container front rest new := by
    intro listed
    obtain ⟨blocks, arranged, -, -, row, shown⟩ := placed.row listed
    rw [NodePart.Holds, arranged.inside, List.mem_map] at holds
    obtain ⟨new, among, same⟩ := holds
    obtain ⟨front, rest, placed⟩ := row.placed shown (mem_plotsOf.1 among)
    exact ⟨_, front, rest, new, same, placed⟩
  cases content : plot.part.content with
  | template shown =>
      obtain ⟨original, forest, reach, fittings, parts, installed⟩ :=
        placed.site.installed sound content placed.shows
      simp only [NodePart.Holds, content, Content.inside, parts, List.mem_filterMap, List.mem_map] at holds
      obtain ⟨_, ⟨fitting, listed, rfl⟩, same⟩ := holds
      cases fitting with
      | label part => cases same
      | node new =>
          cases same
          obtain ⟨container, front, rest, placed⟩ := installed.placed listed
          exact ⟨container, front, rest, new, rfl, placed⟩
  | list parts => exact item (.inl ⟨_, content⟩)
  | keyed keys parts stats => exact item (.inr ⟨_, _, _, content⟩)
  | _ => simp [NodePart.Holds, content, Content.inside, Content.items] at holds

theorem descend (sound : realm.Sound world) (placed : realm.Placed world slack container front rest plot)
    (way : ReflTransGen NodePart.Holds plot.part inner) :
    ∃ container front rest new, new.part = inner ∧ realm.Placed world slack container front rest new := by
  induction way with
  | refl => exact ⟨_, _, _, plot, rfl, placed⟩
  | tail _ holds ih =>
      obtain ⟨container, front, rest, outer, rfl, placed⟩ := ih
      exact placed.descend_one sound holds

end Placed

end DomParts.Layout.Realm
