import DomParts.Proofs.Layout.Inside
import Mathlib.Data.List.Pairwise

/-! # Where parts begin

Every part inside a part has markers of its own, so it can be told by the marker that it begins with. What is
known of parts can be restated for each of them alone.
-/

namespace DomParts.Layout

open Relation (ReflTransGen)

variable {premises : Premises} {tree : Tree} {content : Content} {inner owned : List NodeId}
  {part other child : NodePart}

/-- The plots of the parts right inside a content: they have no node in common. -/
structure Inhabited (premises : Premises) (tree : Tree) (owned : List NodeId) (plots : List Plot) : Prop where
  claimed : ∀ plot ∈ plots, ∀ id ∈ plot.claimed, id ∈ owned
  apart : plots.Pairwise fun one two => ∀ id ∈ one.claimed, id ∉ two.claimed
  start : ∀ plot ∈ plots, plot.part.start ∉ plot.owned
  distinct : ∀ plot ∈ plots, plot.owned.Nodup
  charted : ∀ plot ∈ plots, Charted premises.survey premises.guest premises.kept tree plot
  shown : ∀ plot ∈ plots, Shows premises tree plot.part.content plot.inner plot.owned

theorem claims_sublist (blocks : List Block) : ((plotsOf blocks).flatMap Plot.claimed).Sublist (claimedOf blocks) := by
  induction blocks with
  | nil => exact .refl _
  | cons block blocks ih =>
      cases block with
      | plot plot => exact (List.Sublist.refl _).append ih
      | stray id => exact ih.cons _

theorem node?_part (fitting : Fitting) : fitting.part.node? = fitting.plot?.map Plot.part := by
  cases fitting <;> rfl

theorem Shows.inhabited (shows : Shows premises tree content inner owned) (distinct : owned.Nodup) :
    ∃ plots, content.inside = plots.map Plot.part ∧ Inhabited premises tree owned plots := by
  cases shows with
  | empty | text | guest | absent => exact ⟨[], rfl, by constructor <;> simp⟩
  | @row blocks _ arranged marked shown strays complete =>
      have claims := distinct.sublist (claims_sublist blocks)
      obtain ⟨each, apart⟩ := List.nodup_flatMap.1 claims
      have listed : ∀ plot ∈ plotsOf blocks, .plot plot ∈ blocks := fun _ => mem_plotsOf.1
      refine ⟨plotsOf blocks, arranged.inside, ?_, apart.imp fun apart id here there => apart here there, ?_, ?_,
        fun plot member => (marked plot (listed plot member)).toCharted, fun plot member => shown plot (listed plot member)⟩
      · exact fun plot member id here => (claims_sublist blocks).subset (List.mem_flatMap.2 ⟨plot, member, here⟩)
      · exact fun plot member here => (List.nodup_cons.1 (each plot member)).1 (List.mem_cons_of_mem _ here)
      · exact fun plot member => (List.nodup_cons.1 (List.nodup_cons.1 (each plot member)).2).2
  | @template shown original forest reach fittings shape planted parts fit starts own kinds children marked nested =>
      obtain ⟨-, claims, between⟩ := List.nodup_append'.1 distinct
      have begins : ∀ plot ∈ fittings.filterMap Fitting.plot?, plot.part.start ∈ Subtree.nodesOfAll forest :=
        fun plot member => planted.mem_nodes (start_mem_reach fit (mem_plots.1 member))
      have inside : ∀ plot ∈ fittings.filterMap Fitting.plot?, ∀ id ∈ (Fitting.node plot).claimed,
          id ∈ fittings.flatMap Fitting.claimed := fun plot member id here =>
        List.mem_flatMap.2 ⟨_, mem_plots.1 member, here⟩
      have starts : (fittings.filterMap Fitting.plot?).Pairwise fun one two => one.part.start ≠ two.part.start := by
        rw [starts_eq_plots] at starts
        exact List.pairwise_map.1 starts
      have claims : (claimedBy fittings).Nodup := claims
      rw [claimedBy_eq_plots] at claims
      obtain ⟨each, apart⟩ := List.nodup_flatMap.1 claims
      refine ⟨fittings.filterMap Fitting.plot?, ?_, ?_, ?_, ?_, ?_, fun plot member => marked plot (mem_plots.1 member),
        fun plot member => nested plot (mem_plots.1 member)⟩
      · rw [Content.inside, parts, List.filterMap_map, List.map_filterMap]
        exact List.filterMap_congr fun fitting _ => node?_part fitting
      · intro plot member id here
        rcases List.mem_cons.1 here with rfl | here
        · exact List.mem_append_left _ (begins plot member)
        · exact List.mem_append_right _ (inside plot member id here)
      · refine (starts.and apart).imp_of_mem fun {one two} first second disjoint id here there => ?_
        rcases List.mem_cons.1 here with rfl | here <;> rcases List.mem_cons.1 there with same | there
        · exact disjoint.1 same
        · exact between (begins one first) (inside two second _ there)
        · exact between (same ▸ begins two second) (inside one first _ here)
        · exact disjoint.2 here there
      · exact fun plot member here => between (begins plot member) (inside plot member _ (List.mem_cons_of_mem _ here))
      · exact fun plot member => (List.nodup_cons.1 (each plot member)).2

theorem Shows.start_owned (shows : Shows premises tree content inner owned) (distinct : owned.Nodup)
    (inside : child ∈ content.inside) (way : ReflTransGen NodePart.Holds child part) : part.start ∈ owned := by
  induction way using ReflTransGen.head_induction_on generalizing content inner owned with
  | refl =>
      obtain ⟨plots, parts, inhabited⟩ := shows.inhabited distinct
      rw [parts] at inside
      obtain ⟨plot, member, rfl⟩ := List.mem_map.1 inside
      exact inhabited.claimed plot member _ (List.mem_cons_self ..)
  | head holds _ ih =>
      obtain ⟨plots, parts, inhabited⟩ := shows.inhabited distinct
      rw [parts] at inside
      obtain ⟨plot, member, rfl⟩ := List.mem_map.1 inside
      have here := ih (inhabited.shown plot member) (inhabited.distinct plot member) holds
      exact inhabited.claimed plot member _ (List.mem_cons_of_mem _ (List.mem_cons_of_mem _ here))

theorem Inhabited.same {plots : List Plot} (inhabited : Inhabited premises tree owned plots) {one two : Plot}
    (first : one ∈ plots) (second : two ∈ plots) {id : NodeId} (here : id ∈ one.claimed) (there : id ∈ two.claimed) :
    one = two := by
  by_contra different
  have symm : Std.Symm fun one two : Plot => ∀ id ∈ one.claimed, id ∉ two.claimed :=
    ⟨fun _ _ apart id here there => apart id there here⟩
  exact inhabited.apart.forall first second different id here there

theorem Inhabited.same_plot {plots : List Plot} (inhabited : Inhabited premises tree owned plots) {one two : Plot}
    (first : one ∈ plots) (second : two ∈ plots) (way : ReflTransGen NodePart.Holds one.part part)
    (byway : ReflTransGen NodePart.Holds two.part other) (same : part.start = other.start) : one = two := by
  have begins : ∀ {plot : Plot} {part : NodePart}, plot ∈ plots → ReflTransGen NodePart.Holds plot.part part →
      part.start ∈ plot.claimed := by
    intro plot part member way
    rcases way.cases_head with rfl | ⟨inner, holds, way⟩
    · exact List.mem_cons_self ..
    · have here := (inhabited.shown plot member).start_owned (inhabited.distinct plot member) holds way
      exact List.mem_cons_of_mem _ (List.mem_cons_of_mem _ here)
  exact inhabited.same first second (begins first way) (same ▸ begins second byway)

theorem Shows.start_unique (shows : Shows premises tree content inner owned) (distinct : owned.Nodup)
    {beside : NodePart} (inside : child ∈ content.inside) (way : ReflTransGen NodePart.Holds child part)
    (within : beside ∈ content.inside) (byway : ReflTransGen NodePart.Holds beside other)
    (same : part.start = other.start) : part = other := by
  induction way using ReflTransGen.head_induction_on generalizing content inner owned beside with
  | refl =>
      obtain ⟨plots, parts, inhabited⟩ := shows.inhabited distinct
      rw [parts] at inside within
      obtain ⟨plot, member, rfl⟩ := List.mem_map.1 inside
      obtain ⟨second, listed, rfl⟩ := List.mem_map.1 within
      obtain rfl := inhabited.same_plot member listed .refl byway same
      rcases byway.cases_head with rfl | ⟨inner, holds, byway⟩
      · rfl
      · have deeper := (inhabited.shown plot member).start_owned (inhabited.distinct plot member) holds byway
        exact absurd (same ▸ deeper) (inhabited.start plot member)
  | head holds way ih =>
      obtain ⟨plots, parts, inhabited⟩ := shows.inhabited distinct
      rw [parts] at inside within
      obtain ⟨plot, member, rfl⟩ := List.mem_map.1 inside
      obtain ⟨second, listed, rfl⟩ := List.mem_map.1 within
      obtain rfl := inhabited.same_plot member listed (.head holds way) byway same
      have shown := inhabited.shown plot member
      have distinct := inhabited.distinct plot member
      rcases byway.cases_head with rfl | ⟨inner, further, byway⟩
      · have deeper := shown.start_owned distinct holds way
        exact absurd (same ▸ deeper) (inhabited.start plot member)
      · exact ih shown distinct holds further byway

theorem Shows.known (shows : Shows premises tree content inner owned) (distinct : owned.Nodup)
    (inside : child ∈ content.inside) (way : ReflTransGen NodePart.Holds child part) : premises.survey.Knows part := by
  induction way using ReflTransGen.head_induction_on generalizing content inner owned with
  | refl =>
      obtain ⟨plots, parts, inhabited⟩ := shows.inhabited distinct
      rw [parts] at inside
      obtain ⟨plot, member, rfl⟩ := List.mem_map.1 inside
      exact (inhabited.charted plot member).known
  | head holds _ ih =>
      obtain ⟨plots, parts, inhabited⟩ := shows.inhabited distinct
      rw [parts] at inside
      obtain ⟨plot, member, rfl⟩ := List.mem_map.1 inside
      exact ih (inhabited.shown plot member) (inhabited.distinct plot member) holds

/-- What is known of nodes may be replaced by what is known of them part by part. -/
theorem Shows.resurvey {survey : Survey} (shows : Shows premises tree content inner owned)
    (charts : ∀ plot child, child ∈ content.inside → ReflTransGen NodePart.Holds child plot.part →
      Charted premises.survey premises.guest premises.kept tree plot →
      Shows premises tree plot.part.content plot.inner plot.owned →
      Charted survey premises.guest premises.kept tree plot) :
    Shows { premises with survey } tree content inner owned := by
  induction shows with
  | empty => exact .empty
  | text kind own free leaf => exact .text kind own free leaf
  | guest guest wanted solid => exact .guest guest wanted solid
  | absent guest wanted gone => exact .absent guest wanted gone
  | @row blocks content arranged marked shown strays complete ih =>
      have inside : ∀ plot, .plot plot ∈ blocks → plot.part ∈ content.inside := by
        intro plot listed
        rw [arranged.inside]
        exact List.mem_map_of_mem (mem_plotsOf.2 listed)
      refine .row arranged ?_ ?_ strays complete
      · exact fun plot listed => ⟨charts plot _ (inside plot listed) .refl (marked plot listed).toCharted (shown plot listed),
          (marked plot listed).start_leaf⟩
      · exact fun plot listed => ih plot listed fun nested child within way =>
          charts nested plot.part (inside plot listed) (.head within way)
  | @template shown original forest reach fittings shape planted parts fit starts own kinds children marked nested ih =>
      have inside : ∀ plot, .node plot ∈ fittings → plot.part ∈ (Content.template shown).inside := by
        intro plot listed
        rw [Content.inside, parts]
        exact List.mem_filterMap.2 ⟨_, List.mem_map_of_mem listed, rfl⟩
      refine .template shape planted parts fit starts own kinds children ?_ ?_
      · exact fun plot listed => charts plot _ (inside plot listed) .refl (marked plot listed) (nested plot listed)
      · exact fun plot listed => ih plot listed fun inner child within way =>
          charts inner plot.part (inside plot listed) (.head within way)

end DomParts.Layout
