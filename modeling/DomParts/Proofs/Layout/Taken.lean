import DomParts.Proofs.Layout.Basic
import Mathlib.Data.List.Forall2
import Mathlib.Data.List.Perm.Basic

/-! # Layouts after something was taken

A layout only depends on the nodes that it owns. Whatever happens to others leaves it in place, and
guests that are taken away merely leave a gap.
-/

namespace DomParts

open Subtree (nodesOfAll spotsOfAll renumberAll)

/-- A node is as it was, but for children that were taken away. It may have been moved. -/
structure Tree.Alike (tree changed : Tree) (taken : List NodeId) (id : NodeId) : Prop where
  kindOf : changed.kindOf id = tree.kindOf id
  childrenOf : changed.childrenOf id = (tree.childrenOf id).filter (· ∉ taken)

theorem Tree.isText_eq {tree changed : Tree} {id : NodeId} (same : changed.kindOf id = tree.kindOf id) :
    changed.isText id = tree.isText id := by
  simp only [isText, same]

theorem Tree.lt_size_of_isText {tree : Tree} {id : NodeId} (text : tree.isText id = true) : tree.size > id := by
  cases found : tree.kindOf id with
  | none => simp [isText, found] at text
  | some kind => exact lt_size_of_kindOf found

/-- A node is as it was and where it was, but for children that were taken away. -/
structure Tree.Spared (tree changed : Tree) (taken : List NodeId) (id : NodeId) : Prop
    extends tree.Alike changed taken id where
  parentOf : id ∉ taken → changed.parentOf id = tree.parentOf id

namespace Layout

variable {premises premises' : Premises} {tree changed : Tree} {content : Content}
  {inner owned : List NodeId} {taken : List NodeId}

/-- Whatever a layout may lack, it may lack afterwards, and so may it lack guests that are taken. -/
structure Slack.Allows (slack : Slack) (taken : List NodeId) (more : Slack) : Prop where
  wanted : ∀ id, slack.wanted id → more.wanted id
  lost : ∀ id, slack.wanted id → slack.lost id ∨ id ∈ taken → more.lost id

/-- What a layout of the nodes `owned` asks of a change, and of what it will rely on afterwards. -/
structure Carries (premises premises' : Premises) (tree changed : Tree) (taken owned : List NodeId) :
    Prop where
  guest : ∀ id, premises.guest id → premises'.guest id
  own : ∀ id ∈ owned, premises'.guest id → premises.guest id
  allows : premises.toSlack.Allows taken premises'.toSlack
  shape : ∀ shared original, premises.shape shared original → premises'.shape shared original
  bare : premises'.bare → premises.bare
  leafy : premises'.leafy → premises.leafy
  survey : premises'.survey = premises.survey
  guests : ∀ id ∈ taken, premises.guest id
  held : ∀ id ∈ owned, (premises'.kept id ↔ premises.kept id)
  alike : ∀ id ∈ owned, tree.Alike changed taken id

namespace Carries

theorem mono {fewer : List NodeId} (carries : Carries premises premises' tree changed taken owned)
    (among : ∀ id ∈ fewer, id ∈ owned) : Carries premises premises' tree changed taken fewer :=
  { carries with
    own := fun id member => carries.own id (among id member)
    held := fun id member => carries.held id (among id member)
    alike := fun id member => carries.alike id (among id member) }

variable (carries : Carries premises premises' tree changed taken owned)
include carries

theorem not_taken {id : NodeId} (own : ¬ premises.guest id) : id ∉ taken :=
  fun gone => own (carries.guests id gone)

theorem leaf {id : NodeId} (member : id ∈ owned) (leaf : tree.childrenOf id = []) : changed.childrenOf id = [] := by
  rw [(carries.alike id member).childrenOf, leaf, List.filter_nil]

theorem marked {first last : NodeId} (marked : Marked premises.guest premises.kept tree first last)
    (start : first ∈ owned) (stop : last ∈ owned) :
    Marked premises'.guest premises'.kept changed first last where
  start := (carries.alike _ start).kindOf.trans marked.start
  stop := (carries.alike _ stop).kindOf.trans marked.stop
  start_own := fun guest => marked.start_own (carries.own _ start guest)
  stop_own := fun guest => marked.stop_own (carries.own _ stop guest)
  start_free := fun kept => marked.start_free ((carries.held _ start).1 kept)
  stop_free := fun kept => marked.stop_free ((carries.held _ stop).1 kept)
  stop_leaf := carries.leaf stop marked.stop_leaf

theorem staked {plot : Plot} (staked : Staked premises.survey premises.guest premises.kept tree plot)
    (start : plot.part.start ∈ owned) (stop : plot.part.stop ∈ owned) :
    Staked premises'.survey premises'.guest premises'.kept changed (plot.without taken) where
  toMarked := carries.marked staked.toMarked start stop
  surveyed id member := by
    rw [carries.survey]
    exact (staked.surveyed id (List.mem_of_mem_filter member)).imp_right (Or.imp_left (carries.guest id))

theorem charted {plot : Plot} (charted : Charted premises.survey premises.guest premises.kept tree plot)
    (start : plot.part.start ∈ owned) (stop : plot.part.stop ∈ owned) :
    Charted premises'.survey premises'.guest premises'.kept changed (plot.without taken) where
  toStaked := carries.staked charted.toStaked start stop
  known := carries.survey ▸ charted.known

theorem lined {plot : Plot} (lined : Lined premises.survey premises.guest premises.kept tree plot)
    (start : plot.part.start ∈ owned) (stop : plot.part.stop ∈ owned) :
    Lined premises'.survey premises'.guest premises'.kept changed (plot.without taken) where
  toCharted := carries.charted lined.toCharted start stop
  start_leaf := carries.leaf start lined.start_leaf

theorem isText {id : NodeId} (member : id ∈ owned) : changed.isText id = tree.isText id := by
  simp only [Tree.isText, (carries.alike id member).kindOf]

end Carries

namespace Plot

variable {plot : Plot}

@[simp] theorem part_without : (plot.without taken).part = plot.part := rfl

theorem nodes_without (start : plot.part.start ∉ taken) (stop : plot.part.stop ∉ taken) :
    (plot.without taken).nodes = plot.nodes.filter (· ∉ taken) := by
  simp [nodes, without, start, stop]

theorem claimed_without (start : plot.part.start ∉ taken) (stop : plot.part.stop ∉ taken) :
    (plot.without taken).claimed = plot.claimed.filter (· ∉ taken) := by
  simp [claimed, without, start, stop]

end Plot

/-- What is left of blocks once some nodes were taken away. -/
def blocksWithout (taken : List NodeId) (blocks : List Block) : List Block :=
  blocks.filterMap (Block.without taken)

section Blocks

variable {blocks : List Block} {plot : Plot} {id : NodeId}

theorem plot_mem_blocksWithout :
    .plot plot ∈ blocksWithout taken blocks ↔ ∃ old, .plot old ∈ blocks ∧ plot = old.without taken := by
  simp only [blocksWithout, List.mem_filterMap]
  constructor
  · rintro ⟨block, member, same⟩
    cases block with
    | plot old =>
        simp only [Block.without, Option.some.injEq, Block.plot.injEq] at same
        exact ⟨old, member, same.symm⟩
    | stray id =>
        simp only [Block.without] at same
        split at same <;> simp at same
  · rintro ⟨old, member, rfl⟩
    exact ⟨.plot old, member, rfl⟩

theorem stray_mem_blocksWithout :
    .stray id ∈ blocksWithout taken blocks ↔ .stray id ∈ blocks ∧ id ∉ taken := by
  simp only [blocksWithout, List.mem_filterMap]
  constructor
  · rintro ⟨block, member, same⟩
    cases block with
    | plot old => simp [Block.without] at same
    | stray other =>
        simp only [Block.without] at same
        split at same
        · cases same
        · simp only [Option.some.injEq, Block.stray.injEq] at same
          subst same
          exact ⟨member, ‹_›⟩
  · rintro ⟨member, left⟩
    exact ⟨.stray id, member, by simp [Block.without, left]⟩

theorem parts_blocksWithout :
    (blocksWithout taken blocks).filterMap Block.part? = blocks.filterMap Block.part? := by
  induction blocks with
  | nil => rfl
  | cons block blocks ih =>
      cases block with
      | plot old => simpa [blocksWithout, Block.without, Block.part?] using ih
      | stray id =>
          have skip : (Block.stray id :: blocks).filterMap Block.part? = blocks.filterMap Block.part? := rfl
          by_cases gone : id ∈ taken
          · simpa [blocksWithout, Block.without, gone, skip] using ih
          · simpa [blocksWithout, Block.without, List.filterMap_cons, Block.part?, gone] using ih

variable (markers : ∀ plot, .plot plot ∈ blocks → plot.part.start ∉ taken ∧ plot.part.stop ∉ taken)
include markers

theorem nodes_blocksWithout : (blocksWithout taken blocks).flatMap Block.nodes =
    (blocks.flatMap Block.nodes).filter (· ∉ taken) := by
  induction blocks with
  | nil => rfl
  | cons block blocks ih =>
      have rest := ih fun plot member => markers plot (List.mem_cons_of_mem _ member)
      simp only [blocksWithout] at rest ⊢
      cases block with
      | plot old =>
          have own := markers old (List.mem_cons_self ..)
          simp only [List.filterMap_cons, Block.without, List.flatMap_cons, Block.nodes,
            List.filter_append, rest, Plot.nodes_without own.1 own.2]
      | stray id =>
          by_cases gone : id ∈ taken <;>
            simp [Block.without, Block.nodes, gone, rest]

theorem claimed_blocksWithout : (blocksWithout taken blocks).flatMap Block.claimed =
    (blocks.flatMap Block.claimed).filter (· ∉ taken) := by
  induction blocks with
  | nil => rfl
  | cons block blocks ih =>
      have rest := ih fun plot member => markers plot (List.mem_cons_of_mem _ member)
      simp only [blocksWithout] at rest ⊢
      cases block with
      | plot old =>
          have own := markers old (List.mem_cons_self ..)
          simp only [List.filterMap_cons, Block.without, List.flatMap_cons, Block.claimed,
            List.filter_append, rest, Plot.claimed_without own.1 own.2]
      | stray id =>
          by_cases gone : id ∈ taken <;>
            simp [Block.without, Block.claimed, gone, rest]

end Blocks

theorem Arranges.without {blocks : List Block} (arranged : Arranges blocks content) :
    Arranges (blocksWithout taken blocks) content := by
  cases content with
  | list parts =>
      refine ⟨parts_blocksWithout.trans arranged.1, fun id member => ?_⟩
      exact arranged.2 id (stray_mem_blocksWithout.1 member).1
  | keyed keys parts stats => exact ⟨parts_blocksWithout.trans arranged.1, arranged.2⟩
  | _ => exact arranged.elim

section Fittings

variable {fittings : List Fitting} {id : NodeId}

theorem node_mem_without {plot : Plot} : .node plot ∈ fittings.map (Fitting.without taken) ↔
    ∃ old, .node old ∈ fittings ∧ plot = old.without taken := by
  simp only [List.mem_map]
  constructor
  · rintro ⟨fitting, member, same⟩
    cases fitting with
    | node old =>
        simp only [Fitting.without, Fitting.node.injEq] at same
        exact ⟨old, member, same.symm⟩
    | label part => simp [Fitting.without] at same
  · rintro ⟨old, member, rfl⟩
    exact ⟨.node old, member, rfl⟩

@[simp] theorem part_fitting_without (fitting : Fitting) :
    (fitting.without taken).part = fitting.part := by
  cases fitting <;> rfl

theorem parts_fitting_without (fittings : List Fitting) :
    (fittings.map (Fitting.without taken)).map Fitting.part = fittings.map Fitting.part := by
  simp

@[simp] theorem fittings_without_nil (fittings : List Fitting) : fittings.map (Fitting.without []) = fittings := by
  have same : Fitting.without [] = id := by
    funext fitting
    cases fitting <;> simp [Fitting.without, Plot.without]
  rw [same, List.map_id]

@[simp] theorem start?_fitting_without (fitting : Fitting) :
    (fitting.without taken).start? = fitting.start? := by
  cases fitting <;> rfl

@[simp] theorem attribute?_fitting_without (fitting : Fitting) :
    (fitting.without taken).attribute? = fitting.attribute? := by
  cases fitting <;> rfl

theorem fits_without {reach : List NodeId} {slot : Slot} {fitting : Fitting} :
    Fits reach slot (fitting.without taken) ↔ Fits reach slot fitting := by
  cases slot <;> cases fitting <;> rfl

theorem boundText?_without (name : String) :
    boundText? (fittings.map (Fitting.without taken)) id name = boundText? fittings id name := by
  simp only [boundText?, List.findSome?_map]
  congr 1
  funext fitting
  cases fitting <;> rfl

theorem separate_without : Separate (fittings.map (Fitting.without taken)) ↔ Separate fittings := by
  simp [Separate, List.filterMap_map]

theorem accords_without {planned actual : Kind} :
    Accords (fittings.map (Fitting.without taken)) id planned actual ↔
      Accords fittings id planned actual := by
  cases planned <;> simp [Accords, boundText?_without, separate_without]

variable (markers : ∀ plot, .node plot ∈ fittings → plot.part.start ∉ taken ∧ plot.part.stop ∉ taken)
include markers

theorem behind_without : behind (fittings.map (Fitting.without taken)) id =
    (behind fittings id).filter (· ∉ taken) := by
  induction fittings with
  | nil => rfl
  | cons fitting fittings ih =>
      have rest := ih fun plot member => markers plot (List.mem_cons_of_mem _ member)
      simp only [behind] at rest ⊢
      simp only [List.map_cons, List.flatMap_cons, List.filter_append, rest]
      congr 1
      cases fitting with
      | node plot =>
          have stop := (markers plot (List.mem_cons_self ..)).2
          by_cases here : plot.part.start = id <;>
            simp [Fitting.without, Fitting.behind, Plot.without, here, stop]
      | label part => rfl

theorem weave_without {ids : List NodeId} (left : ∀ id ∈ ids, id ∉ taken) :
    weave (fittings.map (Fitting.without taken)) ids = (weave fittings ids).filter (· ∉ taken) := by
  induction ids with
  | nil => rfl
  | cons first ids ih =>
      have rest := ih fun id member => left id (List.mem_cons_of_mem _ member)
      have here := left first (List.mem_cons_self ..)
      have split (fittings : List Fitting) :
          weave fittings (first :: ids) = first :: (behind fittings first ++ weave fittings ids) := rfl
      rw [split, split, rest, behind_without markers, List.filter_cons_of_pos (by simpa using here),
        List.filter_append]

theorem claimed_without : (fittings.map (Fitting.without taken)).flatMap Fitting.claimed =
    (fittings.flatMap Fitting.claimed).filter (· ∉ taken) := by
  induction fittings with
  | nil => rfl
  | cons fitting fittings ih =>
      have rest := ih fun plot member => markers plot (List.mem_cons_of_mem _ member)
      simp only [List.map_cons, List.flatMap_cons, List.filter_append, rest]
      congr 1
      cases fitting with
      | node plot =>
          have stop := (markers plot (List.mem_cons_self ..)).2
          simp [Fitting.without, Fitting.claimed, Plot.without, stop]
      | label part => rfl

end Fittings

theorem mem_weave {fittings : List Fitting} {ids : List NodeId} {id : NodeId} :
    id ∈ weave fittings ids ↔ id ∈ ids ∨ ∃ above ∈ ids, id ∈ behind fittings above := by
  simp only [weave, List.mem_flatMap, List.mem_cons]
  constructor
  · rintro ⟨above, member, rfl | here⟩
    · exact .inl member
    · exact .inr ⟨above, member, here⟩
  · rintro (member | ⟨above, member, here⟩)
    · exact ⟨id, member, .inl rfl⟩
    · exact ⟨above, member, .inr here⟩

/-- What stands behind a node of a clone belongs to the plot that starts there. -/
theorem mem_behind {fittings : List Fitting} {above id : NodeId} : id ∈ behind fittings above ↔
    ∃ plot, .node plot ∈ fittings ∧ plot.part.start = above ∧ id ∈ plot.inner ++ [plot.part.stop] := by
  simp only [behind, List.mem_flatMap]
  constructor
  · rintro ⟨fitting, member, here⟩
    cases fitting with
    | label part => cases here
    | node plot =>
        simp only [Fitting.behind] at here
        split at here
        · exact ⟨plot, member, ‹_›, here⟩
        · cases here
  · rintro ⟨plot, member, rfl, here⟩
    exact ⟨.node plot, member, by simpa [Fitting.behind] using here⟩

theorem mem_tops {forest : List Subtree} {id : NodeId} (member : id ∈ forest.map Subtree.id) :
    id ∈ nodesOfAll forest :=
  (Subtree.listed_once_all forest).subset (List.mem_append_left _ member)

theorem Planted.mem_nodes {original : Subtree} {forest : List Subtree} {reach : List NodeId} {id : NodeId}
    (planted : Planted original forest reach) (member : id ∈ reach) : id ∈ nodesOfAll forest := by
  cases planted with
  | loose first original children => exact member
  | solid first original children solid =>
      simp only [Subtree.renumber, nodesOfAll, Subtree.nodes, List.append_nil]
      exact List.mem_cons_of_mem _ member

theorem start_mem_reach {reach : List NodeId} {slots : List Slot} {fittings : List Fitting} {plot : Plot}
    (fit : List.Forall₂ (Fits reach) slots fittings) (member : .node plot ∈ fittings) :
    plot.part.start ∈ reach := by
  induction fit with
  | nil => cases member
  | @cons slot fitting _ _ fits _ ih =>
      rcases List.mem_cons.1 member with rfl | member
      · cases slot with
        | node index => exact List.mem_of_getElem? fits
        | _ => exact fits.elim
      · exact ih member

theorem flatMap_nodes_subset {blocks : List Block}
    (inside : ∀ plot, .plot plot ∈ blocks → ∀ id ∈ plot.inner, id ∈ plot.owned) :
    ∀ id ∈ blocks.flatMap Block.nodes, id ∈ blocks.flatMap Block.claimed := by
  intro id member
  obtain ⟨block, listed, member⟩ := List.mem_flatMap.1 member
  refine List.mem_flatMap.2 ⟨block, listed, ?_⟩
  cases block with
  | stray other => exact member
  | plot plot =>
      simp only [Block.nodes, Plot.nodes, List.mem_cons, List.mem_append] at member
      simp only [Block.claimed, Plot.claimed, List.mem_cons]
      rcases member with rfl | inner | rfl | none
      · exact .inl rfl
      · exact .inr (.inr (inside plot listed id inner))
      · exact .inr (.inl rfl)
      · cases none

theorem Shows.inner_subset (shows : Shows premises tree content inner owned) :
    ∀ id ∈ inner, id ∈ owned := by
  induction shows with
  | empty => exact fun _ => id
  | text => exact fun _ => id
  | guest => exact fun _ => id
  | absent => exact fun _ => id
  | row _ _ _ _ _ ih => exact flatMap_nodes_subset ih
  | @template _ _ forest _ fittings _ _ _ _ _ _ _ _ _ _ ih =>
      intro id member
      rw [List.mem_append]
      rcases mem_weave.1 member with top | ⟨above, -, here⟩
      · exact .inl (mem_tops top)
      · obtain ⟨plot, listed, -, here⟩ := mem_behind.1 here
        refine .inr (List.mem_flatMap.2 ⟨.node plot, listed, ?_⟩)
        simp only [Fitting.claimed, List.mem_cons]
        rcases List.mem_append.1 here with inside | last
        · exact .inr (ih plot listed id inside)
        · exact .inl (List.mem_singleton.1 last)

section Carry

variable {blocks : List Block} {fittings : List Fitting} {forest : List Subtree}

theorem Carries.row
    (carries : Carries premises premises' tree changed taken (blocks.flatMap Block.claimed))
    (arranged : Arranges blocks content)
    (marked : ∀ plot, .plot plot ∈ blocks → Lined premises.survey premises.guest premises.kept tree plot)
    (strays : ∀ id, .stray id ∈ blocks → premises.kept id ∧ (premises.guest id → tree.isText id = false))
    (complete : premises.bare → ∀ id, .stray id ∉ blocks)
    (carried : ∀ plot, .plot plot ∈ blocks →
      Carries premises premises' tree changed taken plot.owned →
        Shows premises' changed plot.part.content (plot.inner.filter (· ∉ taken)) (plot.owned.filter (· ∉ taken))) :
    Shows premises' changed content ((blocks.flatMap Block.nodes).filter (· ∉ taken))
      ((blocks.flatMap Block.claimed).filter (· ∉ taken)) := by
  have markers : ∀ plot, .plot plot ∈ blocks → plot.part.start ∉ taken ∧ plot.part.stop ∉ taken := fun plot member =>
    ⟨carries.not_taken (marked plot member).start_own, carries.not_taken (marked plot member).stop_own⟩
  have among : ∀ block ∈ blocks, ∀ id ∈ block.claimed, id ∈ blocks.flatMap Block.claimed :=
    fun block member id claimed => List.mem_flatMap.2 ⟨block, member, claimed⟩
  rw [← nodes_blocksWithout markers, ← claimed_blocksWithout markers]
  refine .row arranged.without ?_ ?_ ?_ ?_
  · intro plot member
    obtain ⟨old, was, rfl⟩ := plot_mem_blocksWithout.1 member
    exact carries.lined (marked old was) (among (.plot old) was _ (by simp [Block.claimed, Plot.claimed]))
      (among (.plot old) was _ (by simp [Block.claimed, Plot.claimed]))
  · intro plot member
    obtain ⟨old, was, rfl⟩ := plot_mem_blocksWithout.1 member
    refine carried old was (carries.mono fun id own => among (.plot old) was id ?_)
    exact List.mem_cons_of_mem _ (List.mem_cons_of_mem _ own)
  · intro id member
    obtain ⟨was, -⟩ := stray_mem_blocksWithout.1 member
    have inside := among (.stray id) was id (List.mem_cons_self ..)
    refine ⟨(carries.held id inside).2 (strays id was).1, fun guest => ?_⟩
    exact (carries.isText inside).trans ((strays id was).2 (carries.own id inside guest))
  · exact fun bare id member => complete (carries.bare bare) id (stray_mem_blocksWithout.1 member).1

/-- The layout of a template instance is carried along with those of its parts. -/
theorem Carries.template {shown : TemplateInstance} {original : Subtree} {reach : List NodeId}
    (carries : Carries premises premises' tree changed taken (nodesOfAll forest ++ fittings.flatMap Fitting.claimed))
    (shape : premises.shape shown.template original) (planted : Planted original forest reach)
    (parts : shown.parts = fittings.map Fitting.part)
    (fit : List.Forall₂ (Fits reach) shown.template.template.slots fittings)
    (distinct : (fittings.filterMap Fitting.start?).Nodup)
    (own : ∀ id ∈ nodesOfAll forest, ¬ premises.guest id ∧ ¬ premises.kept id)
    (kinds : ∀ spot ∈ spotsOfAll forest, ∃ kind, tree.kindOf spot.id = some kind ∧
      Accords fittings spot.id spot.kind kind)
    (children : ∀ spot ∈ spotsOfAll forest, tree.childrenOf spot.id = weave fittings spot.children)
    (marked : ∀ plot, .node plot ∈ fittings → Charted premises.survey premises.guest premises.kept tree plot)
    (carried : ∀ plot, .node plot ∈ fittings →
      Carries premises premises' tree changed taken plot.owned →
        Shows premises' changed plot.part.content (plot.inner.filter (· ∉ taken)) (plot.owned.filter (· ∉ taken))) :
    Shows premises' changed (.template shown) ((weave fittings (forest.map Subtree.id)).filter (· ∉ taken))
      ((nodesOfAll forest ++ fittings.flatMap Fitting.claimed).filter (· ∉ taken)) := by
  have markers : ∀ plot, .node plot ∈ fittings → plot.part.start ∉ taken ∧ plot.part.stop ∉ taken := fun plot member =>
    ⟨carries.not_taken (marked plot member).start_own, carries.not_taken (marked plot member).stop_own⟩
  have left : ∀ id ∈ nodesOfAll forest, id ∉ taken := fun id member => carries.not_taken (own id member).1
  have inside : ∀ id ∈ nodesOfAll forest, id ∈ nodesOfAll forest ++ fittings.flatMap Fitting.claimed :=
    fun id member => List.mem_append_left _ member
  have among : ∀ fitting ∈ fittings, ∀ id ∈ fitting.claimed,
      id ∈ nodesOfAll forest ++ fittings.flatMap Fitting.claimed :=
    fun fitting member id claimed => List.mem_append_right _ (List.mem_flatMap.2 ⟨fitting, member, claimed⟩)
  have untouched : (nodesOfAll forest).filter (· ∉ taken) = nodesOfAll forest :=
    List.filter_eq_self.2 fun id member => by simpa using left id member
  rw [List.filter_append, untouched, ← claimed_without markers, ← weave_without markers fun id member =>
    left id (mem_tops member)]
  refine .template (carries.shape _ _ shape) planted ?parts ?fit ?distinct ?own ?kinds ?children ?marked ?nested
  case parts => simpa [Function.comp_def] using parts
  case fit => exact List.forall₂_map_right_iff.2 (fit.imp fun _ _ fits => fits_without.2 fits)
  case distinct => simpa [List.filterMap_map, Function.comp_def] using distinct
  case own =>
    intro id member
    rw [carries.held id (inside id member)]
    exact ⟨fun guest => (own id member).1 (carries.own id (inside id member) guest), (own id member).2⟩
  case kinds =>
    intro spot member
    obtain ⟨kind, found, accords⟩ := kinds spot member
    exact ⟨kind, (carries.alike _ (inside _ (Subtree.spot_mem member))).kindOf.trans found,
      accords_without.2 accords⟩
  case children =>
    intro spot member
    rw [(carries.alike _ (inside _ (Subtree.spot_mem member))).childrenOf, children spot member]
    exact (weave_without markers fun id below => left id (Subtree.child_mem member below)).symm
  case marked =>
    intro plot member
    obtain ⟨old, was, rfl⟩ := node_mem_without.1 member
    have begins := @start_mem_reach _ _ _ old fit was
    refine carries.charted (marked old was) (inside _ (planted.mem_nodes begins)) ?_
    exact among (.node old) was _ (List.mem_cons_self ..)
  case nested =>
    intro plot member
    obtain ⟨old, was, rfl⟩ := node_mem_without.1 member
    exact carried old was (carries.mono fun id own => among (.node old) was id (List.mem_cons_of_mem _ own))

/-- Nodes that a layout does not own are none of its business, and guests that are taken are missed. -/
theorem Shows.carry (shows : Shows premises tree content inner owned)
    (carries : Carries premises premises' tree changed taken owned) :
    Shows premises' changed content (inner.filter (· ∉ taken)) (owned.filter (· ∉ taken)) := by
  induction shows with
  | empty => exact .empty
  | @text id data kind own free leaf =>
      have here := carries.alike id (List.mem_cons_self ..)
      have left := carries.not_taken own
      simp only [List.filter_cons, left, not_false_eq_true, decide_true, if_true, List.filter_nil]
      refine .text (here.kindOf.trans kind) (fun guest => own (carries.own id (List.mem_cons_self ..) guest)) ?_ ?_
      · exact fun found => free ((carries.held id (List.mem_cons_self ..)).1 found)
      · exact fun leafy => carries.leaf (List.mem_cons_self ..) (leaf (carries.leafy leafy))
  | @guest id guest wanted solid =>
      have known := carries.guest id guest
      by_cases gone : id ∈ taken
      · simp only [List.filter_cons, gone, not_true, decide_false]
        exact .absent known (carries.allows.wanted id wanted) (carries.allows.lost id wanted (.inr gone))
      · simp only [List.filter_cons, gone, not_false_eq_true, decide_true, if_true, List.filter_nil]
        exact .guest known (carries.allows.wanted id wanted)
          ((carries.isText (List.mem_cons_self ..)).trans solid)
  | @absent id guest wanted gone =>
      exact .absent (carries.guest id guest) (carries.allows.wanted id wanted)
        (carries.allows.lost id wanted (.inl gone))
  | row arranged marked _ strays complete ih => exact carries.row arranged marked strays complete ih
  | template shape planted parts fit distinct own kinds children marked _ ih =>
      exact carries.template shape planted parts fit distinct own kinds children marked ih

end Carry

theorem Shows.weaken {more : Slack} (shows : Shows premises tree content inner owned)
    (allows : premises.toSlack.Allows [] more) :
    Shows { premises with toSlack := more } tree content inner owned := by
  have carries : Carries premises { premises with toSlack := more } tree tree [] owned := {
    guest := fun _ => id
    own := fun _ _ => id
    allows := allows
    shape := fun _ _ => id
    bare := id
    leafy := id
    survey := rfl
    guests := by simp
    held := fun _ _ => Iff.rfl
    alike := fun _ _ => ⟨rfl, by simp⟩ }
  simpa using shows.carry carries

end Layout

end DomParts
