import DomParts.Proofs.Root.Regions

/-! # Custody

A node that the removal hook kept is in its hands from then on. Texts are an exception: a part that is to show a
text takes a text that stands alone between its markers for its own, even if the hook kept it. Any other node stays
what it is, and all that parts ever do about it is to list items beside it.
-/

namespace DomParts

open Relation (ReflTransGen)

variable {σ : Type} {client : Client σ}

/-- A part that lists items by key has a node beside these: it stands between two items, before the first one or
    behind the last one. -/
def NodePart.SetsAside (part : NodePart) (scene : Scene σ) (id : NodeId) : Prop :=
  ∃ container front ahead behind rest, ∃ keys left right stats,
    scene.tree.childrenOf container = front ++ part.start :: (ahead ++ id :: (behind ++ part.stop :: rest)) ∧
      part.content = .keyed keys (left ++ right) stats ∧
      Spread (fun id => .kept id ∈ scene.report.toList) left ahead ∧
      Spread (fun id => .kept id ∈ scene.report.toList) right behind

namespace Layout

/-- Only templates and lists have anything between their markers that is not their own. -/
theorem Shows.holds_of_kept {premises : Premises} {tree : Tree} {content : Content} {inner owned : List NodeId}
    {id : NodeId} (shows : Shows premises tree content inner owned) (kept : premises.kept id) (own : ¬ premises.guest id)
    (member : id ∈ inner) : (∃ shown, content = .template shown) ∨ (∃ parts, content = .list parts) ∨
      ∃ keys parts stats, content = .keyed keys parts stats := by
  cases shows with
  | empty => cases member
  | text kind foreign free => exact absurd kept (List.mem_singleton.1 member ▸ free)
  | guest guest => exact absurd (List.mem_singleton.1 member ▸ guest) own
  | absent => cases member
  | row arranged =>
      cases content with
      | list parts => exact .inr (.inl ⟨_, rfl⟩)
      | keyed keys parts stats => exact .inr (.inr ⟨_, _, _, rfl⟩)
      | _ => exact arranged.elim
  | template => exact .inl ⟨_, rfl⟩

theorem nodes_sublist {blocks : List Block} {plot : Plot} (member : .plot plot ∈ blocks) :
    plot.nodes.Sublist (nodesOf blocks) :=
  List.sublist_flatten_of_mem (List.mem_map_of_mem member)

/-- The nodes of a part that is bound to one of these nodes stand in a row. -/
theorem nodes_sublist_weave {fittings : List Fitting} {plot : Plot} {ids : List NodeId} (bound : .node plot ∈ fittings)
    (member : plot.part.start ∈ ids) : plot.nodes.Sublist (weave fittings ids) := by
  have here : (Fitting.node plot).behind plot.part.start = plot.inner ++ [plot.part.stop] := if_pos rfl
  have own : ((Fitting.node plot).behind plot.part.start).Sublist (behind fittings plot.part.start) :=
    List.sublist_flatten_of_mem (List.mem_map_of_mem bound)
  have all : (plot.part.start :: behind fittings plot.part.start).Sublist (weave fittings ids) :=
    List.sublist_flatten_of_mem (List.mem_map_of_mem member)
  rw [here] at own
  exact (own.cons_cons _).trans all

/-- Whatever the hook kept is in its hands or is a text. -/
def World.Guards (world : World σ) : Prop := ∀ id, world.Answered id → world.kept id ∨ world.tree.isText id = true

namespace Realm

variable {realm : Realm σ} {world : World σ} {container : NodeId} {front rest : List NodeId} {plot : Plot}
  {slack : Slack} {id : NodeId}

/-- A node between the markers of a part is set aside there, or it stands between the markers of a part right inside. -/
def Disowns (realm : Realm σ) (world : World σ) (slack : Slack) (plot : Plot) (id : NodeId) : Prop :=
  plot.part.SetsAside world.scene id ∨
    ∃ container front rest inner, plot.part.Holds inner.part ∧ realm.Placed world slack container front rest inner ∧
      id ∈ inner.inner ∧ inner.nodes.Sublist plot.inner

namespace Placed

theorem kept_inner (placed : realm.Placed world slack container front rest plot) (kept : world.kept id)
    (member : id ∈ plot.nodes) : id ∈ plot.inner := by
  simp only [Plot.nodes, List.mem_cons, List.mem_append, List.not_mem_nil, or_false] at member
  rcases member with rfl | here | rfl
  · exact absurd kept placed.site.marked.start_free
  · exact here
  · exact absurd kept placed.site.marked.stop_free

theorem disowns_row (sound : realm.Sound world) (placed : realm.Placed world slack container front rest plot)
    (listed : (∃ parts, plot.part.content = .list parts) ∨
      ∃ keys parts stats, plot.part.content = .keyed keys parts stats)
    (kept : world.kept id) (member : id ∈ plot.inner) : realm.Disowns world slack plot id := by
  obtain ⟨blocks, arranged, inner, -, row, shown⟩ := placed.row listed
  rw [inner] at member
  obtain ⟨block, among, here⟩ := List.mem_flatMap.1 member
  cases block with
  | plot new =>
      obtain ⟨front, rest, placed⟩ := row.placed shown among
      have holds : plot.part.Holds new.part := by
        rw [NodePart.Holds, arranged.inside]
        exact List.mem_map_of_mem (mem_plotsOf.2 among)
      exact .inr ⟨_, front, rest, new, holds, placed, placed.kept_inner kept here, inner ▸ nodes_sublist among⟩
  | stray other =>
      obtain rfl := List.mem_singleton.1 here
      obtain ⟨ahead, behind, rfl⟩ := List.append_of_mem among
      have spread : ∀ {some : List Block}, (∀ block ∈ some, block ∈ ahead ++ .stray id :: behind) →
          Spread (fun id => .kept id ∈ world.scene.report.toList) (some.filterMap Block.part?) (nodesOf some) :=
        fun among => spread_blocks fun id member => sound.answered id (row.strays id (among _ member)).1
      rcases listed with ⟨parts, content⟩ | ⟨keys, parts, stats, content⟩
      · rw [content] at arranged
        exact absurd among (arranged.2 id)
      · rw [content] at arranged
        have parts : ahead.filterMap Block.part? ++ behind.filterMap Block.part? = parts := by
          rw [← arranged.1, List.filterMap_append]
          rfl
        refine .inl ⟨container, front, nodesOf ahead, nodesOf behind, rest, keys, _, _, stats, ?_, parts ▸ content,
          spread fun block member => ?_, spread fun block member => ?_⟩
        · rw [row.site.listed]
          simp [Plot.nodes]
        · exact List.mem_append_left _ member
        · exact List.mem_append_right _ (List.mem_cons_of_mem _ member)

theorem disowns_template (sound : realm.Sound world) (placed : realm.Placed world slack container front rest plot)
    {shown : TemplateInstance} (content : plot.part.content = .template shown) (kept : world.kept id)
    (member : id ∈ plot.inner) : realm.Disowns world slack plot id := by
  obtain ⟨original, forest, reach, fittings, parts, installed⟩ := placed.site.installed sound content placed.shows
  rw [installed.inner] at member
  rcases mem_weave.1 member with top | ⟨above, top, here⟩
  · exact absurd kept (installed.own id (mem_tops top)).2
  · obtain ⟨new, bound, rfl, among⟩ := mem_behind.1 here
    obtain ⟨container, front, rest, placed⟩ := installed.placed bound
    have holds : plot.part.Holds new.part := by
      rw [NodePart.Holds, content, Content.inside, parts, List.mem_filterMap]
      exact ⟨_, List.mem_map_of_mem bound, rfl⟩
    exact .inr ⟨container, front, rest, new, holds, placed, placed.kept_inner kept (List.mem_cons_of_mem _ among),
      installed.inner ▸ nodes_sublist_weave bound top⟩

/-- A node that the hook holds is none of the nodes that a part has between its markers for itself. -/
theorem disowns (sound : realm.Sound world) (placed : realm.Placed world slack container front rest plot)
    (kept : world.kept id) (own : ¬ realm.guest id) (member : id ∈ plot.inner) : realm.Disowns world slack plot id := by
  rcases placed.shows.holds_of_kept kept own member with ⟨shown, content⟩ | listed
  · exact placed.disowns_template sound content kept member
  · exact placed.disowns_row sound listed kept member

/-- A node that the hook holds and that stands between the markers of a part is set aside somewhere inside. -/
theorem aside {container : NodeId} {front rest : List NodeId} {plot : Plot} (sound : realm.Sound world)
    (placed : realm.Placed world slack container front rest plot)
    (kept : world.kept id) (own : ¬ realm.guest id) (member : id ∈ plot.inner) :
    ∃ inner, ReflTransGen NodePart.Holds plot.part inner ∧ inner.SetsAside world.scene id := by
  rcases placed.disowns sound kept own member with here | ⟨container, front, rest, new, holds, placed, among, inside⟩
  · exact ⟨plot.part, .refl, here⟩
  · have fewer : new.inner.length < plot.inner.length := by
      have length := inside.length_le
      simp only [Plot.nodes, List.length_cons, List.length_append, List.length_nil] at length
      omega
    obtain ⟨inner, way, aside⟩ := placed.aside sound kept own among
    exact ⟨inner, way.head holds, aside⟩
termination_by plot.inner.length

end Placed

namespace Change

variable {before after : World σ} {touched : NodeId → Prop} {taken : List NodeId}
  (change : realm.Change before after touched taken)
include change

theorem held_solid (kept : before.kept id) (solid : before.tree.isText id = false) :
    after.kept id ∧ after.tree.kindOf id = before.tree.kindOf id := by
  have kept : after.kept id := (change.keeps id kept).resolve_right fun lost => by
    rw [solid] at lost
    cases lost.2.1
  exact ⟨kept, (change.stable id kept).2⟩

theorem guards (guards : before.Guards) : after.Guards := by
  intro id answered
  rcases change.answers id answered with earlier | kept
  · rcases guards id earlier with kept | text
    · exact (change.keeps id kept).imp_right fun lost => change.texts id lost.2.1
    · exact .inr (change.texts id text)
  · exact .inl kept

end Change

end Realm

end Layout

variable {stage next : Stage σ} {id : NodeId}

open Layout RenderM

theorem Stage.Step.guest_iff (step : stage.Step client next) (inside : stage.scene.tree.size > id) :
    next.guest id ↔ stage.guest id := by
  cases step with
  | grown wellFormed extended invited old => exact old id inside
  | _ => exact Iff.rfl

theorem Reached.guarded (regular : client.Regular) (reached : Reached client stage) :
    ∃ kept lots, Stands client .blank stage kept lots ∧ World.Guards ⟨stage.scene, kept⟩ := by
  refine reached.along (motive := fun stage => ∃ kept lots, Stands client .blank stage kept lots ∧
    World.Guards ⟨stage.scene, kept⟩) ?_ ?_
  · exact fun wellFormed invited => ⟨_, _, .fresh wellFormed invited, fun _ none => absurd none List.not_mem_nil⟩
  · rintro stage next step ⟨kept, lots, stands, guards⟩
    obtain ⟨held, lots, touched, taken, stands, change⟩ := stands.step regular step
    exact ⟨held, lots, stands, change.guards guards⟩

/-- Whatever comes later, the hook holds what it holds unless that is a text. -/
theorem Layout.Stands.guarded (regular : client.Regular) {kept : NodeId → Prop} {lots : List Lot}
    (stands : Stands client .blank stage kept lots) (later : ReflTransGen (Stage.Step client) stage next)
    (held : kept id) (own : ¬ stage.guest id) (solid : stage.scene.tree.isText id = false) :
    ∃ kept lots, Stands client .blank next kept lots ∧ kept id ∧ ¬ next.guest id ∧
      next.scene.tree.kindOf id = stage.scene.tree.kindOf id := by
  induction later with
  | refl => exact ⟨kept, lots, stands, held, own, rfl⟩
  | tail _ step ih =>
      obtain ⟨kept, lots, stands, held, own, same⟩ := ih
      have inside := stands.standing.sound.kept_exists id held
      obtain ⟨kept, lots, touched, taken, stands, change⟩ := stands.step regular step
      obtain ⟨held, still⟩ := change.held_solid held ((Tree.isText_eq same).trans solid)
      exact ⟨kept, lots, stands, held, fun guest => own ((step.guest_iff inside).1 guest), still.trans same⟩

/-- Once the hook kept a node that rendering made and that is no text, the node stays what it is, whatever is rendered
    and cleared later. It is neither a marker of a usable part nor its container, and between its markers it stands
    aside: the part, or one inside it, lists items beside the node. -/
theorem Reached.kept_aside (regular : client.Regular) (reached : Reached client stage)
    (later : ReflTransGen (Stage.Step client) stage next) (kept : .kept id ∈ stage.scene.report.toList)
    (own : ¬ stage.guest id) (solid : stage.scene.tree.isText id = false) :
    next.scene.tree.kindOf id = stage.scene.tree.kindOf id ∧
      ∀ root ∈ next.parts, root.isPoisoned = false → ∀ part, ReflTransGen NodePart.Holds root part →
        ∃ container front between rest, part.WellPlaced next.scene container front between rest ∧ container ≠ id ∧
          part.start ≠ id ∧ part.stop ≠ id ∧
          (id ∈ between → ∃ inner, ReflTransGen NodePart.Holds part inner ∧ inner.SetsAside next.scene id) := by
  obtain ⟨kept, lots, stands, guards⟩ := reached.guarded regular
  have held : kept id := (guards id ‹_›).resolve_right fun text => by
    rw [World.tree, solid] at text
    cases text
  obtain ⟨kept, lots, stands, held, own, same⟩ := stands.guarded regular later held own solid
  refine ⟨same, fun root member usable part way => ?_⟩
  obtain ⟨slack, container, front, rest, plot, rfl, placed⟩ := stands.placed member usable way
  have sound := stands.standing.sound
  refine ⟨container, front, plot.inner, rest, placed.wellPlaced sound, ?_, ?_, ?_, placed.aside sound held own⟩
  · exact fun here => placed.site.container_free (here ▸ held)
  · exact fun here => placed.site.marked.start_free (here ▸ held)
  · exact fun here => placed.site.marked.stop_free (here ▸ held)

/-- A text that the hook kept becomes the text of the part once it stands there alone. -/
example : ((do
    let keeping : Client Unit := { Root.Example.wordless with hook? := some { ask := fun _ _ => pure .skip } }
    let root ← Root.create 0
    let root ← (root.render keeping (.keyed [(.int 1, .text "1")])).orThrow
    let root ← (root.render keeping (.keyed [])).orThrow
    let kept ← look (·.kindOf 5)
    let _ ← (root.render keeping (.text "y")).orThrow
    return (kept, ← look (·.kindOf 5)) : RenderM Unit (Option Kind × Option Kind)).runOn
      Root.Example.page).1 = .ok (some (.text "1"), some (.text "y")) := by
  cbv

end DomParts
