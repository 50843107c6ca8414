import DomParts.Proofs.Layout.Honest
import DomParts.Proofs.Layout.Workshop
import DomParts.Proofs.Render.Values

/-! # Templates

A template is an honest renderer if its values are. An instance that is shown already is worked on where
it is. A new one is completed while it stands alone; only then the old content goes and the instance
takes its place, so a failure on the way leaves the site as it was.
-/

namespace DomParts

namespace Subtree

theorem nodes_unfold (tree : Subtree) : tree.nodes = tree.id :: nodesOfAll tree.branches := by
  cases tree
  rfl

theorem forest_nodes {tree : Subtree} {id : NodeId} (member : id ∈ nodesOfAll tree.forest) : id ∈ tree.nodes := by
  by_cases fragment : tree.kind = .fragment
  · rw [forest, if_pos fragment] at member
    rw [nodes_unfold]
    exact List.mem_cons_of_mem _ member
  · rw [forest, if_neg fragment] at member
    simpa [nodesOfAll] using member

theorem nodup_forest {tree : Subtree} (distinct : tree.nodes.Nodup) : (nodesOfAll tree.forest).Nodup := by
  by_cases fragment : tree.kind = .fragment
  · rw [nodes_unfold, List.nodup_cons] at distinct
    rw [forest, if_pos fragment]
    exact distinct.2
  · rw [forest, if_neg fragment]
    simpa [nodesOfAll] using distinct

end Subtree

namespace TemplateInstance

variable {σ : Type}

/-- Makes an instance and gives it its values while it stands alone. -/
def complete (shared : SharedTemplate) (values : List (Rendering σ)) : RenderM σ (TemplateInstance × NodeId) := do
  let (shown, fragment) ← create shared
  return (← (shown.update values).orThrow, fragment)

theorem bind_complete {α : Type} (shared : SharedTemplate) (values : List (Rendering σ))
    (next : TemplateInstance → NodeId → RenderM σ α) :
    (do
      let (shown, fragment) ← create shared
      let shown ← (shown.update values).orThrow
      next shown fragment) = (do
      let (shown, fragment) ← complete shared values
      next shown fragment) := by
  simp only [complete, bind_assoc, pure_bind]

end TemplateInstance

namespace Layout

open RenderM
open Subtree (Spot nodesOfAll spotsOfAll)

variable {σ : Type}

namespace Realm

variable {realm : Realm σ} {world now after : World σ} {container : NodeId} {front rest : List NodeId}
  {plot : Plot} {slack : Slack} {taken : List NodeId} {tree : Tree}
  {shared : SharedTemplate} {original copy : Subtree} {values : List (Rendering σ)} {fittings : List Fitting}

/-- A change that works on nothing that was there before takes guests from a site at most. New nodes may
    count as the part's own from then on. -/
theorem Site.aside {touched : NodeId → Prop} {extra : List NodeId}
    (site : realm.Site world container front rest plot) (sound : realm.Sound world)
    (change : realm.Change world after touched taken)
    (untouched : ∀ id, world.tree.size > id → ¬ touched id) (distinct : extra.Nodup)
    (present : ∀ id ∈ extra, after.tree.size > id) (unstocked : ∀ id ∈ extra, ¬ realm.stock after.scene id)
    (new : ∀ id ∈ extra, world.tree.size ≤ id ∨ id ∈ taken) :
    realm.Outcome world after container front rest plot taken
      { plot with
        inner := plot.inner.filter (· ∉ taken)
        owned := plot.owned.filter (· ∉ taken) ++ extra } := by
  have room := site.container_exists sound
  have container_left := not_taken change.guests site.container_own
  have spared := change.spared container room (untouched container room)
  have start := not_taken change.guests site.marked.start_own
  have stop := not_taken change.guests site.marked.stop_own
  have widened : realm.Change world after (fun id => id = container ∨ id ∈ plot.owned) taken :=
    change.widen (fun id inside touch => absurd touch (untouched id inside)) sound
  have free : ¬ after.kept container := fun kept =>
    (change.handed container kept).elim site.container_free (untouched container room)
  have origin : ∀ id ∈ plot.owned.filter (· ∉ taken) ++ extra,
      id ∈ plot.owned ∨ world.tree.size ≤ id ∨ id ∈ taken := by
    intro id member
    rcases List.mem_append.1 member with old | member
    · exact .inl (List.mem_of_mem_filter old)
    · exact .inr (new id member)
  refine ⟨widened, widened.site sound site free (spared.parentOf container_left) rfl rfl ?listed ?distinct ?inside
    ?present ?unstocked origin, rfl,
    rfl, origin, spared.kindOf, spared.parentOf container_left⟩
  case listed =>
    rw [spared.childrenOf, site.listed]
    simp [Plot.nodes, start, stop]
  case distinct =>
    refine (site.owned_nodup.filter _).append distinct fun id old member => ?_
    obtain ⟨owned, left⟩ := List.mem_filter.1 old
    rcases new id member with beyond | gone
    · exact Nat.not_lt.2 beyond (site.present id owned)
    · simp [gone] at left
  case inside =>
    intro id member
    obtain ⟨here, left⟩ := List.mem_filter.1 member
    exact List.mem_append_left _ (List.mem_filter.2 ⟨site.inside id here, left⟩)
  case present =>
    intro id member
    rcases List.mem_append.1 member with old | member
    · exact Nat.lt_of_lt_of_le (site.present id (List.mem_of_mem_filter old)) change.size_le
    · exact present id member
  case unstocked =>
    intro id member beyond
    rcases List.mem_append.1 member with old | member
    · exact absurd (site.present id (List.mem_of_mem_filter old)) (Nat.not_lt.2 beyond)
    · exact unstocked id member

/-- A change that neither works on what was there before nor takes guests leaves a site as it is. -/
theorem Site.untouched (site : realm.Site world container front rest plot) (sound : realm.Sound world)
    (change : realm.Change world after (fun _ => False) []) :
    realm.Outcome world after container front rest plot [] plot := by
  have aside := site.aside sound change (fun _ _ => id) (List.nodup_nil (α := NodeId)) (by simp) (by simp) (by simp)
  simpa using aside

theorem Outcome.later {new : Plot} (site : realm.Site world container front rest plot) (sound : realm.Sound world)
    (change : realm.Change world now (fun _ => False) [])
    (outcome : realm.Outcome now after container front rest plot taken new) :
    realm.Outcome world after container front rest plot taken new := by
  have room := site.container_exists sound
  have spared := change.spared container room not_false
  have free : ¬ now.kept container := fun kept => site.container_free ((change.held not_false).1 kept)
  have both := outcome.pursue sound change free fun id owned =>
    ⟨site.present id owned, not_false, List.not_mem_nil⟩
  refine ⟨?_, outcome.site, outcome.start, outcome.stop, ?_, outcome.container_kind.trans spared.kindOf,
    outcome.container_parent.trans (spared.parentOf List.not_mem_nil)⟩
  · simpa using both
  · exact fun id member => (outcome.origin id member).imp_right (Or.imp_left (Nat.le_trans change.size_le))

theorem leads_later {act : RenderM σ Content} {leaves : List NodeId}
    (site : realm.Site world container front rest plot) (sound : realm.Sound world)
    (change : realm.Change world now (fun _ => False) [])
    (leads : act.Leads now.scene
      (fun content scene => ∃ kept taken inner owned,
        realm.Done now ⟨scene, kept⟩ container front rest plot slack leaves content taken inner owned)
      (fun _ scene => ∃ kept taken new,
        realm.Failed now ⟨scene, kept⟩ container front rest plot leaves taken new)) :
    act.Leads now.scene
      (fun content scene => ∃ kept taken inner owned,
        realm.Done world ⟨scene, kept⟩ container front rest plot slack leaves content taken inner owned)
      (fun _ scene => ∃ kept taken new,
        realm.Failed world ⟨scene, kept⟩ container front rest plot leaves taken new) := by
  refine leads.mono ?_ ?_
  · rintro content scene ⟨kept, taken, inner, owned, done⟩
    exact ⟨kept, taken, inner, owned, done.outcome.later site sound change, done.among, done.shows, done.texts,
      fun item member => (done.lists item member).imp_left (Nat.le_trans change.size_le)⟩
  · rintro error scene ⟨kept, taken, new, failed⟩
    exact ⟨kept, taken, new, failed.outcome.later site sound change, failed.among⟩

namespace Copied

variable (copied : realm.Copied world tree shared original copy)
include copied

theorem root_apart : copy.id ∉ nodesOfAll copy.branches := by
  have distinct := copied.nodup
  rw [Subtree.nodes_unfold, List.nodup_cons] at distinct
  exact distinct.1

theorem failed (site : realm.Site world container front rest plot) {scene : Scene σ}
    (broken : (realm.workshop world slack shared copy values).Broken scene) :
    ∃ kept taken new, realm.Failed world ⟨scene, kept⟩ container front rest plot (leavesIn values)
      taken new := by
  obtain ⟨kept, touched, taken, fittings, headway⟩ := broken
  have outcome := site.aside copied.sound headway.change (fun id inside touch => headway.within id inside touch)
    (List.nodup_nil (α := NodeId)) (by simp) (by simp) (by simp)
  exact ⟨kept, taken, _, outcome, headway.among⟩

theorem made {touched : NodeId → Prop}
    (headway : (realm.workshop world slack shared copy values).Headway now touched taken fittings)
    (site : realm.Site world container front rest plot) :
    realm.Outcome world now container front rest plot taken
      { plot with
        inner := plot.inner.filter (· ∉ taken)
        owned := plot.owned.filter (· ∉ taken) ++ (copy.nodes ++ claimedBy fittings) } := by
  have bench := headway.bench
  have lined : ∀ id ∈ copy.nodes, ∃ line ∈ (realm.workshop world slack shared copy values).lines.map
      (Line.without taken), line.id = id := by
    intro id member
    obtain ⟨spot, listed, rfl⟩ := Subtree.mem_nodes.1 member
    exact ⟨_, List.mem_map_of_mem (List.mem_map_of_mem listed), rfl⟩
  refine site.aside copied.sound headway.change (fun id inside touch => headway.within id inside touch) ?_ ?_ ?_ ?_
  · refine copied.nodup.append bench.distinct fun id member claimed => ?_
    obtain ⟨line, listed, rfl⟩ := lined id member
    exact bench.foreign line listed claimed
  · intro id member
    rcases List.mem_append.1 member with here | claimed
    · obtain ⟨line, listed, rfl⟩ := lined id here
      exact bench.line_exists listed
    · exact bench.present id claimed
  · intro id member
    rcases List.mem_append.1 member with here | claimed
    · obtain ⟨line, listed, rfl⟩ := lined id here
      exact (bench.own line listed).2.2
    · exact bench.unstocked id claimed
  · intro id member
    rcases List.mem_append.1 member with here | claimed
    · exact .inl (copied.fresh here).1
    · exact (headway.origin id claimed).resolve_left fun none => none

/-- Putting the copy in front of the end marker of an empty part goes through. What comes there are the
    topmost nodes of the instance, and they are children of nothing that the instance goes on to own. -/
theorem insert (lawful : realm.Lawful) {ahead later : List NodeId} {others : List NodeId}
    (headway : (realm.workshop world slack shared copy values).Headway now touched taken fittings)
    (fit : List.Forall₂ (Fits (nodesOfAll copy.branches)) shared.template.slots fittings)
    {bare : Scene σ} (sound : realm.Sound ⟨bare, now.kept⟩)
    (site : realm.Site ⟨bare, now.kept⟩ container ahead later
      { plot with inner := [], owned := others ++ (copy.nodes ++ claimedBy fittings) })
    (parents : ∀ id ∈ copy.nodes ++ claimedBy fittings, bare.tree.parentOf id = now.tree.parentOf id)
    (children : ∀ id ∈ copy.nodes, bare.tree.childrenOf id = now.tree.childrenOf id)
    (kinds : ∀ id, bare.tree.kindOf id = now.tree.kindOf id) :
    (plot.part.insertContent copy.id).Leads bare
      (fun _ full =>
        bare.tree.Inserted full.tree container (weave fittings (copy.forest.map Subtree.id)) (some plot.part.stop) ∧
        realm.Outcome ⟨bare, now.kept⟩ ⟨full, now.kept⟩ container ahead later
          { plot with inner := [], owned := others ++ (copy.nodes ++ claimedBy fittings) } []
          { plot with
            inner := weave fittings (copy.forest.map Subtree.id)
            owned := others ++ (copy.nodes ++ claimedBy fittings) } ∧
        ∀ id ∈ weave fittings (copy.forest.map Subtree.id), ∀ parent, now.tree.parentOf id = some parent →
          parent ∉ nodesOfAll copy.forest ++ claimedBy fittings)
      (fun _ _ => False) := by
  have bench := headway.bench
  have top : (⟨copy.id, copy.kind, copy.branches.map Subtree.id⟩ : Spot) ∈ copy.spots := by
    rw [Subtree.spots_eq]
    exact List.mem_cons_self ..
  have own : copy.id ∈ copy.nodes := by
    rw [Subtree.nodes_unfold]
    exact List.mem_cons_self ..
  have line := List.mem_map_of_mem (f := Line.without taken) (List.mem_map_of_mem (f := Line.ofSpot) top)
  have below : now.tree.childrenOf copy.id = weave fittings (copy.branches.map Subtree.id) := by
    simpa [Line.without, Line.ofSpot] using bench.listed _ line
  have foreign : copy.id ∉ claimedBy fittings := bench.foreign _ line
  have kind : bare.tree.kindOf copy.id = some copy.kind := (kinds _).trans headway.kind
  have owned : copy.id ∈ others ++ (copy.nodes ++ claimedBy fittings) := by simp [own]
  by_cases fragment : copy.kind = .fragment
  · have forest : copy.forest = copy.branches := if_pos fragment
    have moved : bare.tree.childrenOf copy.id = weave fittings (copy.forest.map Subtree.id) := by
      rw [children _ own, below, forest]
    have among : ∀ id ∈ weave fittings (copy.forest.map Subtree.id), id ∈ copy.nodes ++ claimedBy fittings :=
      weave_subset bench.inside fun id here => Subtree.forest_nodes (mem_tops here)
    have done := site.insertContent_fragment lawful sound copy.id owned
      (copied.foreign (copied.fresh own).1).1 (kind.trans (congrArg some fragment)) (by
        rw [moved]
        exact fun id member => List.mem_append_right _ (among id member))
    rw [moved] at done
    refine done.mono (fun _ full done => ⟨done.1, done.2, ?_⟩) fun _ _ none => none
    intro id member parent above
    rw [← parents id (among id member), sound.wellFormed.parentOf_of_mem (moved ▸ member)] at above
    cases above
    rw [forest, List.mem_append, not_or]
    exact ⟨copied.root_apart, foreign⟩
  · have forest : copy.forest = [copy] := if_neg fragment
    have unbound : ∀ plot, .node plot ∈ fittings → plot.part.start ≠ copy.id := fun plot member same =>
      copied.root_apart (same ▸ start_mem_reach fit member)
    have moved : weave fittings (copy.forest.map Subtree.id) = [copy.id] := by
      rw [forest, List.map_singleton, weave_cons, behind_eq_nil unbound]
      rfl
    have alone : bare.tree.parentOf copy.id = none :=
      (parents _ (List.mem_append_left _ own)).trans headway.parent
    rw [moved]
    refine (site.insertContent_alone lawful sound owned alone (by simp [kind, fragment])).mono
      (fun _ full done => ⟨done.1, done.2, ?_⟩) fun _ _ none => none
    intro id member parent above
    rw [List.mem_singleton.1 member, show now.tree.parentOf copy.id = none from headway.parent] at above
    cases above

/-- The instance keeps its layout while it is put in place of the old content. -/
theorem placed
    (mending : (realm.workshop world slack shared copy values).Mending now fittings [] values)
    {bare full : Scene σ} {gone : List NodeId} {stop : NodeId}
    (sound : realm.Sound now) (bare_sound : realm.Sound ⟨bare, now.kept⟩)
    (cleared : bare.tree = now.tree.detachAll gone)
    (inner : ∀ id ∈ gone, now.tree.parentOf id = some container)
    (away : container ∉ nodesOfAll copy.forest ++ claimedBy fittings)
    (shapes : ∀ shared original, realm.shape now.scene shared original → realm.shape full shared original)
    (inserted : bare.tree.Inserted full.tree container (weave fittings (copy.forest.map Subtree.id)) (some stop))
    (parents : ∀ id ∈ weave fittings (copy.forest.map Subtree.id), ∀ parent, now.tree.parentOf id = some parent →
      parent ∉ nodesOfAll copy.forest ++ claimedBy fittings) :
    realm.Shows ⟨full, now.kept⟩ (slack.after (leavesIn values)) (.template ⟨shared, fittings.map Fitting.part⟩)
      (weave fittings (copy.forest.map Subtree.id)) (nodesOfAll copy.forest ++ claimedBy fittings) := by
  have shows := mending.shows copied.clones
  have alike : ∀ id ∈ nodesOfAll copy.forest ++ claimedBy fittings, now.tree.Alike full.tree [] id := by
    intro id member
    have elsewhere : id ≠ container := fun same => away (same ▸ member)
    have old : bare.tree.childrenOf id = now.tree.childrenOf id := by
      rw [cleared, Tree.childrenOf_detachAll sound.wellFormed, Edits.childrenOf_unmoved sound.wellFormed]
      exact fun child here above => elsewhere (Option.some.inj (above.symm.trans (inner child here)))
    refine ⟨(inserted.kindOf id).trans (cleared ▸ Tree.kindOf_detachAll), ?_⟩
    rw [inserted.childrenOf, if_neg elsewhere, Edits.childrenOf_unmoved bare_sound.wellFormed, old]
    · simp
    · intro child here above
      refine parents child here id ?_ member
      have above : bare.tree.parentOf child = some id := above
      rw [cleared, Tree.parentOf_detachAll] at above
      split at above
      · cases above
      · exact above
  have carries : Carries (realm.premises now (slack.after (leavesIn values)))
      (realm.premises ⟨full, now.kept⟩ (slack.after (leavesIn values))) now.tree full.tree []
      (nodesOfAll copy.forest ++ claimedBy fittings) :=
    ⟨fun _ => id, fun _ _ => id, ⟨fun _ => id, fun _ _ lost => lost.resolve_right (by simp)⟩, shapes, id, id, rfl,
      by simp, fun _ _ => Iff.rfl, alike⟩
  simpa using shows.carry carries

theorem install (lawful : realm.Lawful) (site : realm.Site world container front rest plot)
    (mending : (realm.workshop world slack shared copy values).Mending now fittings [] values) :
    (do
      plot.part.removeContent
      plot.part.insertContent copy.id
      return .template ⟨shared, fittings.map Fitting.part⟩ : RenderM σ Content).Leads now.scene
      (fun content scene => ∃ kept taken inner owned,
        realm.Done world ⟨scene, kept⟩ container front rest plot slack (leavesIn values) content taken inner owned)
      (fun _ _ => False) := by
  obtain ⟨touched, taken, headway, -⟩ := mending.headway
  rw [List.append_nil] at headway
  have fit := mending.fit
  rw [List.append_nil] at fit
  have made := copied.made headway site
  have sound := headway.change.sound
  have distinct := List.nodup_append'.1 made.site.owned_nodup
  have inner_old : ∀ id ∈ plot.inner.filter (· ∉ taken), id ∈ plot.owned.filter (· ∉ taken) := by
    intro id member
    obtain ⟨here, left⟩ := List.mem_filter.1 member
    exact List.mem_filter.2 ⟨site.inside id here, left⟩
  have kept_apart : ∀ id ∈ copy.nodes ++ claimedBy fittings, id ∉ plot.inner.filter (· ∉ taken) :=
    fun id new old => distinct.2.2 (inner_old id old) new
  have forest : ∀ id ∈ nodesOfAll copy.forest ++ claimedBy fittings, id ∈ copy.nodes ++ claimedBy fittings := by
    intro id member
    exact List.mem_append.2 ((List.mem_append.1 member).imp_left Subtree.forest_nodes)
  have container_new : container ∉ copy.nodes ++ claimedBy fittings := fun member =>
    made.site.container_new.2.2 (List.mem_append_right _ member)
  have room : ∀ id ∈ copy.nodes, id ≠ container := fun id member same =>
    container_new (List.mem_append_left _ (same ▸ member))
  rw [RenderM.leads_bind]
  refine (made.site.removeContent_leads lawful sound).mono ?_ fun _ _ none => none
  rintro - bare ⟨cleared, emptied⟩
  rw [RenderM.leads_bind]
  have children : ∀ id ∈ copy.nodes, bare.tree.childrenOf id = now.tree.childrenOf id := by
    intro id member
    rw [cleared, Tree.childrenOf_detachAll sound.wellFormed, Edits.childrenOf_unmoved sound.wellFormed]
    intro child inner above
    exact room id member (Option.some.inj (above.symm.trans (made.site.parentOf_inner sound inner)))
  have parents : ∀ id ∈ copy.nodes ++ claimedBy fittings, bare.tree.parentOf id = now.tree.parentOf id := by
    intro id member
    rw [cleared, Tree.parentOf_detachAll, if_neg (kept_apart id member)]
  have kinds : ∀ id, bare.tree.kindOf id = now.tree.kindOf id := fun _ => cleared ▸ Tree.kindOf_detachAll
  refine (copied.insert lawful headway fit emptied.change.sound emptied.site parents children kinds).mono ?_
    fun _ _ none => none
  rintro - full ⟨inserted, filled, upward⟩
  have shows := copied.placed mending sound emptied.change.sound cleared
    (fun _ => made.site.parentOf_inner sound) (fun member => container_new (forest _ member))
    (fun shared original shape => filled.change.shape _ _ (emptied.change.shape _ _ shape)) inserted upward
  have first := made.trans copied.sound emptied (fun _ kept free => absurd kept free) fun _ => .inr
  rw [filter_filter_not_mem, filter_filter_not_mem] at filled
  have whole := first.trans copied.sound filled (fun _ kept free => absurd kept free) fun _ => .inr
  rw [RenderM.leads_pure]
  refine ⟨now.kept, taken, _, _, ?_, headway.among, shows, fun _ => nofun, nofun⟩
  have bench := headway.bench
  simp only [List.append_nil] at whole
  refine whole.forget rfl rfl rfl ?_ ?_ fun id member => List.mem_append_right _ (forest id member)
  · exact headway.owned_nodup copied.clones (Subtree.nodup_forest copied.nodup)
  · exact weave_subset bench.inside fun id => mem_tops

end Copied

section Exchange

variable (lawful : realm.Lawful) (sound : realm.Sound world)
  (shape : realm.shape world.scene shared (world.tree.subtree shared.template.fragment))
  (honest : ∀ item ∈ values, realm.Honest item.value.leaves item.render)
  (admits : realm.Admits world.tree (leavesIn values))
include lawful sound shape honest admits

variable (slack) in
theorem complete_leads :
    let copy := (world.tree.subtree shared.template.fragment).renumber world.tree.size
    (TemplateInstance.complete shared values).Leads world.scene
      (fun made scene => ∃ kept fittings, made = (⟨shared, fittings.map Fitting.part⟩, copy.id) ∧
        (realm.workshop world slack shared copy values).Mending ⟨scene, kept⟩ fittings [] values)
      (fun _ scene => (realm.workshop world slack shared copy values).Broken scene) := by
  rw [TemplateInstance.complete, leads_bind]
  refine (create_leads slack values lawful sound (lawful.distinct _ _ _ shape)).imp ?_
  rintro _ scene ⟨fittings, rfl, mending⟩
  simp only [leads_bind, leads_pure]
  refine (mending.update lawful ⟨shared, fittings.map Fitting.part⟩ rfl honest admits).imp ?_
  rintro _ scene ⟨kept, others, rfl, mending⟩
  exact ⟨kept, others, rfl, mending⟩

theorem Site.exchange (site : realm.Site world container front rest plot) :
    (do
      let (shown, fragment) ← TemplateInstance.create shared
      let shown ← (shown.update values).orThrow
      plot.part.removeContent
      plot.part.insertContent fragment
      return .template shown : RenderM σ Content).Leads world.scene
      (fun content scene => ∃ kept taken inner owned,
        realm.Done world ⟨scene, kept⟩ container front rest plot slack (leavesIn values) content taken inner owned)
      (fun _ scene => ∃ kept taken new,
        realm.Failed world ⟨scene, kept⟩ container front rest plot (leavesIn values) taken new) := by
  have copied := copied_clone sound shape
  have completed := TemplateInstance.bind_complete shared values fun shown fragment => (do
    plot.part.removeContent
    plot.part.insertContent fragment
    return .template shown : RenderM σ Content)
  rw [completed, leads_bind]
  refine (complete_leads slack lawful sound shape honest admits).mono ?_ fun _ _ broken => copied.failed site broken
  rintro _ scene ⟨kept, fittings, rfl, mending⟩
  exact (copied.install lawful site mending).mono (fun _ _ done => done) fun _ _ none => none.elim

end Exchange

theorem honest_template (lawful : realm.Lawful) (kind : TemplateKind) (literal : Literal)
    (honest : ∀ item ∈ values, realm.Honest item.value.leaves item.render) :
    realm.Honest (leavesIn values) (Render.template realm.client kind literal values) := by
  intro world container front rest plot slack sound site shows admits
  rw [Render.template, leads_bind]
  refine (lawful.compiled world kind literal sound).mono ?_ ?_
  · rintro shared scene ⟨found, shape⟩
    split
    · rename_i shown same
      obtain ⟨content, serial⟩ := Content.instanceOf?_eq_some same
      have change := found.noted lawful .instanceUpdated nofun
      have remains := change.shows slack shows (fun id owned => ⟨site.present id owned, not_false⟩)
        ⟨fun _ => id, fun _ _ lost => lost.resolve_right List.not_mem_nil⟩
      simp only [List.not_mem_nil, not_false_eq_true, decide_true, List.filter_true] at remains
      have here := (site.untouched sound change).site
      simp only [List.not_mem_nil, not_false_eq_true, decide_true, List.filter_true] at here
      obtain ⟨original, forest, reach, fittings, parts, installed⟩ := here.installed change.sound content remains
      have updated := installed.update lawful parts rfl honest (change.admits admits)
      rw [leads_bind, leads_note]
      refine leads_later site sound change ?_
      rw [leads_bind]
      exact updated
    · have change := found.noted lawful .instanceStarted nofun
      have here := (site.untouched sound change).site
      simp only [List.not_mem_nil, not_false_eq_true, decide_true, List.filter_true] at here
      have idle : realm.Change ⟨scene, world.kept⟩ ⟨scene, world.kept⟩ (fun _ => False) [] :=
        .refl found.sound
      have shape := (idle.noted lawful .instanceStarted nofun).shape _ _ shape
      rw [leads_bind, leads_note]
      exact leads_later site sound change
        (here.exchange lawful change.sound shape honest (change.admits admits))
  · rintro error scene found
    exact ⟨world.kept, [], plot, site.untouched sound found, by simp⟩

end Realm

end Layout

end DomParts
