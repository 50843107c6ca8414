import DomParts.Proofs.Layout.Mending

/-! # Template instances

Once all parts of an instance were given their values, its clone has the layout of the instance. An
instance that is shown already is worked on where it is.
-/

namespace DomParts.Layout

open Subtree (Spot nodesOfAll spotsOfAll nodesOfAll_eq_spots mem_nodesOfAll top_or_child child_mem spot_mem)

variable {σ : Type}

theorem weave_subset {fittings : List Fitting} {ids nodes : List NodeId}
    (inside : ∀ plot, .node plot ∈ fittings → ∀ id ∈ plot.inner, id ∈ plot.owned)
    (among : ∀ id ∈ ids, id ∈ nodes) : ∀ id ∈ weave fittings ids, id ∈ nodes ++ claimedBy fittings := by
  intro id member
  rw [List.mem_append]
  rcases mem_weave.1 member with here | ⟨above, -, here⟩
  · exact .inl (among id here)
  · obtain ⟨plot, listed, -, here⟩ := mem_behind.1 here
    refine .inr (List.mem_flatMap.2 ⟨.node plot, listed, ?_⟩)
    simp only [Fitting.claimed, List.mem_cons]
    rcases List.mem_append.1 here with inner | last
    · exact .inr (inside plot listed id inner)
    · exact .inl (List.mem_singleton.1 last)

theorem element_mem_reach {reach : List NodeId} {slots : List Slot} {fittings : List Fitting}
    {part : AttributePart} (fit : List.Forall₂ (Fits reach) slots fittings)
    (member : .label part ∈ fittings) : part.element ∈ reach := by
  induction fit with
  | nil => cases member
  | @cons slot fitting _ _ fits _ ih =>
      rcases List.mem_cons.1 member with rfl | member
      · cases slot with
        | node index => exact fits.elim
        | «attribute» index name => exact List.mem_of_getElem? fits.1
      · exact ih member

namespace Job

variable {job : Job σ} {now after : World σ} {touched : NodeId → Prop} {taken : List NodeId}
  {fittings : List Fitting} {shared : SharedTemplate} {original : Subtree} {forest : List Subtree}

/-- The work is on a clone of this template. -/
structure Clones (job : Job σ) (shared : SharedTemplate) (original : Subtree) (forest : List Subtree) :
    Prop where
  shape : job.realm.shape job.start.scene shared original
  planted : Planted original forest job.reach
  slots : job.slots = shared.template.slots
  spots : job.spots = spotsOfAll forest
  lined : ∀ spot ∈ spotsOfAll forest, Line.ofSpot spot ∈ job.lines

theorem Clones.line (clones : job.Clones shared original forest) {spot : Spot}
    (listed : spot ∈ spotsOfAll forest) : Line.ofSpot spot ∈ job.lines.map (Line.without taken) :=
  List.mem_map.2 ⟨_, clones.lined spot listed, rfl⟩

theorem Clones.node (clones : job.Clones shared original forest) {id : NodeId}
    (member : id ∈ nodesOfAll forest) : ∃ line ∈ job.lines.map (Line.without taken), line.id = id := by
  obtain ⟨spot, listed, rfl⟩ := mem_nodesOfAll.1 member
  exact ⟨_, clones.line listed, rfl⟩

theorem Mending.shows (mending : job.Mending now fittings [] job.values)
    (clones : job.Clones shared original forest) :
    job.realm.Shows now (job.slack.after (leavesIn job.values))
      (.template ⟨shared, fittings.map Fitting.part⟩) (weave fittings (forest.map Subtree.id))
      (nodesOfAll forest ++ claimedBy fittings) := by
  obtain ⟨touched, taken, headway, -⟩ := mending.headway
  rw [List.append_nil] at headway
  have bench := headway.bench
  have fit := mending.fit
  rw [List.append_nil, clones.slots] at fit
  refine .template (headway.change.shape _ _ clones.shape) clones.planted rfl fit bench.starts ?_ ?_ ?_
    bench.marked mending.filled
  · intro id member
    obtain ⟨line, here, rfl⟩ := clones.node member
    exact ⟨(bench.own line here).1, (bench.own line here).2.1⟩
  · rw [← clones.spots]
    exact headway.kinds
  · intro spot listed
    simpa [Line.ofSpot] using bench.listed _ (clones.line listed)

theorem Headway.owned_nodup (headway : job.Headway now touched taken fittings)
    (clones : job.Clones shared original forest) (distinct : (nodesOfAll forest).Nodup) :
    (nodesOfAll forest ++ claimedBy fittings).Nodup := by
  refine distinct.append headway.bench.distinct fun id member again => ?_
  obtain ⟨line, here, rfl⟩ := clones.node member
  exact headway.bench.foreign line here again

end Job

namespace Realm

variable {realm : Realm σ} {world after : World σ} {container : NodeId} {front rest : List NodeId}
  {plot : Plot} {slack : Slack} {shown : TemplateInstance} {original : Subtree} {forest : List Subtree}
  {reach : List NodeId} {fittings : List Fitting}

/-- A clone among the children of a container, with the parts that are bound to it. -/
structure Settled (realm : Realm σ) (world : World σ) (container : NodeId) (front rest : List NodeId)
    (forest : List Subtree) (fittings : List Fitting) : Prop where
  listed : world.tree.childrenOf container = front ++ (weave fittings (forest.map Subtree.id) ++ rest)
  children : ∀ spot ∈ spotsOfAll forest, world.tree.childrenOf spot.id = weave fittings spot.children
  nodup : (container :: nodesOfAll forest).Nodup
  own : ∀ id ∈ container :: nodesOfAll forest, ¬ realm.guest id ∧ ¬ world.kept id ∧ ¬ realm.stock world.scene id
  exist : ∀ id ∈ nodesOfAll forest, world.tree.size > id
  marked : ∀ plot, .node plot ∈ fittings → Charted realm.survey realm.guest world.kept world.tree plot
  starts : (fittings.filterMap Fitting.start?).Nodup
  bound : ∀ plot, .node plot ∈ fittings → plot.part.start ∈ nodesOfAll forest
  distinct : (claimedBy fittings).Nodup
  foreign : ∀ id ∈ container :: nodesOfAll forest, id ∉ claimedBy fittings
  inside : ∀ plot, .node plot ∈ fittings → ∀ id ∈ plot.inner, id ∈ plot.owned
  present : ∀ id ∈ claimedBy fittings, world.tree.size > id
  unstocked : ∀ id ∈ claimedBy fittings, ¬ realm.stock world.scene id
  /-- Neither guests nor the nodes of the parts are the container or above it. -/
  apart : ∃ upward, world.tree.Upward upward ∧ upward container ∧
    ∀ id, upward id → id ∉ claimedBy fittings ∧ ¬ realm.guest id ∧ world.tree.size > id

theorem Settled.bench (settled : realm.Settled world container front rest forest fittings) (sound : world.tree.WellFormed) :
    realm.Bench world (⟨container, front, forest.map Subtree.id, rest⟩ :: (spotsOfAll forest).map Line.ofSpot)
      fittings := by
  have nodes : ∀ {spot}, spot ∈ spotsOfAll forest → spot.id ∈ container :: nodesOfAll forest := fun listed =>
    List.mem_cons_of_mem _ (spot_mem listed)
  constructor
  · simp only [List.forall_mem_cons, List.forall_mem_map]
    exact ⟨settled.listed, fun spot listed => by simpa [Line.ofSpot] using settled.children spot listed⟩
  · have ids : ((spotsOfAll forest).map Line.ofSpot).map Line.id = nodesOfAll forest := by
      rw [nodesOfAll_eq_spots, List.map_map]
      rfl
    rw [List.map_cons, ids]
    exact settled.nodup
  · simp only [List.forall_mem_cons, List.forall_mem_map]
    exact ⟨settled.own container (List.mem_cons_self ..), fun spot listed => settled.own spot.id (nodes listed)⟩
  · have spotted : ∀ id ∈ nodesOfAll forest, ∃ line ∈
        (⟨container, front, forest.map Subtree.id, rest⟩ : Line) :: (spotsOfAll forest).map Line.ofSpot, line.id = id := by
      intro id here
      obtain ⟨spot, listed, rfl⟩ := mem_nodesOfAll.1 here
      exact ⟨_, List.mem_cons_of_mem _ (List.mem_map_of_mem listed), rfl⟩
    exact List.forall_mem_cons.2 ⟨fun id top => spotted id (mem_tops top),
      List.forall_mem_map.2 fun spot listed id child => spotted id (child_mem listed child)⟩
  · exact settled.marked
  · exact settled.starts
  · intro plot member
    rcases top_or_child (settled.bound plot member) with top | ⟨spot, listed, child⟩
    · exact ⟨_, List.mem_cons_self .., top⟩
    · exact ⟨_, List.mem_cons_of_mem _ (List.mem_map_of_mem listed), child⟩
  · exact settled.distinct
  · simp only [List.forall_mem_cons, List.forall_mem_map]
    exact ⟨settled.foreign container (List.mem_cons_self ..), fun spot listed => settled.foreign spot.id (nodes listed)⟩
  · exact settled.inside
  · exact settled.present
  · exact settled.unstocked
  · obtain ⟨upward, closed, above, outside⟩ := settled.apart
    -- From the nodes of the clone, the way up leads through the clone to the container.
    refine ⟨fun id => upward id ∨ id ∈ nodesOfAll forest, ?_, ?_, ?_⟩
    · rintro child parent (up | here) link
      · exact .inl (closed child parent up link)
      · rcases top_or_child here with top | ⟨spot, listed, below⟩
        · have listed : child ∈ world.tree.childrenOf container := by
            rw [settled.listed]
            exact List.mem_append_right _ (List.mem_append_left _ (mem_weave.2 (.inl top)))
          cases (sound.parentOf_of_mem listed).symm.trans link
          exact .inl above
        · have child : child ∈ world.tree.childrenOf spot.id := by
            rw [settled.children spot listed]
            exact mem_weave.2 (.inl below)
          cases (sound.parentOf_of_mem child).symm.trans link
          exact .inr (spot_mem listed)
    · simp only [List.forall_mem_cons, List.forall_mem_map]
      exact ⟨.inl above, fun _ listed => .inr (spot_mem listed)⟩
    · rintro id (up | here)
      · exact outside id up
      · have node := List.mem_cons_of_mem container here
        exact ⟨settled.foreign id node, (settled.own id node).1, settled.exist id here⟩

def mending (realm : Realm σ) (world : World σ) (container : NodeId) (front rest : List NodeId) (plot : Plot)
    (slack : Slack) (shared : SharedTemplate) (forest : List Subtree) (reach : List NodeId)
    (values : List (Rendering σ)) : Job σ where
  realm := realm
  start := world
  home := container
  kind := world.tree.kindOf container
  parent := world.tree.parentOf container
  lines := ⟨container, front ++ [plot.part.start], forest.map Subtree.id, plot.part.stop :: rest⟩ ::
    (spotsOfAll forest).map Line.ofSpot
  spots := spotsOfAll forest
  reach := reach
  slots := shared.template.slots
  scope id := id = container ∨ id ∈ plot.owned
  slack := slack
  values := values

/-- A site that shows an instance. -/
structure Installed (realm : Realm σ) (world : World σ) (container : NodeId) (front rest : List NodeId)
    (plot : Plot) (slack : Slack) (shared : SharedTemplate) (original : Subtree) (forest : List Subtree)
    (reach : List NodeId) (fittings : List Fitting) : Prop where
  sound : realm.Sound world
  site : realm.Site world container front rest plot
  inner : plot.inner = weave fittings (forest.map Subtree.id)
  owned : plot.owned = nodesOfAll forest ++ claimedBy fittings
  shape : realm.shape world.scene shared original
  planted : Planted original forest reach
  fit : List.Forall₂ (Fits reach) shared.template.slots fittings
  distinct : (fittings.filterMap Fitting.start?).Nodup
  own : ∀ id ∈ nodesOfAll forest, ¬ realm.guest id ∧ ¬ world.kept id
  kinds : ∀ spot ∈ spotsOfAll forest, ∃ kind, world.tree.kindOf spot.id = some kind ∧
    Accords fittings spot.id spot.kind kind
  children : ∀ spot ∈ spotsOfAll forest, world.tree.childrenOf spot.id = weave fittings spot.children
  marked : ∀ plot, .node plot ∈ fittings →
    Charted realm.survey realm.guest world.kept world.tree plot
  nested : ∀ plot, .node plot ∈ fittings →
    realm.Shows world slack plot.part.content plot.inner plot.owned

theorem Site.installed (site : realm.Site world container front rest plot) (sound : realm.Sound world)
    (content : plot.part.content = .template shown)
    (shows : realm.Shows world slack plot.part.content plot.inner plot.owned) :
    ∃ original forest reach fittings, shown.parts = fittings.map Fitting.part ∧
      realm.Installed world container front rest plot slack shown.template original forest reach fittings := by
  obtain ⟨part, inner, owned⟩ := plot
  simp only at content shows
  rw [content] at shows
  cases shows with
  | row arranged => exact arranged.elim
  | @template _ original forest reach fittings shape planted parts fit distinct own kinds children marked
      nested =>
      exact ⟨original, forest, reach, fittings, parts, sound, site, rfl, rfl, shape, planted, fit, distinct, own,
        kinds, children, marked, nested⟩

namespace Installed

variable {shared : SharedTemplate} (installed : realm.Installed world container front rest plot slack shared
  original forest reach fittings)
include installed

theorem owned_split : (nodesOfAll forest).Nodup ∧ (claimedBy fittings).Nodup ∧
    (∀ id ∈ nodesOfAll forest, id ∉ claimedBy fittings) ∧ (∀ id ∈ nodesOfAll forest, id ∈ plot.owned) ∧
    ∀ id ∈ claimedBy fittings, id ∈ plot.owned := by
  have distinct := installed.site.owned_nodup
  rw [installed.owned] at distinct
  obtain ⟨first, second, apart⟩ := List.nodup_append'.1 distinct
  rw [installed.owned]
  exact ⟨first, second, fun id here again => apart here again, fun id => List.mem_append_left _,
    fun id => List.mem_append_right _⟩

variable {values : List (Rendering σ)}

theorem ready : (realm.mending world container front rest plot slack shared forest reach values).Ready where
  sound := installed.sound
  homely := ⟨_, List.mem_cons_self .., rfl⟩
  covered := by
    obtain ⟨-, -, -, among, -⟩ := installed.owned_split
    simp only [mending, List.mem_cons, List.mem_map]
    rintro line (rfl | ⟨spot, listed, rfl⟩) -
    · exact .inl rfl
    · exact .inr (among _ (spot_mem listed))
  spotted := by
    simp only [mending, List.mem_cons, List.mem_map]
    exact fun _ listed => ⟨_, .inr ⟨_, listed, rfl⟩, rfl⟩

theorem clones : (realm.mending world container front rest plot slack shared forest reach values).Clones shared
    original forest where
  shape := installed.shape
  planted := installed.planted
  slots := rfl
  spots := rfl
  lined _ listed := List.mem_cons_of_mem _ (List.mem_map_of_mem listed)

theorem bench (values : List (Rendering σ)) : realm.Bench world
    (realm.mending world container front rest plot slack shared forest reach values).lines fittings := by
  obtain ⟨nodes, claims, apart, nodesOwned, claimsOwned⟩ := installed.owned_split
  have site := installed.site
  have unstocked : ∀ id ∈ plot.owned, ¬ realm.stock world.scene id := fun id owned =>
    site.unstocked id (by simp [Plot.claimed, owned])
  have outside : container ∉ plot.owned := site.container_new.2.2
  have settled : realm.Settled world container (front ++ [plot.part.start]) (plot.part.stop :: rest) forest fittings := {
    listed := by
      rw [site.listed, Plot.nodes, installed.inner]
      simp
    children := installed.children
    nodup := List.nodup_cons.2 ⟨fun here => outside (nodesOwned _ here), nodes⟩
    own := by
      refine List.forall_mem_cons.2 ⟨⟨site.container_own, site.container_free, site.unstocked _ (List.mem_cons_self ..)⟩, ?_⟩
      exact fun id here => ⟨(installed.own id here).1, (installed.own id here).2, unstocked id (nodesOwned id here)⟩
    exist := fun id here => site.present id (nodesOwned id here)
    marked := installed.marked
    starts := installed.distinct
    bound := fun plot member => installed.planted.mem_nodes (start_mem_reach installed.fit member)
    distinct := claims
    foreign := List.forall_mem_cons.2 ⟨fun here => outside (claimsOwned _ here), apart⟩
    inside := fun plot member => (installed.nested plot member).inner_subset
    present := fun id here => site.present id (claimsOwned id here)
    unstocked := fun id here => unstocked id (claimsOwned id here)
    apart := by
      obtain ⟨upward, closed, above, outside⟩ := site.apart
      refine ⟨upward, closed, above, fun id up => ?_⟩
      obtain ⟨unowned, own, inside⟩ := outside id up
      exact ⟨fun claimed => unowned (claimsOwned id claimed), own, inside⟩ }
  exact settled.bench installed.sound.wellFormed

theorem begin : (realm.mending world container front rest plot slack shared forest reach values).Mending world []
    fittings [] := by
  obtain ⟨-, -, -, nodesOwned, claimsOwned⟩ := installed.owned_split
  refine ⟨installed.ready, ⟨fun _ => False, [], ⟨.refl installed.sound, ?within, ?origin, ?among, ?bench, rfl, rfl,
    installed.kinds, ?labels⟩, ?pending⟩, installed.fit, by simp, ?waiting⟩
  case within => exact fun _ _ none => none.elim
  case origin => exact fun id claimed => .inl (.inr (claimsOwned id claimed))
  case among => simp
  case bench =>
    rw [lines_without_nil]
    exact installed.bench _
  case labels =>
    intro part member
    have here : part.element ∈ nodesOfAll forest :=
      installed.planted.mem_nodes (element_mem_reach installed.fit member)
    have away : part.element ≠ container := fun same =>
      installed.site.container_new.2.2 (same ▸ nodesOwned _ here)
    refine ⟨away, ?_⟩
    obtain ⟨spot, listed, same⟩ := mem_nodesOfAll.1 here
    exact ⟨_, List.mem_cons_of_mem _ (List.mem_map_of_mem listed), same⟩
  case pending =>
    intro plot member id owned
    have claimed := Bench.claimed_of_owned member owned
    exact ⟨installed.site.present id (claimsOwned id claimed), not_false, by simp⟩
  case waiting =>
    intro plot member
    refine (installed.nested plot member).weaken ⟨fun _ wanted => wanted, fun id _ lost => ?_⟩
    exact .inl (lost.resolve_right (by simp))

theorem outcome {after : World σ} {touched : NodeId → Prop} {taken : List NodeId} {others : List Fitting}
    {part : NodePart} (start : part.start = plot.part.start) (stop : part.stop = plot.part.stop)
    (headway : (realm.mending world container front rest plot slack shared forest reach values).Headway after
      touched taken others) :
    realm.Outcome world after container front rest plot taken
      ⟨part, weave others (forest.map Subtree.id), nodesOfAll forest ++ claimedBy others⟩ := by
  obtain ⟨nodes, -, -, nodesOwned, -⟩ := installed.owned_split
  have bench := headway.bench
  have clones : (realm.mending world container front rest plot slack shared forest reach values).Clones shared
      original forest := installed.clones
  have holder : (⟨container, (front ++ [plot.part.start]).filter (· ∉ taken), forest.map Subtree.id,
      (plot.part.stop :: rest).filter (· ∉ taken)⟩ : Line) ∈
      (realm.mending world container front rest plot slack shared forest reach values).lines.map
        (Line.without taken) := List.mem_cons_self ..
  have change : realm.Change world after (fun id => id = container ∨ id ∈ plot.owned) taken :=
    headway.change.widen headway.within installed.sound
  have origin : ∀ id ∈ nodesOfAll forest ++ claimedBy others,
      id ∈ plot.owned ∨ world.tree.size ≤ id ∨ id ∈ taken := by
    intro id member
    rcases List.mem_append.1 member with here | claimed
    · exact .inl (nodesOwned id here)
    · refine (headway.origin id claimed).imp_left fun inside => inside.resolve_left ?_
      rintro rfl
      exact bench.foreign _ holder claimed
  refine ⟨change, change.site installed.sound installed.site (bench.own _ holder).2.1 headway.parent start stop
    ?listed (headway.owned_nodup clones nodes) ?inside ?present ?unstocked origin, start, stop, origin, headway.kind, headway.parent⟩
  case listed =>
    have first := not_taken change.guests installed.site.marked.start_own
    have last := not_taken change.guests installed.site.marked.stop_own
    rw [bench.listed _ holder]
    simp [Plot.nodes, start, stop, first, last]
  case inside => exact weave_subset bench.inside fun id => mem_tops
  case present =>
    intro id member
    rcases List.mem_append.1 member with here | claimed
    · exact Nat.lt_of_lt_of_le (installed.site.present id (nodesOwned id here)) change.size_le
    · exact bench.present id claimed
  case unstocked =>
    intro id member _
    rcases List.mem_append.1 member with here | claimed
    · obtain ⟨line, listed, rfl⟩ := clones.node here
      exact (bench.own line listed).2.2
    · exact bench.unstocked id claimed

theorem update (lawful : realm.Lawful) (parts : shown.parts = fittings.map Fitting.part)
    (template : shown.template = shared)
    (honest : ∀ item ∈ values, realm.Honest item.value.leaves item.render)
    (admits : realm.Admits world.tree (leavesIn values)) :
    (shown.update values).orThrow.Leads world.scene
      (fun new scene => ∃ kept taken inner owned, realm.Done world ⟨scene, kept⟩ container front rest plot slack
        (leavesIn values) (.template new) taken inner owned)
      (fun _ scene => ∃ kept taken new,
        realm.Failed world ⟨scene, kept⟩ container front rest plot (leavesIn values) taken new) := by
  have begun : (realm.mending world container front rest plot slack shared forest reach values).Mending world []
      fittings [] := installed.begin
  refine (begun.update lawful shown parts honest admits).mono ?_ ?_
  · rintro _ scene ⟨kept, others, rfl, mending⟩
    obtain ⟨touched, taken, headway, -⟩ := mending.headway
    rw [List.append_nil] at headway
    have shows := mending.shows installed.clones
    exact ⟨kept, taken, _, _, installed.outcome rfl rfl headway, headway.among, template ▸ shows, fun _ => nofun,
      nofun⟩
  · rintro error scene ⟨kept, touched, taken, others, headway⟩
    exact ⟨kept, taken, ⟨plot.part, _, _⟩, installed.outcome rfl rfl headway, headway.among⟩

end Installed

end Realm

end DomParts.Layout
