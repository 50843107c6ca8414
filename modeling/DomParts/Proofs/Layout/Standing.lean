import DomParts.Proofs.Layout.Commit

/-! # Parts beside each other

Several parts may stand in one tree, some in the same container. Work on one of them leaves the others
where they are, but for guests that are taken from them.
-/

namespace DomParts.Layout

variable {σ : Type}

/-- How far a layout may fall short once some guests were taken. -/
def Slack.missing (slack : Slack) (taken : List NodeId) : Slack :=
  { slack with lost := fun id => slack.lost id ∨ id ∈ taken }

/-- A part with the node that it stands in and with how far its layout may fall short. -/
structure Lot where
  container : NodeId
  plot : Plot
  slack : Slack

def Lot.without (taken : List NodeId) (lot : Lot) : Lot :=
  { lot with plot := lot.plot.without taken, slack := lot.slack.missing taken }

theorem lots_without_nil (lots : List Lot) : lots.map (Lot.without []) = lots := by
  have same : Lot.without [] = id := funext fun lot => by simp [Lot.without, Plot.without, Slack.missing]
  rw [same, List.map_id]

theorem parts_without (taken : List NodeId) (lots : List Lot) :
    (lots.map (Lot.without taken)).map (·.plot.part) = lots.map (·.plot.part) := by
  simp [Lot.without]

theorem split_lots {lots : List Lot} {left right : List NodePart} {part : NodePart}
    (parts : lots.map (·.plot.part) = left ++ part :: right) :
    ∃ ahead lot behind, lots = ahead ++ lot :: behind ∧ ahead.map (·.plot.part) = left ∧ lot.plot.part = part ∧
      behind.map (·.plot.part) = right := by
  obtain ⟨ahead, more, rfl, first, second⟩ := List.map_eq_append_iff.1 parts
  obtain ⟨lot, behind, rfl, here, last⟩ := List.map_eq_cons_iff.1 second
  exact ⟨ahead, lot, behind, rfl, first, here, last⟩

/-- Two runs of a list that have nothing in common come one after the other. -/
theorem runs_apart {front nodes rest front' nodes' rest' : List NodeId}
    (same : front ++ (nodes ++ rest) = front' ++ (nodes' ++ rest')) (filled : nodes ≠ []) (filled' : nodes' ≠ [])
    (apart : ∀ id ∈ nodes, id ∉ nodes') :
    (∃ between, front = front' ++ (nodes' ++ between) ∧ rest' = between ++ (nodes ++ rest)) ∨
      ∃ between, rest = between ++ (nodes' ++ rest') ∧ front' = front ++ (nodes ++ between) := by
  -- The run that begins first also ends before the other begins, as a node of both would be left otherwise.
  have follows : ∀ {one two later last : List NodeId} {skipped : List NodeId}, two ≠ [] → (∀ id ∈ one, id ∉ two) →
      one ++ later = skipped ++ (two ++ last) →
      ∃ between, skipped = one ++ between ∧ later = between ++ (two ++ last) := by
    intro one two later last skipped some apart same
    rcases List.append_eq_append_iff.1 same with ⟨between, skips, ends⟩ | ⟨between, first, ends⟩
    · exact ⟨between, skips, ends⟩
    · cases between with
      | nil => exact ⟨[], by simpa using first.symm, by simpa using ends.symm⟩
      | cons id between =>
          cases two with
          | nil => exact absurd rfl some
          | cons other two =>
              rw [List.cons_append, List.cons_append, List.cons.injEq] at ends
              exact absurd (List.mem_cons_self ..) (apart other (by simp [first, ends.1]))
  rcases List.append_eq_append_iff.1 same with ⟨skipped, starts, onward⟩ | ⟨skipped, starts, onward⟩
  · obtain ⟨between, rfl, rfl⟩ := follows filled' apart onward
    exact .inr ⟨between, rfl, starts⟩
  · obtain ⟨between, rfl, rfl⟩ := follows filled (fun id here again => apart id again here) onward
    exact .inl ⟨between, starts, rfl⟩

namespace Realm

variable {realm : Realm σ} {world before after : World σ} {container other : NodeId}
  {front rest front' rest' : List NodeId} {plot beside new : Plot} {slack : Slack}
  {taken : List NodeId}

theorem Site.claimed_of_nodes (site : realm.Site world container front rest plot) {id : NodeId}
    (member : id ∈ plot.nodes) : id ∈ plot.claimed := by
  simp only [Plot.nodes, List.mem_cons, List.mem_append, List.not_mem_nil, or_false] at member
  simp only [Plot.claimed, List.mem_cons]
  rcases member with rfl | inner | rfl
  · exact .inl rfl
  · exact .inr (.inr (site.inside id inner))
  · exact .inr (.inl rfl)

theorem Site.claimed_exists (site : realm.Site world container front rest plot) :
    ∀ id ∈ plot.claimed, world.tree.size > id := by
  simp only [Plot.claimed, List.mem_cons]
  rintro id (rfl | rfl | owned)
  · exact Tree.lt_size_of_kindOf site.marked.start
  · exact Tree.lt_size_of_kindOf site.marked.stop
  · exact site.present id owned

section Beside

variable (site : realm.Site before container front rest plot) (sound : realm.Sound before)
  (neighbour : realm.Site before other front' rest' beside)
  (outcome : realm.Outcome before after container front rest plot taken new)
  (apart : ∀ id ∈ plot.claimed, id ∉ beside.claimed)
include site sound neighbour outcome apart

theorem Site.listed_beside (outside : other ∉ plot.owned) : ∃ front rest,
    after.tree.childrenOf other = front ++ ((beside.without taken).nodes ++ rest) := by
  have unmarked : beside.part.start ∉ taken ∧ beside.part.stop ∉ taken :=
    ⟨not_taken outcome.change.guests neighbour.marked.start_own,
      not_taken outcome.change.guests neighbour.marked.stop_own⟩
  have nodes : (beside.without taken).nodes = beside.nodes.filter (· ∉ taken) :=
    Plot.nodes_without unmarked.1 unmarked.2
  by_cases here : other = container
  · subst here
    have same := site.listed.symm.trans neighbour.listed
    rcases runs_apart same (by simp [Plot.nodes]) (by simp [Plot.nodes]) (fun id member again =>
        apart id (site.claimed_of_nodes member) (neighbour.claimed_of_nodes again)) with
      ⟨between, rfl, -⟩ | ⟨between, rfl, -⟩
    · exact ⟨front'.filter (· ∉ taken), between.filter (· ∉ taken) ++ (new.nodes ++ rest.filter (· ∉ taken)), by
        rw [outcome.site.listed, nodes]; simp⟩
    · exact ⟨front.filter (· ∉ taken) ++ (new.nodes ++ between.filter (· ∉ taken)), rest'.filter (· ∉ taken), by
        rw [outcome.site.listed, nodes]; simp⟩
  · have spared := outcome.change.spared other (neighbour.container_exists sound) (by simp [here, outside])
    exact ⟨front'.filter (· ∉ taken), rest'.filter (· ∉ taken), by
      rw [spared.childrenOf, neighbour.listed, nodes]; simp⟩

theorem Site.remains (outside : other ∉ plot.owned) (away : container ∉ beside.claimed)
    (above : ∃ upward, after.tree.Upward upward ∧ upward other ∧
      ∀ id, upward id → id ∉ beside.owned ∧ ¬ realm.guest id ∧ after.tree.size > id) :
    ∃ front rest, realm.Site after other front rest (beside.without taken) := by
  obtain ⟨ahead, later, listed⟩ := site.listed_beside sound neighbour outcome apart outside
  have untouched : ∀ id ∈ beside.claimed, ¬ (id = container ∨ id ∈ plot.owned) := by
    rintro id claimed (rfl | owned)
    · exact away claimed
    · exact apart id (by simp [Plot.claimed, owned]) claimed
  have unmarked : beside.part.start ∉ taken ∧ beside.part.stop ∉ taken :=
    ⟨not_taken outcome.change.guests neighbour.marked.start_own,
      not_taken outcome.change.guests neighbour.marked.stop_own⟩
  have claimed : (beside.without taken).claimed = beside.claimed.filter (· ∉ taken) :=
    Plot.claimed_without unmarked.1 unmarked.2
  have present : ∀ id ∈ other :: beside.claimed, before.tree.size > id :=
    List.forall_mem_cons.2 ⟨neighbour.container_exists sound, neighbour.claimed_exists⟩
  have fewer : ∀ id ∈ other :: (beside.without taken).claimed, id ∈ other :: beside.claimed := by
    rw [claimed]
    exact fun id member => (List.mem_cons.1 member).elim (fun same => same ▸ List.mem_cons_self ..)
      fun member => List.mem_cons_of_mem _ (List.mem_of_mem_filter member)
  refine ⟨ahead, later, listed, ?marked, neighbour.container_own, ?container_free, ?distinct, ?inside, ?present,
    ?unstocked, ?upward⟩
  case marked =>
    exact outcome.change.staked neighbour.marked (untouched _ (by simp [Plot.claimed]))
      (untouched _ (by simp [Plot.claimed])) rfl fun _ => List.mem_of_mem_filter
  case container_free =>
    intro kept
    rcases (outcome.change.handed other kept).resolve_left neighbour.container_free with rfl | owned
    · exact outcome.site.container_free kept
    · exact outside owned
  case distinct =>
    have distinct := List.nodup_cons.1 neighbour.distinct
    rw [claimed, List.nodup_cons]
    exact ⟨fun member => distinct.1 (List.mem_of_mem_filter member), distinct.2.filter _⟩
  case inside =>
    intro id inner
    obtain ⟨inner, left⟩ := List.mem_filter.1 inner
    exact List.mem_filter.2 ⟨neighbour.inside id inner, left⟩
  case present =>
    exact fun id owned => Nat.lt_of_lt_of_le (neighbour.present id (List.mem_of_mem_filter owned))
      outcome.change.size_le
  case unstocked =>
    intro id member stock
    exact neighbour.unstocked id (fewer id member) ((outcome.change.stock id (present id (fewer id member))).1 stock)
  case upward =>
    obtain ⟨upward, closed, here, outside⟩ := above
    exact ⟨upward, closed, here, fun id up =>
      ⟨fun owned => (outside id up).1 (List.mem_of_mem_filter owned), (outside id up).2⟩⟩

end Beside

theorem Outcome.new_claimed (outcome : realm.Outcome before after container front rest plot taken new)
    {id : NodeId} (member : id ∈ new.claimed) : id ∈ plot.claimed ∨ before.tree.size ≤ id ∨ id ∈ taken := by
  simp only [Plot.claimed, List.mem_cons, outcome.start, outcome.stop] at member ⊢
  rcases member with rfl | rfl | owned
  · exact .inl (.inl rfl)
  · exact .inl (.inr (.inl rfl))
  · exact (outcome.origin id owned).imp_left fun owned => .inr (.inr owned)

/-- Several parts in a tree. Their containers are nodes that the caller made, which nothing of the parts
    stands above. -/
structure Standing (realm : Realm σ) (made : NodeId → Prop) (world : World σ) (lots : List Lot) : Prop where
  sound : realm.Sound world
  made_exists : ∀ id, made id → world.tree.size > id
  above : ∀ id parent, made id → ¬ realm.guest id → world.tree.parentOf id = some parent →
    made parent ∧ ¬ realm.guest parent
  free : ∀ id, made id → ¬ realm.guest id → ¬ world.kept id ∧ ¬ realm.stock world.scene id
  housed : ∀ lot ∈ lots, made lot.container ∧ ¬ realm.guest lot.container
  sites : ∀ lot ∈ lots, ∃ front rest, realm.Site world lot.container front rest lot.plot
  foreign : ∀ lot ∈ lots, ∀ id ∈ lot.plot.claimed, made id → realm.guest id
  apart : lots.Pairwise fun one two => ∀ id ∈ one.plot.claimed, id ∉ two.plot.claimed
  shown : ∀ lot ∈ lots, lot.plot.part.isPoisoned = true ∨
    realm.Shows world lot.slack lot.plot.part.content lot.plot.inner lot.plot.owned
  known : ∀ lot ∈ lots, realm.survey.Knows lot.plot.part

namespace Standing

variable {made : NodeId → Prop} {lots left right : List Lot} {lot : Lot}

theorem claimed_exists (standing : realm.Standing made world lots) :
    ∀ lot ∈ lots, ∀ id ∈ lot.plot.claimed, world.tree.size > id := by
  intro lot member
  obtain ⟨front, rest, site⟩ := standing.sites lot member
  exact site.claimed_exists

theorem apart_middle (standing : realm.Standing made before (left ++ lot :: right)) :
    ∀ beside, beside ∈ left ∨ beside ∈ right → ∀ id ∈ lot.plot.claimed, id ∉ beside.plot.claimed := by
  have apart := standing.apart
  simp only [List.pairwise_append, List.pairwise_cons, List.mem_cons, forall_eq_or_imp] at apart
  obtain ⟨-, ⟨onward, -⟩, backward⟩ := apart
  rintro beside (member | member) id here again
  · exact (backward beside member).1 id again here
  · exact onward beside member id here again

section Step

variable (standing : realm.Standing made before (left ++ lot :: right))
  (outcome : realm.Outcome before after lot.container front rest lot.plot taken new)

theorem beside_mem {beside : Lot} (member : beside ∈ left ∨ beside ∈ right) : beside ∈ left ++ lot :: right := by
  simpa using member.imp_right .inr

include standing

theorem unowned {id : NodeId} (known : made id) (own : ¬ realm.guest id) : id ∉ lot.plot.owned := fun owned =>
  own (standing.foreign lot (by simp) id (by simp [Plot.claimed, owned]) known)

theorem container_unclaimed {beside : Lot} (member : beside ∈ left ∨ beside ∈ right) :
    lot.container ∉ beside.plot.claimed := fun claimed =>
  have housed := standing.housed lot (by simp)
  housed.2 (standing.foreign beside (beside_mem member) _ claimed housed.1)

include outcome

theorem above_step {id parent : NodeId} (known : made id) (own : ¬ realm.guest id)
    (link : after.tree.parentOf id = some parent) : made parent ∧ ¬ realm.guest parent := by
  have stays : after.tree.parentOf id = before.tree.parentOf id := by
    by_cases place : id = lot.container
    · exact place ▸ outcome.container_parent
    · have spared := outcome.change.spared id (standing.made_exists id known)
        (by simp [place, standing.unowned known own])
      exact spared.parentOf (not_taken outcome.change.guests own)
  exact standing.above id parent known own (stays.symm.trans link)

/-- Whatever is claimed after a step was claimed by the same part, is new, or is a guest. -/
theorem foreign_step {id : NodeId} (claimed : id ∈ new.claimed) (known : made id) : realm.guest id := by
  rcases outcome.new_claimed claimed with claimed | beyond | gone
  · exact standing.foreign lot (by simp) id claimed known
  · exact absurd (standing.made_exists id known) (Nat.not_lt.2 beyond)
  · exact outcome.change.guests id gone

theorem claimed_step {beside : Lot} (member : beside ∈ left ∨ beside ∈ right) {id : NodeId}
    (claimed : id ∈ (beside.plot.without taken).claimed) : id ∈ beside.plot.claimed ∧ id ∉ taken := by
  obtain ⟨front', rest', neighbour⟩ := standing.sites beside (beside_mem member)
  rw [Plot.claimed_without (not_taken outcome.change.guests neighbour.marked.start_own)
    (not_taken outcome.change.guests neighbour.marked.stop_own)] at claimed
  exact ⟨List.mem_of_mem_filter claimed, by simpa using List.of_mem_filter claimed⟩

theorem apart_new {beside : Lot} (member : beside ∈ left ∨ beside ∈ right) {id : NodeId} (claimed : id ∈ new.claimed) :
    id ∉ (beside.plot.without taken).claimed := by
  intro again
  obtain ⟨again, left⟩ := standing.claimed_step outcome member again
  rcases outcome.new_claimed claimed with claimed | beyond | gone
  · exact standing.apart_middle beside member id claimed again
  · exact Nat.not_lt.2 beyond (standing.claimed_exists beside (beside_mem member) id again)
  · exact left gone

theorem apart_step {slack : Slack} :
    (left.map (Lot.without taken) ++ ⟨lot.container, new, slack⟩ :: right.map (Lot.without taken)).Pairwise
      fun one two => ∀ id ∈ one.plot.claimed, id ∉ two.plot.claimed := by
  have fewer : ∀ {beside}, beside ∈ left ∨ beside ∈ right → ∀ {id}, id ∈ (beside.plot.without taken).claimed →
      id ∈ beside.plot.claimed := fun member _ claimed => (standing.claimed_step outcome member claimed).1
  have apart := standing.apart
  simp only [List.pairwise_append, List.pairwise_cons, List.mem_cons, forall_eq_or_imp, List.pairwise_map,
    List.mem_map, forall_exists_index, and_imp, forall_apply_eq_imp_iff₂] at apart ⊢
  obtain ⟨first, ⟨-, second⟩, across⟩ := apart
  refine ⟨first.imp_of_mem ?_, ⟨fun beside member id => standing.apart_new outcome (.inr member), second.imp_of_mem ?_⟩, ?_⟩
  · exact fun one two apart id here again => apart id (fewer (.inl one) here) (fewer (.inl two) again)
  · exact fun one two apart id here again => apart id (fewer (.inr one) here) (fewer (.inr two) again)
  · refine fun one member => ⟨fun id here again => standing.apart_new outcome (.inl member) again here, ?_⟩
    exact fun two among id here again => (across one member).2 two among id (fewer (.inl member) here)
      (fewer (.inr among) again)

variable (site : realm.Site before lot.container front rest lot.plot)
include site

theorem sites_step {beside : Lot} (member : beside ∈ left ∨ beside ∈ right) :
    ∃ front rest, realm.Site after beside.container front rest (beside.plot.without taken) := by
  obtain ⟨front', rest', neighbour⟩ := standing.sites beside (beside_mem member)
  obtain ⟨known, own⟩ := standing.housed beside (beside_mem member)
  refine site.remains standing.sound neighbour outcome (standing.apart_middle beside member)
    (standing.unowned known own) (standing.container_unclaimed member) ?_
  refine ⟨fun id => made id ∧ ¬ realm.guest id, fun child parent up => standing.above_step outcome up.1 up.2,
    ⟨known, own⟩, fun id up => ⟨fun owned => up.2 ?_, up.2, ?_⟩⟩
  · exact standing.foreign beside (beside_mem member) id (by simp [Plot.claimed, owned]) up.1
  · exact Nat.lt_of_lt_of_le (standing.made_exists id up.1) outcome.change.size_le

theorem step {slack : Slack}
    (shown : new.part.isPoisoned = true ∨ realm.Shows after slack new.part.content new.inner new.owned)
    (known : realm.survey.Knows new.part) :
    realm.Standing made after
      (left.map (Lot.without taken) ++ ⟨lot.container, new, slack⟩ :: right.map (Lot.without taken)) := by
  have change := outcome.change
  have others : ∀ {good : Lot → Prop}, (∀ beside, beside ∈ left ∨ beside ∈ right → good (beside.without taken)) →
      good ⟨lot.container, new, slack⟩ →
      ∀ lot' ∈ left.map (Lot.without taken) ++ ⟨lot.container, new, slack⟩ :: right.map (Lot.without taken),
        good lot' := by
    intro good each last lot' member
    simp only [List.mem_append, List.mem_cons, List.mem_map] at member
    rcases member with ⟨beside, member, rfl⟩ | rfl | ⟨beside, member, rfl⟩
    · exact each beside (.inl member)
    · exact last
    · exact each beside (.inr member)
  constructor
  case sound => exact change.sound
  case made_exists => exact fun id known => Nat.lt_of_lt_of_le (standing.made_exists id known) change.size_le
  case above => exact fun id parent => standing.above_step outcome
  case free =>
    intro id known own
    obtain ⟨free, unstocked⟩ := standing.free id known own
    refine ⟨fun kept => ?_, fun stock => unstocked ((change.stock id (standing.made_exists id known)).1 stock)⟩
    rcases (change.handed id kept).resolve_left free with rfl | owned
    · exact outcome.site.container_free kept
    · exact standing.unowned known own owned
  case housed => exact others (fun beside member => standing.housed beside (beside_mem member)) (standing.housed lot (by simp))
  case sites => exact others (fun beside => standing.sites_step outcome site) ⟨_, _, outcome.site⟩
  case foreign =>
    exact others (fun beside member id claimed => standing.foreign beside (beside_mem member) id
      (standing.claimed_step outcome member claimed).1) fun id => standing.foreign_step outcome
  case apart => exact standing.apart_step outcome
  case shown =>
    refine others (fun beside member => ?_) shown
    refine (standing.shown beside (beside_mem member)).imp id fun shows => ?_
    refine change.shows _ shows (fun id owned => ?_) ⟨fun _ => id, fun _ _ => id⟩
    have claimed : id ∈ beside.plot.claimed := by simp [Plot.claimed, owned]
    refine ⟨standing.claimed_exists beside (beside_mem member) id claimed, ?_⟩
    rintro (rfl | again)
    · exact standing.container_unclaimed member claimed
    · exact standing.apart_middle beside member id (by simp [Plot.claimed, again]) claimed
  case known => exact others (fun beside member => standing.known beside (beside_mem member)) known

end Step

theorem relabel (lawful : realm.Lawful) (standing : realm.Standing made world (left ++ lot :: right))
    (part : NodePart) (start : part.start = lot.plot.part.start) (stop : part.stop = lot.plot.part.stop)
    (content : part.content = lot.plot.part.content) :
    realm.Standing made world (left.map (Lot.without []) ++ ⟨lot.container, { lot.plot with part }, lot.slack⟩ ::
      right.map (Lot.without [])) := by
  have here : lot ∈ left ++ lot :: right := by simp
  obtain ⟨front, rest, site⟩ := standing.sites lot here
  have idle := (site.idle lawful standing.sound).relabel part start stop
  refine standing.step idle site ?_ ?_
  · simp only [NodePart.isPoisoned, content]
    exact standing.shown lot here
  · have known := standing.known lot here
    simpa only [Survey.Knows, content, start] using known

theorem commit (lawful : realm.Lawful) (standing : realm.Standing made world (left ++ lot :: right))
    (admits : ∀ value, lot.plot.part.pending = some value → realm.Admits world.tree value.leaves) :
    ∃ result scene kept taken lot', (lot.plot.part.commit realm.client).runOn world.scene =
        ((lot'.plot.part, result), scene) ∧
      realm.Standing made ⟨scene, kept⟩ (left.map (Lot.without taken) ++ lot' :: right.map (Lot.without taken)) ∧
      lot'.plot.part.pending = none ∧
      (∀ id ∈ taken, ∃ value, lot.plot.part.pending = some value ∧ id ∈ value.leaves) ∧
      realm.Change world ⟨scene, kept⟩ (fun id => id = lot.container ∨ id ∈ lot.plot.owned) taken ∧
      ∀ id, lot'.slack.lost id → lot.slack.lost id ∨
        ∃ value, lot.plot.part.pending = some value ∧ 2 ≤ value.leaves.count id := by
  have here : lot ∈ left ++ lot :: right := by simp
  obtain ⟨front, rest, site⟩ := standing.sites lot here
  have sound := standing.sound
  cases staged : lot.plot.part.pending with
  | none =>
      rw [NodePart.commit_of_none staged]
      have idle := site.idle lawful sound
      exact ⟨.ok (), world.scene, world.kept, [], ⟨_, lot.plot, lot.slack⟩, rfl,
        standing.step idle site (standing.shown lot here) (standing.known lot here), staged, by simp, idle.change,
        fun _ => .inl⟩
  | some value =>
      by_cases poisoned : lot.plot.part.isPoisoned = true
      · rw [NodePart.commit_of_poisoned staged poisoned]
        have idle := (site.idle lawful sound).relabel { lot.plot.part with pending := none }
          rfl rfl
        exact ⟨.error .poisoned, world.scene, world.kept, [], ⟨_, _, lot.slack⟩, rfl,
          standing.step idle site (.inl poisoned) (standing.known lot here), rfl, by simp, idle.change, fun _ => .inl⟩
      · have shows := (standing.shown lot here).resolve_left poisoned
        obtain ⟨result, scene, kept, taken, new, ran, committed⟩ :=
          Placed.commit lawful sound ⟨site, shows⟩ staged (admits value staged)
        refine ⟨result, scene, kept, taken, ⟨_, new, lot.slack.after value.leaves⟩, ran,
          standing.step committed.outcome site ?_ (committed.knows (standing.known lot here)), committed.pending,
          fun id member => ⟨value, rfl, committed.among id member⟩,
          committed.outcome.change, fun _ lost => lost.imp_right fun twice => ⟨value, rfl, twice⟩⟩
        cases result with
        | ok => exact .inr (committed.shows rfl)
        | error error => exact .inl (by simp [NodePart.isPoisoned, committed.poisoned error rfl, Content.isPoisoned])

theorem clear (lawful : realm.Lawful) (standing : realm.Standing made world (left ++ lot :: right)) (slack : Slack) :
    ∃ scene, (lot.plot.part.clear : Attempt σ NodePart).runOn world.scene =
        (({ lot.plot.part with content := .empty }, .ok ()), scene) ∧
      realm.Standing made ⟨scene, world.kept⟩ (left.map (Lot.without []) ++
        ⟨lot.container, ⟨{ lot.plot.part with content := .empty }, [], []⟩, slack⟩ :: right.map (Lot.without [])) ∧
      realm.Change world ⟨scene, world.kept⟩ (fun id => id = lot.container ∨ id ∈ lot.plot.owned) [] := by
  obtain ⟨front, rest, site⟩ := standing.sites lot (by simp)
  obtain ⟨scene, ran, outcome⟩ := site.clear lawful standing.sound
  exact ⟨scene, ran, standing.step outcome site (.inr .empty) (List.forall_mem_nil _), outcome.change⟩

section Joined

variable {after : World σ} {part : NodePart} (standing : realm.Standing made world lots)
  (change : realm.Change world after (fun id => id = container) []) (known : made container)
  (own : ¬ realm.guest container)

include standing known own in
theorem unclaimed_joined {lot : Lot} (member : lot ∈ lots) : container ∉ lot.plot.claimed := fun claimed =>
  own (standing.foreign lot member container claimed known)

include standing change in
theorem upward_joined (parents : ∀ id, world.tree.size > id → after.tree.parentOf id = world.tree.parentOf id) :
    after.tree.Upward (fun id => made id ∧ ¬ realm.guest id) ∧ ∀ id, made id → after.tree.size > id := by
  refine ⟨fun id parent up link => ?_, fun id known => Nat.lt_of_lt_of_le (standing.made_exists id known) change.size_le⟩
  rw [parents id (standing.made_exists id up.1)] at link
  exact standing.above id parent up.1 up.2 link

variable (free : ∀ id, after.kept id → world.kept id)
  (parents : ∀ id, world.tree.size > id → after.tree.parentOf id = world.tree.parentOf id)
  (children : after.tree.childrenOf container = world.tree.childrenOf container ++ [part.start, part.stop])
include standing change known own free parents children

theorem site_joined {lot : Lot} (member : lot ∈ lots) :
    ∃ front rest, realm.Site after lot.container front rest lot.plot := by
  obtain ⟨front, rest, site⟩ := standing.sites lot member
  obtain ⟨housed, housed_own⟩ := standing.housed lot member
  obtain ⟨upward, made_exists⟩ := standing.upward_joined change parents
  have untouched : ∀ id ∈ lot.plot.claimed, id ≠ container := fun id claimed same =>
    standing.unclaimed_joined known own member (same ▸ claimed)
  have listed : ∃ rest, after.tree.childrenOf lot.container = front ++ (lot.plot.nodes ++ rest) := by
    by_cases here : lot.container = container
    · exact ⟨rest ++ [part.start, part.stop], by rw [here, children, ← here, site.listed]; simp⟩
    · have spared := change.spared _ (standing.made_exists _ housed) here
      exact ⟨rest, by rw [spared.childrenOf, site.listed]; simp⟩
  obtain ⟨later, listed⟩ := listed
  refine ⟨front, later, listed, change.staked site.marked (untouched _ (by simp [Plot.claimed]))
    (untouched _ (by simp [Plot.claimed])) rfl (fun _ => id), housed_own, fun kept => site.container_free (free _ kept),
    site.distinct, site.inside, fun id owned => Nat.lt_of_lt_of_le (site.present id owned) change.size_le, ?_, ?_⟩
  · intro id claimed stock
    refine site.unstocked id claimed ((change.stock id ?_).1 stock)
    rcases List.mem_cons.1 claimed with rfl | claimed
    · exact standing.made_exists _ housed
    · exact standing.claimed_exists lot member id claimed
  · exact ⟨_, upward, ⟨housed, housed_own⟩, fun id up => ⟨fun owned =>
      up.2 (standing.foreign lot member id (by simp [Plot.claimed, owned]) up.1), up.2, made_exists id up.1⟩⟩

variable (beyond : world.tree.size ≤ part.start ∧ world.tree.size ≤ part.stop ∧ part.start ≠ part.stop)
  (marked : Marked realm.guest after.kept after.tree part.start part.stop)
  (unstocked : ¬ realm.stock after.scene part.start ∧ ¬ realm.stock after.scene part.stop)
include beyond marked unstocked

theorem site_new : realm.Site after container (world.tree.childrenOf container) [] ⟨part, [], []⟩ := by
  obtain ⟨upward, made_exists⟩ := standing.upward_joined change parents
  refine ⟨by simp [children, Plot.nodes], ⟨marked, by simp⟩, own,
    fun kept => (standing.free container known own).1 (free _ kept), ?_, by simp, by simp, ?_, ?_⟩
  · have old := standing.made_exists container known
    have apart : ∀ {id}, world.tree.size ≤ id → container ≠ id := fun later same => Nat.not_lt.2 later (same ▸ old)
    simp [Plot.claimed, apart beyond.1, apart beyond.2.1, beyond.2.2]
  · simp only [Plot.claimed, List.mem_cons, List.not_mem_nil, or_false]
    rintro id (rfl | rfl | rfl)
    · exact fun stock => (standing.free _ known own).2 ((change.stock _ (standing.made_exists _ known)).1 stock)
    · exact unstocked.1
    · exact unstocked.2
  · exact ⟨_, upward, ⟨known, own⟩, fun id up => ⟨List.not_mem_nil, up.2, made_exists id up.1⟩⟩

/-- A new part joins the others if a change put its markers behind the children of a container. -/
theorem joined {slack : Slack} (empty : part.content = .empty) :
    realm.Standing made after (lots ++ [⟨container, ⟨part, [], []⟩, slack⟩]) := by
  obtain ⟨upward, made_exists⟩ := standing.upward_joined change parents
  have fresh : ∀ id ∈ (⟨part, [], []⟩ : Plot).claimed, world.tree.size ≤ id := by
    simp only [Plot.claimed, List.mem_cons, List.not_mem_nil, or_false]
    rintro id (rfl | rfl)
    · exact beyond.1
    · exact beyond.2.1
  have each : ∀ {good : Lot → Prop}, (∀ lot ∈ lots, good lot) → good ⟨container, ⟨part, [], []⟩, slack⟩ →
      ∀ lot ∈ lots ++ [⟨container, ⟨part, [], []⟩, slack⟩], good lot := by
    intro good old last lot member
    rcases List.mem_append.1 member with member | member
    · exact old lot member
    · exact List.mem_singleton.1 member ▸ last
  constructor
  case sound => exact change.sound
  case made_exists => exact made_exists
  case above => exact fun id parent known own => upward id parent ⟨known, own⟩
  case free =>
    exact fun id known own => ⟨fun kept => (standing.free id known own).1 (free id kept), fun stock =>
      (standing.free id known own).2 ((change.stock id (standing.made_exists id known)).1 stock)⟩
  case housed => exact each standing.housed ⟨known, own⟩
  case sites =>
    exact each (fun lot => standing.site_joined change known own free parents children)
      ⟨_, _, standing.site_new change known own free parents children beyond marked unstocked⟩
  case foreign =>
    exact each standing.foreign fun id claimed known =>
      absurd (standing.made_exists id known) (Nat.not_lt.2 (fresh id claimed))
  case apart =>
    refine List.pairwise_append.2 ⟨standing.apart, List.pairwise_singleton _ _, fun lot member one last id here again => ?_⟩
    cases List.mem_singleton.1 last
    exact Nat.not_lt.2 (fresh id again) (standing.claimed_exists lot member id here)
  case shown =>
    refine each (fun lot member => ?_) (.inr ?_)
    · refine (standing.shown lot member).imp_right fun shows => ?_
      have carried := change.shows lot.slack shows
        (fun id owned => ⟨standing.claimed_exists lot member id (by simp [Plot.claimed, owned]), fun same =>
          standing.unclaimed_joined known own member (by simp [Plot.claimed, ← same, owned])⟩)
        ⟨fun _ => id, fun _ _ lost => lost.resolve_right List.not_mem_nil⟩
      simpa using carried
    · simp only [empty]
      exact .empty
  case known => exact each standing.known (by simp [Survey.Knows, empty, Content.keyedItems])

end Joined

theorem append (lawful : realm.Lawful) (standing : realm.Standing made world lots) (known : made container)
    (own : ¬ realm.guest container) (slack : Slack) :
    (NodePart.insertInto container none).Leads world.scene
      (fun part scene => part = .between world.tree.size (world.tree.size + 1) ∧
        realm.Standing made ⟨scene, world.kept⟩ (lots ++ [⟨container, ⟨part, [], []⟩, slack⟩]) ∧
        realm.Change world ⟨scene, world.kept⟩ (fun id => id = container) [])
      (fun _ _ => False) := by
  have sound := standing.sound
  have room := standing.made_exists container known
  refine (insertInto_leads lawful sound (List.append_nil _).symm room own
    (standing.free container known own).2).imp ?_
  rintro _ scene ⟨rfl, paired, change, marked, fresh⟩
  refine ⟨rfl, standing.joined change known own (fun _ => id) paired.parentOf ?_
    ⟨Nat.le_refl _, Nat.le_succ _, Nat.ne_of_lt (Nat.lt_succ_self _)⟩ marked
    ⟨fresh.2 _ (Nat.le_refl _), fresh.2 _ (Nat.le_succ _)⟩ rfl, change⟩
  simpa [NodePart.between] using paired.children

theorem untouched (standing : realm.Standing made world lots) {after : World σ}
    (change : realm.Change world after (fun _ => False) []) : realm.Standing made after lots := by
  have sound := standing.sound
  have spared : ∀ id, made id → world.tree.Spared after.tree [] id := fun id known =>
    change.spared id (standing.made_exists id known) not_false
  have free : ∀ id, after.kept id → world.kept id := fun id kept => (change.handed id kept).resolve_right not_false
  refine ⟨change.sound, fun id known => Nat.lt_of_lt_of_le (standing.made_exists id known) change.size_le, ?_, ?_,
    standing.housed, ?_, standing.foreign, standing.apart, ?_, standing.known⟩
  · intro id parent known own link
    rw [(spared id known).parentOf List.not_mem_nil] at link
    exact standing.above id parent known own link
  · exact fun id known own => ⟨fun kept => (standing.free id known own).1 (free id kept), fun stock =>
      (standing.free id known own).2 ((change.stock id (standing.made_exists id known)).1 stock)⟩
  · intro lot member
    obtain ⟨front, rest, site⟩ := standing.sites lot member
    exact ⟨_, _, (site.untouched sound change).site⟩
  · intro lot member
    obtain ⟨front, rest, site⟩ := standing.sites lot member
    refine (standing.shown lot member).imp_right fun shows => ?_
    have carried := change.shows lot.slack shows (fun id owned => ⟨site.present id owned, not_false⟩)
      ⟨fun _ => id, fun _ _ lost => lost.resolve_right List.not_mem_nil⟩
    simpa using carried

theorem noted (lawful : realm.Lawful) (standing : realm.Standing made world lots) (event : Event)
    (other : ∀ id, event ≠ .kept id) : realm.Standing made ⟨world.scene.add event, world.kept⟩ lots :=
  have idle : realm.Change world world (fun _ => False) [] := .refl standing.sound
  standing.untouched (idle.noted lawful event other)

end Standing

end Realm

end DomParts.Layout
