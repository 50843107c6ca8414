import DomParts.Part.Instance
import DomParts.Proofs.Layout.Bench
import DomParts.Proofs.Layout.Filling
import DomParts.Proofs.Layout.Labels

/-! # Mending a template instance

The parts of an instance are committed one after the other. While this goes on, the first of them show
their values already and the others still show what they showed before, though guests may be missing
from them.
-/

namespace DomParts.Layout

open Subtree (Spot)

variable {σ : Type}

/-- The work on the parts of an instance. -/
structure Job (σ : Type) where
  realm : Realm σ
  start : World σ
  /-- The node that the clone is a child of, or the topmost node of the clone. -/
  home : NodeId
  kind : Option Kind
  parent : Option NodeId
  lines : List Line
  /-- The nodes of the clone as the template has them. -/
  spots : List Spot
  /-- The nodes that slots are counted by. -/
  reach : List NodeId
  slots : List Slot
  /-- The nodes that were there before and may be worked on. -/
  scope : NodeId → Prop
  slack : Slack
  values : List (Rendering σ)

namespace Job

/-- What the work relies on. -/
structure Ready (job : Job σ) : Prop where
  sound : job.realm.Sound job.start
  homely : ∃ line ∈ job.lines, line.id = job.home
  covered : ∀ line ∈ job.lines, job.start.tree.size > line.id → job.scope line.id
  spotted : ∀ spot ∈ job.spots, ∃ line ∈ job.lines, line.id = spot.id

/-- How far the work has come. -/
structure Headway (job : Job σ) (now : World σ) (touched : NodeId → Prop) (taken : List NodeId)
    (fittings : List Fitting) : Prop where
  change : job.realm.Change job.start now touched taken
  within : ∀ id, job.start.tree.size > id → touched id → job.scope id
  origin : ∀ id ∈ claimedBy fittings, job.scope id ∨ job.start.tree.size ≤ id ∨ id ∈ taken
  among : ∀ id ∈ taken, id ∈ leavesIn job.values
  bench : job.realm.Bench now (job.lines.map (Line.without taken)) fittings
  kind : now.tree.kindOf job.home = job.kind
  parent : now.tree.parentOf job.home = job.parent
  kinds : ∀ spot ∈ job.spots, ∃ kind, now.tree.kindOf spot.id = some kind ∧
    Accords fittings spot.id spot.kind kind
  labels : ∀ part, .label part ∈ fittings →
    part.element ≠ job.home ∧ ∃ line ∈ job.lines, line.id = part.element

def Broken (job : Job σ) (scene : Scene σ) : Prop :=
  ∃ kept touched taken fittings, job.Headway ⟨scene, kept⟩ touched taken fittings

variable {job : Job σ} {now after : World σ} {touched : NodeId → Prop} {taken more first later : List NodeId}
  {fittings ahead behind : List Fitting} {plot new : Plot} {line : Line}

theorem map_without : (job.lines.map (Line.without taken)).map (Line.without more) =
    job.lines.map (Line.without (taken ++ more)) := by
  simp only [List.map_map]
  refine List.map_congr_left fun line _ => ?_
  simp only [Function.comp_apply, Line.without, Realm.filter_filter_not_mem]

namespace Headway

/-- Work on one more node part. What it hands to the hook must not have been worked on before. -/
theorem step (ready : job.Ready) (headway : job.Headway now touched taken (ahead ++ .node plot :: behind))
    (member : line ∈ job.lines.map (Line.without taken)) (split : line.ids = first ++ plot.part.start :: later)
    (outcome : job.realm.Outcome now after line.id
      (line.ahead ++ weave (ahead ++ .node plot :: behind) first)
      (weave (ahead ++ .node plot :: behind) later ++ line.rest) plot more new)
    (known : job.realm.survey.Knows new.part) (among : ∀ id ∈ more, id ∈ leavesIn job.values)
    (pending : ∀ id ∈ plot.owned, job.start.tree.size > id ∧ ¬ touched id ∧ id ∉ taken) :
    job.Headway after (fun id => touched id ∨ (id = line.id ∨ id ∈ plot.owned) ∧ id ∉ taken) (taken ++ more)
      (ahead.map (Fitting.without more) ++ .node new :: behind.map (Fitting.without more)) := by
  have bench := headway.bench
  have sound := headway.change.sound
  have spots : ∀ line ∈ job.lines, line.id ∉ plot.owned ∧ now.tree.size > line.id ∧
      ¬ job.realm.guest line.id := by
    intro line spot
    have spot' : line.without taken ∈ job.lines.map (Line.without taken) := List.mem_map_of_mem spot
    refine ⟨fun owned => bench.foreign _ spot' (Realm.Bench.claimed_of_owned (by simp) owned), ?_,
      (bench.own _ spot').1⟩
    have inside := bench.line_exists spot'
    exact inside
  have same : ∀ line ∈ job.lines, after.tree.kindOf line.id = now.tree.kindOf line.id := fun line spot =>
    outcome.kindOf (spots line spot).2.1 (spots line spot).1
  refine ⟨outcome.pursue ready.sound headway.change (bench.own line member).2.1 pending, ?within, ?origin, ?among,
    ?bench, ?kind, ?parent, ?kinds, ?labels⟩
  case within =>
    rintro id inside (here | ⟨rfl | owned, left⟩)
    · exact headway.within id inside here
    · obtain ⟨old, spot, rfl⟩ := List.mem_map.1 member
      exact ready.covered old spot inside
    · refine (headway.origin id (Realm.Bench.claimed_of_owned (by simp) owned)).resolve_right fun elsewhere => ?_
      exact elsewhere.elim (fun beyond => Nat.not_lt.2 beyond inside) left
  case origin =>
    intro id here
    rcases (bench.origin_outlives outcome id here).2 with here | beyond | gone
    · exact (headway.origin id here).imp_right (Or.imp_right (List.mem_append_left _))
    · exact .inr (.inl (Nat.le_trans headway.change.size_le beyond))
    · exact .inr (.inr (List.mem_append_right _ gone))
  case among =>
    intro id here
    exact (List.mem_append.1 here).elim (headway.among id) (among id)
  case bench =>
    rw [← map_without]
    exact bench.outlives member split outcome sound known
  case kind =>
    obtain ⟨home, spot, here⟩ := ready.homely
    exact here ▸ (same home spot).trans (here ▸ headway.kind)
  case parent =>
    obtain ⟨home, spot, here⟩ := ready.homely
    obtain ⟨notOwned, inside, own⟩ := spots home spot
    rw [here] at notOwned inside own
    by_cases place : job.home = line.id
    · rw [place, outcome.container_parent, ← place]
      exact headway.parent
    · have spared := outcome.change.spared job.home inside (by simp [place, notOwned])
      exact (spared.parentOf (Realm.not_taken outcome.change.guests own)).trans headway.parent
  case kinds =>
    intro spot listed
    obtain ⟨kind, found, accords⟩ := headway.kinds spot listed
    obtain ⟨line, here, id⟩ := ready.spotted spot listed
    exact ⟨kind, (id ▸ same line here).trans found, accords_rendered.2 accords⟩
  case labels =>
    intro part here
    refine headway.labels part ?_
    simp only [List.mem_append, List.mem_cons, List.mem_map] at here ⊢
    rcases here with ⟨old, here, told⟩ | here | ⟨old, here, told⟩
    · cases old with
      | node plot => cases told
      | label old => exact .inl (told ▸ here)
    · cases here
    · cases old with
      | node plot => cases told
      | label old => exact .inr (.inr (told ▸ here))

theorem labels_committed {part told : AttributePart}
    (headway : job.Headway now touched taken (ahead ++ .label part :: behind))
    (element : told.element = part.element) : ∀ other, .label other ∈ ahead ++ .label told :: behind →
      other.element ≠ job.home ∧ ∃ line ∈ job.lines, line.id = other.element := by
  intro other here
  simp only [List.mem_append, List.mem_cons, Fitting.label.injEq] at here
  rcases here with here | rfl | here
  · exact headway.labels other (by simp [here])
  · exact element ▸ headway.labels part (by simp)
  · exact headway.labels other (by simp [here])

theorem relabel {part told : AttributePart}
    (headway : job.Headway now touched taken (ahead ++ .label part :: behind))
    (element : told.element = part.element) (name : told.name = part.name)
    (committed : told.committed = part.committed) :
    job.Headway now touched taken (ahead ++ .label told :: behind) := by
  have claims : claimedBy (ahead ++ .label told :: behind) = claimedBy (ahead ++ .label part :: behind) := by
    simp [Fitting.claimed]
  refine { headway with origin := claims ▸ headway.origin, bench := headway.bench.relabel, kinds := ?_, labels := ?_ }
  · intro spot listed
    obtain ⟨kind, found, accords⟩ := headway.kinds spot listed
    exact ⟨kind, found, accords.relabel element name committed⟩
  · exact headway.labels_committed element

section Elements

variable {part told : AttributePart} {tag : String} {attributes changed : Attributes}
  (headway : job.Headway now touched taken (ahead ++ .label part :: behind))
include headway

theorem element_own : part.element ≠ job.home ∧ ¬ job.realm.guest part.element ∧ ¬ now.kept part.element ∧
    ¬ job.realm.stock now.scene part.element ∧ part.element ∉ claimedBy (ahead ++ .label part :: behind) ∧
    (job.Ready → job.start.tree.size > part.element → job.scope part.element) := by
  obtain ⟨away, line, spot, here⟩ := headway.labels part (by simp)
  have spot' : line.without taken ∈ job.lines.map (Line.without taken) := List.mem_map_of_mem spot
  obtain ⟨own, free, unstocked⟩ := headway.bench.own _ spot'
  have foreign := headway.bench.foreign _ spot'
  simp only [Line.without, here] at own free unstocked foreign
  exact ⟨away, own, free, unstocked, foreign, fun ready => here ▸ ready.covered line spot⟩

theorem altered (lawful : job.realm.Lawful) (kind : now.tree.kindOf part.element = some (.element tag attributes))
    (named : (changed.map (·.1)).Nodup) : job.realm.Change now
      ⟨{ now.scene with tree := now.tree.setKind part.element (.element tag changed) }, now.kept⟩
      (fun id => id = part.element) [] := by
  obtain ⟨-, own, free, unstocked, -⟩ := headway.element_own
  have edits : Edits job.realm.guest now.tree (now.tree.setKind part.element (.element tag changed))
      (fun id => id = part.element) [] :=
    .setKind headway.change.sound.wellFormed (Tree.lt_size_of_kindOf kind) rfl own named (by simp)
      (by simp [Tree.isText, kind, Kind.isText])
  exact lawful.change headway.change.sound edits (fun id same => same ▸ unstocked) rfl rfl (fun _ => Iff.rfl)
    (fun _ kept => kept) (fun _ => .inl) fun id kept same => absurd (same ▸ kept) free

theorem committed (lawful : job.realm.Lawful) (ready : job.Ready)
    (element : told.element = part.element) (name : told.name = part.name)
    (kind : now.tree.kindOf part.element = some (.element tag attributes))
    (named : (changed.map (·.1)).Nodup)
    (values : ∀ other, changed.get? other =
      if other = part.name then told.committed else attributes.get? other) :
    job.Headway
      ⟨{ now.scene with tree := now.tree.setKind part.element (.element tag changed) }, now.kept⟩
      (fun id => touched id ∨ id = part.element ∧ id ∉ taken) taken (ahead ++ .label told :: behind) := by
  obtain ⟨away, -, -, -, -, covered⟩ := headway.element_own
  have same : ∀ id, (now.tree.setKind part.element (.element tag changed)).kindOf id =
      if id = part.element then some (.element tag changed) else now.tree.kindOf id := fun id =>
    Tree.kindOf_setKind (Tree.lt_size_of_kindOf kind)
  have change := headway.altered lawful kind named
  have claims : claimedBy (ahead ++ .label told :: behind) = claimedBy (ahead ++ .label part :: behind) := by
    simp [Fitting.claimed]
  have both := headway.change.trans change (fun id kept free => absurd kept free) fun _ => .inr
  refine ⟨by simpa using both, ?within, claims ▸ headway.origin, headway.among, ?bench, ?kind, ?parent, ?kinds,
    headway.labels_committed element⟩
  case within =>
    rintro id inside (touch | ⟨rfl, -⟩)
    · exact headway.within id inside touch
    · exact covered ready inside
  case bench =>
    have moved : job.realm.Bench
        ⟨{ now.scene with tree := now.tree.setKind part.element (.element tag changed) }, now.kept⟩
        (job.lines.map (Line.without taken)) (ahead ++ .label part :: behind) := by
      refine headway.bench.altered (fun _ => Tree.childrenOf_setKind) (fun _ => Tree.parentOf_setKind)
        Tree.size_setKind (fun _ kept => kept) ?_ ?_
      · intro id shelf
        have known := change.sound.stock_exists id shelf
        exact (change.stock id (Nat.lt_of_lt_of_eq known Tree.size_setKind)).1 shelf
      · intro id marker
        have other : id ≠ part.element := by
          rintro rfl
          rw [kind] at marker
          cases marker
        rw [same, if_neg other]
        exact marker
    exact moved.relabel
  case kind =>
    rw [same, if_neg (Ne.symm away)]
    exact headway.kind
  case parent => exact Tree.parentOf_setKind.trans headway.parent
  case kinds =>
    intro spot listed
    obtain ⟨old, found, accords⟩ := headway.kinds spot listed
    by_cases place : spot.id = part.element
    · rw [place] at found accords
      rw [kind] at found
      cases found
      refine ⟨_, (same _).trans (if_pos place), ?_⟩
      rw [place]
      exact accords.committed element name values
    · refine ⟨old, (same _).trans ((if_neg place).trans found), ?_⟩
      exact accords.elsewhere element name (Ne.symm place)

end Elements

theorem noted (lawful : job.realm.Lawful) (headway : job.Headway now touched taken fittings) {event : Event}
    (other : ∀ id, event ≠ .kept id) : job.Headway ⟨now.scene.add event, now.kept⟩ touched taken fittings := by
  have idle : job.realm.Change now now (fun _ => False) [] := .refl headway.change.sound
  have silent := idle.noted lawful event other
  refine { headway with
    change := headway.change.noted lawful event other
    bench := headway.bench.altered (fun _ => rfl) (fun _ => rfl) rfl (fun _ kept => kept) ?_ fun _ => id }
  exact fun id shelf => (silent.stock id (silent.sound.stock_exists id shelf)).1 shelf

end Headway

/-- How far a part may fall short that shows its value. -/
def filled (job : Job σ) (before : List (Rendering σ)) : Slack where
  wanted id := id ∈ leavesIn before
  lost id := job.slack.lost id ∨ 2 ≤ (leavesIn job.values).count id

/-- How far a part may fall short that does not show its value yet. -/
def waiting (job : Job σ) (before : List (Rendering σ)) : Slack :=
  { job.slack with lost := fun id => job.slack.lost id ∨ id ∈ leavesIn before }

/-- The parts in front of one that is given its value may lack what that value needs a second time. -/
theorem filled_allows {before : List (Rendering σ)} (item : Rendering σ)
    (twice : ∀ id ∈ taken, id ∈ leavesIn before → 2 ≤ (leavesIn job.values).count id) :
    (job.filled before).Allows taken (job.filled (before ++ [item])) where
  wanted id wanted := by
    simp only [filled, leavesIn, List.flatMap_append, List.mem_append] at wanted ⊢
    exact .inl wanted
  lost id wanted := by
    rintro (lost | gone)
    · exact lost
    · exact .inr (twice id gone wanted)

/-- The parts behind one that is given its value may lack what that value needs. -/
theorem waiting_allows {before : List (Rendering σ)} {item : Rendering σ} (among : ∀ id ∈ taken, id ∈ item.value.leaves) :
    (job.waiting before).Allows taken (job.waiting (before ++ [item])) where
  wanted _ := id
  lost id _ := by
    simp only [waiting, leavesIn, List.flatMap_append, List.mem_append]
    rintro ((lost | known) | gone)
    · exact .inl lost
    · exact .inr (.inl known)
    · exact .inr (.inr (by simpa using among id gone))

abbrev Shown (job : Job σ) (now : World σ) (slack : Slack) (plot : Plot) : Prop :=
  job.realm.Shows now slack plot.part.content plot.inner plot.owned

theorem fit_changed {reach : List NodeId} {slots : List Slot} {old : Fitting} (new : Fitting)
    (change : Fitting → Fitting)
    (others : ∀ slot fitting, Fits reach slot fitting → Fits reach slot (change fitting))
    (same : ∀ slot, Fits reach slot old → Fits reach slot new)
    (fit : List.Forall₂ (Fits reach) slots (ahead ++ old :: behind)) :
    List.Forall₂ (Fits reach) slots (ahead.map change ++ new :: behind.map change) := by
  induction ahead generalizing slots with
  | nil =>
      cases fit with
      | cons here beyond =>
          exact .cons (same _ here) (List.forall₂_map_right_iff.2 (beyond.imp fun _ _ => others _ _))
  | cons first ahead ih =>
      cases fit with
      | cons here beyond => exact .cons (others _ _ here) (ih beyond)

/-- The work on the parts, some of which were given their values. -/
structure Mending (job : Job σ) (now : World σ) (ahead behind : List Fitting) (before : List (Rendering σ)) :
    Prop where
  ready : job.Ready
  headway : ∃ touched taken, job.Headway now touched taken (ahead ++ behind) ∧
    ∀ plot, .node plot ∈ behind → ∀ id ∈ plot.owned, job.start.tree.size > id ∧ ¬ touched id ∧ id ∉ taken
  fit : List.Forall₂ (Fits job.reach) job.slots (ahead ++ behind)
  filled : ∀ plot, .node plot ∈ ahead → job.Shown now (job.filled before) plot
  waiting : ∀ plot, .node plot ∈ behind → job.Shown now (job.waiting before) plot

/-- What committing a part may do: it works on the clone and on what came into it for the part, and takes no guests
    but those in the value. -/
structure Worked (job : Job σ) (now after : World σ) (fitting : Fitting) (leaves taken : List NodeId) : Prop where
  change : ∃ touched, job.realm.Change now after touched taken ∧
    ∀ id, touched id → (∃ line ∈ job.lines, line.id = id) ∨ id ∈ fitting.claimed
  among : ∀ id ∈ taken, id ∈ leaves

namespace Mending

variable {before left : List (Rendering σ)} {item : Rendering σ} {part : AttributePart}

theorem broken (mending : job.Mending now ahead behind before) : job.Broken now.scene := by
  obtain ⟨touched, taken, headway, -⟩ := mending.headway
  exact ⟨now.kept, touched, taken, _, headway⟩

theorem admits (mending : job.Mending now ahead behind before) {leaves : List NodeId}
    (admits : job.realm.Admits job.start.tree leaves) : job.realm.Admits now.tree leaves := by
  obtain ⟨touched, taken, headway, -⟩ := mending.headway
  exact headway.change.admits admits

/-- A guest that an earlier value needs and that is taken for this one is in the values twice. -/
theorem count_of_taken (values : job.values = before ++ item :: left) {id : NodeId}
    (wanted : id ∈ leavesIn before) (again : id ∈ item.value.leaves) :
    2 ≤ (leavesIn job.values).count id := by
  have one := List.count_pos_iff.2 wanted
  have two := List.count_pos_iff.2 again
  simp only [values, leavesIn, List.flatMap_append, List.flatMap_cons, List.count_append] at one ⊢
  omega

/-- A part that was given its value may lack what that value has twice or has in common with earlier ones. -/
theorem after_allows (values : job.values = before ++ item :: left) :
    ((job.waiting before).after item.value.leaves).Allows [] (job.filled (before ++ [item])) where
  wanted id wanted := by
    have here : id ∈ item.value.leaves := wanted
    simp [Job.filled, leavesIn, here]
  lost id wanted := by
    rintro (((lost | known) | twice) | none)
    · exact .inl lost
    · exact .inr (count_of_taken values known wanted)
    · refine .inr (Nat.le_trans twice ?_)
      simp only [values, leavesIn, List.flatMap_append, List.flatMap_cons, List.count_append]
      omega
    · cases none

theorem commit_node (lawful : job.realm.Lawful) (mending : job.Mending now ahead (.node plot :: behind) before)
    (values : job.values = before ++ item :: left) (honest : job.realm.Honest item.value.leaves item.render)
    (admits : job.realm.Admits job.start.tree item.value.leaves) :
    (((Part.node plot.part).stage item.value).commitWith item.render).orThrow.Leads now.scene
      (fun part scene => ∃ kept taken new, part = .node new.part ∧
        job.Worked now ⟨scene, kept⟩ (.node plot) item.value.leaves taken ∧
        job.Mending ⟨scene, kept⟩ (ahead.map (Fitting.without taken) ++ [.node new])
          (behind.map (Fitting.without taken)) (before ++ [item]))
      (fun _ scene => job.Broken scene) := by
  obtain ⟨touched, taken, headway, pending⟩ := mending.headway
  have bench := headway.bench
  have sound := headway.change.sound
  obtain ⟨line, member, first, later, split⟩ := bench.place
  have site := bench.siteOf member split sound
  have shows := mending.waiting plot (List.mem_cons_self ..)
  have known := (bench.marked plot (by simp)).known
  have own := pending plot (List.mem_cons_self ..)
  have leaf : ∀ id ∈ item.value.leaves, id ∈ leavesIn job.values := by
    intro id here
    simp [values, leavesIn, here]
  have staged : ((Part.node plot.part).stage item.value).commitWith item.render =
      ((plot.part.stage item.value).commitWith item.render).map .node := rfl
  rw [staged, RenderM.leads_orThrow_map]
  refine (honest.renderWith lawful sound site shows (mending.admits admits)).mono ?_ ?_
  · rintro _ scene ⟨content, rfl, kept, more, inner, owned, done⟩
    have outcome := done.outcome
    have step := headway.step mending.ready member split outcome (done.knows sound known)
      (fun id gone => leaf id (done.among id gone)) own
    have elsewhere : ∀ {other : Plot}, .node other ∈ ahead ∨ .node other ∈ behind → ∀ id ∈ other.owned,
        now.tree.size > id ∧ ¬ (id = line.id ∨ id ∈ plot.owned) := bench.beside member
    refine ⟨kept, more, ⟨{ plot.part with content, pending := none }, inner, owned⟩, rfl,
      ⟨⟨_, outcome.change, ?_⟩, done.among⟩, ?_⟩
    · rintro id (rfl | owned)
      · obtain ⟨old, listed, rfl⟩ := List.mem_map.1 member
        exact .inl ⟨old, listed, rfl⟩
      · exact .inr (List.mem_cons_of_mem _ owned)
    constructor
    case ready => exact mending.ready
    case headway =>
      refine ⟨_, _, by simpa using step, ?_⟩
      intro other here id owned
      obtain ⟨old, was, rfl⟩ := node_mem_without.1 here
      obtain ⟨owned, left⟩ := List.mem_filter.1 owned
      obtain ⟨inside, outside, free⟩ := pending old (List.mem_cons_of_mem _ was) id owned
      refine ⟨inside, ?_, by simpa [free] using left⟩
      rintro (touch | ⟨touch, -⟩)
      · exact outside touch
      · exact (elsewhere (.inr was) id owned).2 touch
    case fit =>
      have fit := fit_changed (.node ⟨{ plot.part with content, pending := none }, inner, owned⟩) (Fitting.without more)
        (fun _ _ => fits_without.2) (fun slot fits => by cases slot <;> exact fits) mending.fit
      simpa using fit
    case filled =>
      intro other here
      simp only [List.mem_append, List.mem_singleton, node_mem_without, Fitting.node.injEq] at here
      rcases here with ⟨old, was, rfl⟩ | rfl
      · refine outcome.change.shows _ (mending.filled old was) (elsewhere (.inl was)) (filled_allows item ?_)
        exact fun id gone wanted => count_of_taken values wanted (done.among id gone)
      · exact done.shows.weaken (after_allows values)
    case waiting =>
      intro other here
      obtain ⟨old, was, rfl⟩ := node_mem_without.1 here
      exact outcome.change.shows _ (mending.waiting old (List.mem_cons_of_mem _ was)) (elsewhere (.inr was))
        (waiting_allows done.among)
  · rintro error scene ⟨kept, more, new, failed⟩
    have outcome := failed.outcome.relabel { new.part with content := .empty } rfl rfl
    exact ⟨kept, _, _, _, headway.step mending.ready member split outcome (List.forall_mem_nil _)
      (fun id gone => leaf id (failed.among id gone)) own⟩

theorem label (mending : job.Mending now ahead (.label part :: behind) before) {told : AttributePart}
    (element : told.element = part.element) (name : told.name = part.name)
    (change : job.realm.Change now after (fun id => id = part.element) [])
    (headway : ∀ touched taken, job.Headway now touched taken (ahead ++ .label part :: behind) →
      ∃ more, (∀ id, more id → touched id ∨ id = part.element) ∧
        job.Headway after more taken (ahead ++ .label told :: behind)) :
    job.Mending after (ahead ++ [.label told]) behind (before ++ [item]) := by
  obtain ⟨touched, taken, old, pending⟩ := mending.headway
  obtain ⟨more, wider, new⟩ := headway touched taken old
  obtain ⟨-, -, -, -, foreign, -⟩ := old.element_own
  have apart : ∀ {plot : Plot}, .node plot ∈ ahead ++ .label part :: behind → ∀ id ∈ plot.owned,
      now.tree.size > id ∧ ¬ id = part.element := by
    intro plot among id owned
    have claimed := Realm.Bench.claimed_of_owned among owned
    exact ⟨old.bench.present id claimed, fun same => foreign (same ▸ claimed)⟩
  have shows : ∀ {plot : Plot} (slack more : Slack), .node plot ∈ ahead ++ .label part :: behind →
      job.Shown now slack plot → slack.Allows [] more → job.Shown after more plot := by
    intro plot slack more among shows allows
    simpa using change.shows _ shows (apart among) allows
  refine ⟨mending.ready, ⟨more, taken, by simpa using new, ?_⟩, ?_, ?_, ?_⟩
  · intro plot here id owned
    obtain ⟨inside, outside, left⟩ := pending plot (List.mem_cons_of_mem _ here) id owned
    refine ⟨inside, fun touch => (wider id touch).elim outside ?_, left⟩
    exact (apart (by simp [here]) id owned).2
  · have same : ∀ slot, Fits job.reach slot (.label part) → Fits job.reach slot (.label told) := by
      intro slot fits
      cases slot with
      | node index => exact fits
      | «attribute» index label => exact ⟨element ▸ fits.1, name ▸ fits.2⟩
    have fit := fit_changed (.label told) (fun fitting => fitting) (fun _ _ fits => fits) same mending.fit
    simpa using fit
  · intro plot here
    have among : .node plot ∈ ahead := by simpa using here
    exact shows _ _ (by simp [among]) (mending.filled plot among) (filled_allows item (by simp))
  · intro plot here
    exact shows _ _ (by simp [here]) (mending.waiting plot (List.mem_cons_of_mem _ here)) (waiting_allows (by simp))

theorem worked_label (mending : job.Mending now ahead (.label part :: behind) before)
    (change : job.realm.Change now after (fun id => id = part.element) []) (leaves : List NodeId) :
    job.Worked now after (.label part) leaves [] := by
  obtain ⟨touched, taken, headway, -⟩ := mending.headway
  obtain ⟨-, line, listed, here⟩ := headway.labels part (by simp)
  refine ⟨⟨_, change, ?_⟩, by simp⟩
  rintro id rfl
  exact .inl ⟨line, listed, here⟩

variable (item) (leaves : List NodeId) in
theorem edit_label (lawful : job.realm.Lawful) (mending : job.Mending now ahead (.label part :: behind) before)
    (told : AttributePart) (element : told.element = part.element) (name : told.name = part.name)
    {change : Attributes → Attributes}
    (named : ∀ attributes : Attributes, (attributes.map (·.1)).Nodup → ((change attributes).map (·.1)).Nodup)
    (values : ∀ attributes other, Attributes.get? (change attributes) other =
      if other = part.name then told.committed else attributes.get? other) :
    (RenderM.edit (·.changeAttributes part.element change)).Leads now.scene
      (fun _ scene => ∃ kept, job.Worked now ⟨scene, kept⟩ (.label part) leaves [] ∧
        job.Mending ⟨scene, kept⟩ (ahead ++ [.label told]) behind (before ++ [item]))
      (fun _ scene => job.Broken scene) := by
  rw [RenderM.leads_edit]
  cases done : now.scene.tree.changeAttributes part.element change with
  | error fault => exact mending.broken
  | ok tree =>
      obtain ⟨tag, attributes, kind, rfl⟩ := Tree.of_changeAttributes done
      obtain ⟨touched, taken, headway, -⟩ := mending.headway
      have distinct := named attributes (headway.change.sound.wellFormed.named _ _ kind)
      have change := headway.altered lawful kind distinct
      refine ⟨now.kept, mending.worked_label change _, mending.label element name change fun touched taken headway => ?_⟩
      exact ⟨_, fun id here => here.imp_right And.left,
        headway.committed lawful mending.ready element name kind distinct (values attributes)⟩

theorem commit_label (lawful : job.realm.Lawful) (mending : job.Mending now ahead (.label part :: behind) before) :
    (((Part.attribute part).stage item.value).commitWith item.render).orThrow.Leads now.scene
      (fun part' scene => ∃ kept told, part' = .attribute told ∧
        job.Worked now ⟨scene, kept⟩ (.label part) item.value.leaves [] ∧
        job.Mending ⟨scene, kept⟩ (ahead ++ [.label told]) behind (before ++ [item]))
      (fun _ scene => job.Broken scene) := by
  have idle : ∀ told : AttributePart, told.element = part.element → told.name = part.name →
      told.committed = part.committed → ∀ leaves, job.Worked now now (.label part) leaves [] ∧
      job.Mending now (ahead ++ [.label told]) behind (before ++ [item]) := by
    intro told element name committed leaves
    obtain ⟨touched, taken, headway, -⟩ := mending.headway
    have change : job.realm.Change now now (fun id => id = part.element) [] := .refl headway.change.sound
    exact ⟨mending.worked_label change _, mending.label element name change fun touched taken headway =>
      ⟨touched, fun _ => .inl, headway.relabel element name committed⟩⟩
  have staged : ((Part.attribute part).stage item.value).commitWith item.render =
      (AttributePart.assign { part with pending := none } item.value).map .attribute := rfl
  rw [staged, RenderM.leads_orThrow_map]
  generalize item.value.leaves = leaves
  cases item.value with
  | text data =>
      by_cases known : part.committed = some data
      · simp only [AttributePart.assign, known, if_true, RenderM.leads_orThrow_done]
        exact ⟨now.kept, _, rfl, idle ⟨part.element, part.name, none, some data⟩ rfl rfl known.symm leaves⟩
      · simp only [AttributePart.assign, known, if_false, RenderM.leads_orThrow_carry]
        refine (mending.edit_label item leaves lawful ⟨part.element, part.name, none, some data⟩ rfl rfl
          (fun _ => Attributes.nodup_set) (fun _ _ => Attributes.get?_set)).imp ?_
        rintro _ scene ⟨kept, done⟩
        exact ⟨kept, _, rfl, done⟩
  | nothing =>
      cases known : part.committed with
      | none =>
          simp only [AttributePart.assign, Option.isNone_none, if_true, RenderM.leads_orThrow_done]
          exact ⟨now.kept, _, rfl, idle ⟨part.element, part.name, none, none⟩ rfl rfl known.symm leaves⟩
      | some text =>
          simp only [AttributePart.assign, Option.isNone_some, Bool.false_eq_true, if_false,
            RenderM.leads_orThrow_carry]
          refine (mending.edit_label item leaves lawful ⟨part.element, part.name, none, none⟩ rfl rfl
            (fun _ => Attributes.nodup_erase) (fun _ _ => Attributes.get?_erase)).imp ?_
          rintro _ scene ⟨kept, done⟩
          exact ⟨kept, _, rfl, done⟩
  | _ =>
      simp only [AttributePart.assign, RenderM.leads_orThrow_carry, RenderM.leads_bind, RenderM.leads_note,
        RenderM.leads_throw]
      obtain ⟨touched, taken, headway, -⟩ := mending.headway
      exact ⟨now.kept, touched, taken, _, headway.noted lawful (by simp)⟩

theorem commit_next (lawful : job.realm.Lawful) {fitting : Fitting}
    (mending : job.Mending now ahead (fitting :: behind) before) (values : job.values = before ++ item :: left)
    (honest : job.realm.Honest item.value.leaves item.render)
    (admits : job.realm.Admits job.start.tree item.value.leaves) :
    ((fitting.part.stage item.value).commitWith item.render).orThrow.Leads now.scene
      (fun part scene => ∃ kept taken new, part = Fitting.part new ∧
        job.Worked now ⟨scene, kept⟩ fitting item.value.leaves taken ∧
        job.Mending ⟨scene, kept⟩ (ahead.map (Fitting.without taken) ++ [new]) (behind.map (Fitting.without taken))
          (before ++ [item]))
      (fun _ scene => job.Broken scene) := by
  cases fitting with
  | node plot =>
      refine (mending.commit_node lawful values honest admits).imp ?_
      rintro _ scene ⟨kept, taken, new, rfl, done⟩
      exact ⟨kept, taken, .node new, rfl, done⟩
  | label part =>
      refine (mending.commit_label lawful).imp ?_
      rintro _ scene ⟨kept, told, rfl, done⟩
      exact ⟨kept, [], .label told, rfl, by simpa using done⟩

theorem commitEach (lawful : job.realm.Lawful) (mending : job.Mending now ahead behind before)
    (values : job.values = before ++ left) (count : left.length = behind.length)
    (honest : ∀ item ∈ job.values, job.realm.Honest item.value.leaves item.render)
    (admits : job.realm.Admits job.start.tree (leavesIn job.values)) :
    (Part.commitEach ((behind.map Fitting.part).zipWith
        (fun part item => (part.stage item.value, item.render)) left)).orThrow.Leads now.scene
      (fun parts scene => ∃ kept fittings, fittings.map Fitting.part = ahead.map Fitting.part ++ parts ∧
        job.Mending ⟨scene, kept⟩ fittings [] job.values)
      (fun _ scene => job.Broken scene) := by
  induction left generalizing now ahead behind before with
  | nil =>
      cases List.length_eq_zero_iff.1 count.symm
      rw [List.append_nil] at values
      exact ⟨now.kept, ahead, by simp, values ▸ mending⟩
  | cons item left ih =>
      cases behind with
      | nil => cases count
      | cons fitting behind =>
          have among : item ∈ job.values := by simp [values]
          have own : job.realm.Admits job.start.tree item.value.leaves := fun id leaf =>
            admits id (List.mem_flatMap.2 ⟨item, among, leaf⟩)
          rw [List.map_cons, List.zipWith_cons_cons, RenderM.leads_commitEach]
          refine (mending.commit_next lawful values (honest item among) own).imp ?_
          rintro _ scene ⟨kept, taken, new, rfl, -, mending⟩
          have rest := ih mending (by simpa using values) (by simpa using count)
          rw [parts_fitting_without] at rest
          refine rest.imp ?_
          rintro parts scene ⟨kept, fittings, shown, mending⟩
          exact ⟨kept, fittings, by simp [shown], mending⟩

theorem update (lawful : job.realm.Lawful) (mending : job.Mending now [] fittings []) (shown : TemplateInstance)
    (parts : shown.parts = fittings.map Fitting.part)
    (honest : ∀ item ∈ job.values, job.realm.Honest item.value.leaves item.render)
    (admits : job.realm.Admits job.start.tree (leavesIn job.values)) :
    (shown.update job.values).orThrow.Leads now.scene
      (fun new scene => ∃ kept fittings, new = ⟨shown.template, fittings.map Fitting.part⟩ ∧
        job.Mending ⟨scene, kept⟩ fittings [] job.values)
      (fun _ scene => job.Broken scene) := by
  by_cases count : job.values.length = shown.parts.length
  · simp only [TemplateInstance.update, count, if_true, RenderM.leads_orThrow_map, parts]
    refine (mending.commitEach lawful (by simp) (by simpa [parts] using count) honest admits).imp ?_
    rintro parts scene ⟨kept, fittings, rfl, mending⟩
    exact ⟨kept, fittings, by simp, mending⟩
  · simp only [TemplateInstance.update, count, if_false, RenderM.leads_orThrow_refused]
    exact mending.broken

end Mending

end Job

end DomParts.Layout
