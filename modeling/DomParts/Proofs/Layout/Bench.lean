import DomParts.Proofs.Layout.Row

/-! # Benches

A template instance that is worked on: the nodes of its clone hold children of the clone, and behind each
marker that a part is bound to stand the nodes of that part. A line is one holder with its children.
-/

namespace DomParts.Layout

variable {σ : Type}

/-- A node with its children: nodes of a clone, and other nodes before and behind them. -/
structure Line where
  id : NodeId
  ahead : List NodeId
  ids : List NodeId
  rest : List NodeId

def Line.without (taken : List NodeId) (line : Line) : Line :=
  { line with ahead := line.ahead.filter (· ∉ taken), rest := line.rest.filter (· ∉ taken) }

@[simp] theorem lines_without_nil (lines : List Line) : lines.map (Line.without []) = lines := by
  have same : Line.without [] = id := funext fun line => by simp [Line.without]
  rw [same, List.map_id]

def Line.ofSpot (spot : Subtree.Spot) : Line := ⟨spot.id, [], spot.children, []⟩

def Fitting.plot? : Fitting → Option Plot
  | .node plot => some plot
  | .label _ => none

/-- All nodes that came into a clone for its parts. -/
def claimedBy (fittings : List Fitting) : List NodeId := fittings.flatMap Fitting.claimed

section Weaves

variable {fittings ahead behind : List Fitting} {fitting : Fitting} {plot new : Plot} {ids more : List NodeId}
  {id : NodeId} {taken : List NodeId}

@[simp] theorem claimedBy_append : claimedBy (ahead ++ behind) = claimedBy ahead ++ claimedBy behind :=
  List.flatMap_append

@[simp] theorem claimedBy_cons : claimedBy (fitting :: fittings) = fitting.claimed ++ claimedBy fittings := rfl

@[simp] theorem claimedBy_nil : claimedBy [] = [] := rfl

theorem weave_append : weave fittings (ids ++ more) = weave fittings ids ++ weave fittings more :=
  List.flatMap_append

theorem weave_cons : weave fittings (id :: ids) = id :: (Layout.behind fittings id ++ weave fittings ids) := rfl

theorem behind_append : Layout.behind (ahead ++ behind) id = Layout.behind ahead id ++ Layout.behind behind id :=
  List.flatMap_append

theorem mem_plots : plot ∈ fittings.filterMap Fitting.plot? ↔ .node plot ∈ fittings := by
  rw [List.mem_filterMap]
  constructor
  · rintro ⟨fitting, member, same⟩
    cases fitting with
    | node other =>
        cases same
        exact member
    | label part => cases same
  · exact fun member => ⟨_, member, rfl⟩

theorem behind_eq_plots : Layout.behind fittings id =
    (fittings.filterMap Fitting.plot?).flatMap fun plot => (Fitting.node plot).behind id := by
  induction fittings with
  | nil => rfl
  | cons fitting fittings ih =>
      cases fitting with
      | node plot => exact congrArg ((Fitting.node plot).behind id ++ ·) ih
      | label part => exact ih

theorem claimedBy_eq_plots : claimedBy fittings =
    (fittings.filterMap Fitting.plot?).flatMap fun plot => (Fitting.node plot).claimed := by
  induction fittings with
  | nil => rfl
  | cons fitting fittings ih =>
      cases fitting with
      | node plot => exact congrArg ((Fitting.node plot).claimed ++ ·) ih
      | label part => exact ih

theorem starts_eq_plots : fittings.filterMap Fitting.start? =
    (fittings.filterMap Fitting.plot?).map fun plot => plot.part.start := by
  rw [List.map_filterMap]
  congr 1
  funext fitting
  cases fitting <;> rfl

theorem behind_eq_nil (unbound : ∀ plot, .node plot ∈ fittings → plot.part.start ≠ id) :
    Layout.behind fittings id = [] := by
  refine List.flatMap_eq_nil_iff.2 fun fitting member => ?_
  cases fitting with
  | label part => rfl
  | node plot => exact if_neg (unbound plot member)

section Middle

variable (starts : ((ahead ++ .node plot :: behind).filterMap Fitting.start?).Nodup)
include starts

theorem start_apart (other : Plot) (member : .node other ∈ ahead ∨ .node other ∈ behind) :
    other.part.start ≠ plot.part.start := by
  have cons : (Fitting.node plot :: behind).filterMap Fitting.start? =
      plot.part.start :: behind.filterMap Fitting.start? := rfl
  rw [List.filterMap_append, cons, List.nodup_middle, List.nodup_cons, List.mem_append] at starts
  intro same
  have told : Fitting.start? (.node other) = some plot.part.start := congrArg some same
  exact starts.1 (member.imp (fun here => List.mem_filterMap.2 ⟨_, here, told⟩)
    fun here => List.mem_filterMap.2 ⟨_, here, told⟩)

theorem behind_start : Layout.behind (ahead ++ .node plot :: behind) plot.part.start =
    plot.inner ++ [plot.part.stop] := by
  have apart := start_apart starts
  have here : Fitting.behind plot.part.start (.node plot) = plot.inner ++ [plot.part.stop] := if_pos rfl
  have cons : Layout.behind (.node plot :: behind) plot.part.start =
      Fitting.behind plot.part.start (.node plot) ++ Layout.behind behind plot.part.start := rfl
  rw [behind_append, behind_eq_nil fun other member => apart other (.inl member), cons, here,
    behind_eq_nil fun other member => apart other (.inr member)]
  simp

end Middle

/-- Behind another node stands what stood there, but for nodes that were taken. -/
theorem behind_other (same : new.part.start = plot.part.start) (different : plot.part.start ≠ id)
    (markers : ∀ other, .node other ∈ ahead ∨ .node other ∈ behind →
      other.part.start ∉ taken ∧ other.part.stop ∉ taken) :
    Layout.behind (ahead.map (Fitting.without taken) ++ .node new :: behind.map (Fitting.without taken)) id =
      (Layout.behind (ahead ++ .node plot :: behind) id).filter (· ∉ taken) := by
  have gone : ∀ {plot : Plot}, plot.part.start ≠ id → ∀ fittings,
      Layout.behind (.node plot :: fittings) id = Layout.behind fittings id := by
    intro plot different fittings
    have none : Fitting.behind id (.node plot) = [] := if_neg different
    exact (congrArg (· ++ Layout.behind fittings id) none)
  rw [behind_append, behind_append, gone (same ▸ different), gone different, List.filter_append,
    behind_without fun other member => markers other (.inl member),
    behind_without fun other member => markers other (.inr member)]

theorem weave_other (same : new.part.start = plot.part.start) (absent : plot.part.start ∉ ids)
    (left : ∀ id ∈ ids, id ∉ taken)
    (markers : ∀ other, .node other ∈ ahead ∨ .node other ∈ behind →
      other.part.start ∉ taken ∧ other.part.stop ∉ taken) :
    weave (ahead.map (Fitting.without taken) ++ .node new :: behind.map (Fitting.without taken)) ids =
      (weave (ahead ++ .node plot :: behind) ids).filter (· ∉ taken) := by
  induction ids with
  | nil => rfl
  | cons id ids ih =>
      rw [List.mem_cons, not_or] at absent
      have here := left id (List.mem_cons_self ..)
      rw [weave_cons, weave_cons, behind_other same absent.1 markers,
        ih absent.2 fun id member => left id (List.mem_cons_of_mem _ member),
        List.filter_cons_of_pos (by simpa using here), List.filter_append]

theorem weave_unbound (absent : plot.part.start ∉ ids) :
    weave (fittings ++ [.node plot]) ids = weave fittings ids := by
  induction ids with
  | nil => rfl
  | cons id ids ih =>
      rw [List.mem_cons, not_or] at absent
      have none : Layout.behind [.node plot] id = [] := behind_eq_nil fun other member => by
        cases List.mem_singleton.1 member
        exact absent.1
      rw [weave_cons, weave_cons, behind_append, none, List.append_nil, ih absent.2]

end Weaves

namespace Realm

/-- The parts of a template instance as they lie in the tree. -/
structure Bench (realm : Realm σ) (world : World σ) (lines : List Line) (fittings : List Fitting) : Prop where
  listed : ∀ line ∈ lines,
    world.tree.childrenOf line.id = line.ahead ++ (weave fittings line.ids ++ line.rest)
  holders : (lines.map Line.id).Nodup
  own : ∀ line ∈ lines, ¬ realm.guest line.id ∧ ¬ world.kept line.id ∧ ¬ realm.stock world.scene line.id
  spotted : ∀ line ∈ lines, ∀ id ∈ line.ids, ∃ other ∈ lines, other.id = id
  marked : ∀ plot, .node plot ∈ fittings → Charted realm.survey realm.guest world.kept world.tree plot
  starts : (fittings.filterMap Fitting.start?).Nodup
  bound : ∀ plot, .node plot ∈ fittings → ∃ line ∈ lines, plot.part.start ∈ line.ids
  distinct : (claimedBy fittings).Nodup
  foreign : ∀ line ∈ lines, line.id ∉ claimedBy fittings
  inside : ∀ plot, .node plot ∈ fittings → ∀ id ∈ plot.inner, id ∈ plot.owned
  present : ∀ id ∈ claimedBy fittings, world.tree.size > id
  unstocked : ∀ id ∈ claimedBy fittings, ¬ realm.stock world.scene id
  /-- Neither guests nor the nodes of the parts are anywhere above the clone. -/
  apart : ∃ upward, world.tree.Upward upward ∧ (∀ line ∈ lines, upward line.id) ∧
    ∀ id, upward id → id ∉ claimedBy fittings ∧ ¬ realm.guest id ∧ world.tree.size > id

namespace Bench

variable {realm : Realm σ} {world after : World σ} {lines : List Line} {fittings ahead behind : List Fitting}
  {plot new : Plot} {taken : List NodeId} {line : Line} {first later : List NodeId}

theorem claimed_of_owned {id : NodeId} (member : .node plot ∈ fittings) (owned : id ∈ plot.owned) :
    id ∈ claimedBy fittings :=
  List.mem_flatMap.2 ⟨_, member, List.mem_cons_of_mem _ owned⟩

theorem stop_claimed (member : .node plot ∈ fittings) : plot.part.stop ∈ claimedBy fittings :=
  List.mem_flatMap.2 ⟨_, member, List.mem_cons_self ..⟩

theorem line_exists (bench : realm.Bench world lines fittings) (member : line ∈ lines) :
    world.tree.size > line.id := by
  obtain ⟨upward, -, above, outside⟩ := bench.apart
  exact (outside _ (above line member)).2.2

theorem once (bench : realm.Bench world lines fittings) (sound : realm.Sound world) (member : line ∈ lines)
    {id : NodeId} (split : line.ids = first ++ id :: later) :
    id ∉ first ∧ id ∉ later ∧ ∀ other ∈ lines, other ≠ line → id ∉ other.ids := by
  have woven : ∀ {ids : List NodeId}, id ∈ ids → id ∈ weave fittings ids := fun here => mem_weave.2 (.inl here)
  have distinct : (world.tree.childrenOf line.id).Nodup := sound.wellFormed.nodup _
  rw [bench.listed line member, split, weave_append, weave_cons, List.append_assoc, List.cons_append,
    ← List.append_assoc, List.nodup_middle, List.nodup_cons] at distinct
  simp only [List.mem_append, not_or] at distinct
  refine ⟨fun here => distinct.1.1.2 (woven here), fun here => distinct.1.2.1.2 (woven here), ?_⟩
  intro other elsewhere different here
  have one : id ∈ world.tree.childrenOf line.id := by
    rw [bench.listed line member]
    exact List.mem_append_right _ (List.mem_append_left _ (woven (by simp [split])))
  have two : id ∈ world.tree.childrenOf other.id := by
    rw [bench.listed other elsewhere]
    exact List.mem_append_right _ (List.mem_append_left _ (woven here))
  exact different (List.inj_on_of_nodup_map bench.holders elsewhere member (sound.wellFormed.unique two one))

section Middle

variable (bench : realm.Bench world lines (ahead ++ .node plot :: behind))
include bench

theorem claims : (plot.part.stop :: plot.owned).Nodup ∧
    ∀ id ∈ plot.part.stop :: plot.owned, id ∉ claimedBy ahead ∧ id ∉ claimedBy behind := by
  have distinct := bench.distinct
  rw [claimedBy_append, claimedBy_cons] at distinct
  obtain ⟨-, own, before⟩ := List.nodup_append'.1 distinct
  obtain ⟨own, -, beyond⟩ := List.nodup_append'.1 own
  exact ⟨own, fun id member =>
    ⟨fun again => before again (List.mem_append_left _ member), fun again => beyond member again⟩⟩

/-- What came into the clone for the other parts is beside the nodes that a part is worked on with. -/
theorem beside (member : line ∈ lines) {other : Plot} (among : .node other ∈ ahead ∨ .node other ∈ behind) :
    ∀ id ∈ other.owned, world.tree.size > id ∧ ¬ (id = line.id ∨ id ∈ plot.owned) := by
  intro id owned
  have listed : Fitting.node other ∈ ahead ++ .node plot :: behind := by simpa using among.imp_right .inr
  have claimed := claimed_of_owned listed owned
  refine ⟨bench.present id claimed, ?_⟩
  rintro (rfl | here)
  · exact bench.foreign line member claimed
  · obtain ⟨before, beyond⟩ := bench.claims.2 id (List.mem_cons_of_mem _ here)
    rcases among with among | among
    · exact before (claimed_of_owned among owned)
    · exact beyond (claimed_of_owned among owned)

theorem place : ∃ line ∈ lines, ∃ first later, line.ids = first ++ plot.part.start :: later := by
  obtain ⟨line, member, here⟩ := bench.bound plot (by simp)
  obtain ⟨first, later, split⟩ := List.append_of_mem here
  exact ⟨line, member, first, later, split⟩

variable (member : line ∈ lines) (split : line.ids = first ++ plot.part.start :: later)
include member split

theorem listed_middle : world.tree.childrenOf line.id =
    (line.ahead ++ weave (ahead ++ .node plot :: behind) first) ++
      (plot.nodes ++ (weave (ahead ++ .node plot :: behind) later ++ line.rest)) := by
  rw [bench.listed line member, split, weave_append, weave_cons, behind_start bench.starts]
  simp [Plot.nodes]

theorem siteOf (sound : realm.Sound world) : realm.Site world line.id
    (line.ahead ++ weave (ahead ++ .node plot :: behind) first)
    (weave (ahead ++ .node plot :: behind) later ++ line.rest) plot := by
  have here : Fitting.node plot ∈ ahead ++ .node plot :: behind := by simp
  obtain ⟨holder, spot, same⟩ := bench.spotted line member plot.part.start (by simp [split])
  have notStart : plot.part.start ∉ claimedBy (ahead ++ .node plot :: behind) := same ▸ bench.foreign holder spot
  have among : ∀ id ∈ plot.part.stop :: plot.owned, id ∈ claimedBy (ahead ++ .node plot :: behind) := by
    intro id member
    exact List.mem_flatMap.2 ⟨_, here, member⟩
  obtain ⟨own, -⟩ := bench.claims
  refine ⟨bench.listed_middle member split, (bench.marked plot here).toStaked, (bench.own line member).1,
    (bench.own line member).2.1, ?_, bench.inside plot here, ?_, ?_, ?_⟩
  · refine List.nodup_cons.2 ⟨?_, List.nodup_cons.2 ⟨fun again => notStart (among _ again), own⟩⟩
    intro again
    rcases List.mem_cons.1 again with start | claimed
    · have child : plot.part.start ∈ world.tree.childrenOf line.id := by
        simp [bench.listed_middle member split, Plot.nodes]
      exact sound.wellFormed.not_mem_own (start ▸ child)
    · exact bench.foreign line member (among _ claimed)
  · exact fun id owned => bench.present id (among id (List.mem_cons_of_mem _ owned))
  · intro id claimed
    simp only [Plot.claimed, List.mem_cons] at claimed
    rcases claimed with rfl | rfl | claimed
    · exact (bench.own line member).2.2
    · exact same ▸ (bench.own holder spot).2.2
    · exact bench.unstocked id (among id (List.mem_cons.2 claimed))
  · obtain ⟨upward, closed, above, outside⟩ := bench.apart
    exact ⟨upward, closed, above line member, fun id up =>
      ⟨fun owned => (outside id up).1 (claimed_of_owned here owned), (outside id up).2⟩⟩

section Outlives

variable (outcome : realm.Outcome world after line.id
  (line.ahead ++ weave (ahead ++ .node plot :: behind) first)
  (weave (ahead ++ .node plot :: behind) later ++ line.rest) plot taken new)
include outcome

omit member split in
theorem unmarked (other : Plot) (among : .node other ∈ ahead ∨ .node other ∈ behind) :
    other.part.start ∉ taken ∧ other.part.stop ∉ taken := by
  have marked := bench.marked other (by simpa using among.imp_right .inr)
  exact ⟨not_taken outcome.change.guests marked.start_own, not_taken outcome.change.guests marked.stop_own⟩

omit member split in
theorem claimed_outlives :
    claimedBy (ahead.map (Fitting.without taken) ++ .node new :: behind.map (Fitting.without taken)) =
      (claimedBy ahead).filter (· ∉ taken) ++
        ((new.part.stop :: new.owned) ++ (claimedBy behind).filter (· ∉ taken)) := by
  have markers := bench.unmarked outcome
  rw [claimedBy_append, claimedBy_cons, claimedBy, claimed_without fun other among => markers other (.inl among),
    claimedBy, claimed_without fun other among => markers other (.inr among)]
  rfl

omit member split in
theorem origin_outlives :
    ∀ id ∈ claimedBy (ahead.map (Fitting.without taken) ++ .node new :: behind.map (Fitting.without taken)),
      (id ∈ new.part.stop :: new.owned ∨ id ∈ claimedBy ahead ∨ id ∈ claimedBy behind) ∧
        (id ∈ claimedBy (ahead ++ .node plot :: behind) ∨ world.tree.size ≤ id ∨ id ∈ taken) := by
  intro id among
  rw [bench.claimed_outlives outcome] at among
  simp only [List.mem_append, List.mem_filter] at among
  simp only [claimedBy_append, claimedBy_cons, List.mem_append]
  rcases among with among | among | among
  · exact ⟨.inr (.inl among.1), .inl (.inl among.1)⟩
  · refine ⟨.inl among, ?_⟩
    simp only [Fitting.claimed, outcome.stop, List.mem_cons] at among ⊢
    rcases among with rfl | among
    · exact .inl (.inr (.inl (.inl rfl)))
    · exact (outcome.origin id among).imp_left fun among => .inr (.inl (.inr among))
  · exact ⟨.inr (.inr among.1), .inl (.inr (.inr among.1))⟩

theorem listed_outlives (sound : realm.Sound world) {other : Line} (elsewhere : other ∈ lines) :
    after.tree.childrenOf other.id = (other.without taken).ahead ++
      (weave (ahead.map (Fitting.without taken) ++ .node new :: behind.map (Fitting.without taken))
        other.ids ++ (other.without taken).rest) := by
  have markers := bench.unmarked outcome
  obtain ⟨notFirst, notLater, notOther⟩ := bench.once sound member split
  have left : ∀ line ∈ lines, ∀ id ∈ line.ids, id ∉ taken := by
    intro line member id here
    obtain ⟨holder, spot, rfl⟩ := bench.spotted line member id here
    exact not_taken outcome.change.guests (bench.own holder spot).1
  have here := left line member
  simp only [split, List.mem_append, List.mem_cons] at here
  by_cases same : other = line
  · subst same
    have starts : ((ahead.map (Fitting.without taken) ++
        .node new :: behind.map (Fitting.without taken)).filterMap Fitting.start?).Nodup := by
      have := bench.starts
      have start : Fitting.start? (.node new) = Fitting.start? (.node plot) := congrArg some outcome.start
      simpa [List.filterMap_append, List.filterMap_cons, List.filterMap_map, Function.comp_def, start] using this
    rw [outcome.site.listed, split, weave_append, weave_cons, ← outcome.start, behind_start starts,
      weave_other outcome.start notFirst (fun id among => here id (.inl among)) markers,
      weave_other outcome.start notLater (fun id among => here id (.inr (.inr among))) markers]
    simp [Plot.nodes, Line.without]
  · have apart : ¬ (other.id = line.id ∨ other.id ∈ plot.owned) := by
      rintro (holder | owned)
      · exact same (List.inj_on_of_nodup_map bench.holders elsewhere member holder)
      · exact bench.foreign other elsewhere (claimed_of_owned (by simp) owned)
    rw [(outcome.change.spared _ (bench.line_exists elsewhere) apart).childrenOf, bench.listed other elsewhere,
      weave_other outcome.start (notOther other elsewhere same) (left other elsewhere) markers]
    simp [Line.without]

omit split in
theorem marked_outlives {other : Plot} (among : .node other ∈ ahead ∨ .node other ∈ behind) :
    Marked realm.guest after.kept after.tree other.part.start other.part.stop := by
  have here : Fitting.node other ∈ ahead ++ .node plot :: behind := by simpa using among.imp_right .inr
  have marked := bench.marked other here
  obtain ⟨line, spot, bound⟩ := bench.bound other here
  obtain ⟨holder, among', same⟩ := bench.spotted line spot _ bound
  have start : other.part.start ∉ plot.owned := fun owned =>
    bench.foreign holder among' (same ▸ claimed_of_owned (by simp) owned)
  have stop : other.part.stop ∉ plot.owned := by
    intro owned
    have apart := bench.claims.2 _ (List.mem_cons_of_mem _ owned)
    rcases among with among | among
    · exact apart.1 (List.mem_flatMap.2 ⟨_, among, List.mem_cons_self ..⟩)
    · exact apart.2 (List.mem_flatMap.2 ⟨_, among, List.mem_cons_self ..⟩)
  refine ⟨(outcome.kindOf (Tree.lt_size_of_kindOf marked.start) start).trans marked.start,
    (outcome.kindOf (Tree.lt_size_of_kindOf marked.stop) stop).trans marked.stop, marked.start_own,
    marked.stop_own, outcome.free start marked.start_free, outcome.free stop marked.stop_free, ?_⟩
  refine outcome.change.leaf (Tree.lt_size_of_kindOf marked.stop) ?_ marked.stop_leaf
  rintro (holder | owned)
  · exact bench.foreign _ member (holder ▸ stop_claimed here)
  · exact stop owned

omit member split in
theorem apart_outlives : ∃ upward, after.tree.Upward upward ∧ (∀ line ∈ lines, upward line.id) ∧
    ∀ id, upward id →
      id ∉ claimedBy (ahead.map (Fitting.without taken) ++ .node new :: behind.map (Fitting.without taken)) ∧
        ¬ realm.guest id ∧ after.tree.size > id := by
  obtain ⟨upward, closed, above, outside⟩ := bench.apart
  refine ⟨upward, fun child parent up link => ?_, above, fun id up => ?_⟩
  · obtain ⟨unclaimed, own, inside⟩ := outside child up
    by_cases here : child = line.id
    · exact closed child parent up (here ▸ outcome.container_parent ▸ here ▸ link)
    · have owned : child ∉ plot.owned := fun owned => unclaimed (claimed_of_owned (by simp) owned)
      have spared := outcome.change.spared child inside (by simp [here, owned])
      rw [spared.parentOf (not_taken outcome.change.guests own)] at link
      exact closed child parent up link
  · obtain ⟨unclaimed, own, inside⟩ := outside id up
    refine ⟨fun again => ?_, own, Nat.lt_of_lt_of_le inside outcome.change.size_le⟩
    rcases (bench.origin_outlives outcome id again).2 with old | beyond | gone
    · exact unclaimed old
    · exact Nat.not_lt.2 beyond inside
    · exact own (outcome.change.guests id gone)

omit member split in
theorem distinct_outlives :
    (claimedBy (ahead.map (Fitting.without taken) ++ .node new :: behind.map (Fitting.without taken))).Nodup := by
  have old := bench.distinct
  rw [claimedBy_append, claimedBy_cons] at old
  rw [bench.claimed_outlives outcome]
  refine nodup_replace old (List.nodup_cons.1 (List.nodup_cons.1 outcome.site.distinct).2).2 (fun id here => ?_)
    fun id here => bench.present id ?_
  · simp only [Fitting.claimed, outcome.stop, List.mem_cons] at here ⊢
    rcases here with rfl | here
    · exact .inl (.inl rfl)
    · exact (outcome.origin id here).imp_left .inr
  · simp only [claimedBy_append, claimedBy_cons, List.mem_append] at here ⊢
    exact here.imp_right .inr

omit member split in
/-- The nodes of the parts exist and are in nobody's stock once something happened to one of the parts. -/
theorem unstocked_outlives {id : NodeId}
    (here : id ∈ claimedBy (ahead.map (Fitting.without taken) ++ .node new :: behind.map (Fitting.without taken))) :
    after.tree.size > id ∧ ¬ realm.stock after.scene id := by
  rcases (bench.origin_outlives outcome id here).1 with here | elsewhere
  · refine ⟨?_, outcome.site.unstocked id ?_⟩
    · rcases List.mem_cons.1 here with rfl | here
      · exact Tree.lt_size_of_kindOf outcome.site.marked.stop
      · exact outcome.site.present id here
    · simp only [Plot.claimed, List.mem_cons] at here ⊢
      exact .inr (.inr here)
  · have old : id ∈ claimedBy (ahead ++ .node plot :: behind) := by
      simp only [claimedBy_append, claimedBy_cons, List.mem_append]
      exact elsewhere.imp_right .inr
    have inside := bench.present id old
    exact ⟨Nat.lt_of_lt_of_le inside outcome.change.size_le, fun stock =>
      bench.unstocked id old ((outcome.change.stock id inside).1 stock)⟩

theorem outlives (sound : realm.Sound world) (known : realm.survey.Knows new.part) :
    realm.Bench after (lines.map (Line.without taken))
      (ahead.map (Fitting.without taken) ++ .node new :: behind.map (Fitting.without taken)) := by
  have plots : ∀ other, .node other ∈ ahead.map (Fitting.without taken) ++
        .node new :: behind.map (Fitting.without taken) →
      other = new ∨ ∃ old, (.node old ∈ ahead ∨ .node old ∈ behind) ∧ other = old.without taken := by
    intro other among
    simp only [List.mem_append, List.mem_cons, node_mem_without, Fitting.node.injEq] at among
    rcases among with ⟨old, among, rfl⟩ | rfl | ⟨old, among, rfl⟩
    · exact .inr ⟨old, .inl among, rfl⟩
    · exact .inl rfl
    · exact .inr ⟨old, .inr among, rfl⟩
  have among : ∀ {fitting}, fitting ∈ ahead ∨ fitting ∈ behind → fitting ∈ ahead ++ .node plot :: behind := by
    intro fitting member
    simpa using member.imp_right .inr
  have holders : ∀ other ∈ lines, other.id ∉ plot.owned := fun other spot owned =>
    bench.foreign other spot (claimed_of_owned (by simp) owned)
  constructor
  case listed => exact List.forall_mem_map.2 fun other elsewhere =>
      bench.listed_outlives member split outcome sound elsewhere
  case holders => simpa [List.map_map, Function.comp_def, Line.without] using bench.holders
  case own =>
    refine List.forall_mem_map.2 fun other elsewhere => ?_
    obtain ⟨own, free, unstocked⟩ := bench.own other elsewhere
    exact ⟨own, outcome.free (holders other elsewhere) free,
      fun stock => unstocked ((outcome.change.stock _ (bench.line_exists elsewhere)).1 stock)⟩
  case spotted =>
    refine List.forall_mem_map.2 fun other elsewhere id here => ?_
    obtain ⟨holder, spot, same⟩ := bench.spotted other elsewhere id here
    exact ⟨_, List.mem_map_of_mem spot, same⟩
  case marked =>
    intro other here
    rcases plots other here with rfl | ⟨old, was, rfl⟩
    · exact ⟨outcome.site.marked, known⟩
    · have charted := bench.marked old (among was)
      have marked := bench.marked_outlives member outcome was
      exact ⟨⟨marked, fun id member => charted.surveyed id (List.mem_of_mem_filter member)⟩,
        charted.known⟩
  case starts =>
    have start : Fitting.start? (.node new) = Fitting.start? (.node plot) := congrArg some outcome.start
    have := bench.starts
    simpa [List.filterMap_append, List.filterMap_cons, List.filterMap_map, Function.comp_def, start] using this
  case bound =>
    intro other here
    have old : ∃ old, .node old ∈ ahead ++ .node plot :: behind ∧ other.part.start = old.part.start := by
      rcases plots other here with rfl | ⟨old, was, rfl⟩
      · exact ⟨plot, by simp, outcome.start⟩
      · exact ⟨old, among was, rfl⟩
    obtain ⟨old, was, start⟩ := old
    obtain ⟨holder, spot, bound⟩ := bench.bound old was
    exact ⟨_, List.mem_map_of_mem spot, start ▸ bound⟩
  case distinct => exact bench.distinct_outlives outcome
  case foreign =>
    refine List.forall_mem_map.2 fun other elsewhere again => ?_
    rcases (bench.origin_outlives outcome _ again).2 with old | beyond | gone
    · exact bench.foreign other elsewhere old
    · have inside := bench.line_exists elsewhere
      exact Nat.not_lt.2 beyond inside
    · exact (bench.own other elsewhere).1 (outcome.change.guests _ gone)
  case inside =>
    intro other here
    rcases plots other here with rfl | ⟨old, was, rfl⟩
    · exact outcome.site.inside
    · intro id inner
      have := List.mem_filter.1 inner
      exact List.mem_filter.2 ⟨bench.inside old (among was) id this.1, this.2⟩
  case present => exact fun id here => (bench.unstocked_outlives outcome here).1
  case unstocked => exact fun id here => (bench.unstocked_outlives outcome here).2
  case apart =>
    obtain ⟨upward, closed, above, outside⟩ := bench.apart_outlives outcome
    exact ⟨upward, closed, List.forall_mem_map.2 above, outside⟩

end Outlives

end Middle

section Join

variable {id : NodeId} (bench : realm.Bench world lines fittings) (sound : realm.Sound world) (member : line ∈ lines)
  (split : line.ids = first ++ id :: later) (unbound : ∀ plot, .node plot ∈ fittings → plot.part.start ≠ id)
include bench unbound

theorem starts_join (stop : NodeId) :
    ((fittings ++ [Fitting.node ⟨.between id stop, [], []⟩]).filterMap Fitting.start?).Nodup := by
  have last : [Fitting.node ⟨.between id stop, [], []⟩].filterMap Fitting.start? = [id] := rfl
  rw [List.filterMap_append, last]
  refine bench.starts.append (by simp) (List.disjoint_singleton.2 fun again => ?_)
  obtain ⟨fitting, among, start⟩ := List.mem_filterMap.1 again
  cases fitting with
  | node plot => exact unbound plot among (Option.some.inj start)
  | label part => cases start

variable (joined : world.tree.Joined after.tree .marker line.id (line.ahead ++ (weave fittings first ++ [id]))
  (weave fittings later ++ line.rest))
include sound member split joined

theorem listed_join {other : Line} (elsewhere : other ∈ lines) : after.tree.childrenOf other.id =
    other.ahead ++ (weave (fittings ++ [.node ⟨.between id world.tree.size, [], []⟩]) other.ids ++ other.rest) := by
  obtain ⟨notFirst, notLater, notOther⟩ := bench.once sound member split
  by_cases here : other = line
  · subst here
    have bound : Layout.behind (fittings ++ [.node ⟨.between id world.tree.size, [], []⟩]) id =
        [world.tree.size] := by
      rw [behind_append, behind_eq_nil unbound]
      simp [Layout.behind, Fitting.behind, NodePart.between]
    rw [joined.children, split, weave_append, weave_cons, bound, weave_unbound notFirst, weave_unbound notLater]
    simp
  · have away : other.id ≠ line.id := fun same =>
      here (List.inj_on_of_nodup_map bench.holders elsewhere member same)
    rw [joined.childrenOf _ away, bench.listed other elsewhere, weave_unbound (notOther other elsewhere here)]

theorem join (marker : world.tree.kindOf id = some .marker) (held : ∀ id, after.kept id → world.kept id)
    (stock : ∀ id, realm.stock after.scene id → realm.stock world.scene id) :
    realm.Bench after lines (fittings ++ [.node ⟨.between id world.tree.size, [], []⟩]) := by
  obtain ⟨holder, spot, same⟩ := bench.spotted line member id (by simp [split])
  have own := bench.own holder spot
  rw [same] at own
  have grown : world.tree.size ≤ after.tree.size := by rw [joined.size]; exact Nat.le_succ _
  have claims : claimedBy (fittings ++ [.node ⟨.between id world.tree.size, [], []⟩]) =
      claimedBy fittings ++ [world.tree.size] := by
    simp [Fitting.claimed, NodePart.between]
  have nodes : ∀ plot, .node plot ∈ fittings ++ [.node ⟨.between id world.tree.size, [], []⟩] →
      .node plot ∈ fittings ∨ plot = ⟨.between id world.tree.size, [], []⟩ := by
    intro plot among
    simpa using among
  have fresh : ¬ realm.guest world.tree.size ∧ ¬ world.kept world.tree.size ∧
      ¬ realm.stock world.scene world.tree.size := by
    refine ⟨fun guest => ?_, fun kept => ?_, fun shelf => ?_⟩
    · exact Nat.lt_irrefl _ (sound.guest_exists _ guest)
    · exact Nat.lt_irrefl _ (sound.kept_exists _ kept)
    · exact Nat.lt_irrefl _ (sound.stock_exists _ shelf)
  have leaf : after.tree.childrenOf world.tree.size = [] := by
    rw [joined.childrenOf _ (Nat.ne_of_gt (bench.line_exists member)), Tree.childrenOf_of_size_le (Nat.le_refl _)]
  constructor
  case listed => exact fun other elsewhere => bench.listed_join sound member split unbound joined elsewhere
  case holders => exact bench.holders
  case own =>
    intro other elsewhere
    obtain ⟨own, free, unstocked⟩ := bench.own other elsewhere
    exact ⟨own, fun kept => free (held _ kept), fun shelf => unstocked (stock _ shelf)⟩
  case spotted => exact bench.spotted
  case marked =>
    intro plot among
    rcases nodes plot among with old | rfl
    · exact (bench.marked plot old).remain
        (fun id marker => (joined.kindOf id (Tree.lt_size_of_kindOf marker)).trans marker) held
        (joined.childrenOf _ fun same => bench.foreign line member (same ▸ stop_claimed old))
    · exact ⟨⟨⟨(joined.kindOf _ (Tree.lt_size_of_kindOf marker)).trans marker, joined.kind, own.1, fresh.1,
        fun kept => own.2.1 (held _ kept), fun kept => fresh.2.1 (held _ kept), leaf⟩,
        List.forall_mem_nil _⟩, List.forall_mem_nil _⟩
  case starts => exact bench.starts_join unbound _
  case bound =>
    intro plot among
    rcases nodes plot among with old | rfl
    · exact bench.bound plot old
    · exact ⟨line, member, by simp [split, NodePart.between]⟩
  case distinct =>
    rw [claims]
    exact bench.distinct.append (by simp)
      (List.disjoint_singleton.2 fun again => Nat.lt_irrefl _ (bench.present _ again))
  case foreign =>
    intro other elsewhere
    rw [claims, List.mem_append, List.mem_singleton, not_or]
    exact ⟨bench.foreign other elsewhere, Nat.ne_of_lt (bench.line_exists elsewhere)⟩
  case inside =>
    intro plot among
    rcases nodes plot among with old | rfl
    · exact bench.inside plot old
    · simp
  case present =>
    intro other among
    rw [claims, List.mem_append, List.mem_singleton] at among
    rcases among with old | rfl
    · exact Nat.lt_of_lt_of_le (bench.present other old) grown
    · exact Tree.lt_size_of_kindOf joined.kind
  case unstocked =>
    intro other among
    rw [claims, List.mem_append, List.mem_singleton] at among
    rcases among with old | rfl
    · exact fun shelf => bench.unstocked other old (stock _ shelf)
    · exact fun shelf => fresh.2.2 (stock _ shelf)
  case apart =>
    obtain ⟨upward, closed, above, outside⟩ := bench.apart
    refine ⟨upward, fun child parent up link => ?_, above, fun id up => ?_⟩
    · rw [joined.parentOf child (outside child up).2.2] at link
      exact closed child parent up link
    · obtain ⟨unclaimed, own, inside⟩ := outside id up
      rw [claims, List.mem_append, List.mem_singleton, not_or]
      exact ⟨⟨unclaimed, Nat.ne_of_lt inside⟩, own, Nat.lt_of_lt_of_le inside grown⟩

end Join

theorem similar {others : List Fitting} (bench : realm.Bench world lines fittings)
    (same : others.filterMap Fitting.plot? = fittings.filterMap Fitting.plot?) :
    realm.Bench world lines others := by
  have nodes : ∀ plot, .node plot ∈ others → .node plot ∈ fittings := fun plot here =>
    mem_plots.1 (same ▸ mem_plots.2 here)
  have woven : ∀ ids, weave others ids = weave fittings ids := by
    simp only [weave, behind_eq_plots, same, implies_true]
  have claims : claimedBy others = claimedBy fittings := by rw [claimedBy_eq_plots, claimedBy_eq_plots, same]
  have starts : others.filterMap Fitting.start? = fittings.filterMap Fitting.start? := by
    rw [starts_eq_plots, starts_eq_plots, same]
  refine { bench with
    listed := ?_, marked := ?_, starts := starts ▸ bench.starts, bound := ?_, distinct := claims ▸ bench.distinct
    foreign := claims ▸ bench.foreign, inside := ?_, present := claims ▸ bench.present
    unstocked := claims ▸ bench.unstocked, apart := claims ▸ bench.apart }
  · simpa only [woven] using bench.listed
  · exact fun plot member => bench.marked plot (nodes plot member)
  · exact fun plot member => bench.bound plot (nodes plot member)
  · exact fun plot member => bench.inside plot (nodes plot member)

theorem labelled {part : AttributePart} (bench : realm.Bench world lines fittings) :
    realm.Bench world lines (fittings ++ [.label part]) :=
  bench.similar (by simp [Fitting.plot?])

theorem relabel {part told : AttributePart} (bench : realm.Bench world lines (ahead ++ .label part :: behind)) :
    realm.Bench world lines (ahead ++ .label told :: behind) :=
  bench.similar (by simp [Fitting.plot?, List.filterMap_cons])

theorem altered (bench : realm.Bench world lines fittings)
    (children : ∀ id, after.tree.childrenOf id = world.tree.childrenOf id)
    (parents : ∀ id, after.tree.parentOf id = world.tree.parentOf id)
    (size : after.tree.size = world.tree.size) (held : ∀ id, after.kept id → world.kept id)
    (stock : ∀ id, realm.stock after.scene id → realm.stock world.scene id)
    (markers : ∀ id, world.tree.kindOf id = some .marker → after.tree.kindOf id = some .marker) :
    realm.Bench after lines fittings := by
  refine { bench with
    listed := fun line member => (children line.id).trans (bench.listed line member)
    own := ?_, marked := ?_, present := fun id member => size ▸ bench.present id member
    unstocked := fun id member shelf => bench.unstocked id member (stock id shelf), apart := ?_ }
  · intro line member
    obtain ⟨own, free, unstocked⟩ := bench.own line member
    exact ⟨own, fun kept => free (held _ kept), fun shelf => unstocked (stock _ shelf)⟩
  · exact fun plot member => (bench.marked plot member).remain markers held (children _)
  · obtain ⟨upward, closed, above, outside⟩ := bench.apart
    exact ⟨upward, fun child parent up link => closed child parent up (parents child ▸ link), above,
      fun id up => size ▸ outside id up⟩

end Bench

end Realm

end DomParts.Layout
