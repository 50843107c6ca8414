import DomParts.Proofs.Layout.Honest

/-! # Rows

The items of a list stand next to each other in the container of the list, each between markers of its
own. A row is the site of a list together with its items and with the nodes that a removal hook kept
between them.
-/

namespace DomParts.Layout

variable {σ : Type}

/-- All nodes of blocks, as they stand in the container. -/
def nodesOf (blocks : List Block) : List NodeId := blocks.flatMap Block.nodes

def claimedOf (blocks : List Block) : List NodeId := blocks.flatMap Block.claimed

section Lists

variable {left right blocks : List Block} {plot : Plot} {id : NodeId}

@[simp] theorem nodesOf_append : nodesOf (left ++ right) = nodesOf left ++ nodesOf right :=
  List.flatMap_append

@[simp] theorem nodesOf_plot : nodesOf (.plot plot :: blocks) = plot.nodes ++ nodesOf blocks := rfl

@[simp] theorem nodesOf_nil : nodesOf [] = [] := rfl

@[simp] theorem nodesOf_stray : nodesOf (.stray id :: blocks) = id :: nodesOf blocks := rfl

@[simp] theorem claimedOf_append : claimedOf (left ++ right) = claimedOf left ++ claimedOf right :=
  List.flatMap_append

@[simp] theorem claimedOf_plot : claimedOf (.plot plot :: blocks) = plot.claimed ++ claimedOf blocks := rfl

@[simp] theorem claimedOf_nil : claimedOf [] = [] := rfl

@[simp] theorem claimedOf_stray : claimedOf (.stray id :: blocks) = id :: claimedOf blocks := rfl

end Lists

namespace Realm

/-- The site of a list with its blocks. -/
structure Row (realm : Realm σ) (world : World σ) (container : NodeId) (front rest : List NodeId)
    (part : NodePart) (blocks : List Block) : Prop where
  site : realm.Site world container front rest ⟨part, nodesOf blocks, claimedOf blocks⟩
  marked : ∀ plot, .plot plot ∈ blocks → Lined realm.survey realm.guest world.kept world.tree plot
  inside : ∀ plot, .plot plot ∈ blocks → ∀ id ∈ plot.inner, id ∈ plot.owned
  strays : ∀ id, .stray id ∈ blocks →
    world.kept id ∧ (realm.guest id → world.tree.isText id = false)
  complete : realm.bare → ∀ id, .stray id ∉ blocks

variable {realm : Realm σ} {world after : World σ} {container : NodeId} {front rest : List NodeId}
  {part : NodePart} {blocks left right : List Block} {plot new : Plot} {slack : Slack}
  {taken : List NodeId} {content : Content} {inner owned : List NodeId}

/-- Some nodes give way to others, which are new or were taken from elsewhere. -/
theorem nodup_replace {size : Nat} {ahead old fresh behind : List NodeId}
    (distinct : (ahead ++ (old ++ behind)).Nodup) (own : fresh.Nodup)
    (origin : ∀ id ∈ fresh, id ∈ old ∨ size ≤ id ∨ id ∈ taken)
    (present : ∀ id ∈ ahead ++ behind, size > id) :
    (ahead.filter (· ∉ taken) ++ (fresh ++ behind.filter (· ∉ taken))).Nodup := by
  obtain ⟨first, second, apart⟩ := List.nodup_append'.1 distinct
  obtain ⟨-, last, between⟩ := List.nodup_append'.1 second
  have outside : ∀ id ∈ fresh, ∀ others : List NodeId, (∀ id ∈ others, id ∈ ahead ++ behind) →
      (∀ id ∈ others, id ∉ old) → id ∉ others.filter (· ∉ taken) := by
    intro id member others among elsewhere again
    obtain ⟨again, left⟩ := List.mem_filter.1 again
    rcases origin id member with here | beyond | gone
    · exact elsewhere id again here
    · exact Nat.not_lt.2 beyond (present id (among id again))
    · simp [gone] at left
  refine List.nodup_append'.2 ⟨first.filter _, List.nodup_append'.2 ⟨own, last.filter _, ?_⟩, ?_⟩
  · intro id member
    refine outside id member behind (fun id => List.mem_append_right _) fun id here again => ?_
    exact between again here
  · intro id member again
    rcases List.mem_append.1 again with again | again
    · refine outside id again ahead (fun id => List.mem_append_left _) (fun id here again => ?_) member
      exact apart here (List.mem_append_left _ again)
    · exact apart (List.mem_of_mem_filter member)
        (List.mem_append_right _ (List.mem_of_mem_filter again))

namespace Row

theorem container_unstocked (row : realm.Row world container front rest part blocks) :
    ¬ realm.stock world.scene container :=
  row.site.unstocked _ (List.mem_cons_self ..)

section Rearranged

variable {fewer worked : List NodeId} {others : List Block}

/-- A row whose blocks were put into another order, joined by new ones or removed. -/
theorem rearranged (sound : realm.Sound world) (row : realm.Row world container front rest part blocks)
    (change : realm.Change world after (fun id => id = container ∨ id ∈ worked) [])
    (free : ¬ after.kept container)
    (parent : after.tree.parentOf container = world.tree.parentOf container)
    (among : ∀ id ∈ worked, id ∈ claimedOf blocks)
    (listed : after.tree.childrenOf container =
      front ++ part.start :: (nodesOf others ++ part.stop :: rest))
    (distinct : (claimedOf others).Nodup)
    (origin : ∀ id ∈ claimedOf others, id ∈ claimedOf blocks ∨
      world.tree.size ≤ id ∧ after.tree.size > id ∧ ¬ realm.stock after.scene id)
    (plots : ∀ plot, .plot plot ∈ others →
      (.plot plot ∈ blocks ∧ ∀ id ∈ plot.claimed, id ∉ worked) ∨
      Lined realm.survey realm.guest after.kept after.tree plot ∧ ∀ id ∈ plot.inner, id ∈ plot.owned)
    (strays : ∀ id, .stray id ∈ others → (.stray id ∈ blocks ∧ id ∉ worked) ∨
      after.kept id ∧ (realm.guest id → after.tree.isText id = false) ∧ ¬ realm.bare) :
    realm.Row after container front rest part others := by
  have inside : ∀ plot, .plot plot ∈ others → ∀ id ∈ plot.inner, id ∈ plot.owned := by
    intro plot member
    rcases plots plot member with ⟨was, -⟩ | ⟨-, inside⟩
    · exact row.inside plot was
    · exact inside
  have untouched : ∀ {block}, block ∈ blocks → ∀ id ∈ block.claimed, id ∉ worked →
      world.tree.size > id ∧ ¬ (id = container ∨ id ∈ worked) := by
    intro block member id claimed apart
    have owned : id ∈ claimedOf blocks := List.mem_flatMap.2 ⟨block, member, claimed⟩
    refine ⟨row.site.present id owned, ?_⟩
    rintro (rfl | here)
    · exact row.site.container_new.2.2 owned
    · exact apart here
  have wide : realm.Change world after (fun id => id = container ∨ id ∈ claimedOf blocks) [] :=
    change.widen (fun id _ here => here.imp_right (among id)) sound
  have spared : ∀ id, .stray id ∈ blocks → id ∉ worked → world.tree.Spared after.tree [] id := by
    intro id member apart
    have := untouched member id (List.mem_singleton.2 rfl) apart
    exact change.spared id this.1 this.2
  refine ⟨?_, ?_, inside, ?_, ?_⟩
  · have site : realm.Site after container (front.filter (· ∉ ([] : List NodeId)))
        (rest.filter (· ∉ ([] : List NodeId))) ⟨part, nodesOf others, claimedOf others⟩ := by
      refine wide.site sound row.site free parent rfl rfl (by simpa [Plot.nodes] using listed) distinct
        (flatMap_nodes_subset inside) ?_ ?_ fun id member => (origin id member).imp_right fun fresh => .inl fresh.1
      · intro id member
        rcases origin id member with old | fresh
        · exact Nat.lt_of_lt_of_le (row.site.present id old) change.size_le
        · exact fresh.2.1
      · intro id member beyond
        rcases origin id member with old | fresh
        · exact absurd (row.site.present id old) (Nat.not_lt.2 beyond)
        · exact fresh.2.2
    simpa using site
  · intro plot member
    rcases plots plot member with ⟨was, apart⟩ | ⟨marked, -⟩
    · have start : plot.part.start ∈ plot.claimed := by simp [Plot.claimed]
      have stop : plot.part.stop ∈ plot.claimed := by simp [Plot.claimed]
      exact change.lined (row.marked plot was) (untouched was _ start (apart _ start)).2
        (untouched was _ stop (apart _ stop)).2 rfl fun _ => id
    · exact marked
  · intro id member
    rcases strays id member with ⟨was, apart⟩ | ⟨kept, guest, -⟩
    · obtain ⟨kept, guest⟩ := row.strays id was
      have outside := (untouched was id (List.mem_singleton.2 rfl) apart).2
      refine ⟨(change.held outside).2 kept, fun own => ?_⟩
      rw [← guest own]
      simp only [Tree.isText, (spared id was apart).kindOf]
    · exact ⟨kept, guest⟩
  · intro bare id member
    rcases strays id member with ⟨was, -⟩ | ⟨-, -, untold⟩
    · exact row.complete bare id was
    · exact untold bare

end Rearranged

variable (row : realm.Row world container front rest part (left ++ .plot plot :: right))
include row

theorem siteOf : realm.Site world container (front ++ part.start :: nodesOf left)
    (nodesOf right ++ part.stop :: rest) plot := by
  have member : Block.plot plot ∈ left ++ .plot plot :: right := by simp
  have among : ∀ id ∈ plot.claimed, id ∈ claimedOf (left ++ .plot plot :: right) := by
    intro id claimed
    simp [claimed]
  have own : ∀ id ∈ plot.owned, id ∈ plot.claimed := fun id owned =>
    List.mem_cons_of_mem _ (List.mem_cons_of_mem _ owned)
  have claims := row.site.owned_nodup
  simp only [claimedOf_append, claimedOf_plot] at claims
  constructor
  · rw [row.site.listed]
    simp [Plot.nodes]
  · exact (row.marked plot member).toStaked
  · exact row.site.container_own
  · exact row.site.container_free
  · refine List.nodup_cons.2 ⟨fun here => row.site.container_new.2.2 (among _ here), ?_⟩
    exact (List.nodup_append.1 (List.nodup_append.1 claims).2.1).1
  · exact row.inside plot member
  · exact fun id owned => row.site.present id (among id (own id owned))
  · intro id here
    rcases List.mem_cons.1 here with rfl | here
    · exact row.site.unstocked _ (List.mem_cons_self ..)
    · exact row.site.unstocked id (by
        simp only [Plot.claimed, List.mem_cons]
        exact .inr (.inr (.inr (among id here))))
  · obtain ⟨upward, closed, above, outside⟩ := row.site.apart
    exact ⟨upward, closed, above, fun id up =>
      ⟨fun owned => (outside id up).1 (among id (own id owned)), (outside id up).2⟩⟩

theorem apart {id : NodeId} (other : id ∈ claimedOf left ∨ id ∈ claimedOf right) :
    world.tree.size > id ∧ id ≠ container ∧ id ∉ plot.claimed := by
  have claims := row.site.owned_nodup
  simp only [claimedOf_append, claimedOf_plot] at claims
  obtain ⟨-, second, first⟩ := List.nodup_append'.1 claims
  obtain ⟨-, -, last⟩ := List.nodup_append'.1 second
  have among : id ∈ claimedOf (left ++ .plot plot :: right) := by
    simp only [claimedOf_append, claimedOf_plot, List.mem_append]
    exact other.imp_right .inr
  refine ⟨row.site.present id among, fun same => row.site.container_new.2.2 (same ▸ among), ?_⟩
  rcases other with other | other
  · exact fun here => first other (List.mem_append_left _ here)
  · exact fun here => last here other

theorem untouched {id : NodeId} (other : id ∈ claimedOf left ∨ id ∈ claimedOf right) :
    world.tree.size > id ∧ ¬ (id = container ∨ id ∈ plot.owned) := by
  obtain ⟨inside, notContainer, notHere⟩ := row.apart other
  refine ⟨inside, ?_⟩
  rintro (same | owned)
  · exact notContainer same
  · exact notHere (List.mem_cons_of_mem _ (List.mem_cons_of_mem _ owned))

omit row in
theorem mem_claimedOf {block : Block} (member : block ∈ left ∨ block ∈ right) {id : NodeId}
    (claimed : id ∈ block.claimed) : id ∈ claimedOf left ∨ id ∈ claimedOf right :=
  member.imp (fun member => List.mem_flatMap.2 ⟨block, member, claimed⟩)
    (fun member => List.mem_flatMap.2 ⟨block, member, claimed⟩)

theorem unmarked (guests : ∀ id ∈ taken, realm.guest id) (other : Plot)
    (member : .plot other ∈ left ∨ .plot other ∈ right) :
    other.part.start ∉ taken ∧ other.part.stop ∉ taken := by
  have marked := row.marked other (by simpa using member.imp_right .inr)
  exact ⟨not_taken guests marked.start_own, not_taken guests marked.stop_own⟩

/-- What is listed and claimed once guests were taken from the other blocks. -/
theorem listed_outlives (new : Plot) (guests : ∀ id ∈ taken, realm.guest id) :
    nodesOf (blocksWithout taken left ++ .plot new :: blocksWithout taken right) =
      (nodesOf left).filter (· ∉ taken) ++ (new.nodes ++ (nodesOf right).filter (· ∉ taken)) ∧
    claimedOf (blocksWithout taken left ++ .plot new :: blocksWithout taken right) =
      (claimedOf left).filter (· ∉ taken) ++ (new.claimed ++ (claimedOf right).filter (· ∉ taken)) := by
  have ahead := fun other member => row.unmarked guests other (.inl member)
  have behind := fun other member => row.unmarked guests other (.inr member)
  constructor
  · rw [nodesOf_append, nodesOf_plot, nodesOf, nodes_blocksWithout ahead, nodesOf,
      nodes_blocksWithout behind]
    rfl
  · rw [claimedOf_append, claimedOf_plot, claimedOf, claimed_blocksWithout ahead, claimedOf,
      claimed_blocksWithout behind]
    rfl

section Outlives

variable (outcome : realm.Outcome world after container (front ++ part.start :: nodesOf left)
  (nodesOf right ++ part.stop :: rest) plot taken new)
include outcome

/-- Where the nodes of a row come from once something happened to one of its items. -/
theorem origin_outlives :
    ∀ id ∈ claimedOf (blocksWithout taken left ++ .plot new :: blocksWithout taken right),
      (id ∈ new.claimed ∨ id ∈ claimedOf left ∨ id ∈ claimedOf right) ∧
        (id ∈ claimedOf (left ++ .plot plot :: right) ∨ world.tree.size ≤ id ∨ id ∈ taken) := by
  intro id member
  rw [(row.listed_outlives new outcome.change.guests).2] at member
  simp only [List.mem_append, List.mem_filter] at member
  simp only [claimedOf_append, claimedOf_plot, List.mem_append]
  rcases member with member | member | member
  · exact ⟨.inr (.inl member.1), .inl (.inl member.1)⟩
  · refine ⟨.inl member, ?_⟩
    simp only [Plot.claimed, outcome.start, outcome.stop, List.mem_cons] at member ⊢
    rcases member with rfl | rfl | member
    · exact .inl (.inr (.inl (.inl rfl)))
    · exact .inl (.inr (.inl (.inr (.inl rfl))))
    · exact (outcome.origin id member).imp_left fun member => .inr (.inl (.inr (.inr member)))
  · exact ⟨.inr (.inr member.1), .inl (.inr (.inr member.1))⟩

theorem site_outlives (sound : realm.Sound world)
    (inside : ∀ id ∈ nodesOf (blocksWithout taken left ++ .plot new :: blocksWithout taken right),
      id ∈ claimedOf (blocksWithout taken left ++ .plot new :: blocksWithout taken right)) :
    realm.Site after container (front.filter (· ∉ taken)) (rest.filter (· ∉ taken))
      ⟨part, nodesOf (blocksWithout taken left ++ .plot new :: blocksWithout taken right),
        claimedOf (blocksWithout taken left ++ .plot new :: blocksWithout taken right)⟩ := by
  have change := outcome.change
  have origin := row.origin_outlives outcome
  obtain ⟨listed, claims⟩ := row.listed_outlives new change.guests
  have wide : realm.Change world after
      (fun id => id = container ∨ id ∈ claimedOf (left ++ .plot plot :: right)) taken := by
    refine change.widen (fun id _ here => here.imp_right fun owned => ?_) sound
    simp only [claimedOf_append, claimedOf_plot, List.mem_append]
    exact .inr (.inl (List.mem_cons_of_mem _ (List.mem_cons_of_mem _ owned)))
  refine wide.site sound row.site outcome.site.container_free outcome.container_parent rfl rfl ?_ ?_ inside
    ?_ ?_ fun id member => (origin id member).2
  · rw [outcome.site.listed]
    simp only [List.filter_append, List.filter_cons, not_taken change.guests row.site.marked.start_own,
      not_taken change.guests row.site.marked.stop_own, not_false_eq_true, decide_true, if_true, Plot.nodes,
      listed]
    simp
  · have old := row.site.owned_nodup
    simp only [claimedOf_append, claimedOf_plot] at old
    rw [claims]
    refine nodup_replace old (List.nodup_cons.1 outcome.site.distinct).2 (fun id member => ?_)
      fun id member => (row.apart (List.mem_append.1 member)).1
    simp only [Plot.claimed, outcome.start, outcome.stop, List.mem_cons] at member ⊢
    rcases member with rfl | rfl | member
    · exact .inl (.inl rfl)
    · exact .inl (.inr (.inl rfl))
    · exact (outcome.origin id member).imp_left fun member => .inr (.inr member)
  · intro id member
    rcases (origin id member).1 with here | elsewhere
    · simp only [Plot.claimed, List.mem_cons] at here
      rcases here with rfl | rfl | here
      · exact Tree.lt_size_of_kindOf outcome.site.marked.start
      · exact Tree.lt_size_of_kindOf outcome.site.marked.stop
      · exact outcome.site.present id here
    · exact Nat.lt_of_lt_of_le (row.apart elsewhere).1 change.size_le
  · intro id member beyond
    rcases (origin id member).1 with here | elsewhere
    · exact outcome.site.unstocked id (List.mem_cons_of_mem _ here)
    · exact absurd (row.apart elsewhere).1 (Nat.not_lt.2 beyond)

theorem outlives (sound : realm.Sound world) (known : realm.survey.Knows new.part) :
    realm.Row after container (front.filter (· ∉ taken)) (rest.filter (· ∉ taken)) part
      (blocksWithout taken left ++ .plot new :: blocksWithout taken right) := by
  have change := outcome.change
  have plots : ∀ other, .plot other ∈ blocksWithout taken left ++ .plot new :: blocksWithout taken right →
      other = new ∨ ∃ old, (.plot old ∈ left ∨ .plot old ∈ right) ∧ other = old.without taken := by
    intro other member
    simp only [List.mem_append, List.mem_cons, plot_mem_blocksWithout, Block.plot.injEq] at member
    rcases member with ⟨old, member, rfl⟩ | rfl | ⟨old, member, rfl⟩
    · exact .inr ⟨old, .inl member, rfl⟩
    · exact .inl rfl
    · exact .inr ⟨old, .inr member, rfl⟩
  have strays : ∀ id, .stray id ∈ blocksWithout taken left ++ .plot new :: blocksWithout taken right →
      .stray id ∈ left ∨ .stray id ∈ right := by
    intro id member
    simp only [List.mem_append, List.mem_cons, stray_mem_blocksWithout, reduceCtorEq, false_or] at member
    exact member.imp And.left And.left
  have among : ∀ {block}, block ∈ left ∨ block ∈ right → block ∈ left ++ .plot plot :: right := by
    intro block member
    simp only [List.mem_append, List.mem_cons]
    exact member.imp_right .inr
  have inside : ∀ other, .plot other ∈ blocksWithout taken left ++ .plot new :: blocksWithout taken right →
      ∀ id ∈ other.inner, id ∈ other.owned := by
    intro other member
    rcases plots other member with rfl | ⟨old, was, rfl⟩
    · exact outcome.site.inside
    · intro id here
      have := List.mem_filter.1 here
      exact List.mem_filter.2 ⟨row.inside old (among was) id this.1, this.2⟩
  have spared : ∀ id, .stray id ∈ left ∨ .stray id ∈ right → world.tree.Spared after.tree taken id := by
    intro id member
    have := row.untouched (mem_claimedOf member (List.mem_singleton.2 rfl))
    exact change.spared id this.1 this.2
  have text : ∀ id, .stray id ∈ left ∨ .stray id ∈ right → after.tree.isText id = world.tree.isText id := by
    intro id member
    simp only [Tree.isText, (spared id member).kindOf]
  refine ⟨row.site_outlives outcome sound (flatMap_nodes_subset inside), ?_, inside, ?_, ?_⟩
  · intro other member
    rcases plots other member with rfl | ⟨old, was, rfl⟩
    · have leaf := (row.marked plot (by simp)).start_leaf
      refine ⟨⟨outcome.site.marked, known⟩, ?_⟩
      rw [outcome.start]
      exact outcome.change.leaf (Tree.lt_size_of_kindOf row.siteOf.marked.start) row.siteOf.start_untouched leaf
    · refine change.lined (row.marked old (among was)) ?_ ?_ rfl fun _ => List.mem_of_mem_filter
      · exact (row.untouched (mem_claimedOf was (by simp [Block.claimed, Plot.claimed]))).2
      · exact (row.untouched (mem_claimedOf was (by simp [Block.claimed, Plot.claimed]))).2
  · intro id member
    have was := strays id member
    obtain ⟨kept, guest⟩ := row.strays id (among was)
    have outside := (row.untouched (mem_claimedOf was (List.mem_singleton.2 rfl))).2
    exact ⟨(change.held outside).2 kept, fun own => (text id was).trans (guest own)⟩
  · exact fun bare id member => row.complete bare id (among (strays id member))

end Outlives

end Row

/-- How far the work on the items of a list has come since it was started. -/
structure Progress (realm : Realm σ) (start now : World σ) (container : NodeId)
    (front rest : List NodeId) (whole : Plot) (touched : NodeId → Prop) (taken : List NodeId)
    (blocks : List Block) : Prop where
  change : realm.Change start now touched taken
  within : ∀ id, start.tree.size > id → touched id → id = container ∨ id ∈ whole.owned
  origin : ∀ id ∈ claimedOf blocks, id ∈ whole.owned ∨ start.tree.size ≤ id ∨ id ∈ taken
  row : realm.Row now container (front.filter (· ∉ taken)) (rest.filter (· ∉ taken)) whole.part blocks
  container_kind : now.tree.kindOf container = start.tree.kindOf container
  container_parent : now.tree.parentOf container = start.tree.parentOf container

namespace Progress

variable {start now : World σ} {whole : Plot} {touched : NodeId → Prop} {later : List NodeId}

theorem begin (sound : realm.Sound start) (row : realm.Row start container front rest whole.part blocks)
    (own : ∀ id ∈ claimedOf blocks, id ∈ whole.owned) :
    realm.Progress start start container front rest whole (fun _ => False) [] blocks where
  change := .refl sound
  within _ _ none := none.elim
  origin id member := .inl (own id member)
  row := by simpa using row
  container_kind := rfl
  container_parent := rfl

theorem outcome (progress : realm.Progress start now container front rest whole touched taken blocks)
    (sound : realm.Sound start) : realm.Outcome start now container front rest whole taken
      ⟨whole.part, nodesOf blocks, claimedOf blocks⟩ where
  change := progress.change.widen progress.within sound
  site := progress.row.site
  start := rfl
  stop := rfl
  origin := progress.origin
  container_kind := progress.container_kind
  container_parent := progress.container_parent

/-- Work on one more item. What it hands to the hook must not have been worked on before. -/
theorem step (begun : realm.Sound start) (progress : realm.Progress start now container front rest whole touched taken
      (left ++ .plot plot :: right))
    (outcome : realm.Outcome now after container (front.filter (· ∉ taken) ++ whole.part.start :: nodesOf left)
      (nodesOf right ++ whole.part.stop :: rest.filter (· ∉ taken)) plot later new)
    (known : realm.survey.Knows new.part)
    (pending : ∀ id ∈ plot.owned, start.tree.size > id ∧ ¬ touched id ∧ id ∉ taken) :
    realm.Progress start after container front rest whole
      (fun id => touched id ∨ (id = container ∨ id ∈ plot.owned) ∧ id ∉ taken) (taken ++ later)
      (blocksWithout later left ++ .plot new :: blocksWithout later right) := by
  have row := progress.row
  have sound := progress.change.sound
  refine ⟨outcome.pursue begun progress.change row.site.container_free pending, ?_, ?_, ?_,
    outcome.container_kind.trans progress.container_kind,
    outcome.container_parent.trans progress.container_parent⟩
  · rintro id inside (here | ⟨rfl | owned, left⟩)
    · exact progress.within id inside here
    · exact .inl rfl
    · exact .inr ((progress.origin id (by simp [Plot.claimed, owned])).resolve_right fun elsewhere =>
        elsewhere.elim (fun beyond => Nat.not_lt.2 beyond inside) left)
  · intro id member
    rcases (row.origin_outlives outcome id member).2 with here | beyond | gone
    · exact (progress.origin id here).imp_right (Or.imp_right (List.mem_append_left _))
    · exact .inr (.inl (Nat.le_trans progress.change.size_le beyond))
    · exact .inr (.inr (List.mem_append_right _ gone))
  · have := row.outlives outcome sound known
    simpa only [filter_filter_not_mem] using this

/-- Work on the row as a whole. What it hands to the hook must not have been worked on before. -/
theorem rearranged {worked : List NodeId} {others : List Block}
    (firm : ∀ id, now.kept id → after.kept id)
    (progress : realm.Progress start now container front rest whole touched taken blocks)
    (change : realm.Change now after (fun id => id = container ∨ id ∈ worked) [])
    (row : realm.Row after container (front.filter (· ∉ taken)) (rest.filter (· ∉ taken)) whole.part others)
    (among : ∀ id ∈ worked, id ∈ claimedOf blocks)
    (pending : ∀ id, after.kept id → ¬ now.kept id → id ∈ worked →
      start.tree.size > id ∧ ¬ touched id ∧ id ∉ taken)
    (origin : ∀ id ∈ claimedOf others, id ∈ claimedOf blocks ∨ now.tree.size ≤ id)
    (kind : after.tree.kindOf container = now.tree.kindOf container)
    (parent : after.tree.parentOf container = now.tree.parentOf container) :
    realm.Progress start after container front rest whole
      (fun id => touched id ∨ (id = container ∨ id ∈ worked) ∧ id ∉ taken) taken others := by
  have both := progress.change.trans change ?_ fun id kept => .inr (firm id kept)
  · refine ⟨by simpa using both, ?_, ?_, row, kind.trans progress.container_kind,
      parent.trans progress.container_parent⟩
    · rintro id inside (here | ⟨rfl | here, left⟩)
      · exact progress.within id inside here
      · exact .inl rfl
      · exact .inr ((progress.origin id (among id here)).resolve_right fun elsewhere =>
          elsewhere.elim (fun beyond => Nat.not_lt.2 beyond inside) left)
    · intro id member
      rcases origin id member with old | beyond
      · exact progress.origin id old
      · exact .inr (.inl (Nat.le_trans progress.change.size_le beyond))
  · intro id kept free
    rcases (change.handed id kept).resolve_left free with rfl | here
    · exact absurd kept row.site.container_free
    · exact pending id kept free here

end Progress

end Realm

end DomParts.Layout
