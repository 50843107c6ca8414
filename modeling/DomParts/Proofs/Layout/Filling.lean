import DomParts.Proofs.Layout.Leaf
import DomParts.Proofs.Layout.Row

/-! # Filling a list

A list is filled item by item: each item is rendered into some plot of the row, which showed another item
before or is new. While this goes on, some plots show their items already and the others still show what
they showed when it began, though guests may be missing from them.
-/

namespace DomParts.Layout

variable {σ : Type}

def Block.plot? : Block → Option Plot
  | .plot item => some item
  | .stray _ => none

def plotsOf (blocks : List Block) : List Plot := blocks.filterMap Block.plot?

section Plots

variable {blocks left right : List Block} {plot : Plot} {id : NodeId} {taken : List NodeId}

@[simp] theorem plotsOf_nil : plotsOf [] = [] := rfl

@[simp] theorem plotsOf_plot : plotsOf (.plot plot :: blocks) = plot :: plotsOf blocks := rfl

@[simp] theorem plotsOf_stray : plotsOf (.stray id :: blocks) = plotsOf blocks := rfl

@[simp] theorem plotsOf_append : plotsOf (left ++ right) = plotsOf left ++ plotsOf right :=
  List.filterMap_append

@[simp] theorem mem_plotsOf : plot ∈ plotsOf blocks ↔ .plot plot ∈ blocks := by
  simp only [plotsOf, List.mem_filterMap]
  constructor
  · rintro ⟨block, member, same⟩
    cases block with
    | plot other =>
        cases same
        exact member
    | stray id => cases same
  · exact fun member => ⟨_, member, rfl⟩

theorem parts_eq_plotsOf : blocks.filterMap Block.part? = (plotsOf blocks).map Plot.part := by
  simp only [plotsOf, List.map_filterMap]
  congr 1
  funext block
  cases block <;> rfl

theorem plotsOf_without : plotsOf (blocksWithout taken blocks) = (plotsOf blocks).map (Plot.without taken) := by
  induction blocks with
  | nil => rfl
  | cons block blocks ih =>
      simp only [blocksWithout] at ih ⊢
      cases block with
      | plot plot => simp [Block.without, ih]
      | stray id => by_cases gone : id ∈ taken <;> simp [Block.without, gone, ih]

theorem exists_split {ahead behind : List Plot} (split : plotsOf blocks = ahead ++ plot :: behind) :
    ∃ left right, blocks = left ++ .plot plot :: right ∧ plotsOf left = ahead ∧ plotsOf right = behind := by
  obtain ⟨left, others, rfl, rfl, rest⟩ := List.filterMap_eq_append_iff.1 split
  obtain ⟨strays, block, right, rfl, none, here, rfl⟩ := List.filterMap_eq_cons_iff.1 rest
  cases block with
  | stray id => cases here
  | plot other =>
      cases here
      refine ⟨left ++ strays, right, by simp, ?_, rfl⟩
      have : plotsOf strays = [] := List.filterMap_eq_nil_iff.2 none
      rw [plotsOf_append, this, List.append_nil]
      rfl

end Plots

/-- One plot of a list that is being filled. -/
structure Cell where
  plot : Plot
  /-- What it was when the work began, or when it was made. -/
  was : Plot
  /-- The item that it shows by now. -/
  item : Option Nat

namespace Cell

def without (taken : List NodeId) (cell : Cell) : Cell :=
  { cell with plot := cell.plot.without taken }

def fill (cell : Cell) (index : Nat) (plot : Plot) : Cell := ⟨plot, cell.was, some index⟩

end Cell

def leavesAt (items : List (Rendering σ)) (index : Nat) : List NodeId :=
  (items[index]?.map (·.value.leaves)).getD []

def leavesIn (items : List (Rendering σ)) : List NodeId := items.flatMap (·.value.leaves)

section Leaves

variable {items : List (Rendering σ)} {index other : Nat} {id : NodeId}

theorem leavesAt_sublist : (leavesAt items index).Sublist (leavesIn items) := by
  induction items generalizing index with
  | nil => exact List.Sublist.refl _
  | cons item items ih =>
      cases index with
      | zero => exact List.sublist_append_left _ _
      | succ index => exact (@ih index).trans (List.sublist_append_right _ _)

theorem two_le_count (first : id ∈ leavesAt items index) (second : id ∈ leavesAt items other)
    (apart : index ≠ other) : 2 ≤ (leavesIn items).count id := by
  induction items generalizing index other with
  | nil => cases first
  | cons item items ih =>
      have total : (leavesIn (item :: items)).count id =
          item.value.leaves.count id + (leavesIn items).count id := by
        simp [leavesIn]
      have later : ∀ {place}, id ∈ leavesAt items place → 1 ≤ (leavesIn items).count id :=
        fun member => List.count_pos_iff.2 (leavesAt_sublist.subset member)
      have here : id ∈ leavesAt (item :: items) 0 → 1 ≤ item.value.leaves.count id := fun member =>
        List.count_pos_iff.2 member
      cases index with
      | zero =>
          cases other with
          | zero => exact absurd rfl apart
          | succ other =>
              have := here first
              have := @later other second
              omega
      | succ index =>
          cases other with
          | zero =>
              have := here second
              have := @later index first
              omega
          | succ other =>
              have := @ih index other first second (by omega)
              omega

end Leaves

/-- The work of filling a list. -/
structure Task (σ : Type) where
  realm : Realm σ
  start : World σ
  container : NodeId
  front : List NodeId
  rest : List NodeId
  whole : Plot
  slack : Slack
  items : List (Rendering σ)
  /-- Whether other nodes are tolerated between the items. -/
  tolerant : Prop

namespace Task

variable {task : Task σ} {now after : World σ} {blocks : List Block} {cells ahead behind : List Cell}
  {cell : Cell} {gone : List (NodeId × Removal)} {index : Nat} {item : Rendering σ}

def vacant (part : NodePart) : Cell := ⟨⟨part, [], []⟩, ⟨part, [], []⟩, none⟩

@[simp] theorem part_vacant (part : NodePart) : (vacant part).plot.part = part := rfl

@[simp] theorem item_vacant (part : NodePart) : (vacant part).item = none := rfl

/-- The cells of a row some of whose nodes were worked on: those that have none of them, and empty ones. -/
structure Reseated (cells cells' : List Cell) (worked : List NodeId) : Prop where
  origin : ∀ cell ∈ cells', (cell ∈ cells ∧ ∀ id ∈ cell.plot.owned, id ∉ worked) ∨
    ∃ part, part.content = .empty ∧ cell = vacant part
  kept : ∀ cell ∈ cells, cell.item ≠ none → cell ∈ cells'

theorem Reseated.all {cells' : List Cell} {worked : List NodeId} {good : Cell → Prop}
    (reseated : Reseated cells cells' worked) (old : ∀ cell ∈ cells, (∀ id ∈ cell.plot.owned, id ∉ worked) → good cell)
    (new : ∀ part : NodePart, part.content = .empty → good (vacant part)) : ∀ cell ∈ cells', good cell := by
  intro cell member
  rcases reseated.origin cell member with ⟨was, apart⟩ | ⟨part, empty, rfl⟩
  · exact old cell was apart
  · exact new part empty

/-- The guests in the items that are shown already. -/
def Used (task : Task σ) (cells : List Cell) (id : NodeId) : Prop :=
  ∃ cell ∈ cells, ∃ index, cell.item = some index ∧ id ∈ leavesAt task.items index

/-- How far a plot may fall short that does not show its item yet. -/
def waiting (task : Task σ) (cells : List Cell) : Slack :=
  { task.slack with lost := fun id => task.slack.lost id ∨ task.Used cells id }

/-- How far a plot may fall short that shows its item. -/
def filled (task : Task σ) (index : Nat) : Slack where
  wanted id := id ∈ leavesAt task.items index
  lost id := task.slack.lost id ∨ 2 ≤ (leavesIn task.items).count id

theorem waiting_allows {others : List Cell} {taken : List NodeId}
    (used : ∀ id, task.Used cells id ∨ id ∈ taken → task.Used others id) :
    (task.waiting cells).Allows taken (task.waiting others) where
  wanted _ := id
  lost id _ := by
    rintro ((lost | known) | gone)
    · exact .inl lost
    · exact .inr (used id (.inl known))
    · exact .inr (used id (.inr gone))

theorem filled_allows {other : Nat} {taken : List NodeId} (among : ∀ id ∈ taken, id ∈ leavesAt task.items index)
    (apart : other ≠ index) : (task.filled other).Allows taken (task.filled other) where
  wanted _ := id
  lost id leaf := by
    rintro (lost | gone)
    · exact lost
    · exact .inr (two_le_count leaf (among id gone) apart)

/-- A plot that an item is rendered into may lack what that item needs twice, and what it has in common with others. -/
theorem after_allows (fresh : ∀ cell ∈ cells, cell.item ≠ some index) :
    ((task.waiting cells).after (leavesAt task.items index)).Allows [] (task.filled index) where
  wanted _ := id
  lost id leaf := by
    rintro (((lost | ⟨cell, member, other, shows, again⟩) | twice) | none)
    · exact .inl lost
    · refine .inr (two_le_count again leaf ?_)
      rintro rfl
      exact fresh cell member shows
    · exact .inr (Nat.le_trans twice (leavesAt_sublist.count_le id))
    · cases none

abbrev Shown (task : Task σ) (now : World σ) (slack : Slack) (plot : Plot) : Prop :=
  task.realm.Shows now slack plot.part.content plot.inner plot.owned

/-- What became of a node whose plot left the list: it stands alone for good, or it stays between the plots. -/
def Fated (task : Task σ) (now : World σ) (blocks : List Block) : NodeId × Removal → Prop
  | (id, .proceed) =>
      now.tree.size > id ∧ now.tree.parentOf id = none ∧ id ≠ task.container ∧ id ∉ claimedOf blocks
  | (id, .skip) => .stray id ∈ blocks

/-- A node that stands alone stays alone as long as nothing is done with it. -/
theorem stays_alone {touched : NodeId → Prop} {taken : List NodeId} {id : NodeId}
    (change : task.realm.Change now after touched taken) (idle : ¬ touched id) (free : id ∉ taken)
    (inside : now.tree.size > id) (alone : now.tree.parentOf id = none) :
    after.tree.size > id ∧ after.tree.parentOf id = none :=
  ⟨Nat.lt_of_lt_of_le inside change.size_le, ((change.spared id inside idle).parentOf free).trans alone⟩

/-- How far the work has come. -/
structure Filling (task : Task σ) (now : World σ) (blocks : List Block) (cells : List Cell)
    (gone : List (NodeId × Removal)) : Prop where
  sound : task.realm.Sound task.start
  progress : ∃ touched taken,
    task.realm.Progress task.start now task.container task.front task.rest task.whole touched
      taken blocks ∧
    (∀ id ∈ taken, id ∈ leavesIn task.items) ∧
    ∀ cell ∈ cells, cell.item = none → ∀ id ∈ cell.plot.owned,
      task.start.tree.size > id ∧ ¬ touched id ∧ id ∉ taken
  plots : plotsOf blocks = cells.map Cell.plot
  strays : ∀ id, .stray id ∈ blocks → task.tolerant
  waiting : ∀ cell ∈ cells, cell.item = none → task.Shown now (task.waiting cells) cell.plot
  filled : ∀ cell ∈ cells, ∀ index, cell.item = some index → task.Shown now (task.filled index) cell.plot
  untold : ∀ cell ∈ cells, cell.item = none → cell.plot.part = cell.was.part
  markers : ∀ cell ∈ cells,
    cell.plot.part.start = cell.was.part.start ∧ cell.plot.part.stop = cell.was.part.stop
  /-- A text is replaced in place. -/
  texts : ∀ cell ∈ cells, cell.was.part.content.text?.isSome → cell.plot.part.content.text?.isSome →
    cell.plot.inner = cell.was.inner
  /-- If no guests come, a plot that waits is what it was. -/
  still : leavesIn task.items = [] → ∀ cell ∈ cells, cell.item = none → cell.plot = cell.was
  /-- Nodes that were removed stay alone, and nodes that were kept stay where they are. -/
  gone : ∀ fate ∈ gone, ¬ task.realm.guest fate.1 ∧ task.Fated now blocks fate

/-- What is left when the work fails. -/
def Broken (task : Task σ) (scene : Scene σ) : Prop :=
  ∃ kept taken new, task.realm.Failed task.start ⟨scene, kept⟩ task.container task.front task.rest
    task.whole (leavesIn task.items) taken new

namespace Filling

theorem admits (filling : task.Filling now blocks cells gone) {leaves : List NodeId}
    (admits : task.realm.Admits task.start.tree leaves) : task.realm.Admits now.tree leaves := by
  obtain ⟨touched, taken, progress, -, -⟩ := filling.progress
  exact progress.change.admits admits

theorem forget (filling : task.Filling now blocks cells gone) : task.Filling now blocks cells [] :=
  { filling with gone := List.forall_mem_nil _ }

theorem split (filling : task.Filling now blocks (ahead ++ cell :: behind) gone) :
    ∃ left right, blocks = left ++ .plot cell.plot :: right ∧ plotsOf left = ahead.map Cell.plot ∧
      plotsOf right = behind.map Cell.plot :=
  exists_split (by simpa using filling.plots)

section Rearranged

variable {others : List Block} {cells' : List Cell} {taken worked : List NodeId} {touched : NodeId → Prop}

theorem claimed (filling : task.Filling now blocks cells gone) (member : cell ∈ cells) :
    ∀ id ∈ cell.plot.owned, id ∈ claimedOf blocks := by
  intro id owned
  have listed : Block.plot cell.plot ∈ blocks := by
    rw [← mem_plotsOf, filling.plots]
    exact List.mem_map_of_mem member
  exact List.mem_flatMap.2 ⟨_, listed, by simp [Block.claimed, Plot.claimed, owned]⟩

theorem untouched (filling : task.Filling now blocks cells gone)
    (progress : task.realm.Progress task.start now task.container task.front task.rest task.whole touched taken blocks)
    (member : cell ∈ cells) (apart : ∀ id ∈ cell.plot.owned, id ∉ worked) :
    ∀ id ∈ cell.plot.owned, now.tree.size > id ∧ ¬ (id = task.container ∨ id ∈ worked) := by
  intro id owned
  have claimed := filling.claimed member id owned
  refine ⟨progress.row.site.present id claimed, ?_⟩
  rintro (rfl | here)
  · exact progress.row.site.container_new.2.2 claimed
  · exact apart id owned here

/-- A node that left the row earlier is left alone, and one that stayed in it still stays. -/
theorem fated_onward {fate : NodeId × Removal} (fated : task.Fated now blocks fate) (apart : fate.1 ∉ worked)
    (change : task.realm.Change now after (fun id => id = task.container ∨ id ∈ worked) [])
    (origin : ∀ id ∈ claimedOf others, id ∈ claimedOf blocks ∨ now.tree.size ≤ id)
    (staying : ∀ id, .stray id ∈ blocks → id ∉ worked → .stray id ∈ others) : task.Fated after others fate := by
  obtain ⟨id, verdict⟩ := fate
  cases verdict with
  | skip => exact staying id fated apart
  | proceed =>
      obtain ⟨inside, alone, notContainer, unclaimed⟩ := fated
      obtain ⟨inside', alone'⟩ := stays_alone change (fun touch => touch.elim notContainer apart) (by simp) inside alone
      refine ⟨inside', alone', notContainer, fun claimed => ?_⟩
      exact (origin id claimed).elim unclaimed fun beyond => Nat.not_lt.2 beyond inside

/-- The row was worked on as a whole: each plot is as it was or new and empty. -/
theorem rearranged {gone' : List (NodeId × Removal)} (filling : task.Filling now blocks cells gone)
    (progress : task.realm.Progress task.start now task.container task.front task.rest task.whole touched
      taken blocks)
    (among : ∀ id ∈ taken, id ∈ leavesIn task.items)
    (pending : ∀ cell ∈ cells, cell.item = none → ∀ id ∈ cell.plot.owned,
      task.start.tree.size > id ∧ ¬ touched id ∧ id ∉ taken)
    (change : task.realm.Change now after (fun id => id = task.container ∨ id ∈ worked) [])
    (firm : ∀ id, now.kept id → after.kept id)
    (row : task.realm.Row after task.container (task.front.filter (· ∉ taken))
      (task.rest.filter (· ∉ taken)) task.whole.part others)
    (part_of : ∀ id ∈ worked, id ∈ claimedOf blocks)
    (handed : ∀ id, after.kept id → ¬ now.kept id → id ∈ worked →
      task.start.tree.size > id ∧ ¬ touched id ∧ id ∉ taken)
    (origin : ∀ id ∈ claimedOf others, id ∈ claimedOf blocks ∨ now.tree.size ≤ id)
    (kind : after.tree.kindOf task.container = now.tree.kindOf task.container)
    (parent : after.tree.parentOf task.container = now.tree.parentOf task.container)
    (plots : plotsOf others = cells'.map Cell.plot)
    (strays : ∀ id, .stray id ∈ others → task.tolerant) (reseated : Reseated cells cells' worked)
    (staying : ∀ id, .stray id ∈ blocks → id ∉ worked → .stray id ∈ others)
    (gone_from : ∀ fate ∈ gone', (fate ∈ gone ∧ fate.1 ∉ worked) ∨
      ¬ task.realm.guest fate.1 ∧ task.Fated after others fate) :
    task.Filling after others cells' gone' where
  sound := filling.sound
  progress := by
    refine ⟨_, _, progress.rearranged firm change row part_of handed origin kind parent, among, ?_⟩
    refine reseated.all (fun cell was apart waits id owned => ?_) fun _ _ _ => List.forall_mem_nil _
    obtain ⟨inside, outside, left⟩ := pending cell was waits id owned
    refine ⟨inside, ?_, left⟩
    rintro (here | ⟨here, -⟩)
    · exact outside here
    · exact (filling.untouched progress was apart id owned).2 here
  plots := plots
  strays := strays
  waiting := by
    have used : ∀ id, task.Used cells id → task.Used cells' id := by
      rintro id ⟨cell, member, index, shows, leaf⟩
      exact ⟨cell, reseated.kept cell member (by simp [shows]), index, shows, leaf⟩
    refine reseated.all (fun cell was apart waits => ?_) fun part empty _ => ?_
    · simpa using change.shows _ (filling.waiting cell was waits) (filling.untouched progress was apart)
        (waiting_allows (by simpa using used))
    · rw [Shown, part_vacant, empty]
      exact .empty
  filled := by
    refine reseated.all (fun cell was apart index shows => ?_) fun part _ index shows => ?_
    · simpa using change.shows _ (filling.filled cell was index shows) (filling.untouched progress was apart)
        ⟨fun _ => id, by simp⟩
    · cases shows
  untold := reseated.all (fun cell was _ => filling.untold cell was) fun _ _ _ => rfl
  markers := reseated.all (fun cell was _ => filling.markers cell was) fun _ _ => ⟨rfl, rfl⟩
  texts := reseated.all (fun cell was _ => filling.texts cell was) fun _ _ _ _ => rfl
  still quiet := reseated.all (fun cell was _ => filling.still quiet cell was) fun _ _ _ => rfl
  gone fate member := by
    rcases gone_from fate member with ⟨was, apart⟩ | gone
    · obtain ⟨own, fated⟩ := filling.gone fate was
      exact ⟨own, fated_onward fated apart change origin staying⟩
    · exact gone

end Rearranged

section Others

variable {left right : List Block} {taken later : List NodeId} {touched : NodeId → Prop} {new : Cell}
  {other : Cell}

theorem mem_cells : other ∈ ahead.map (Cell.without later) ++ new :: behind.map (Cell.without later) ↔
    other = new ∨ ∃ old, (old ∈ ahead ∨ old ∈ behind) ∧ other = old.without later := by
  simp only [List.mem_append, List.mem_cons, List.mem_map]
  constructor
  · rintro (⟨old, member, rfl⟩ | rfl | ⟨old, member, rfl⟩)
    · exact .inr ⟨old, .inl member, rfl⟩
    · exact .inl rfl
    · exact .inr ⟨old, .inr member, rfl⟩
  · rintro (rfl | ⟨old, member | member, rfl⟩)
    · exact .inr (.inl rfl)
    · exact .inl ⟨old, member, rfl⟩
    · exact .inr (.inr ⟨old, member, rfl⟩)

theorem mem_here : cell ∈ ahead ++ cell :: behind := by simp

theorem mem_beside (member : other ∈ ahead ∨ other ∈ behind) : other ∈ ahead ++ cell :: behind := by
  simpa using member.imp_right .inr

theorem here_or_beside (member : other ∈ ahead ++ cell :: behind) : other = cell ∨ other ∈ ahead ∨ other ∈ behind := by
  simp only [List.mem_append, List.mem_cons] at member
  rcases member with member | same | member
  · exact .inr (.inl member)
  · exact .inl same
  · exact .inr (.inr member)

theorem plot_mem (before : plotsOf left = ahead.map Cell.plot) (beyond : plotsOf right = behind.map Cell.plot)
    (member : other ∈ ahead ∨ other ∈ behind) : .plot other.plot ∈ left ∨ .plot other.plot ∈ right := by
  simp only [← mem_plotsOf, before, beyond]
  exact member.imp List.mem_map_of_mem List.mem_map_of_mem

theorem used_rendered {plot : Plot} (waits : cell.item = none) (among : ∀ id ∈ later, id ∈ leavesAt task.items index) :
    ∀ id, task.Used (ahead ++ cell :: behind) id ∨ id ∈ later →
      task.Used (ahead.map (Cell.without later) ++ cell.fill index plot :: behind.map (Cell.without later)) id := by
  rintro id (⟨other, member, place, shown, leaf⟩ | gone)
  · rcases here_or_beside member with rfl | beside
    · rw [waits] at shown
      cases shown
    · exact ⟨other.without later, mem_cells.2 (.inr ⟨other, beside, rfl⟩), place, shown, leaf⟩
  · exact ⟨_, mem_cells.2 (.inl rfl), index, rfl, among id gone⟩

/-- What became of nodes that left the list stays so when an item is rendered. -/
theorem fated_rendered {front rest : List NodeId} {part : NodePart} {plot made : Plot} {fate : NodeId × Removal}
    (row : task.realm.Row now task.container front rest part (left ++ .plot plot :: right))
    (outcome : task.realm.Outcome now after task.container (front ++ part.start :: nodesOf left)
      (nodesOf right ++ part.stop :: rest) plot later made)
    (own : ¬ task.realm.guest fate.1) (fated : task.Fated now (left ++ .plot plot :: right) fate) :
    task.Fated after (blocksWithout later left ++ .plot made :: blocksWithout later right) fate := by
  obtain ⟨id, verdict⟩ := fate
  have free := Realm.not_taken outcome.change.guests own
  cases verdict with
  | skip =>
      have listed : .stray id ∈ left ++ Block.plot plot :: right := fated
      simp only [List.mem_append, List.mem_cons, reduceCtorEq, false_or] at listed
      simp only [Fated, List.mem_append, List.mem_cons, stray_mem_blocksWithout, reduceCtorEq, false_or]
      exact listed.imp (fun listed => ⟨listed, free⟩) fun listed => ⟨listed, free⟩
  | proceed =>
      obtain ⟨inside, alone, notContainer, unclaimed⟩ := fated
      have notOwned : id ∉ plot.owned := fun owned => unclaimed (by simp [Plot.claimed, owned])
      obtain ⟨inside', alone'⟩ := stays_alone outcome.change (fun touch => touch.elim notContainer notOwned) free inside alone
      refine ⟨inside', alone', notContainer, fun again => ?_⟩
      rcases (row.origin_outlives outcome id again).2 with claimed | beyond | gone
      · exact unclaimed claimed
      · exact Nat.not_lt.2 beyond inside
      · exact free gone

end Others

theorem text_without {taken : List NodeId} (filling : task.Filling now blocks cells gone)
    (member : cell ∈ cells) (text : cell.plot.part.content.text?.isSome)
    (guests : ∀ id ∈ taken, task.realm.guest id) : (cell.without taken).plot.inner = cell.plot.inner := by
  have one : ∃ slack, task.Shown now slack cell.plot := by
    cases shows : cell.item with
    | none => exact ⟨_, filling.waiting cell member shows⟩
    | some index => exact ⟨_, filling.filled cell member index shows⟩
  obtain ⟨slack, shows⟩ := one
  obtain ⟨data, text⟩ := Option.isSome_iff_exists.1 text
  obtain ⟨id, -, own, -, -, inner, -⟩ := shows.of_text text
  have left := Realm.not_taken guests own
  simp [Cell.without, Plot.without, inner, left]

section Rendered

variable {left right : List Block} {touched : NodeId → Prop} {taken later inner owned : List NodeId} {content : Content}
  (filling : task.Filling now (left ++ .plot cell.plot :: right) (ahead ++ cell :: behind) gone)
  (before : plotsOf left = ahead.map Cell.plot) (beyond : plotsOf right = behind.map Cell.plot)
  (progress : task.realm.Progress task.start now task.container task.front task.rest task.whole touched taken
    (left ++ .plot cell.plot :: right))
  (pending : ∀ other ∈ ahead ++ cell :: behind, other.item = none → ∀ id ∈ other.plot.owned,
    task.start.tree.size > id ∧ ¬ touched id ∧ id ∉ taken)
  (waits : cell.item = none)
include before beyond progress

theorem untouched_beside {other : Cell} (member : other ∈ ahead ∨ other ∈ behind) :
    ∀ id ∈ other.plot.owned, now.tree.size > id ∧ ¬ (id = task.container ∨ id ∈ cell.plot.owned) := fun _ owned =>
  progress.row.untouched (Realm.Row.mem_claimedOf (plot_mem before beyond member)
    (List.mem_cons_of_mem _ (List.mem_cons_of_mem _ owned)))

variable (done : task.realm.Done now after task.container
  (task.front.filter (· ∉ taken) ++ task.whole.part.start :: nodesOf left)
  (nodesOf right ++ task.whole.part.stop :: task.rest.filter (· ∉ taken)) cell.plot
  (task.waiting (ahead ++ cell :: behind)) (leavesAt task.items index) content later inner owned)
include filling pending waits done

/-- The plots that wait go on to have nothing that was worked on once an item was rendered beside them. -/
theorem progress_rendered (among : ∀ id ∈ taken, id ∈ leavesIn task.items) {plot : Plot}
    (made : plot = ⟨{ cell.plot.part with content, pending := none }, inner, owned⟩) :
    ∃ touched taken,
      task.realm.Progress task.start after task.container task.front task.rest task.whole touched taken
        (blocksWithout later left ++ .plot plot :: blocksWithout later right) ∧
      (∀ id ∈ taken, id ∈ leavesIn task.items) ∧
      ∀ other ∈ ahead.map (Cell.without later) ++ cell.fill index plot :: behind.map (Cell.without later),
        other.item = none → ∀ id ∈ other.plot.owned, task.start.tree.size > id ∧ ¬ touched id ∧ id ∉ taken := by
  subst made
  have known := (progress.row.marked cell.plot (by simp)).known
  have step := progress.step filling.sound done.outcome (done.knows progress.change.sound known)
    (pending cell (by simp) waits)
  refine ⟨_, _, step, fun id member => ?_, fun other member waits id owned => ?_⟩
  · rcases List.mem_append.1 member with member | member
    · exact among id member
    · exact leavesAt_sublist.subset (done.among id member)
  · rcases mem_cells.1 member with rfl | ⟨old, was, rfl⟩
    · cases waits
    · obtain ⟨owned, left⟩ := List.mem_filter.1 owned
      obtain ⟨inside, outside, kept⟩ := pending old (mem_beside was) waits id owned
      refine ⟨inside, ?_, ?_⟩
      · rintro (touch | ⟨touch, -⟩)
        · exact outside touch
        · exact (untouched_beside before beyond progress was id owned).2 touch
      · simpa [kept] using left

theorem rendered (among : ∀ id ∈ taken, id ∈ leavesIn task.items)
    (fresh : ∀ other, other ∈ ahead ∨ other ∈ behind → other.item ≠ some index) :
    ∃ blocks plot, plot.part = { cell.plot.part with content, pending := none } ∧
      task.Filling after blocks
        (ahead.map (Cell.without later) ++ cell.fill index plot :: behind.map (Cell.without later)) gone := by
  have here : cell ∈ ahead ++ cell :: behind := mem_here
  have change := done.outcome.change
  have shown : ∀ {other}, other ∈ ahead ∨ other ∈ behind → ∀ slack more,
      task.Shown now slack other.plot → slack.Allows later more → task.Shown after more (other.without later).plot :=
    fun member slack more shows allows =>
      change.shows _ shows (untouched_beside before beyond progress member) allows
  refine ⟨_, ⟨_, inner, owned⟩, rfl, filling.sound,
    progress_rendered filling before beyond progress pending waits done among rfl, ?plots, ?strays, ?waiting,
    ?filled, ?untold, ?markers, ?texts, ?still, ?gone⟩
  case plots =>
    simp only [plotsOf_append, plotsOf_plot, plotsOf_without, before, beyond, List.map_append,
      List.map_cons, List.map_map]
    rfl
  case strays =>
    intro id member
    simp only [List.mem_append, List.mem_cons, stray_mem_blocksWithout, reduceCtorEq, false_or] at member
    refine filling.strays id ?_
    simp only [List.mem_append, List.mem_cons, reduceCtorEq, false_or]
    exact member.imp And.left And.left
  case waiting =>
    intro other member idle
    rcases mem_cells.1 member with rfl | ⟨old, was, rfl⟩
    · cases idle
    · exact shown was _ _ (filling.waiting old (mem_beside was) idle) (waiting_allows (used_rendered waits done.among))
  case filled =>
    intro other member place holds
    rcases mem_cells.1 member with rfl | ⟨old, was, rfl⟩
    · cases holds
      refine done.shows.weaken (after_allows fun other member => ?_)
      rcases here_or_beside member with rfl | beside
      · simp [waits]
      · exact fresh other beside
    · have apart : place ≠ index := fun same => fresh old was (same ▸ holds)
      exact shown was _ _ (filling.filled old (mem_beside was) place holds) (filled_allows done.among apart)
  case untold =>
    intro other member waits
    rcases mem_cells.1 member with rfl | ⟨old, was, rfl⟩
    · cases waits
    · exact filling.untold old (mem_beside was) waits
  case markers =>
    intro other member
    rcases mem_cells.1 member with rfl | ⟨old, was, rfl⟩
    · exact filling.markers cell here
    · exact filling.markers old (mem_beside was)
  case texts =>
    intro other member text now
    rcases mem_cells.1 member with rfl | ⟨old, was, rfl⟩
    · have untold := filling.untold cell here waits
      have told : cell.plot.part.content.text?.isSome := untold ▸ text
      exact (done.texts told now).trans (filling.texts cell here text told)
    · refine Eq.trans ?_ (filling.texts old (mem_beside was) text now)
      exact filling.text_without (mem_beside was) now change.guests
  case still =>
    intro quiet other member waits
    rcases mem_cells.1 member with rfl | ⟨old, was, rfl⟩
    · cases waits
    · have none : later = [] := List.eq_nil_iff_forall_not_mem.2 fun id gone =>
        List.not_mem_nil (quiet ▸ leavesAt_sublist.subset (done.among id gone))
      have same := filling.still quiet old (mem_beside was) waits
      subst none
      simpa [Cell.without, Plot.without] using same
  case gone =>
    intro fate member
    obtain ⟨own, fated⟩ := filling.gone fate member
    exact ⟨own, fated_rendered progress.row done.outcome own fated⟩

end Rendered

theorem render (lawful : task.realm.Lawful)
    (filling : task.Filling now blocks (ahead ++ cell :: behind) gone) (waits : cell.item = none)
    (wanted : task.items[index]? = some item) (honest : task.realm.Honest item.value.leaves item.render)
    (admits : task.realm.Admits now.tree item.value.leaves)
    (fresh : ∀ other, other ∈ ahead ∨ other ∈ behind → other.item ≠ some index) :
    (cell.plot.part.renderWith item).Leads now.scene
      (fun part scene => ∃ content, part = { cell.plot.part with content, pending := none } ∧
        ∃ kept blocks plot taken, plot.part = part ∧
          task.Filling ⟨scene, kept⟩ blocks
            (ahead.map (Cell.without taken) ++ cell.fill index plot :: behind.map (Cell.without taken)) gone)
      (fun _ scene => task.Broken scene) := by
  obtain ⟨left, right, rfl, before, beyond⟩ := filling.split
  obtain ⟨touched, taken, progress, among, pending⟩ := filling.progress
  have shows := filling.waiting cell mem_here waits
  have leaves : item.value.leaves = leavesAt task.items index := by simp [leavesAt, wanted]
  refine (honest.renderWith lawful progress.change.sound progress.row.siteOf shows admits).mono ?_ ?_
  · rintro _ scene ⟨content, rfl, kept, later, inner, owned, done⟩
    rw [leaves] at done
    obtain ⟨blocks, plot, made, filling⟩ := filling.rendered before beyond progress pending waits done among fresh
    exact ⟨content, rfl, kept, blocks, plot, later, made, filling⟩
  · rintro error scene ⟨kept, later, new, failed⟩
    rw [leaves] at failed
    have outcome := failed.outcome.relabel { new.part with content := .empty } rfl rfl
    have step := progress.step filling.sound outcome (List.forall_mem_nil _) (pending cell mem_here waits)
    refine ⟨kept, taken ++ later, _, step.outcome filling.sound, fun id member => ?_⟩
    rcases List.mem_append.1 member with member | member
    · exact among id member
    · exact leavesAt_sublist.subset (failed.among id member)

end Filling

end Task

end DomParts.Layout
