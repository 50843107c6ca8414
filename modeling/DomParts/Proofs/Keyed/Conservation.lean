import DomParts.Proofs.Keyed.Identity

/-! # Parts are conserved

Whether keys repeat or not, every action of a plan is about items of its own. So a pass gives each item one part,
and each part that was shown before goes to one item with its key or goes away.
-/

namespace DomParts

namespace Keyed

namespace Action

def old? : Action → Option Nat
  | .keep _ old _ => some old
  | .bring _ old _ _ => some old
  | .create .. => none
  | .remove _ old => some old
  | .index .. => none

def new? : Action → Option Nat
  | .keep _ _ new => some new
  | .bring _ _ new _ => some new
  | .create _ new _ => some new
  | .remove .. => none
  | .index .. => none

theorem length_olds (actions : List Action) :
    (actions.filterMap old?).length = actions.countP updates + actions.countP removes := by
  induction actions with
  | nil => rfl
  | cons action actions ih =>
      rw [List.filterMap_cons, List.countP_cons, List.countP_cons]
      cases action <;> simp [old?, updates, removes, ih] <;> omega

theorem length_news (actions : List Action) :
    (actions.filterMap new?).length = actions.countP updates + actions.countP creates := by
  induction actions with
  | nil => rfl
  | cons action actions ih =>
      rw [List.filterMap_cons, List.countP_cons, List.countP_cons]
      cases action <;> simp [new?, updates, creates, ih] <;> omega

end Action

namespace Route

variable {careful : Prop} {total : Nat} {old new : Window} {actions : List Action}

theorem olds (route : Route careful total old new actions) :
    (actions.filterMap Action.old?).Perm (old.map Entry.index) := by
  induction route with
  | done => exact .refl _
  | keepFirst _ _ _ ih => exact ih.cons _
  | keepLast _ _ _ ih =>
      rw [List.map_append]
      exact (ih.cons _).trans (List.perm_append_singleton _ _).symm
  | bringLast _ _ _ _ ih => exact ih.cons _
  | @bringFirst first o n before after new actions rule same rest ih =>
      have middle : ((first :: before) ++ o :: after).Perm (o :: ((first :: before) ++ after)) := List.perm_middle
      exact (ih.cons _).trans (middle.map Entry.index).symm
  | createFirst _ _ _ ih => exact ih
  | createLast _ _ _ ih => exact ih
  | remove _ _ _ ih => exact (ih.cons _).trans ((List.perm_middle).map Entry.index).symm
  | index _ _ _ _ ih => exact ih

theorem news (route : Route careful total old new actions) :
    (actions.filterMap Action.new?).Perm (new.map Entry.index) := by
  induction route with
  | done => exact .refl _
  | keepFirst _ _ _ ih => exact ih.cons _
  | keepLast _ _ _ ih =>
      rw [List.map_append]
      exact (ih.cons _).trans (List.perm_append_singleton _ _).symm
  | bringLast _ _ _ _ ih =>
      rw [List.map_append]
      exact (ih.cons _).trans (List.perm_append_singleton _ _).symm
  | bringFirst _ _ _ ih => exact ih.cons _
  | createFirst _ _ _ ih => exact ih.cons _
  | createLast _ _ _ ih => exact ih.cons _
  | remove _ _ _ ih => exact ih
  | index _ _ _ _ ih => exact ih

end Route

section Plan

variable (old new : List Key)

/-- A plan settles every place of the old sequence once, whether keys repeat or not. -/
theorem plan_olds : ((plan old new).filterMap Action.old?).Perm (List.range old.length) := by
  have route : Route False new.length (.ofKeys old) (.ofKeys new) (plan old new) := Route.plan old new False.elim
  rw [List.range_eq_range', ← Window.indices_ofKeys]
  exact route.olds

theorem plan_news : ((plan old new).filterMap Action.new?).Perm (List.range new.length) := by
  have route : Route False new.length (.ofKeys old) (.ofKeys new) (plan old new) := Route.plan old new False.elim
  rw [List.range_eq_range', ← Window.indices_ofKeys]
  exact route.news

theorem countP_updates_add_removes :
    (plan old new).countP Action.updates + (plan old new).countP Action.removes = old.length := by
  rw [← Action.length_olds, (plan_olds old new).length_eq, List.length_range]

theorem countP_updates_add_creates :
    (plan old new).countP Action.updates + (plan old new).countP Action.creates = new.length := by
  rw [← Action.length_news, (plan_news old new).length_eq, List.length_range]

end Plan

end Keyed

/-- One part has the markers of another. -/
def NodePart.Succeeds (new old : NodePart) : Prop := new.start = old.start ∧ new.stop = old.stop

/-- Both markers are out of the tree. -/
def NodePart.Detached (tree : Tree) (part : NodePart) : Prop :=
  tree.parentOf part.start = none ∧ tree.parentOf part.stop = none

/-- What becomes of parts when a list by key is rendered in place of another. -/
structure PartsConserved (before after : Tree) (oldKeys newKeys : List Key) (olds news : List NodePart)
    (stats : Stats) : Prop where
  /-- Each item has a part. -/
  length : news.length = newKeys.length
  /-- The part of an item is that of an old item with its key, or it is new. -/
  filled : ∀ (index : Nat) new, news[index]? = some new →
    Xor (∃ (place : Nat) (old : NodePart), olds[place]? = some old ∧ new.Succeeds old ∧ oldKeys[place]? = newKeys[index]?)
      (before.size ≤ new.start ∧ before.size ≤ new.stop)
  /-- An old part goes to one item, which has its key, or it goes away. -/
  spent : ∀ (place : Nat) old, olds[place]? = some old →
    Xor (∃ (index : Nat) (new : NodePart), news[index]? = some new ∧ new.Succeeds old ∧
        newKeys[index]? = oldKeys[place]? ∧
        ∀ (other : Nat) part, news[other]? = some part → part.Succeeds old → other = index)
      (old.Detached after)
  created : stats.created = news.countP fun new => before.size ≤ new.start
  updated : stats.updated = news.countP fun new => before.size > new.start
  removed : stats.removed = olds.countP fun old => (after.parentOf old.start).isNone
  items : stats.created + stats.updated = newKeys.length
  parts : stats.updated + stats.removed = olds.length

namespace PartsConserved

variable {before after : Tree} {oldKeys newKeys : List Key} {olds news : List NodePart} {stats : Stats}

/-- An old part whose key is wanted goes to one item with its key, and the others with that key get new parts. -/
theorem one_occurrence (conserved : PartsConserved before after oldKeys newKeys olds news stats)
    (distinct : oldKeys.Nodup) {place : Nat} {key : Key} {old : NodePart} (known : oldKeys[place]? = some key)
    (was : olds[place]? = some old) (stays : ¬ old.Detached after) :
    ∃ (index : Nat) (new : NodePart), newKeys[index]? = some key ∧ news[index]? = some new ∧ new.Succeeds old ∧
      ∀ (other : Nat) part, other ≠ index → newKeys[other]? = some key → news[other]? = some part →
        before.size ≤ part.start ∧ before.size ≤ part.stop := by
  obtain ⟨index, new, here, succeeds, same, only⟩ := (conserved.spent place old was).or.resolve_right stays
  refine ⟨index, new, same.trans known, here, succeeds, ?_⟩
  intro other part apart wanted there
  apply (conserved.filled other part there).or.resolve_left
  intro from_old
  obtain ⟨origin, another, found, follows, alike⟩ := from_old
  -- The key stands in one place of the old sequence only.
  obtain ⟨inside, first⟩ := List.getElem?_eq_some_iff.1 known
  obtain ⟨within, second⟩ := List.getElem?_eq_some_iff.1 (alike.trans wanted)
  obtain rfl : place = origin := distinct.getElem_inj_iff.1 (first.trans second.symm)
  cases was.symm.trans found
  exact apart (only other part there follows)

end PartsConserved

namespace Layout

open Keyed

variable {σ : Type}

theorem starts_sublist (blocks : List Block) : ((plotsOf blocks).map (·.part.start)).Sublist (nodesOf blocks) := by
  induction blocks with
  | nil => exact .refl _
  | cons block blocks ih =>
      cases block with
      | plot plot => exact (ih.trans (List.sublist_append_right _ _)).cons_cons _
      | stray id => exact ih.cons _

theorem nodup_starts {realm : Realm σ} {world : World σ} {container : NodeId} {front rest : List NodeId} {plot : Plot}
    {blocks : List Block} (sound : realm.Sound world) (site : realm.Site world container front rest plot)
    (inner : plot.inner = nodesOf blocks) : ((plotsOf blocks).map (·.part.start)).Nodup := by
  have distinct := sound.wellFormed.nodup container
  rw [site.listed] at distinct
  have whole := distinct.of_append_right.of_append_left
  rw [Plot.nodes, inner] at whole
  exact whole.of_cons.of_append_left.sublist (starts_sublist blocks)

namespace Task

variable {task : Task σ} {scene : Scene σ} {oldKeys newKeys : List Key} {pass : Pass} {blocks others : List Block}
  {olds : List Plot} {careful : Prop} {kept : NodeId → Prop} {cells : List Cell}
  {gone : List (NodeId × Removal)}

namespace Passed

variable (passed : task.Passed olds oldKeys newKeys careful pass scene kept others cells gone)
include passed

theorem cell {index : Nat} {new : NodePart} (here : pass.parts[index]? = some new) :
    ∃ cell, cells[index]? = some cell ∧ cell.plot.part = new ∧ new.Succeeds cell.was.part := by
  rw [passed.parts, List.getElem?_map, Option.map_eq_some_iff] at here
  obtain ⟨cell, here, rfl⟩ := here
  exact ⟨cell, here, rfl, passed.filling.markers cell (List.mem_of_getElem? here)⟩

theorem start_listed {index : Nat} {new : NodePart} (here : pass.parts[index]? = some new) :
    scene.tree.parentOf new.start = some task.container := by
  obtain ⟨touched, taken, progress, -, -⟩ := passed.filling.progress
  have among : new ∈ (plotsOf others).map Plot.part := by
    rw [passed.filling.plots, List.map_map]
    exact passed.parts ▸ List.mem_of_getElem? here
  obtain ⟨plot, listed, rfl⟩ := List.mem_map.1 among
  obtain ⟨ahead, behind, whole⟩ := progress.row.site.item_listed rfl listed
  apply progress.change.sound.wellFormed.parentOf_of_mem
  simp [whole, Plot.nodes]

theorem attached {index : Nat} {cell : Cell} (here : cells[index]? = some cell) :
    pass.parts[index]? = some cell.plot.part ∧ ¬ cell.was.part.Detached scene.tree := by
  have new : pass.parts[index]? = some cell.plot.part := by rw [passed.parts, List.getElem?_map, here, Option.map_some]
  have listed := passed.start_listed new
  rw [(passed.filling.markers cell (List.mem_of_getElem? here)).1] at listed
  refine ⟨new, fun detached => ?_⟩
  rw [detached.1] at listed
  cases listed

theorem nodup_news : (pass.parts.map (·.start)).Nodup := by
  obtain ⟨touched, taken, progress, -, -⟩ := passed.filling.progress
  have distinct := nodup_starts progress.change.sound progress.row.site rfl
  rw [passed.filling.plots, List.map_map] at distinct
  rwa [passed.parts, List.map_map]

end Passed

section Conserved

variable (passed : task.Passed (plotsOf blocks) oldKeys newKeys careful pass scene kept others cells gone)
  (present : ∀ plot ∈ plotsOf blocks, task.start.tree.size > plot.part.start)
include passed present

/-- The part of an item is that of an old item with its key, or it is new. -/
theorem Passed.filled {index : Nat} {new : NodePart} (here : pass.parts[index]? = some new) :
    Xor (∃ (place : Nat) (old : NodePart), ((plotsOf blocks).map Plot.part)[place]? = some old ∧ new.Succeeds old ∧
        oldKeys[place]? = newKeys[index]?)
      (task.start.tree.size ≤ new.start ∧ task.start.tree.size ≤ new.stop) := by
  obtain ⟨cell, shown, -, succeeds⟩ := passed.cell here
  cases passed.source index cell shown with
  | inl old =>
      obtain ⟨place, was, same⟩ := old
      have older := present _ (List.mem_of_getElem? was)
      refine .inl ⟨⟨place, cell.was.part, by rw [List.getElem?_map, was, Option.map_some], succeeds, same⟩, ?_⟩
      intro new
      have := new.1
      rw [succeeds.1] at this
      omega
  | inr new =>
      refine .inr ⟨⟨succeeds.1 ▸ new.1, succeeds.2 ▸ new.2⟩, ?_⟩
      intro from_old
      obtain ⟨place, old, was, follows, -⟩ := from_old
      obtain ⟨plot, listed, rfl⟩ := List.mem_map.1 (List.mem_of_getElem? was)
      have older := present _ listed
      have := new.1
      rw [← succeeds.1, follows.1] at this
      omega

omit present in
theorem Passed.spent (length : oldKeys.length = (plotsOf blocks).length) {place : Nat} {old : NodePart}
    (was : ((plotsOf blocks).map Plot.part)[place]? = some old) :
    Xor (∃ (index : Nat) (new : NodePart), pass.parts[index]? = some new ∧ new.Succeeds old ∧
        newKeys[index]? = oldKeys[place]? ∧
        ∀ (other : Nat) part, pass.parts[other]? = some part → part.Succeeds old → other = index)
      (old.Detached scene.tree) := by
  rw [List.getElem?_map, Option.map_eq_some_iff] at was
  obtain ⟨plot, was, rfl⟩ := was
  have inside : place < oldKeys.length := length ▸ (List.getElem?_eq_some_iff.1 was).1
  have known : oldKeys[place]? = some oldKeys[place] := List.getElem?_eq_getElem inside
  cases passed.fate place plot _ was known with
  | inl shown =>
      obtain ⟨index, cell, here, rfl, wanted⟩ := shown
      obtain ⟨new, attached⟩ := passed.attached here
      have succeeds := passed.filling.markers cell (List.mem_of_getElem? here)
      refine .inl ⟨⟨index, _, new, succeeds, wanted.trans known.symm, ?_⟩, attached⟩
      intro other part there follows
      have starts : (pass.parts.map (·.start))[other]? = (pass.parts.map (·.start))[index]? := by
        rw [List.getElem?_map, List.getElem?_map, there, new, Option.map_some, Option.map_some, follows.1, succeeds.1]
      have within := (List.getElem?_eq_some_iff.1 there).1
      exact (List.getElem?_inj (by rwa [List.length_map]) passed.nodup_news).1 starts
  | inr lost =>
      obtain ⟨start, stop, -⟩ := lost
      have detached : plot.part.Detached scene.tree :=
        ⟨(passed.filling.gone _ start).2.2.1, (passed.filling.gone _ stop).2.2.1⟩
      refine .inr ⟨detached, ?_⟩
      intro kept
      obtain ⟨index, new, here, succeeds, -⟩ := kept
      have listed := passed.start_listed here
      rw [succeeds.1, detached.1] at listed
      cases listed

omit present in
theorem Passed.keeps_wanted (care : careful) {place : Nat} {key : Key} {old : NodePart}
    (known : oldKeys[place]? = some key) (was : ((plotsOf blocks).map Plot.part)[place]? = some old)
    (wanted : key ∈ newKeys) : ¬ old.Detached scene.tree := by
  rw [List.getElem?_map, Option.map_eq_some_iff] at was
  obtain ⟨plot, was, rfl⟩ := was
  cases passed.fate place plot key was known with
  | inl shown =>
      obtain ⟨index, cell, here, rfl, -⟩ := shown
      exact (passed.attached here).2
  | inr lost => exact absurd wanted (lost.2.2 care)

end Conserved

theorem Passed.kept_count (passed : task.Passed (plotsOf blocks) oldKeys newKeys careful pass scene kept others cells gone)
    (present : ∀ plot ∈ plotsOf blocks, task.start.tree.size > plot.part.start)
    (length : oldKeys.length = (plotsOf blocks).length) (starts : ((plotsOf blocks).map (·.part.start)).Nodup) :
    (((plotsOf blocks).map Plot.part).countP fun old => (scene.tree.parentOf old.start).isSome) =
      pass.parts.countP fun new => task.start.tree.size > new.start := by
  have olds : (((plotsOf blocks).map Plot.part).map (·.start)).Nodup := by rwa [List.map_map]
  have news := passed.nodup_news
  rw [List.countP_eq_length_filter, List.countP_eq_length_filter]
  have lengths : ∀ parts : List NodePart, parts.length = (parts.map NodePart.start).length := by simp
  rw [lengths, lengths (pass.parts.filter _)]
  apply List.Perm.length_eq
  rw [List.perm_ext_iff_of_nodup (olds.sublist (List.filter_sublist.map _)) (news.sublist (List.filter_sublist.map _))]
  intro id
  simp only [List.mem_map, List.mem_filter, decide_eq_true_eq]
  constructor
  · rintro ⟨old, ⟨member, attached⟩, rfl⟩
    obtain ⟨place, was⟩ := List.mem_iff_getElem?.1 (List.mem_map.2 member)
    have kept := (passed.spent length was).or.resolve_right fun gone => by simp [gone.1] at attached
    obtain ⟨index, new, here, succeeds, -⟩ := kept
    obtain ⟨plot, listed, rfl⟩ := member
    refine ⟨new, ⟨List.mem_of_getElem? here, ?_⟩, succeeds.1⟩
    rw [succeeds.1]
    exact present plot listed
  · rintro ⟨new, ⟨member, older⟩, rfl⟩
    obtain ⟨index, here⟩ := List.mem_iff_getElem?.1 member
    have from_old := (passed.filled present here).or.resolve_right fun new => Nat.not_lt.2 new.1 older
    obtain ⟨place, old, was, succeeds, -⟩ := from_old
    refine ⟨old, ⟨List.mem_map.1 (List.mem_of_getElem? was), ?_⟩, succeeds.1.symm⟩
    rw [← succeeds.1, passed.start_listed here]
    rfl

theorem Settles.conserved (settles : task.Settles (plotsOf blocks) oldKeys newKeys careful [] [] pass gone scene)
    (sound : task.realm.Sound task.start)
    (site : task.realm.Site task.start task.container task.front task.rest task.whole)
    (inner : task.whole.inner = nodesOf blocks) (oldLength : oldKeys.length = (plotsOf blocks).length)
    (newLength : newKeys.length = task.items.length) {count : Nat}
    (advances : Advances (.start count) pass (plan oldKeys newKeys)) :
    PartsConserved task.start.tree scene.tree oldKeys newKeys ((plotsOf blocks).map Plot.part) pass.parts pass.stats ∧
    (careful → ∀ (place : Nat) key old, oldKeys[place]? = some key → ((plotsOf blocks).map Plot.part)[place]? = some old →
      key ∈ newKeys → ¬ old.Detached scene.tree) := by
  have full : pass.parts.length = newKeys.length := settles.length.trans newLength.symm
  have present : ∀ plot ∈ plotsOf blocks, task.start.tree.size > plot.part.start := by
    obtain ⟨_, _, _, settling⟩ := settles
    exact settling.present
  obtain ⟨kept, others, cells, passed⟩ := settles.passed
  have updates : pass.stats.updated + pass.stats.removed = oldKeys.length := by
    rw [advances.updated, advances.removed, ← countP_updates_add_removes oldKeys newKeys]
    simp [Pass.start]
  have creates : pass.stats.created + pass.stats.updated = newKeys.length := by
    rw [advances.updated, advances.created, ← countP_updates_add_creates oldKeys newKeys]
    simp [Pass.start, Nat.add_comm]
  have made : pass.stats.created = pass.parts.countP fun new => task.start.tree.size ≤ new.start := by
    rw [passed.created, passed.parts, List.countP_map]
    refine List.countP_congr fun cell member => ?_
    simp [(passed.filling.markers cell member).1]
  have reused : pass.stats.updated = pass.parts.countP fun new => task.start.tree.size > new.start := by
    have both := List.length_eq_countP_add_countP (fun new => task.start.tree.size ≤ new.start) (l := pass.parts)
    simp only [decide_eq_true_eq, Nat.not_le, ← gt_iff_lt] at both
    omega
  have attached := passed.kept_count present oldLength (nodup_starts sound site inner)
  have left : pass.stats.removed =
      ((plotsOf blocks).map Plot.part).countP fun old => (scene.tree.parentOf old.start).isNone := by
    have both := List.length_eq_countP_add_countP (fun old => (scene.tree.parentOf old.start).isSome)
      (l := (plotsOf blocks).map Plot.part)
    simp only [Option.isSome_iff_ne_none, ne_eq, not_not, ← Option.isNone_iff_eq_none, Bool.decide_eq_true] at both
    rw [List.length_map] at both
    omega
  exact ⟨⟨full, fun index new => passed.filled present, fun place old => passed.spent oldLength, made, reused, left,
    creates, by rw [updates, oldLength, List.length_map]⟩, fun care place key old => passed.keeps_wanted care⟩

end Task

theorem Realm.Placed.conserves {realm : Realm σ} {world : World σ} {slack : Slack} {container : NodeId}
    {front rest : List NodeId} {plot : Plot} (lawful : realm.Lawful) (sound : realm.Sound world)
    (placed : realm.Placed world slack container front rest plot) {oldKeys : List Key} {olds : List NodePart}
    {oldStats : Stats} (content : plot.part.content = .keyed oldKeys olds oldStats) {items : List (Key × Value)}
    (admits : realm.Admits world.tree (Value.leavesOfItems items)) :
    ((Value.keyed items).render realm.client plot.part).Leads world.scene
      (fun content scene => ∃ news stats, content = .keyed (items.map (·.1)) news stats ∧
        PartsConserved world.tree scene.tree oldKeys (items.map (·.1)) olds news stats ∧
        (oldKeys.Nodup → ∀ (place : Nat) key old, oldKeys[place]? = some key → olds[place]? = some old →
          key ∈ items.map (·.1) → ¬ old.Detached scene.tree))
      fun _ _ => True := by
  obtain ⟨task, blocks, rfl, rfl, site, count, rfl, length, inner, -, leads⟩ :=
    placed.keyedSettles lawful sound content admits oldKeys.Nodup id
  refine leads.mono ?_ fun _ _ _ => trivial
  rintro _ scene ⟨pass, rfl, ⟨gone, settles⟩, advances⟩
  exact ⟨pass.parts, pass.stats, rfl, settles.conserved sound site inner length (by rw [List.length_map, count]) advances⟩

end Layout

end DomParts
