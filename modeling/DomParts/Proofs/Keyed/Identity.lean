import DomParts.Proofs.Keyed.Counts
import DomParts.Proofs.Layout.Inside
import DomParts.Proofs.Render.Depicts

/-! # What a keyed pass does to parts

If no key repeats, neither among the old keys nor among the new ones, parts belong to keys: a part is kept
if its key stays, made if its key is new, and gone if its key is.
-/

namespace DomParts

/-- The text node between the markers of a part, if it is all there is. -/
structure NodePart.ShowsText (tree : Tree) (part : NodePart) (id : NodeId) (data : String) : Prop where
  first : tree.nextSibling part.start = some id
  last : tree.nextSibling id = some part.stop
  kind : tree.kindOf id = some (.text data)

/-- What a list by key makes of the parts that it showed, if no key repeats. -/
structure KeyedPass (before after : Tree) (oldKeys : List Key) (olds : List NodePart) (items : List (Key × Value))
    (news : List NodePart) (stats : Stats) : Prop where
  length : news.length = items.length
  updated : stats.updated = (oldKeys.toFinset ∩ (items.map (·.1)).toFinset).card
  created : stats.created = ((items.map (·.1)).toFinset \ oldKeys.toFinset).card
  removed : stats.removed = (oldKeys.toFinset \ (items.map (·.1)).toFinset).card
  moved : stats.moved ≤ stats.updated
  /-- A part whose key stays keeps its markers. -/
  kept : ∀ (place index : Nat) key value old new, oldKeys[place]? = some key → olds[place]? = some old →
    items[index]? = some (key, value) → news[index]? = some new → new.start = old.start ∧ new.stop = old.stop
  /-- A part that showed a text and is to show another keeps its text node. -/
  texts : ∀ (place index : Nat) key earlier data old new, oldKeys[place]? = some key → olds[place]? = some old →
    items[index]? = some (key, .text data) → news[index]? = some new → old.content = .text earlier →
    ∃ id, old.ShowsText before id earlier ∧ new.ShowsText after id data
  /-- A part whose key is new has new markers. -/
  made : ∀ (index : Nat) key value new, items[index]? = some (key, value) → key ∉ oldKeys → news[index]? = some new →
    before.size ≤ new.start ∧ before.size ≤ new.stop
  /-- New parts are made in the order of their items. -/
  ordered : ∀ (first second : Nat) item other one two, first < second → items[first]? = some item →
    items[second]? = some other → item.1 ∉ oldKeys → other.1 ∉ oldKeys → news[first]? = some one →
    news[second]? = some two → one.start < two.start
  /-- A part whose key is gone has its markers taken out of the tree. -/
  gone : ∀ (place : Nat) key old, oldKeys[place]? = some key → olds[place]? = some old → key ∉ items.map (·.1) →
    after.parentOf old.start = none ∧ after.parentOf old.stop = none

namespace Layout

open Keyed

variable {σ : Type}

namespace Holds

variable {count : Nat} {pass : Pass} {heads tails : List Card}

theorem numbered (holds : Holds count [] pass heads tails) :
    (heads ++ tails).map Card.item = (List.range count).map some := by
  have total := holds.total
  have tail := holds.tails_items
  simp only [List.length_nil, Nat.add_zero] at total tail
  have joined : List.range' 0 heads.length ++ List.range' heads.length tails.length = List.range' 0 count := by
    rw [← total, ← List.range'_append_1, Nat.zero_add]
  rw [List.map_append, holds.heads_items, tail, List.range_eq_range', List.range_eq_range', ← joined, List.map_append]

theorem parts (holds : Holds count [] pass heads tails) : pass.parts = (heads ++ tails).map Card.part := by
  simp [Pass.parts, holds.placed, Function.comp_def]

theorem item (holds : Holds count [] pass heads tails) {index : Nat} {card : Card}
    (here : (heads ++ tails)[index]? = some card) : card.item = some index := by
  have item := congrArg (·[index]?) holds.numbered
  simp only [List.getElem?_map, here, Option.map_some] at item
  cases number : (List.range count)[index]? with
  | none => simp [number] at item
  | some other =>
      obtain ⟨inside, same⟩ := List.getElem?_eq_some_iff.1 number
      rw [List.getElem_range] at same
      rw [number, ← same] at item
      exact Option.some.inj item

end Holds

namespace Realm

variable {realm : Realm σ} {world : World σ} {container id : NodeId} {front rest : List NodeId} {plot item : Plot}
  {blocks : List Block} {data : String}

theorem Site.item_listed (site : realm.Site world container front rest plot) (inner : plot.inner = nodesOf blocks)
    (member : item ∈ plotsOf blocks) :
    ∃ ahead behind, world.tree.childrenOf container = ahead ++ item.nodes ++ behind := by
  obtain ⟨left, right, rfl⟩ := List.append_of_mem (mem_plotsOf.1 member)
  refine ⟨front ++ plot.part.start :: nodesOf left, nodesOf right ++ plot.part.stop :: rest, ?_⟩
  rw [site.listed, Plot.nodes, inner]
  simp

theorem showsText (sound : realm.Sound world) {slack : Slack} {ahead behind : List NodeId}
    (listed : world.tree.childrenOf container = ahead ++ plot.nodes ++ behind)
    (shows : realm.Shows world slack plot.part.content plot.inner plot.owned) (text : plot.part.content = .text data) :
    ∃ id, plot.inner = [id] ∧ plot.part.ShowsText world.tree id data := by
  have same : plot.part.content.text? = some data := by rw [text]; rfl
  obtain ⟨id, kind, -, -, -, inner, -⟩ := shows.of_text same
  refine ⟨id, inner, ?_, ?_, kind⟩
  · have split : world.tree.childrenOf container = ahead ++ plot.part.start :: (id :: plot.part.stop :: behind) := by
      simpa [Plot.nodes, inner] using listed
    exact sound.wellFormed.nextSibling_eq split
  · have split : world.tree.childrenOf container = (ahead ++ [plot.part.start]) ++ id :: (plot.part.stop :: behind) := by
      simpa [Plot.nodes, inner] using listed
    exact sound.wellFormed.nextSibling_eq split

end Realm

namespace Task

variable {task : Task σ} {scene : Scene σ} {olds : List Plot} {oldKeys : List Key} {items : List (Key × Value)}
  {pass : Pass} {blocks : List Block}

/-- A list whose pass has nothing left to settle: its cells show the items in order, and it is known what
    became of every old plot. -/
structure Passed (task : Task σ) (olds : List Plot) (oldKeys newKeys : List Key) (careful : Prop) (pass : Pass)
    (scene : Scene σ) (kept : NodeId → Prop) (blocks : List Block) (cells : List Cell)
    (gone : List (NodeId × Removal)) : Prop where
  filling : task.Filling ⟨scene, kept⟩ blocks cells gone
  parts : pass.parts = cells.map (·.plot.part)
  items : ∀ (index : Nat) cell, cells[index]? = some cell → cell.item = some index
  source : ∀ (index : Nat) cell, cells[index]? = some cell →
    (∃ place : Nat, olds[place]? = some cell.was ∧ oldKeys[place]? = newKeys[index]?) ∨
      task.start.tree.size ≤ cell.was.part.start ∧ task.start.tree.size ≤ cell.was.part.stop
  fate : ∀ (place : Nat) plot key, olds[place]? = some plot → oldKeys[place]? = some key →
    (∃ (index : Nat) (cell : Cell), cells[index]? = some cell ∧ cell.was = plot ∧ newKeys[index]? = some key) ∨
      (plot.part.start, .proceed) ∈ gone ∧ (plot.part.stop, .proceed) ∈ gone ∧ (careful → key ∉ newKeys)
  increasing : ∀ (first second : Nat) (one two : Cell), first < second → cells[first]? = some one →
    cells[second]? = some two → task.start.tree.size ≤ one.was.part.start →
    task.start.tree.size ≤ two.was.part.start → one.was.part.start < two.was.part.start
  created : pass.stats.created = cells.countP fun cell => task.start.tree.size ≤ cell.was.part.start

theorem Settles.passed {olds : List Plot} {newKeys : List Key} {careful : Prop} {gone : List (NodeId × Removal)}
    (settles : task.Settles olds oldKeys newKeys careful [] [] pass gone scene) :
    ∃ kept blocks cells, task.Passed olds oldKeys newKeys careful pass scene kept blocks cells gone := by
  obtain ⟨heads, waiting, tails, settling⟩ := settles
  obtain rfl : waiting = [] := by simpa using settling.waits
  obtain ⟨kept, blocks, cells, filling, same⟩ := settling.board
  rw [List.nil_append] at same
  have holds := settling.holds
  have traced := settling.traced
  have card : ∀ {index : Nat} {cell : Cell}, cells[index]? = some cell → (heads ++ tails)[index]? = some cell.card :=
    fun here => by rw [← same, List.getElem?_map, here, Option.map_some]
  refine ⟨kept, blocks, cells, filling, ?parts, fun index cell here => holds.item (card here), ?source, ?fate,
    ?increasing, ?created⟩
  case parts =>
    rw [holds.parts, ← same]
    simp
  case source =>
    intro index cell here
    have member := List.mem_append.1 (List.mem_of_getElem? (card here))
    exact traced.source cell.card member index (holds.item (card here))
  case fate =>
    intro place plot key here known
    rcases traced.fate place plot here with ⟨entry, none, -⟩ | ⟨shown, among, was, index, item, kept⟩ | ⟨start, stop, care⟩
    · cases none
    · refine .inl ?_
      rw [← List.mem_append] at among
      obtain ⟨place, there⟩ := List.mem_iff_getElem?.1 among
      obtain rfl : place = index := Option.some.inj ((holds.item there).symm.trans item)
      rw [← same, List.getElem?_map, Option.map_eq_some_iff] at there
      obtain ⟨cell, there, rfl⟩ := there
      exact ⟨place, cell, there, was, kept.trans known⟩
    · exact .inr ⟨start, stop, fun careful => care careful key known⟩
  case increasing =>
    intro first second one two before here there new fresh
    have among : ∀ {index : Nat} {cell : Cell}, cells[index]? = some cell →
        task.start.tree.size ≤ cell.was.part.start → heads[index]? = some cell.card := by
      intro index cell here new
      rcases Nat.lt_or_ge index heads.length with inside | beyond
      · have := card here
        rwa [List.getElem?_append_left inside] at this
      · have := card here
        rw [List.getElem?_append_right beyond] at this
        exact absurd (traced.older _ (List.mem_of_getElem? this)) (Nat.not_lt.2 new)
    have increasing := List.pairwise_map.1 (List.pairwise_filter.1 traced.increasing)
    obtain ⟨inside, first_is⟩ := List.getElem?_eq_some_iff.1 (among here new)
    obtain ⟨within, second_is⟩ := List.getElem?_eq_some_iff.1 (among there fresh)
    have := List.pairwise_iff_getElem.1 increasing first second inside within before
    rw [first_is, second_is] at this
    simpa [new, fresh] using this
  case created =>
    have none : tails.countP (fun card => task.start.tree.size ≤ card.was.part.start) = 0 := by
      rw [List.countP_eq_zero]
      intro card member
      simpa using traced.older card member
    have all := congrArg (List.countP fun card => task.start.tree.size ≤ card.was.part.start) same
    rw [List.countP_append, none, List.countP_map] at all
    exact settling.news.trans all.symm

theorem Settles.length {olds : List Plot} {newKeys : List Key} {careful : Prop} {gone : List (NodeId × Removal)}
    (settles : task.Settles olds oldKeys newKeys careful [] [] pass gone scene) :
    pass.parts.length = task.items.length := by
  obtain ⟨heads, waiting, tails, settling⟩ := settles
  have count := congrArg List.length settling.holds.numbered
  rw [settling.holds.parts]
  simpa using count

namespace Passed

variable {newKeys : List Key} {kept : NodeId → Prop} {blocks others : List Block} {cells : List Cell}
  {gone : List (NodeId × Removal)}

theorem stays {olds : List Plot} (passed : task.Passed olds oldKeys newKeys True pass scene kept others cells gone)
    (distinct : newKeys.Nodup) {place index : Nat} {key : Key} {old new : NodePart} (known : oldKeys[place]? = some key)
    (was : (olds.map Plot.part)[place]? = some old) (wanted : newKeys[index]? = some key)
    (shown : pass.parts[index]? = some new) :
    ∃ cell, cells[index]? = some cell ∧ cell.was ∈ olds ∧ cell.was.part = old ∧ cell.plot.part = new := by
  rw [List.getElem?_map, Option.map_eq_some_iff] at was
  obtain ⟨plot, was, rfl⟩ := was
  rcases passed.fate place plot key was known with ⟨other, cell, here, rfl, there⟩ | ⟨-, -, unwanted⟩
  · obtain ⟨inside, first⟩ := List.getElem?_eq_some_iff.1 wanted
    obtain ⟨within, second⟩ := List.getElem?_eq_some_iff.1 there
    obtain rfl : index = other := (distinct.getElem_inj_iff).1 (first.trans second.symm)
    rw [passed.parts, List.getElem?_map, here] at shown
    exact ⟨cell, here, List.mem_of_getElem? was, rfl, Option.some.inj shown⟩
  · exact absurd (List.mem_of_getElem? wanted) (unwanted trivial)

theorem fresh {olds : List Plot} (passed : task.Passed olds oldKeys newKeys True pass scene kept others cells gone)
    {index : Nat} {key : Key} {new : NodePart} (wanted : newKeys[index]? = some key) (unknown : key ∉ oldKeys)
    (shown : pass.parts[index]? = some new) :
    ∃ cell, cells[index]? = some cell ∧ new.start = cell.was.part.start ∧ new.stop = cell.was.part.stop ∧
      task.start.tree.size ≤ cell.was.part.start ∧ task.start.tree.size ≤ cell.was.part.stop := by
  rw [passed.parts, List.getElem?_map, Option.map_eq_some_iff] at shown
  obtain ⟨cell, here, rfl⟩ := shown
  have markers := passed.filling.markers cell (List.mem_of_getElem? here)
  refine ⟨cell, here, markers.1, markers.2, ?_⟩
  refine (passed.source index cell here).resolve_left ?_
  rintro ⟨place, -, same⟩
  exact unknown (List.mem_of_getElem? (same.trans wanted))

theorem text_kept (passed : task.Passed (plotsOf blocks) oldKeys newKeys True pass scene kept others cells gone)
    (sound : task.realm.Sound task.start)
    (site : task.realm.Site task.start task.container task.front task.rest task.whole)
    (inner : task.whole.inner = nodesOf blocks)
    (shown : ∀ plot ∈ plotsOf blocks, task.Shown task.start task.slack plot) {index : Nat} {cell : Cell}
    (there : cells[index]? = some cell) (listed : cell.was ∈ plotsOf blocks) {earlier data : String}
    (was : cell.was.part.content = .text earlier) (now : cell.plot.part.content = .text data) :
    ∃ id, cell.was.part.ShowsText task.start.tree id earlier ∧ cell.plot.part.ShowsText scene.tree id data := by
  obtain ⟨touched, taken, progress, -, -⟩ := passed.filling.progress
  have member := List.mem_of_getElem? there
  have same := passed.filling.texts cell member (by rw [was]; rfl) (by rw [now]; rfl)
  obtain ⟨ahead, behind, before⟩ := site.item_listed inner listed
  obtain ⟨id, first, shows⟩ := Realm.showsText sound before (shown _ listed) was
  have among : cell.plot ∈ plotsOf others := by
    rw [passed.filling.plots]
    exact List.mem_map_of_mem member
  obtain ⟨ahead, behind, after⟩ := progress.row.site.item_listed rfl among
  obtain ⟨other, second, showsAfter⟩ := Realm.showsText progress.change.sound after
    (passed.filling.filled cell member _ (passed.items index cell there)) now
  obtain rfl : other = id := by simpa [first, second] using same
  exact ⟨other, shows, showsAfter⟩

end Passed

theorem content_of_depicts_text {cache : TemplateCache} {data : String} {content : Content}
    (depicts : Depicts cache (.text data) content) : content = .text data := by
  cases depicts
  rfl

theorem Settles.keyedPass {gone : List (NodeId × Removal)}
    (settles : task.Settles (plotsOf blocks) oldKeys (items.map (·.1)) True [] [] pass gone scene)
    (sound : task.realm.Sound task.start)
    (site : task.realm.Site task.start task.container task.front task.rest task.whole)
    (inner : task.whole.inner = nodesOf blocks)
    (shown : ∀ plot ∈ plotsOf blocks, task.Shown task.start task.slack plot)
    (advances : Advances (.start items.length) pass (plan oldKeys (items.map (·.1)))) {cache : TemplateCache}
    (portrayed : List.Forall₂ (fun item part => Depicts cache item.2 part.content) items pass.parts)
    (oldDistinct : oldKeys.Nodup) (newDistinct : (items.map (·.1)).Nodup) :
    KeyedPass task.start.tree scene.tree oldKeys ((plotsOf blocks).map Plot.part) items pass.parts pass.stats := by
  have tally := tally_plan oldDistinct newDistinct
  obtain ⟨kept, others, cells, passed⟩ := settles.passed
  have keyed : ∀ {index : Nat} {key value}, items[index]? = some (key, value) → (items.map (·.1))[index]? = some key :=
    fun here => by rw [List.getElem?_map, here, Option.map_some]
  constructor
  case length => exact portrayed.length_eq.symm
  case updated =>
    rw [advances.updated, tally.updates, shared_eq_card newDistinct]
    exact Nat.zero_add _
  case created =>
    rw [advances.created, tally.creates, missing_eq_card newDistinct]
    exact Nat.zero_add _
  case removed =>
    rw [advances.removed, tally.removes, missing_eq_card oldDistinct]
    exact Nat.zero_add _
  case moved =>
    obtain ⟨_, _, _, settling⟩ := settles
    exact settling.moves
  case kept =>
    intro place index key value old new known was wanted here
    obtain ⟨cell, there, -, rfl, rfl⟩ := passed.stays newDistinct known was (keyed wanted) here
    exact passed.filling.markers cell (List.mem_of_getElem? there)
  case texts =>
    intro place index key earlier data old new known was wanted here text
    obtain ⟨cell, there, listed, rfl, rfl⟩ := passed.stays newDistinct known was (keyed wanted) here
    obtain ⟨inside, item⟩ := List.getElem?_eq_some_iff.1 wanted
    obtain ⟨within, part⟩ := List.getElem?_eq_some_iff.1 here
    have depicts := (List.forall₂_iff_get.1 portrayed).2 index inside within
    simp only [List.get_eq_getElem, item, part] at depicts
    exact passed.text_kept sound site inner shown there listed text (content_of_depicts_text depicts)
  case made =>
    intro index key value new wanted unknown here
    obtain ⟨cell, -, start, stop, fresh⟩ := passed.fresh (keyed wanted) unknown here
    rw [start, stop]
    exact fresh
  case ordered =>
    intro first second item other one two before wanted desired unknown unseen here there
    obtain ⟨cell, place, start, -, new, -⟩ := passed.fresh (keyed wanted) unknown here
    obtain ⟨another, site, begins, -, fresh, -⟩ := passed.fresh (keyed desired) unseen there
    rw [start, begins]
    exact passed.increasing first second cell another before place site new fresh
  case gone =>
    intro place key old known was unwanted
    rw [List.getElem?_map, Option.map_eq_some_iff] at was
    obtain ⟨plot, was, rfl⟩ := was
    rcases passed.fate place plot key was known with ⟨index, cell, -, -, there⟩ | ⟨start, stop, -⟩
    · exact absurd (List.mem_of_getElem? there) unwanted
    · exact ⟨(passed.filling.gone _ start).2.2.1, (passed.filling.gone _ stop).2.2.1⟩

end Task

section Placed

open Value

variable {realm : Realm σ} {world : World σ} {slack : Slack} {container : NodeId} {front rest : List NodeId}
  {plot : Plot} (lawful : realm.Lawful) (sound : realm.Sound world)
  (placed : realm.Placed world slack container front rest plot) {oldKeys : List Key} {olds : List NodePart}
  {oldStats : Stats} (content : plot.part.content = .keyed oldKeys olds oldStats) {items : List (Key × Value)}
  (admits : realm.Admits world.tree (leavesOfItems items))
include lawful sound placed content admits

/-- A list by key is settled in place of another, wherever that has its place and its layout. -/
theorem Realm.Placed.keyedSettles (careful : Prop) (distinct : careful → oldKeys.Nodup) :
    ∃ (task : Task σ) (blocks : List Block), task.realm = realm ∧ task.start = world ∧
      realm.Site world task.container task.front task.rest task.whole ∧ task.items.length = items.length ∧
      olds = (plotsOf blocks).map Plot.part ∧ oldKeys.length = (plotsOf blocks).length ∧
      task.whole.inner = nodesOf blocks ∧
      (∀ plot ∈ plotsOf blocks, task.Shown world task.slack plot) ∧
      ((Value.keyed items).render realm.client plot.part).Leads world.scene
        (fun content scene => ∃ pass, content = .keyed (items.map (·.1)) pass.parts pass.stats ∧
          (∃ gone, task.Settles (plotsOf blocks) oldKeys (items.map (·.1)) careful [] [] pass gone scene) ∧
          Task.Advances (.start items.length) pass (plan oldKeys (items.map (·.1))))
        fun _ _ => True := by
  have keys : (keyedRenderings realm.client items).map (·.1) = items.map (·.1) := by
    rw [keyedRenderings_eq_map, List.map_map]
    rfl
  have honest : ∀ item ∈ (keyedRenderings realm.client items).map (·.2), realm.Honest item.value.leaves item.render := by
    rw [keyedRenderings_eq_map, List.map_map]
    exact List.forall_mem_map.2 fun item _ => honest_value lawful item.2
  have wanted : realm.Admits world.tree (leavesIn ((keyedRenderings realm.client items).map (·.2))) := by
    rw [keyedRenderings_eq_map, leavesIn_keyedRenderings]
    exact admits
  have count : (keyedRenderings realm.client items).length = items.length := by simp [keyedRenderings_eq_map]
  obtain ⟨blocks, same, length, inner, shown, leads⟩ := @Task.keyed_of_keyed _
    ⟨realm, world, container, front, rest, plot, slack, (keyedRenderings realm.client items).map (·.2), True⟩ oldKeys
    careful (keyedRenderings realm.client items) lawful honest wanted trivial rfl sound placed.site placed.shows olds
    oldStats distinct content
  rw [keys, count] at leads
  refine ⟨_, blocks, rfl, rfl, placed.site, ?_, same, length, inner, shown,
    leads.mono (fun _ _ => id) fun _ _ _ => trivial⟩
  simp only [List.length_map, count]

theorem Realm.Placed.keyedPass (oldDistinct : oldKeys.Nodup) (newDistinct : (items.map (·.1)).Nodup) :
    ((Value.keyed items).render realm.client plot.part).Leads world.scene
      (fun content scene => ∃ news stats, content = .keyed (items.map (·.1)) news stats ∧
        KeyedPass world.tree scene.tree oldKeys olds items news stats)
      fun _ _ => True := by
  obtain ⟨task, blocks, rfl, rfl, site, count, rfl, -, inner, shown, leads⟩ :=
    placed.keyedSettles lawful sound content admits True fun _ => oldDistinct
  have faithful : ((Value.keyed items).render task.realm.client plot.part).Leads task.start.scene _ _ :=
    (Value.keyed items).faithful task.realm.client plot.part task.start.scene
  refine (leads.both faithful).mono ?_ fun _ _ _ => trivial
  rintro _ scene ⟨⟨pass, rfl, ⟨gone, settles⟩, advances⟩, -, depicts⟩
  have full : pass.parts.length = items.length := settles.length.trans count
  cases depicts with
  | keyed each =>
      exact ⟨pass.parts, pass.stats, rfl,
        settles.keyedPass sound site inner shown advances (each full) oldDistinct newDistinct⟩

end Placed

end Layout

end DomParts
