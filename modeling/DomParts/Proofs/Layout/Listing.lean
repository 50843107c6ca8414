import DomParts.Proofs.Layout.Cards
import DomParts.Proofs.Render.Values

/-! # Lists by position

A list is an honest renderer if its items are. The work begins with the row that the list showed, or with
an empty one, and ends when every plot shows its item.
-/

namespace DomParts

open RenderM

variable {σ : Type}

namespace Layout

theorem of_drop_eq_cons {α : Type} {all rest : List α} {first : α} {place : Nat}
    (more : all.drop place = first :: rest) : all[place]? = some first ∧ all.drop (place + 1) = rest :=
  ⟨by rw [← List.head?_drop, more, List.head?_cons], by rw [← List.tail_drop, more, List.tail_cons]⟩

theorem Shows.of_row {premises : Premises} {tree : Tree} {content : Content} {inner owned : List NodeId}
    (shows : Shows premises tree content inner owned)
    (row : (∃ parts, content = .list parts) ∨ ∃ keys parts stats, content = .keyed keys parts stats) :
    ∃ blocks, Arranges blocks content ∧ inner = nodesOf blocks ∧ owned = claimedOf blocks ∧
      (∀ plot, .plot plot ∈ blocks →
        Lined premises.survey premises.guest premises.kept tree plot ∧
        Shows premises tree plot.part.content plot.inner plot.owned) ∧
      (∀ id, .stray id ∈ blocks → premises.kept id ∧ (premises.guest id → tree.isText id = false)) ∧
      (premises.bare → ∀ id, .stray id ∉ blocks) := by
  cases shows with
  | row arranged marked shown strays complete =>
      exact ⟨_, arranged, rfl, rfl, fun plot member => ⟨marked plot member, shown plot member⟩, strays, complete⟩
  | _ => rcases row with ⟨_, same⟩ | ⟨_, _, _, same⟩ <;> cases same

theorem Realm.Admits.of_mem {realm : Realm σ} {tree : Tree} {items : List (Rendering σ)}
    (admits : realm.Admits tree (leavesIn items)) : ∀ item ∈ items, realm.Admits tree item.value.leaves :=
  fun item member id leaf => admits id (List.mem_flatMap.2 ⟨item, member, leaf⟩)

namespace Cell

def ofPlot (plot : Plot) : Cell := ⟨plot, plot, none⟩

@[simp] theorem plot_ofPlot (plot : Plot) : (ofPlot plot).plot = plot := rfl

@[simp] theorem was_ofPlot (plot : Plot) : (ofPlot plot).was = plot := rfl

@[simp] theorem item_ofPlot (plot : Plot) : (ofPlot plot).item = none := rfl

variable {cell : Cell} {taken : List NodeId} {index : Nat} {plot : Plot}

@[simp] theorem part_without : (cell.without taken).plot.part = cell.plot.part := rfl

@[simp] theorem was_without : (cell.without taken).was = cell.was := rfl

@[simp] theorem item_without : (cell.without taken).item = cell.item := rfl

@[simp] theorem plot_fill : (cell.fill index plot).plot = plot := rfl

@[simp] theorem was_fill : (cell.fill index plot).was = cell.was := rfl

@[simp] theorem item_fill : (cell.fill index plot).item = some index := rfl

end Cell

namespace Task

variable {task : Task σ} {now : World σ} {scene : Scene σ} {blocks : List Block} {cells : List Cell}
  {cards filled waiting : List Card} {gone : List (NodeId × Removal)}

def Finished (task : Task σ) (content : Content) (scene : Scene σ) : Prop :=
  ∃ kept taken inner owned, task.realm.Done task.start ⟨scene, kept⟩ task.container task.front task.rest
    task.whole task.slack (leavesIn task.items) content taken inner owned

namespace Filling

theorem ofRow (sound : task.realm.Sound task.start)
    (site : task.realm.Site task.start task.container task.front task.rest task.whole)
    (inner : task.whole.inner = nodesOf blocks) (owned : task.whole.owned = claimedOf blocks)
    (shown : ∀ plot, .plot plot ∈ blocks →
      Lined task.realm.survey task.realm.guest task.start.kept task.start.tree plot ∧
      task.Shown task.start task.slack plot)
    (strays : ∀ id, .stray id ∈ blocks →
      task.start.kept id ∧ (task.realm.guest id → task.start.tree.isText id = false))
    (complete : task.realm.bare → ∀ id, .stray id ∉ blocks)
    (tolerant : ∀ id, .stray id ∈ blocks → task.tolerant) :
    task.Filling task.start blocks ((plotsOf blocks).map Cell.ofPlot) [] := by
  have row : task.realm.Row task.start task.container task.front task.rest task.whole.part blocks := by
    refine ⟨?_, fun plot member => (shown plot member).1, fun plot member => (shown plot member).2.inner_subset,
      strays, complete⟩
    rw [← inner, ← owned]
    exact site
  refine ⟨sound, ⟨_, _, .begin sound row fun id member => owned ▸ member, by simp, ?pending⟩, ?plots, tolerant,
    ?waiting, ?filled, ?untold, ?markers, ?texts, ?still, by simp⟩
  case pending =>
    intro cell member _ id here
    obtain ⟨plot, listed, rfl⟩ := List.mem_map.1 member
    refine ⟨site.present id ?_, not_false, by simp⟩
    rw [owned]
    exact List.mem_flatMap.2 ⟨_, mem_plotsOf.1 listed, List.mem_cons_of_mem _ (List.mem_cons_of_mem _ here)⟩
  case plots => simp [Function.comp_def]
  case waiting =>
    intro cell member _
    obtain ⟨plot, listed, rfl⟩ := List.mem_map.1 member
    refine (shown plot (mem_plotsOf.1 listed)).2.weaken ⟨fun _ wanted => wanted, ?_⟩
    rintro id - (lost | none)
    · exact .inl lost
    · cases none
  case filled =>
    intro cell member index filled
    obtain ⟨plot, -, rfl⟩ := List.mem_map.1 member
    cases filled
  case untold =>
    intro cell member
    obtain ⟨plot, -, rfl⟩ := List.mem_map.1 member
    simp
  case markers =>
    intro cell member
    obtain ⟨plot, -, rfl⟩ := List.mem_map.1 member
    simp
  case texts =>
    intro cell member
    obtain ⟨plot, -, rfl⟩ := List.mem_map.1 member
    simp
  case still =>
    intro _ cell member _
    obtain ⟨plot, -, rfl⟩ := List.mem_map.1 member
    rfl

theorem ofNothing (sound : task.realm.Sound task.start) {plot : Plot}
    (outcome : task.realm.Outcome task.start now task.container task.front task.rest task.whole
      [] plot) (part : plot.part = task.whole.part) (inner : plot.inner = []) :
    task.Filling now [] [] [] := by
  have cleared : task.realm.Outcome task.start now task.container task.front task.rest task.whole
      [] ⟨task.whole.part, [], []⟩ :=
    outcome.forget (by rw [part]) (by rw [part]) inner.symm (by simp) (by simp) (by simp)
  have row : task.realm.Row now task.container (task.front.filter (· ∉ ([] : List NodeId)))
      (task.rest.filter (· ∉ ([] : List NodeId))) task.whole.part [] :=
    ⟨cleared.site, by simp, by simp, by simp, by simp⟩
  refine ⟨sound, ⟨_, _, ⟨cleared.change, fun _ _ => id, by simp, row, cleared.container_kind,
    cleared.container_parent⟩, by simp, by simp⟩, rfl, by simp, by simp, by simp, by simp, by simp, by simp,
    by simp, by simp⟩

theorem finish {content : Content} (filling : task.Filling now blocks cells gone)
    (complete : ∀ cell ∈ cells, cell.item ≠ none) (arranged : Arranges blocks content)
    (lists : ∀ item ∈ content.keyedItems, task.start.tree.size ≤ item.start ∨
      ∃ old ∈ task.whole.part.content.keyedItems, old.start = item.start) :
    ∃ taken, task.realm.Done task.start now task.container task.front task.rest task.whole task.slack
      (leavesIn task.items) content taken (nodesOf blocks) (claimedOf blocks) := by
  obtain ⟨touched, taken, progress, among, -⟩ := filling.progress
  have row := progress.row
  have outcome := progress.outcome filling.sound
  have relabelled : task.realm.Outcome task.start now task.container task.front task.rest task.whole
      taken ⟨{ task.whole.part with content, pending := none }, nodesOf blocks, claimedOf blocks⟩ :=
    outcome.forget rfl rfl rfl row.site.owned_nodup row.site.inside fun _ member => member
  refine ⟨taken, relabelled, among, .row arranged row.marked ?_ row.strays row.complete, ?_, lists⟩
  · intro plot member
    rw [← mem_plotsOf, filling.plots] at member
    obtain ⟨cell, here, rfl⟩ := List.mem_map.1 member
    obtain ⟨index, shows⟩ := Option.ne_none_iff_exists'.1 (complete cell here)
    refine (filling.filled cell here index shows).weaken ⟨fun _ wanted => leavesAt_sublist.subset wanted, ?_⟩
    rintro id - (lost | none)
    · exact lost
    · cases none
  · intro _ text
    cases content with
    | text data => exact arranged.elim
    | _ => cases text

end Filling

/-- Cards that show the first items are in order with the card that shows the next one. -/
theorem settled_next (settled : filled.map Card.item = (List.range filled.length).map some) (part : NodePart)
    (was : Plot) : (filled ++ [Card.mk part was (some filled.length)]).map Card.item =
      (List.range (filled ++ [Card.mk part was (some filled.length)]).length).map some := by
  simp [List.range_succ, ← settled]

namespace Board

theorem container_leads (board : task.Board scene cards gone) {good : NodeId → Scene σ → Prop}
    {bad : Error → Scene σ → Prop} :
    task.whole.part.container.Leads scene good bad ↔ good task.container scene := by
  obtain ⟨kept, blocks, cells, filling, -⟩ := board
  obtain ⟨touched, taken, progress, -, -⟩ := filling.progress
  exact progress.row.site.container_leads progress.change.sound

theorem ofFilling (filling : task.Filling now blocks ((plotsOf blocks).map Cell.ofPlot) gone) :
    task.Board now.scene ((plotsOf blocks).map Card.ofPlot) gone :=
  ⟨now.kept, blocks, _, filling, by simp [Function.comp_def, Cell.card, Cell.ofPlot, Card.ofPlot]⟩

theorem truncate (lawful : task.realm.Lawful) {parts : List NodePart} {count : Nat}
    (board : task.Board scene (filled ++ waiting) gone) (waits : ∀ card ∈ waiting, card.item = none)
    (stale : parts.drop count = waiting.map Card.part) :
    (Render.truncate task.container task.whole.part.stop parts count).Leads scene
      (fun _ scene => ∃ gone, task.Board scene filled gone) (fun _ _ => False) := by
  obtain ⟨kept, blocks, cells, filling, same⟩ := board
  obtain ⟨first, last, rfl, rfl, rfl⟩ := List.map_eq_append_iff.1 same
  refine (filling.truncate lawful (fun cell member => waits _ (List.mem_map_of_mem member))
    (by simpa [Function.comp_def] using stale)).mono ?_ fun _ _ none => none
  rintro _ scene ⟨kept, blocks, filling⟩
  exact ⟨_, kept, blocks, first, filling, rfl⟩

theorem finish {content : Content} (board : task.Board scene cards gone)
    (complete : ∀ card ∈ cards, card.item ≠ none)
    (arranged : ∀ blocks, blocks.filterMap Block.part? = cards.map Card.part →
      (∀ id, .stray id ∈ blocks → task.tolerant) → Arranges blocks content)
    (lists : ∀ item ∈ content.keyedItems, task.start.tree.size ≤ item.start ∨
      ∃ old ∈ task.whole.part.content.keyedItems, old.start = item.start) : task.Finished content scene := by
  obtain ⟨kept, blocks, cells, filling, rfl⟩ := board
  have parts : blocks.filterMap Block.part? = (cells.map Cell.card).map Card.part := by
    rw [parts_eq_plotsOf, filling.plots]
    simp [Function.comp_def]
  have done := filling.finish (fun cell member => complete _ (List.mem_map_of_mem member))
    (arranged blocks parts filling.strays) lists
  obtain ⟨taken, done⟩ := done
  exact ⟨kept, taken, _, _, done⟩

theorem render_next (lawful : task.realm.Lawful) {card : Card} {item : Rendering σ}
    (board : task.Board scene (filled ++ card :: waiting) gone)
    (settled : filled.map Card.item = (List.range filled.length).map some)
    (waits : ∀ other ∈ card :: waiting, other.item = none) (wanted : task.items[filled.length]? = some item)
    (honest : task.realm.Honest item.value.leaves item.render)
    (admits : task.realm.Admits task.start.tree item.value.leaves) :
    (card.part.renderWith item).Leads scene
      (fun part scene => task.Board scene ((filled ++ [⟨part, card.was, some filled.length⟩]) ++ waiting) gone)
      (fun _ scene => task.Broken scene) := by
  refine (board.render lawful (waits card (List.mem_cons_self ..)) wanted honest admits ?_).imp ?_
  · rintro other (member | member) shown
    · have := List.mem_map_of_mem (f := Card.item) member
      rw [settled, shown] at this
      simp at this
    · rw [waits other (List.mem_cons_of_mem _ member)] at shown
      cases shown
  · rintro part scene ⟨-, board⟩
    simpa using board

/-- Each item left is rendered into the next plot, or into a new one at the end. -/
theorem intoParts (lawful : task.realm.Lawful) {rest : List (Rendering σ)}
    (honest : ∀ item ∈ rest, task.realm.Honest item.value.leaves item.render)
    (admits : ∀ item ∈ rest, task.realm.Admits task.start.tree item.value.leaves)
    (items : task.items.drop filled.length = rest) (board : task.Board scene (filled ++ waiting) gone)
    (settled : filled.map Card.item = (List.range filled.length).map some)
    (waits : ∀ card ∈ waiting, card.item = none) :
    (Render.intoParts task.container task.whole.part.stop (waiting.map Card.part) rest).Leads scene
      (fun parts scene => ∃ done, task.Board scene (done ++ waiting.drop rest.length) gone ∧
        done.map Card.item = (List.range done.length).map some ∧
        done.map Card.part = filled.map Card.part ++ parts)
      (fun _ scene => task.Broken scene) := by
  induction rest generalizing scene filled waiting with
  | nil =>
      have none : Render.intoParts task.container task.whole.part.stop (waiting.map Card.part) [] =
          (pure [] : RenderM σ _) := by
        cases waiting <;> rfl
      rw [none, leads_pure]
      exact ⟨filled, board, settled, by simp⟩
  | cons item rest ih =>
      obtain ⟨wanted, later⟩ := of_drop_eq_cons items
      rw [List.forall_mem_cons] at honest admits
      have step : ∀ {scene : Scene σ} {card : Card} {waiting : List Card},
          task.Board scene (filled ++ card :: waiting) gone → (∀ other ∈ card :: waiting, other.item = none) →
          (card.part.renderWith item).Leads scene
            (fun part scene => (Render.intoParts task.container task.whole.part.stop
                (waiting.map Card.part) rest).Leads scene
              (fun parts scene => ∃ done, task.Board scene (done ++ waiting.drop rest.length) gone ∧
                done.map Card.item = (List.range done.length).map some ∧
                done.map Card.part = filled.map Card.part ++ part :: parts)
              (fun _ scene => task.Broken scene))
            (fun _ scene => task.Broken scene) := by
        intro scene card waiting board waits
        refine (board.render_next lawful settled waits wanted honest.1 admits.1).imp ?_
        intro part scene board
        have onward := ih honest.2 admits.2 (by simpa using later) board (settled_next settled part card.was)
          fun other member => waits other (List.mem_cons_of_mem _ member)
        simpa using onward
      cases waiting with
      | nil =>
          have room : task.Board scene (filled ++ []) gone := board
          simp only [List.map_nil, Render.intoParts, leads_bind, leads_pure]
          refine (room.insert lawful).mono ?_ fun _ _ none => none.elim
          rintro part scene ⟨-, board⟩
          simpa [Card.ofPart, Card.ofPlot] using step board (by simp [Card.ofPart, Card.ofPlot])
      | cons card waiting =>
          simp only [List.map_cons, Render.intoParts, leads_bind, leads_pure]
          exact step board waits

end Board

theorem complete_of_range {cards : List Card} (settled : cards.map Card.item = (List.range cards.length).map some) :
    ∀ card ∈ cards, card.item ≠ none := by
  intro card member none
  have := List.mem_map_of_mem (f := Card.item) member
  rw [settled, none] at this
  simp at this

variable (task) in
theorem list (lawful : task.realm.Lawful) (sound : task.realm.Sound task.start)
    (site : task.realm.Site task.start task.container task.front task.rest task.whole)
    (shows : task.Shown task.start task.slack task.whole)
    (honest : ∀ item ∈ task.items, task.realm.Honest item.value.leaves item.render)
    (admits : task.realm.Admits task.start.tree (leavesIn task.items)) (strict : ¬ task.tolerant) :
    (Render.list task.items task.whole.part).Leads task.start.scene
      (fun content scene => task.Finished content scene) (fun _ scene => task.Broken scene) := by
  have fills : ∀ {scene : Scene σ} {waiting : List Card}, task.Board scene ([] ++ waiting) [] →
      (∀ card ∈ waiting, card.item = none) →
      (do
        let container ← task.whole.part.container
        let shown ← Render.intoParts container task.whole.part.stop (waiting.map Card.part) task.items
        Render.truncate container task.whole.part.stop (waiting.map Card.part) task.items.length
        return Content.list shown).Leads scene
      (fun content scene => task.Finished content scene) (fun _ scene => task.Broken scene) := by
    intro scene waiting board waits
    simp only [leads_bind, leads_pure, board.container_leads]
    refine (board.intoParts lawful honest admits.of_mem rfl rfl waits).imp ?_
    rintro parts scene ⟨filled, board, settled, shown⟩
    refine (board.truncate lawful (fun card member => waits card (List.mem_of_mem_drop member))
      List.map_drop.symm).mono ?_ fun _ _ none => none.elim
    rintro _ scene ⟨gone, board⟩
    refine board.finish (complete_of_range settled) (fun blocks plots strays => ?_) (List.forall_mem_nil _)
    exact ⟨plots.trans shown, fun id member => strict (strays id member)⟩
  by_cases same : ∃ parts, task.whole.part.content = .list parts
  · obtain ⟨parts, content⟩ := same
    rw [Render.list_of_parts content]
    obtain ⟨blocks, arranged, inner, owned, shown, strays, complete⟩ := shows.of_row (.inl ⟨parts, content⟩)
    rw [content] at arranged
    have board := Board.ofFilling (.ofRow sound site inner owned shown strays complete fun id member =>
      absurd member (arranged.2 id))
    rw [← arranged.1, parts_eq_plotsOf]
    simpa [Function.comp_def, Card.ofPlot] using fills board (by simp [Card.ofPlot])
  · rw [Render.list_of_other fun parts content => same ⟨parts, content⟩]
    simp only [leads_bind]
    refine (site.removeContent_leads lawful sound).mono ?_ fun _ _ none => none.elim
    rintro _ scene ⟨-, cleared⟩
    have board := Board.ofFilling (.ofNothing sound cleared rfl rfl)
    simpa only [leads_bind, List.map_nil] using fills board (by simp)

end Task

theorem Realm.honest_list {realm : Realm σ} {items : List (Rendering σ)} (lawful : realm.Lawful)
    (honest : ∀ item ∈ items, realm.Honest item.value.leaves item.render) :
    realm.Honest (leavesIn items) (Render.list items) := fun sound site shows admits =>
  Task.list ⟨realm, _, _, _, _, _, _, items, False⟩ lawful sound site shows honest admits id

end Layout

end DomParts
