import DomParts.Proofs.Twins.Removal

/-! # Lists by position and their twins

A list by position and a list by key whose keys are the positions do the same, item by item: both render into
the parts that are there, then make new ones at the end or drop those that are left.
-/

namespace DomParts

open Keyed Layout RenderM

variable {σ : Type} {scene scene' : Scene σ}

namespace Layout.Task

variable {task : Task σ} {filled waiting : List Card} {gone : List (NodeId × Removal)}
  {items others : List (Rendering σ)} {olds done : List NodePart} {pass : Pass}

/-- How far both lists have come: the first items are shown, and the parts that were there before wait for others. -/
structure Abreast (task : Task σ) (filled waiting : List Card) (gone : List (NodeId × Removal))
    (done : List NodePart) (left : Nat) (scene : Scene σ) (pass : Pass) : Prop where
  board : task.Board scene (filled ++ waiting) gone
  settled : filled.map Card.item = (List.range filled.length).map some
  waits : ∀ card ∈ waiting, card.item = none
  length : done.length = filled.length
  placed : pass.placed = done.map some ++ List.replicate left none

namespace Abreast

variable {card : Card} {item other : Rendering σ} {part part' : NodePart} {left : Nat} {after : Scene σ}

theorem next (abreast : task.Abreast filled (card :: waiting) gone done (left + 1) scene pass) (change : Stats → Stats)
    (board : task.Board after ((filled ++ [⟨part, card.was, some filled.length⟩]) ++ waiting) gone) :
    task.Abreast (filled ++ [⟨part, card.was, some filled.length⟩]) waiting gone (done ++ [part']) left after
      ((pass.place filled.length part').count change) where
  board := board
  settled := settled_next abreast.settled part card.was
  waits other member := abreast.waits other (List.mem_cons_of_mem _ member)
  length := by simp [abreast.length]
  placed := by simp [Pass.count, Pass.place, abreast.placed, ← abreast.length, List.replicate_succ]

theorem render_mirrors {α β : Type} {next : NodePart → RenderM σ α} {next' : NodePart → RenderM σ β}
    {further : α → β → Prop} (abreast : task.Abreast filled (card :: waiting) gone done (left + 1) scene pass)
    (lawful : task.realm.Lawful) (wanted : task.items[filled.length]? = some item) (paired : task.realm.Paired item other)
    (admits : task.realm.Admits task.start.tree item.value.leaves) (twin : card.part.Twin part')
    (same : scene.Same scene') (change : Stats → Stats)
    (onward : ∀ shown shown' after last,
      task.Abreast (filled ++ [⟨shown, card.was, some filled.length⟩]) waiting gone (done ++ [shown']) left after
        ((pass.place filled.length shown').count change) →
      after.Same last → shown.Twin shown' → (next shown).Mirrors (next' shown') after last further) :
    (card.part.renderWith item >>= next).Mirrors (part'.renderWith other >>= next') scene scene' further := by
  have ready := abreast.board.ready (abreast.waits card (List.mem_cons_self ..)) admits
  have leads := abreast.board.render_next lawful abreast.settled abreast.waits wanted paired.honest admits
  refine (paired.renderWith ready twin same).bind leads ?_
  intro shown shown' after last same board twin
  exact onward shown shown' after last (abreast.next change board) same twin

end Abreast

/-- Each item left is rendered into the next part, or into a new one at the end, whatever the list goes by. -/
theorem intoParts_mirrors (lawful : task.realm.Lawful) (left : task.items.drop filled.length = items)
    (paired : List.Forall₂ task.realm.Paired items (others.drop filled.length))
    (admits : ∀ item ∈ items, task.realm.Admits task.start.tree item.value.leaves)
    (abreast : task.Abreast filled waiting gone done items.length scene pass)
    (twins : List.Forall₂ NodePart.Twin (waiting.map Card.part) (olds.drop filled.length)) (same : scene.Same scene') :
    (Render.intoParts task.container task.whole.part.stop (waiting.map Card.part) items).Mirrors
      ((task.beside olds others).performAll pass (steps filled.length waiting.length items.length)) scene scene'
      fun parts next => ∃ last, List.Forall₂ NodePart.Twin parts last ∧ last.length = items.length ∧
        next.placed = (done ++ last).map some := by
  induction items generalizing scene scene' filled waiting done pass with
  | nil =>
      have none : Render.intoParts task.container task.whole.part.stop (waiting.map Card.part) [] =
          (pure [] : RenderM σ _) := by
        cases waiting <;> rfl
      rw [none, List.length_nil, steps_nil]
      exact ⟨same, [], .nil, rfl, by simp [abreast.placed]⟩
  | cons item items ih =>
      obtain ⟨other, others', first, rest, more⟩ := List.forall₂_cons_left_iff.1 paired
      obtain ⟨wanted, later⟩ := of_drop_eq_cons left
      obtain ⟨asked, later'⟩ := of_drop_eq_cons more
      rw [List.forall_mem_cons] at admits
      have step : ∀ {scene scene' : Scene σ} {card : Card} {waiting : List Card} {part : NodePart}
          (change : Stats → Stats), task.Abreast filled (card :: waiting) gone done (items.length + 1) scene pass →
          card.part.Twin part → List.Forall₂ NodePart.Twin (waiting.map Card.part) (olds.drop (filled.length + 1)) →
          scene.Same scene' →
          (do
            let shown ← card.part.renderWith item
            let parts ← Render.intoParts task.container task.whole.part.stop (waiting.map Card.part) items
            return shown :: parts).Mirrors (do
            let part ← part.renderWith other
            (task.beside olds others).performAll ((pass.place filled.length part).count change)
              (steps (filled.length + 1) waiting.length items.length)) scene scene'
          fun parts next => ∃ last, List.Forall₂ NodePart.Twin parts last ∧ last.length = (item :: items).length ∧
            next.placed = (done ++ last).map some := by
        intro scene scene' card waiting part change abreast twin twins same
        refine abreast.render_mirrors lawful wanted first admits.1 twin same change ?_
        intro shown shown' after last abreast same twin
        have onward := ih (by simpa using later) (by simpa [later'] using rest) admits.2 abreast
          (by simpa using twins) same
        rw [List.length_append, List.length_singleton] at onward
        rw [mirrors_return_left]
        refine onward.mono ?_
        rintro parts next ⟨others, each, count, placed⟩
        exact ⟨shown' :: others, .cons twin each, congrArg (· + 1) count, by simpa using placed⟩
      cases waiting with
      | nil =>
          have room : task.Board scene (filled ++ []) gone := abreast.board
          simp only [List.map_nil, Render.intoParts, List.length_nil, List.length_cons, steps, Setting.performAll,
            Setting.perform, Setting.create, asked, Setting.nodeAt, bind_assoc, pure_bind, mirrors_note_right]
          have made := room.insert lawful
          rw [Card.anchorOf] at made
          refine (NodePart.blind_insertInto _ _ scene _ (same.add_right _)).bind made ?_
          rintro part _ after last same ⟨made, board⟩ rfl
          have here : task.Abreast filled [Card.ofPart part] gone done (items.length + 1) after pass :=
            ⟨board, abreast.settled, by simp [Card.ofPart, Card.ofPlot], abreast.length, abreast.placed⟩
          have twin : part.Twin part := .of_empty (by rw [made]; rfl)
          have none : olds.drop (filled.length + 1) = [] := by
            rw [← List.tail_drop, List.forall₂_nil_left_iff.1 twins, List.tail_nil]
          simpa [Card.ofPart, Card.ofPlot] using step _ here twin (by rw [none]; exact .nil) same
      | cons card waiting =>
          obtain ⟨part, olds', twin, twins, places⟩ := List.forall₂_cons_left_iff.1 twins
          obtain ⟨here, beyond⟩ := of_drop_eq_cons places
          simp only [List.map_cons, Render.intoParts, List.length_cons, steps, Setting.performAll, Setting.perform,
            Setting.keep, here, asked, bind_assoc, pure_bind, mirrors_note_right]
          exact step _ abreast twin (beyond ▸ twins) (same.add_right _)

theorem truncate_mirrors (lawful : task.realm.Lawful) (bare : task.realm.bare) {parts : List NodePart}
    {count first : Nat} (board : task.Board scene (filled ++ waiting) gone)
    (stale : parts.drop count = waiting.map Card.part)
    (twins : List.Forall₂ NodePart.Twin (waiting.map Card.part) (olds.drop first)) (same : scene.Same scene') :
    (Render.truncate task.container task.whole.part.stop parts count).Mirrors
      ((task.beside olds others).performAll pass ((List.range' first waiting.length).map (.remove .leftover)))
      scene scene' fun _ next => next.placed = pass.placed := by
  obtain ⟨kept, blocks, cells, filling, cards⟩ := board
  obtain ⟨before, last, rfl, rfl, rfl⟩ := List.map_eq_append_iff.1 cards
  obtain ⟨touched, taken, progress, -, -⟩ := filling.progress
  obtain ⟨left, middle, rfl, -, between, anchor⟩ := Task.exists_cut filling.plots
  have row := progress.row
  have sound := progress.change.sound
  have nodes : nodesOf middle = (plotsOf middle).flatMap Plot.nodes :=
    nodesOf_eq_plots fun id member => row.complete bare id (List.mem_append_right _ member)
  have split : scene.tree.childrenOf task.container =
      (task.front.filter (· ∉ taken) ++ task.whole.part.start :: nodesOf left) ++ nodesOf middle ++
        task.whole.part.stop :: task.rest.filter (· ∉ taken) := by
    have listed := row.site.listed
    simpa [Plot.nodes] using listed
  have parts_eq : (plotsOf middle).map Plot.part = (last.map Cell.card).map Card.part := by
    rw [between, List.map_map, List.map_map]
    rfl
  have number : (last.map Cell.card).length = (plotsOf middle).length := by
    rw [between, List.length_map, List.length_map]
  have gone_at_once : (Render.truncate task.container task.whole.part.stop parts count).Leads scene
      (fun _ after => (scene.without (nodesOf middle)).Same after) (fun _ _ => False) := by
    cases last with
    | nil =>
        have none : parts[count]? = none := by rw [← List.head?_drop, stale]; rfl
        rw [List.map_nil, List.map_nil, List.map_eq_nil_iff] at parts_eq
        rw [nodes, parts_eq, Render.truncate, none]
        exact .refl scene
    | cons cell others =>
        have found : parts[count]? = some cell.plot.part := by rw [← List.head?_drop, stale]; rfl
        have noted := (Scene.Same.refl scene).add_right (.truncated parts.length count)
        have gone := @removeRun_leads_without _ (scene.add (.truncated parts.length count)) _ _ _ _ _
          sound.wellFormed split (anchor _ _)
        rw [List.head?_cons] at gone
        simp only [Render.truncate, found, leads_bind, leads_note, leads_pure]
        exact gone.mono (fun _ _ same => noted.without.trans same) fun _ _ none => none
  have gone_each : ((task.beside olds others).performAll pass ((List.range' first (plotsOf middle).length).map
      (.remove .leftover))).Leads scene' (fun next after => next.placed = pass.placed ∧
        (scene'.without ((plotsOf middle).flatMap Plot.nodes)).Same after) (fun _ _ => False) := by
    have listed : scene'.tree.childrenOf task.container =
        (task.front.filter (· ∉ taken) ++ task.whole.part.start :: nodesOf left) ++
        ((plotsOf middle).flatMap Plot.nodes ++ task.whole.part.stop :: task.rest.filter (· ∉ taken)) := by
      rw [same.tree, ← nodes, ← List.append_assoc]
      exact split
    rw [← parts_eq, List.forall₂_map_left_iff] at twins
    exact Setting.performAll_removes (lawful.unasked bare) .leftover (same.tree ▸ sound.wellFormed) listed twins
  rw [number]
  rw [nodes] at gone_at_once
  exact mirrors_of_leads gone_at_once gone_each fun _ after next last one two =>
    ⟨one.symm.trans (same.without.trans two.2), two.1⟩

theorem fills_mirrors (lawful : task.realm.Lawful) (bare : task.realm.bare)
    (paired : List.Forall₂ task.realm.Paired task.items others)
    (admits : task.realm.Admits task.start.tree (leavesIn task.items)) (board : task.Board scene waiting gone)
    (waits : ∀ card ∈ waiting, card.item = none)
    (twins : List.Forall₂ NodePart.Twin (waiting.map Card.part) olds)
    (placed : pass.placed = List.replicate task.items.length none) (same : scene.Same scene') :
    (do
      let container ← task.whole.part.container
      let shown ← Render.intoParts container task.whole.part.stop (waiting.map Card.part) task.items
      Render.truncate container task.whole.part.stop (waiting.map Card.part) task.items.length
      return .list shown : RenderM σ Content).Mirrors (do
      let pass ← (task.beside olds others).performAll pass (steps 0 waiting.length task.items.length ++
        (List.range' task.items.length (waiting.length - task.items.length)).map (Action.remove .leftover))
      note (.passDone pass.stats)
      return .keyed (positions 0 task.items.length) pass.parts pass.stats : RenderM σ Content)
      scene scene' Content.Twin := by
  have known : task.whole.part.container.Leads scene (fun container after => container = task.container ∧ after = scene)
      fun _ _ => False := board.container_leads.2 ⟨rfl, rfl⟩
  refine mirrors_left known ?_
  rintro _ after ⟨rfl, rfl⟩
  rw [Setting.performAll_append, bind_assoc]
  have begun : task.Abreast [] waiting gone [] task.items.length after pass := ⟨board, rfl, waits, rfl, placed⟩
  have honest := Realm.Paired.all_honest paired
  have shows := @intoParts_mirrors _ _ _ task [] waiting gone task.items others olds [] pass lawful rfl paired
    admits.of_mem begun twins same
  refine shows.bind (begun.board.intoParts lawful honest admits.of_mem rfl rfl waits) ?_
  rintro shown next after last same ⟨done, board, -, -⟩ ⟨parts, each, count, placed⟩
  have number : waiting.length - task.items.length = (waiting.drop task.items.length).length := by rw [List.length_drop]
  have left := List.forall₂_drop task.items.length twins
  rw [← List.map_drop] at left
  rw [number]
  refine (truncate_mirrors lawful bare board List.map_drop.symm left same).andThen ?_
  intro _ next after last same placed'
  rw [mirrors_note_right]
  refine mirrors_pure (same.add_right _) ?_
  have parts_eq : next.parts = parts := by simp [Pass.parts, placed', placed]
  rw [parts_eq, ← count]
  exact .list each

section List

variable {keyed : List (Key × Rendering σ)} {other : NodePart} {parts : List NodePart} {stats stats' : Stats}
  {oldKeys : List Key} (lawful : task.realm.Lawful) (bare : task.realm.bare)
  (keys : keyed.map (·.1) = positions 0 task.items.length)
  (paired : List.Forall₂ task.realm.Paired task.items (keyed.map (·.2)))
  (admits : task.realm.Admits task.start.tree (leavesIn task.items)) (sound : task.realm.Sound task.start)
  (site : task.realm.Site task.start task.container task.front task.rest task.whole) (twin : task.whole.part.Twin other)
  (same : task.start.scene.Same scene')
include lawful bare keys paired admits sound site twin same

theorem list_over_list (shows : task.Shown task.start task.slack task.whole)
    (content : task.whole.part.content = .list parts)
    (content' : other.content = .keyed (positions 0 olds.length) olds stats)
    (each : List.Forall₂ NodePart.Twin parts olds) :
    (Render.list task.items task.whole.part).Mirrors (Render.keyed task.realm.client keyed other)
      task.start.scene scene' Content.Twin := by
  obtain ⟨blocks, arranged, inner, owned, shown, strays, complete⟩ := shows.of_row (.inl ⟨parts, content⟩)
  rw [content] at arranged
  obtain ⟨parts_eq, none⟩ := arranged
  have board := Board.ofFilling
    (.ofRow sound site inner owned shown strays complete fun id member => absurd member (none id))
  have cards : ((plotsOf blocks).map Card.ofPlot).map Card.part = parts := by
    rw [← parts_eq, parts_eq_plotsOf, List.map_map]
    rfl
  have count : ((plotsOf blocks).map Card.ofPlot).length = olds.length := by
    rw [← each.length_eq, ← cards, List.length_map, List.length_map, List.length_map]
  obtain ⟨noted, same', leads⟩ := @Render.keyedFrom_leads _ scene' task.realm.client keyed other
    (positions 0 olds.length) olds task.container (by rw [twin.start, same.tree, board.parentOf_start])
  have fills := fills_mirrors lawful bare paired admits board (by simp [Card.ofPlot]) (cards.symm ▸ each)
    (by simp [Pass.start] : (Pass.start (positions 0 task.items.length).length).placed = _) (same.trans same'.same)
  rw [cards, count] at fills
  rw [Render.list_of_parts content, Render.keyed_of_keyed content', mirrors_congr_right leads, keys, plan_positions,
    Render.carryOut, twin.stop]
  exact fills

theorem list_over_other (notList : ∀ parts, task.whole.part.content ≠ .list parts)
    (notKeyed : ∀ keys parts stats, other.content ≠ .keyed keys parts stats) :
    (Render.list task.items task.whole.part).Mirrors (Render.keyed task.realm.client keyed other)
      task.start.scene scene' Content.Twin := by
  rw [Render.list_of_other notList, Render.keyed_of_other notKeyed, twin.removeContent_eq]
  refine (task.whole.part.blind_removeContent _ _ same).bind (removeContent_leads lawful sound site) ?_
  rintro _ _ after last same ⟨-, board⟩ -
  obtain ⟨noted, same', leads⟩ := @Render.keyedFrom_leads _ last task.realm.client keyed other [] [] task.container
    (by rw [twin.start, same.tree, board.parentOf_start])
  have planned := plan_positions 0 task.items.length
  rw [positions_zero] at planned
  rw [mirrors_congr_right leads, keys, planned, Render.carryOut, twin.stop]
  have fills := fills_mirrors lawful bare paired admits board (by simp) .nil
    (by simp [Pass.start] : (Pass.start (positions 0 task.items.length).length).placed = _) (same.trans same'.same)
  rw [List.length_nil, List.map_nil] at fills
  exact fills

theorem list_over_keyed (content : task.whole.part.content = .keyed oldKeys parts stats)
    (content' : other.content = .keyed oldKeys olds stats') (each : List.Forall₂ NodePart.Twin parts olds)
    (named : ∀ key ∈ oldKeys, ∀ position, key ≠ .index position) (shows : task.Shown task.start task.slack task.whole) :
    (Render.list task.items task.whole.part).Mirrors (Render.keyed task.realm.client keyed other)
      task.start.scene scene' Content.Twin := by
  rw [Render.list_of_other (by simp [content])]
  have each' : List.Forall₂ NodePart.Twin task.whole.part.content.items olds := by rwa [content]
  have length : oldKeys.length = olds.length := by
    obtain ⟨blocks, arranged, -⟩ := shows.of_row (.inr ⟨oldKeys, parts, stats, content⟩)
    rw [content] at arranged
    exact arranged.2.trans each.length_eq
  refine replace_mirrors lawful bare sound site twin same shows (.inr ⟨_, _, _, content⟩) content' length each' ?_ ?_
  · rw [keys]
    intro key member again
    obtain ⟨position, -, rfl⟩ := List.mem_map.1 again
    exact named _ member position rfl
  · intro pass after last board same placed
    rw [keys, length_positions] at placed ⊢
    have fills := fills_mirrors lawful bare paired admits board (by simp) .nil placed same
    simp only [List.length_nil, steps_nil_old, Nat.zero_sub, List.range'_zero, List.map_nil, List.append_nil] at fills
    exact fills

end List

end Layout.Task

namespace Layout.Realm

variable {realm : Realm σ} {items : List (Rendering σ)} {others : List (Key × Rendering σ)}

/-- A list is shown in lockstep with the same list by key, if its items are. -/
theorem twins_list (lawful : realm.Lawful) (bare : realm.bare) (keys : others.map (·.1) = positions 0 items.length)
    (paired : List.Forall₂ realm.Paired items (others.map (·.2))) :
    realm.Twins (leavesIn items) (Render.list items) (Render.keyed realm.client others) := by
  rintro scene scene' _ other ⟨kept, container, front, rest, plot, slack, rfl, sound, placed, admits⟩ twin same
  rcases twin.content.rows with ⟨parts, olds, stats, content, content', each⟩ |
    ⟨oldKeys, parts, olds, stats, stats', content, content', named, each⟩ | ⟨notList, -, notKeyed⟩
  · exact @Task.list_over_list σ _ ⟨realm, ⟨scene, kept⟩, container, front, rest, plot, slack, items, False⟩ _ _ _ _ _
      lawful bare keys paired admits sound placed.site twin same placed.shows content content' each
  · exact @Task.list_over_keyed σ _ ⟨realm, ⟨scene, kept⟩, container, front, rest, plot, slack, items, False⟩ _ _ _ _ _
      _ _ lawful bare keys paired admits sound placed.site twin same content content' each named placed.shows
  · exact @Task.list_over_other σ _ ⟨realm, ⟨scene, kept⟩, container, front, rest, plot, slack, items, False⟩ _ _ lawful
      bare keys paired admits sound placed.site twin same notList notKeyed

end Layout.Realm

end DomParts
