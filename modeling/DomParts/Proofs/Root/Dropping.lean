import DomParts.Proofs.Keyed.Conservation
import DomParts.Proofs.Render.Record
import DomParts.Proofs.Root.Hearing

/-! # Dropped in the hook's hearing

The hook hears of every item that a pass drops, and of nothing else if no item holds a list of its own. What it
was asked and what became of the nodes are written down action by action.
-/

namespace DomParts

variable {σ : Type}

/-- Where a node is once the hook has decided on it. -/
def Removal.place (container : NodeId) : Removal → Option NodeId
  | .proceed => none
  | .skip => some container

/-- What a pass asks the hook and what becomes of the items that it drops, each with the nodes between its
    markers. -/
structure DropsHeard (before after : Scene (σ × List Question)) (container : NodeId) (between : List NodeId)
    (olds news : List NodePart) (dropped : List (NodePart × List NodeId)) (asked : List (NodeId × Removal)) : Prop where
  /-- The items dropped are those whose markers no item has afterwards. -/
  items : (dropped.map (·.1)).Perm (olds.filter fun old => old.start ∉ news.map (·.start))
  stood : ∀ drop ∈ dropped, ∃ left right, between = left ++ (drop.1.start :: (drop.2 ++ [drop.1.stop])) ++ right
  /-- Nothing else was asked. -/
  questions : removals after.memory.2 = removals before.memory.2 ++ questionsOf container asked
  /-- All nodes of the items are asked about that are no markers, item by item and in order. -/
  targets : asked.map (·.1) = dropped.flatMap fun drop => drop.2.filter (!before.tree.isMarker ·)
  once : (asked.map (·.1)).Nodup
  /-- A node goes if the hook lets it go, and stays in the container if not. -/
  places : ∀ pair ∈ asked, after.tree.parentOf pair.1 = pair.2.place container
  /-- Markers go. -/
  markers : ∀ drop ∈ dropped, ∀ id ∈ drop.1.start :: (drop.2 ++ [drop.1.stop]), before.tree.isMarker id = true →
    after.tree.parentOf id = none

namespace Layout

theorem plots_sublist (blocks : List Block) : ((plotsOf blocks).flatMap Plot.nodes).Sublist (nodesOf blocks) := by
  induction blocks with
  | nil => exact .refl _
  | cons block blocks ih =>
      cases block with
      | plot plot => exact (List.Sublist.refl _).append ih
      | stray id => exact ih.cons _

namespace Task

open Keyed RenderM

section Waiting

variable {task : Task σ} {olds : List Plot} {oldKeys newKeys : List Key} {careful : Prop} {scene : Scene σ}
  {before after new : Window} {o : Entry} {pass : Pass} {gone : List (NodeId × Removal)}

/-- An old plot that is not settled stands as it stood. -/
structure Waits (task : Task σ) (scene : Scene σ) (gone : List (NodeId × Removal)) (plot : Plot) : Prop where
  listed : ∃ ahead behind, scene.tree.childrenOf task.container = ahead ++ plot.nodes ++ behind
  inside : ∀ id ∈ plot.inner, scene.tree.kindOf id = task.start.tree.kindOf id
  start : scene.tree.isMarker plot.part.start = true
  stop : scene.tree.isMarker plot.part.stop = true
  fresh : (plot.part.start, .proceed) ∉ gone

theorem Settles.waits (settles : task.Settles olds oldKeys newKeys careful (before ++ o :: after) new pass gone scene)
    (quiet : leavesIn task.items = []) :
    scene.tree.WellFormed ∧ ∃ plot, olds[o.index]? = some plot ∧ task.Waits scene gone plot := by
  obtain ⟨heads, waiting, tails, settling⟩ := settles
  obtain ⟨left, plot, right, rfl, found, -, -⟩ := Settling.split before settling.waits
  obtain ⟨kept, blocks, cells, filling, same⟩ := settling.board
  have split : cells.map Cell.card = (heads ++ left) ++ .ofPlot plot :: (right ++ tails) := by simpa using same
  obtain ⟨first, cell, last, rfl, -, card, -⟩ := Cell.exists_card split
  have member : cell ∈ first ++ cell :: last := by simp
  have waits : cell.item = none := congrArg Card.item card
  have was : cell.was = plot := congrArg Card.was card
  obtain rfl : cell.plot = plot := (filling.still quiet cell member waits).trans was
  obtain ⟨touched, taken, progress, -, pending⟩ := filling.progress
  obtain ⟨before, beyond, rfl, -, -⟩ := filling.split
  have listed : .plot cell.plot ∈ before ++ .plot cell.plot :: beyond := by simp
  have marked := progress.row.marked cell.plot listed
  have inner := (filling.waiting cell member waits).inner_subset
  refine ⟨progress.change.sound.wellFormed, cell.plot, found, ?_, ?_, Tree.isMarker_iff.2 marked.start,
    Tree.isMarker_iff.2 marked.stop, fun among => ?_⟩
  · exact progress.row.site.item_listed rfl (mem_plotsOf.2 listed)
  · intro id here
    obtain ⟨present, untouched, -⟩ := pending cell member waits id (inner id here)
    exact (progress.change.spared id present untouched).kindOf
  · obtain ⟨-, -, -, -, unclaimed⟩ := filling.gone _ among
    exact unclaimed (List.mem_flatMap.2 ⟨_, listed, List.mem_cons_self ..⟩)

theorem Settles.fated {old : Window} (settles : task.Settles olds oldKeys newKeys careful old new pass gone scene) :
    ∀ fate ∈ gone, scene.tree.parentOf fate.1 = fate.2.place task.container := by
  obtain ⟨heads, waiting, tails, settling⟩ := settles
  obtain ⟨kept, blocks, cells, filling, -⟩ := settling.board
  obtain ⟨touched, taken, progress, -, -⟩ := filling.progress
  rintro ⟨id, verdict⟩ member
  obtain ⟨-, fated⟩ := filling.gone _ member
  cases verdict with
  | proceed => exact fated.2.1
  | skip =>
      have among : id ∈ nodesOf blocks := List.mem_flatMap.2 ⟨.stray id, fated, List.mem_singleton.2 rfl⟩
      refine progress.change.sound.wellFormed.parentOf_of_mem ?_
      rw [progress.row.site.listed]
      simp [Plot.nodes, among]

end Waiting

section Quizzed

variable {task : Task (σ × List Question)} {client : Client σ} {hook : RemovalHook σ} {olds : List Plot}
  {oldKeys newKeys : List Key} {careful : Prop} {scene : Scene (σ × List Question)}
  {dropped : List Plot} {asked gone : List (NodeId × Removal)}

/-- What the hook was asked about the old plots that left the list so far, and what became of their nodes. -/
structure Quizzed (task : Task (σ × List Question)) (olds dropped : List Plot) (asked gone : List (NodeId × Removal))
    (scene : Scene (σ × List Question)) : Prop where
  among : ∀ plot ∈ dropped, plot ∈ olds
  distinct : dropped.Nodup
  questions : removals scene.memory.2 =
    removals task.start.scene.memory.2 ++ questionsOf task.container asked
  targets : asked.map (·.1) = dropped.flatMap fun plot => plot.nodes.filter (!task.start.tree.isMarker ·)
  answers : ∀ pair ∈ asked, pair ∈ gone
  markers : ∀ plot ∈ dropped, ∀ id ∈ plot.nodes, task.start.tree.isMarker id = true → (id, .proceed) ∈ gone
  complete : ∀ fate ∈ gone, ∃ plot ∈ dropped, fate.1 ∈ plot.nodes

theorem Quizzed.begin (silent : removals scene.memory.2 = removals task.start.scene.memory.2) :
    task.Quizzed olds [] [] [] scene :=
  ⟨List.forall_mem_nil _, .nil, by simpa [questionsOf] using silent, rfl, List.forall_mem_nil _, List.forall_mem_nil _,
    List.forall_mem_nil _⟩

theorem Quizzed.silent {later : Scene (σ × List Question)} (quizzed : task.Quizzed olds dropped asked gone scene)
    (same : removals later.memory.2 = removals scene.memory.2) : task.Quizzed olds dropped asked gone later :=
  { quizzed with questions := same.trans quizzed.questions }

theorem Quizzed.snoc {last : Scene (σ × List Question)} {item : Plot} {more fates : List (NodeId × Removal)}
    (quizzed : task.Quizzed olds dropped asked gone scene) (listed : item ∈ olds)
    (fresh : (item.part.start, .proceed) ∉ gone) (marked : task.start.tree.isMarker item.part.start = true)
    (questions : last.memory.2 = scene.memory.2 ++ questionsOf task.container more)
    (targets : more.map (·.1) = item.nodes.filter (!task.start.tree.isMarker ·))
    (answers : ∀ pair ∈ more, pair ∈ fates)
    (markers : ∀ id ∈ item.nodes, task.start.tree.isMarker id = true → (id, .proceed) ∈ fates)
    (about : ∀ fate ∈ fates, fate.1 ∈ item.nodes) :
    task.Quizzed olds (dropped ++ [item]) (asked ++ more) (gone ++ fates) last where
  among plot member := (List.mem_append.1 member).elim (quizzed.among plot) fun last =>
    List.mem_singleton.1 last ▸ listed
  distinct := by
    refine List.nodup_append'.2 ⟨quizzed.distinct, List.nodup_singleton _, fun plot here again => ?_⟩
    obtain rfl := List.mem_singleton.1 again
    exact fresh (quizzed.markers plot here _ (List.mem_cons_self ..) marked)
  questions := by
    rw [questions, removals_append, removals_questionsOf, quizzed.questions, List.append_assoc]
    simp [questionsOf]
  targets := by rw [List.map_append, quizzed.targets, targets, List.flatMap_append, List.flatMap_singleton]
  answers pair member := by
    rcases List.mem_append.1 member with old | new
    · exact List.mem_append_left _ (quizzed.answers _ old)
    · exact List.mem_append_right _ (answers _ new)
  markers plot member id inside marker := by
    rcases List.mem_append.1 member with old | new
    · exact List.mem_append_left _ (quizzed.markers plot old id inside marker)
    · obtain rfl := List.mem_singleton.1 new
      exact List.mem_append_right _ (markers id inside marker)
  complete fate member := by
    rcases List.mem_append.1 member with old | new
    · obtain ⟨plot, here, inside⟩ := quizzed.complete fate old
      exact ⟨plot, List.mem_append_left _ here, inside⟩
    · exact ⟨item, List.mem_append_right _ (List.mem_singleton.2 rfl), about fate new⟩

section Drop

variable (asks : client.hook? = some hook) (same : task.realm.client = client.overheard)
  (thinks : ∀ target container memory (tree : Tree), (hook.ask target container (memory, tree)).2.2 = tree)
  (quiet : leavesIn task.items = [])
  (own : ∀ plot ∈ olds, ∀ id ∈ plot.nodes, ¬ task.realm.guest id)
  (marked : ∀ plot ∈ olds, task.start.tree.isMarker plot.part.start = true ∧
    task.start.tree.isMarker plot.part.stop = true)
include asks same thinks quiet own marked

theorem Quizzed.drop {rule : Rule} {before after new : Window} {o : Entry} {pass : Pass}
    (settles : task.Settles olds oldKeys newKeys careful (before ++ o :: after) new pass gone scene)
    (quizzed : task.Quizzed olds dropped asked gone scene) :
    ((task.setting olds).perform pass (.remove rule o.index)).Leads scene
      (fun next scene => ∀ fates, task.Leaves olds o.index fates →
        task.Settles olds oldKeys newKeys careful (before ++ after) new next (gone ++ fates) scene →
        ∃ dropped asked, task.Quizzed olds dropped asked (gone ++ fates) scene)
      fun _ _ => True := by
  obtain ⟨wellFormed, plot, found, waits⟩ := settles.waits quiet
  have listed := List.mem_of_getElem? found
  have part : (task.setting olds).old[o.index]? = some plot.part := by simp [setting, found]
  obtain ⟨ahead, behind, children⟩ := waits.listed
  have run : scene.tree.childrenOf task.container =
      ahead ++ plot.part.start :: (plot.inner ++ plot.part.stop :: behind) := by
    simpa [Plot.nodes] using children
  have hears : (task.setting olds).client = client.overheard := same
  have distinct : plot.nodes.Nodup := by
    have all := wellFormed.nodup task.container
    rw [children] at all
    exact all.of_append_left.of_append_right
  -- The nodes of the plot are markers if and only if they were when the pass began.
  have kinds : ∀ id ∈ plot.nodes, scene.tree.isMarker id = task.start.tree.isMarker id := by
    intro id member
    simp only [Plot.nodes, List.mem_cons, List.mem_append, List.not_mem_nil, or_false] at member
    rcases member with rfl | inner | rfl
    · rw [waits.start, (marked plot listed).1]
    · simp only [Tree.isMarker, waits.inside id inner]
    · rw [waits.stop, (marked plot listed).2]
  simp only [Setting.perform, Setting.remove, part, hears, leads_bind, leads_note, leads_pure]
  have removes := @NodePart.remove_heard _ _ _ _ _ _ _ _ asks thinks (scene.add (.settling rule)) wellFormed run
  refine removes.mono ?_ fun _ _ none => none.elim
  rintro _ last ⟨questions, went, heard, tree, memory⟩ fates leaves settles
  obtain ⟨old, item, again, -, still, told⟩ := leaves
  obtain rfl : old = plot := Option.some.inj (again.symm.trans found)
  obtain rfl := still quiet
  have heard : Heard scene.tree task.container item.nodes questions went := heard
  obtain ⟨more, rfl, targets⟩ := heard.asked
  have goes := heard.goes distinct
  have targets : more.map (·.1) = item.nodes.filter (!task.start.tree.isMarker ·) :=
    targets.trans (List.filter_congr fun id member => by rw [kinds id member])
  have above : ∀ id ∈ item.nodes, last.tree.parentOf id = if id ∈ went then none else some task.container := by
    intro id member
    rw [tree, Tree.parentOf_detachAll]
    split
    · rfl
    · exact wellFormed.parentOf_of_mem (by simp [children, member])
  have fated := settles.fated
  -- What the hook answered is what became of the node.
  have agrees : ∀ id verdict, (id, verdict) ∈ fates → (id ∈ went ↔ verdict = .proceed) := by
    intro id verdict member
    have place := fated (id, verdict) (List.mem_append_right _ member)
    rw [above id (told.about _ member)] at place
    cases verdict <;> by_cases here : id ∈ went <;> simp [here, Removal.place] at place ⊢
  refine ⟨dropped ++ [item], asked ++ more, quizzed.snoc listed waits.fresh (marked item listed).1 memory targets ?_ ?_
    told.about⟩
  · rintro ⟨id, answer⟩ member
    have among := List.mem_map_of_mem (f := (·.1)) member
    rw [targets, List.mem_filter] at among
    obtain ⟨verdict, here⟩ := told.complete id among.1 (own item listed id among.1)
    have one := (agrees id verdict here).symm.trans (goes _ member)
    obtain rfl : verdict = answer := by cases verdict <;> cases answer <;> simp at one ⊢
    exact here
  · intro id inside marker
    obtain ⟨verdict, here⟩ := told.complete id inside (own item listed id inside)
    have went := heard.markers id inside ((kinds id inside).trans marker)
    obtain rfl := (agrees id verdict here).1 went
    exact here

end Drop

end Quizzed

section Heard

variable {task : Task (σ × List Question)} {blocks : List Block} {oldKeys newKeys : List Key} {careful : Prop}
  {pass : Pass} {scene : Scene (σ × List Question)} {dropped : List Plot} {asked gone : List (NodeId × Removal)}

theorem nodup_plots (sound : task.realm.Sound task.start)
    (site : task.realm.Site task.start task.container task.front task.rest task.whole)
    (inner : task.whole.inner = nodesOf blocks) : ((plotsOf blocks).flatMap Plot.nodes).Nodup := by
  have distinct := sound.wellFormed.nodup task.container
  rw [site.listed] at distinct
  have whole := distinct.of_append_right.of_append_left
  rw [Plot.nodes, inner] at whole
  exact whole.of_cons.of_append_left.sublist (plots_sublist blocks)

theorem eq_of_node {plots : List Plot} (distinct : (plots.flatMap Plot.nodes).Nodup) {one two : Plot} {id : NodeId}
    (first : one ∈ plots) (second : two ∈ plots) (here : id ∈ one.nodes) (there : id ∈ two.nodes) : one = two := by
  by_contra other
  have symm : Std.Symm (Function.onFun List.Disjoint Plot.nodes) := ⟨fun _ _ apart => List.Disjoint.symm apart⟩
  have apart := (List.nodup_flatMap.1 distinct).2.forall first second other
  exact apart here there

theorem Quizzed.dropped_perm (quizzed : task.Quizzed (plotsOf blocks) dropped asked gone scene)
    (settles : task.Settles (plotsOf blocks) oldKeys newKeys careful [] [] pass gone scene)
    (distinct : ((plotsOf blocks).flatMap Plot.nodes).Nodup) (length : oldKeys.length = (plotsOf blocks).length)
    (marked : ∀ plot ∈ plotsOf blocks, task.start.tree.isMarker plot.part.start = true) :
    dropped.Perm ((plotsOf blocks).filter fun plot => plot.part.start ∉ pass.parts.map (·.start)) := by
  obtain ⟨kept, others, cells, passed⟩ := settles.passed
  have fated := settles.fated
  have first : ∀ plot : Plot, plot.part.start ∈ plot.nodes := fun plot => List.mem_cons_self ..
  have plots : (plotsOf blocks).Nodup := by
    refine List.Pairwise.imp_of_mem ?_ (List.nodup_flatMap.1 distinct).2
    rintro one two - - apart rfl
    exact apart (first one) (first one)
  rw [List.perm_ext_iff_of_nodup quizzed.distinct (plots.filter _)]
  intro plot
  rw [List.mem_filter, decide_eq_true_eq]
  constructor
  · intro member
    have listed := quizzed.among plot member
    refine ⟨listed, fun shown => ?_⟩
    obtain ⟨new, here, same⟩ := List.mem_map.1 shown
    obtain ⟨index, here⟩ := List.mem_iff_getElem?.1 here
    have alone := fated _ (quizzed.markers plot member _ (first plot) (marked plot listed))
    rw [← same, passed.start_listed here] at alone
    cases alone
  · rintro ⟨listed, unshown⟩
    obtain ⟨place, was⟩ := List.mem_iff_getElem?.1 listed
    have inside : place < oldKeys.length := length ▸ (List.getElem?_eq_some_iff.1 was).1
    rcases passed.fate place plot _ was (List.getElem?_eq_getElem inside) with ⟨index, cell, here, rfl, -⟩ | ⟨start, -⟩
    · refine absurd (List.mem_map.2 ⟨cell.plot.part, ?_, ?_⟩) unshown
      · exact List.mem_of_getElem? (passed.attached here).1
      · exact (passed.filling.markers cell (List.mem_of_getElem? here)).1
    · obtain ⟨other, member, among⟩ := quizzed.complete _ start
      have same := eq_of_node distinct listed (quizzed.among other member) (first plot) among
      exact same ▸ member

theorem Quizzed.dropsHeard (quizzed : task.Quizzed (plotsOf blocks) dropped asked gone scene)
    (settles : task.Settles (plotsOf blocks) oldKeys newKeys careful [] [] pass gone scene)
    (sound : task.realm.Sound task.start)
    (site : task.realm.Site task.start task.container task.front task.rest task.whole)
    (inner : task.whole.inner = nodesOf blocks) (length : oldKeys.length = (plotsOf blocks).length)
    (marked : ∀ plot ∈ plotsOf blocks, task.start.tree.isMarker plot.part.start = true ∧
      task.start.tree.isMarker plot.part.stop = true) :
    DropsHeard task.start.scene scene task.container task.whole.inner ((plotsOf blocks).map Plot.part) pass.parts
      (dropped.map fun plot => (plot.part, plot.inner)) asked := by
  have distinct := nodup_plots sound site inner
  have perm := quizzed.dropped_perm settles distinct length fun plot member => (marked plot member).1
  have fated := settles.fated
  have targets := quizzed.targets
  refine ⟨?items, ?stood, ?questions, ?targets, ?once, fun pair member => fated pair (quizzed.answers pair member),
    ?markers⟩
  case items =>
    rw [List.map_map, List.filter_map]
    exact perm.map _
  case stood =>
    intro drop member
    obtain ⟨plot, here, rfl⟩ := List.mem_map.1 member
    obtain ⟨left, right, rfl⟩ := List.append_of_mem (mem_plotsOf.1 (quizzed.among plot here))
    exact ⟨nodesOf left, nodesOf right, by rw [inner]; simp [Plot.nodes]⟩
  case questions => exact quizzed.questions
  case targets =>
    rw [targets, List.flatMap_map]
    refine List.flatMap_congr fun plot member => ?_
    obtain ⟨start, stop⟩ := marked plot (quizzed.among plot member)
    simp [Plot.nodes, start, stop]
  case once =>
    have whole : (dropped.flatMap Plot.nodes).Nodup :=
      (perm.flatMap_right Plot.nodes).nodup_iff.2 (distinct.sublist (List.filter_sublist.flatMap Plot.nodes))
    rw [targets]
    refine List.nodup_flatMap.2 ⟨fun plot member => ((List.nodup_flatMap.1 whole).1 plot member).filter _, ?_⟩
    exact (List.nodup_flatMap.1 whole).2.imp fun apart id one two =>
      apart (List.mem_of_mem_filter one) (List.mem_of_mem_filter two)
  case markers =>
    intro drop member id inside marker
    obtain ⟨plot, here, rfl⟩ := List.mem_map.1 member
    exact fated _ (quizzed.markers plot here id inside marker)

end Heard

section Keyed

variable {task : Task (σ × List Question)} {client : Client σ} {hook : RemovalHook σ} {olds : List Plot}
  {oldKeys : List Key} {scene : Scene (σ × List Question)} {items : List (Key × Rendering (σ × List Question))}
  (asks : client.hook? = some hook) (hears : task.realm.client = client.overheard)
  (thinks : ∀ target container memory (tree : Tree), (hook.ask target container (memory, tree)).2.2 = tree)
  (lawful : task.realm.Lawful) (honest : ∀ item ∈ task.items, task.realm.Honest item.value.leaves item.render)
  (silent : ∀ item ∈ task.items, item.render.Respects .unheard)
  (quiet : leavesIn task.items = []) (tolerant : task.tolerant) (same : task.items = items.map (·.2))
include asks hears thinks lawful honest silent quiet tolerant same

theorem keyedFrom_heard (own : ∀ plot ∈ olds, ∀ id ∈ plot.nodes, ¬ task.realm.guest id)
    (marked : ∀ plot ∈ olds, task.start.tree.isMarker plot.part.start = true ∧
      task.start.tree.isMarker plot.part.stop = true)
    (length : oldKeys.length = olds.length) (board : task.Board scene (olds.map Card.ofPlot) [])
    (unheard : removals scene.memory.2 = removals task.start.scene.memory.2) :
    (Render.keyedFrom task.realm.client items task.whole.part oldKeys (olds.map Plot.part)).Leads scene
      (fun content scene => ∃ pass gone dropped asked, content = .keyed (items.map (·.1)) pass.parts pass.stats ∧
        task.Settles olds oldKeys (items.map (·.1)) False [] [] pass gone scene ∧
        task.Quizzed olds dropped asked gone scene)
      fun _ _ => True := by
  have admits : task.realm.Admits task.start.tree (leavesIn task.items) := by
    rw [quiet]
    exact List.forall_mem_nil _
  have present : ∀ plot ∈ olds, task.start.tree.size > plot.part.start := fun plot member =>
    Tree.lt_size_of_kindOf (Tree.isMarker_iff.1 (marked plot member).1)
  refine (keyedFrom_along lawful honest admits tolerant same
    (fun gone scene => ∃ dropped asked, task.Quizzed olds dropped asked gone scene) ?_ ?_ ?_ False.elim length present
    board ⟨[], [], .begin unheard⟩).mono ?_ fun _ _ _ => trivial
  · rintro event gone scene ⟨dropped, asked, quizzed⟩
    exact ⟨dropped, asked, quizzed.silent rfl⟩
  · rintro action pass gone scene stays ⟨dropped, asked, quizzed⟩
    have performs := (task.setting olds).respects_perform silent pass stays scene
    exact performs.mono (fun _ _ unheard => ⟨dropped, asked, quizzed.silent unheard⟩) fun _ _ _ => trivial
  · rintro rule o before after new pass gone scene settles ⟨dropped, asked, quizzed⟩
    exact quizzed.drop asks hears thinks quiet own marked settles
  · rintro _ scene ⟨pass, rfl, ⟨gone, settles, dropped, asked, quizzed⟩, -⟩
    exact ⟨pass, gone, dropped, asked, rfl, settles, quizzed⟩

variable (sound : task.realm.Sound task.start)
  (site : task.realm.Site task.start task.container task.front task.rest task.whole)
  (shows : task.Shown task.start task.slack task.whole)
  (plain : ∀ item ∈ task.whole.part.content.keyedItems, item.Plain)
include sound site shows plain

/-- The hook hears of all items that are dropped, whatever was shown before. Their nodes are where the survey says
    that they may be. -/
theorem keyed_heard : (Render.keyed task.realm.client items task.whole.part).Leads task.start.scene
    (fun content scene => ∃ dropped asked,
      DropsHeard task.start.scene scene task.container task.whole.inner task.whole.part.content.keyedItems
        content.keyedItems dropped asked ∧
      ∀ drop ∈ dropped, ∀ id ∈ drop.2, task.realm.survey.base ≤ id ∨ task.realm.survey.fits drop.1.start id)
    fun _ _ => True := by
  by_cases known : ∃ keys parts stats, task.whole.part.content = .keyed keys parts stats
  · obtain ⟨keys, parts, stats, content⟩ := known
    obtain ⟨blocks, arranged, inner, owned, shown, strays, complete⟩ := shows.of_row (.inr ⟨_, _, _, content⟩)
    rw [content] at arranged
    obtain ⟨plots, length⟩ := arranged
    rw [parts_eq_plotsOf] at plots
    have board := Board.ofFilling (.ofRow sound site inner owned shown strays complete fun _ _ => tolerant)
    have lengths : keys.length = (plotsOf blocks).length := by rw [length, ← plots, List.length_map]
    have charted := fun plot (member : plot ∈ plotsOf blocks) => shown plot (mem_plotsOf.1 member)
    have marked : ∀ plot ∈ plotsOf blocks, task.start.tree.isMarker plot.part.start = true ∧
        task.start.tree.isMarker plot.part.stop = true := fun plot member =>
      ⟨Tree.isMarker_iff.2 (charted plot member).1.start, Tree.isMarker_iff.2 (charted plot member).1.stop⟩
    have owned : ∀ plot ∈ plotsOf blocks, ∀ id ∈ plot.inner, id ∈ plot.owned ∧ ¬ task.realm.guest id := by
      intro plot member id here
      have among : plot.part ∈ task.whole.part.content.keyedItems := by
        rw [content]
        exact plots ▸ List.mem_map_of_mem member
      have shows := (charted plot member).2
      have owned := shows.inner_subset id here
      exact ⟨owned, (shows.of_plain (plain _ among) id owned).1⟩
    have own : ∀ plot ∈ plotsOf blocks, ∀ id ∈ plot.nodes, ¬ task.realm.guest id := by
      intro plot member id here
      simp only [Plot.nodes, List.mem_cons, List.mem_append, List.not_mem_nil, or_false] at here
      rcases here with rfl | inner | rfl
      · exact (charted plot member).1.start_own
      · exact (owned plot member id inner).2
      · exact (charted plot member).1.stop_own
    rw [Render.keyed_of_keyed content, ← plots]
    refine (keyedFrom_heard asks hears thinks lawful honest silent quiet tolerant same own marked lengths board
      rfl).mono ?_ fun _ _ _ => trivial
    rintro _ scene ⟨pass, gone, dropped, asked, rfl, settles, quizzed⟩
    have heard := quizzed.dropsHeard settles sound site inner lengths marked
    rw [content, ← plots]
    refine ⟨_, asked, heard, List.forall_mem_map.2 fun plot member id here => ?_⟩
    have listed := quizzed.among plot member
    obtain ⟨owned, own⟩ := owned plot listed id here
    exact ((charted plot listed).1.surveyed id owned).imp_right fun either => either.resolve_left own
  · have items : task.whole.part.content.keyedItems = [] := by
      cases shown : task.whole.part.content with
      | keyed keys parts stats => exact absurd ⟨keys, parts, stats, shown⟩ known
      | _ => rfl
    rw [Render.keyed_of_other fun keys parts stats content => known ⟨keys, parts, stats, content⟩]
    simp only [leads_bind]
    have silently : task.whole.part.removeContent.Respects (.unheard : Concern (σ × List Question)) :=
      NodePart.respects_removeContent
    refine ((site.removeContent_leads lawful sound).both (silently task.start.scene)).mono ?_
      fun _ _ none => none.1.elim
    rintro _ scene ⟨⟨-, cleared⟩, unheard⟩
    have board := Board.ofFilling (.ofNothing sound cleared rfl rfl)
    refine (keyedFrom_heard asks hears thinks lawful honest silent quiet tolerant same (List.forall_mem_nil _)
      (List.forall_mem_nil _) rfl board unheard).mono ?_ fun _ _ _ => trivial
    rintro _ scene ⟨pass, gone, dropped, asked, rfl, -, quizzed⟩
    obtain rfl : dropped = [] := List.eq_nil_iff_forall_not_mem.2 fun plot member =>
      List.not_mem_nil (quizzed.among plot member)
    obtain rfl : asked = [] := List.map_eq_nil_iff.1 quizzed.targets
    rw [items]
    exact ⟨[], [], ⟨.refl _, List.forall_mem_nil _, quizzed.questions, rfl, List.nodup_nil, List.forall_mem_nil _,
      List.forall_mem_nil _⟩, List.forall_mem_nil _⟩

end Keyed

end Task

section Placed

open Value

variable {realm : Realm (σ × List Question)} {client : Client σ} {hook : RemovalHook σ}
  {world : World (σ × List Question)} {slack : Slack} {container : NodeId} {front rest : List NodeId} {plot : Plot}
  {items : List (Key × Value)}

/-- The hook hears of all items that are dropped wherever a list by key has its place and its layout. -/
theorem Realm.Placed.keyed_heard (lawful : realm.Lawful) (sound : realm.Sound world)
    (placed : realm.Placed world slack container front rest plot) (hears : realm.client = client.overheard)
    (asks : client.hook? = some hook)
    (thinks : ∀ target container memory (tree : Tree), (hook.ask target container (memory, tree)).2.2 = tree)
    (shown : ∀ item ∈ plot.part.content.keyedItems, item.Plain) (plain : ∀ item ∈ items, item.2.Plain) :
    ((Value.keyed items).render realm.client plot.part).Leads world.scene
      (fun content scene => ∃ dropped asked,
        DropsHeard world.scene scene container plot.inner plot.part.content.keyedItems content.keyedItems dropped
          asked ∧
        ∀ drop ∈ dropped, ∀ id ∈ drop.2, realm.survey.base ≤ id ∨ realm.survey.fits drop.1.start id)
      fun _ _ => True := by
  have honest : ∀ item ∈ (keyedRenderings realm.client items).map (·.2),
      realm.Honest item.value.leaves item.render := by
    rw [keyedRenderings_eq_map, List.map_map]
    exact List.forall_mem_map.2 fun item _ => honest_value lawful item.2
  have silent : ∀ item ∈ (keyedRenderings realm.client items).map (·.2), item.render.Respects .unheard := by
    rw [keyedRenderings_eq_map, List.map_map]
    exact List.forall_mem_map.2 fun item member => (plain item member).respects (hears ▸ client.overheard_unheard)
  have quiet : leavesIn ((keyedRenderings realm.client items).map (·.2)) = [] := by
    rw [keyedRenderings_eq_map, leavesIn_keyedRenderings]
    exact leavesOfItems_eq_nil fun item member => (plain item member).leaves
  exact @Task.keyed_heard _
    ⟨realm, world, container, front, rest, plot, slack, (keyedRenderings realm.client items).map (·.2), True⟩
    client hook _ asks hears thinks lawful honest silent quiet trivial rfl sound placed.site placed.shows shown

end Placed

end Layout

end DomParts
