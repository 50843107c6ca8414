import DomParts.Proofs.Keyed.Lasting
import DomParts.Proofs.Layout.Listing
import DomParts.Proofs.Twins.Parts

/-! # Removing items one by one

Where no hook guards removals, items that go one after the other leave the tree as if all their nodes had been
detached at once.
-/

namespace DomParts

open Keyed Layout RenderM

variable {σ : Type} {scene scene' : Scene σ}

namespace Scene

/-- At most something was reported, but not that a node was kept. -/
def Noted (before after : Scene σ) : Prop :=
  after = before ∨ ∃ event, (∀ id, event ≠ .kept id) ∧ after = before.add event

theorem Noted.same (noted : scene.Noted scene') : scene.Same scene' := by
  rcases noted with rfl | ⟨event, -, rfl⟩
  · exact .refl _
  · exact (Same.refl scene).add_right event

/-- The scene once some nodes were detached. -/
def without (ids : List NodeId) (scene : Scene σ) : Scene σ := { scene with tree := scene.tree.detachAll ids }

variable {ids others : List NodeId}

theorem without_append : scene.without (ids ++ others) = (scene.without ids).without others := by
  rw [without, Tree.detachAll_append]
  rfl

theorem Same.without (same : scene.Same scene') : (scene.without ids).Same (scene'.without ids) :=
  ⟨congrArg (·.detachAll ids) same.tree, same.cache, same.memory⟩

end Scene

variable {container start : NodeId} {front run rest : List NodeId} {client : Client σ} {plot : Plot}

theorem RenderM.removeRun_leads_without (sound : scene.tree.WellFormed)
    (split : scene.tree.childrenOf container = front ++ run ++ rest) (begins : (run ++ rest).head? = some start) :
    (removeRun container start rest.head?).Leads scene (fun _ after => (scene.without run).Same after)
      (fun _ _ => False) := by
  simp only [removeRun, leads_bind, leads_editInSteps, Tree.removeRun_eq sound split begins, leads_note, leads_pure]
  exact (Scene.Same.refl _).add_right _

theorem NodePart.remove_leads_without (unguarded : client.hook? = none) (sound : scene.tree.WellFormed)
    (split : scene.tree.childrenOf container = front ++ (plot.nodes ++ rest)) :
    (plot.part.remove client container).Leads scene (fun _ after => (scene.without plot.nodes).Same after)
      (fun _ _ => False) := by
  have listed : scene.tree.childrenOf container =
      (front ++ plot.part.start :: plot.inner) ++ plot.part.stop :: rest := by
    rw [split, Plot.nodes]
    simp
  have next := sound.nextSibling_eq listed
  simp only [remove, removeRunFor, unguarded, leads_bind, leads_look, next, leads_pure]
  exact removeRun_leads_without sound (by rw [split, List.append_assoc]) rfl

namespace Layout

/-- If nothing else is tolerated between items, their nodes are all there is. -/
theorem nodesOf_eq_plots {blocks : List Block} (complete : ∀ id, .stray id ∉ blocks) :
    nodesOf blocks = (plotsOf blocks).flatMap Plot.nodes := by
  induction blocks with
  | nil => rfl
  | cons block blocks ih =>
      have rest := ih fun id member => complete id (List.mem_cons_of_mem _ member)
      cases block with
      | plot plot => rw [nodesOf_plot, plotsOf_plot, List.flatMap_cons, rest]
      | stray id => exact absurd (List.mem_cons_self ..) (complete id)

theorem Realm.Site.removeContent_leads_without {realm : Realm σ} {world : World σ}
    (site : realm.Site world container front rest plot) (sound : realm.Sound world) :
    plot.part.removeContent.Leads world.scene (fun _ after => (world.scene.without plot.inner).Same after)
      (fun _ _ => False) := by
  obtain ⟨first, next, onward⟩ := site.exists_first sound
  simp only [NodePart.removeContent, leads_bind, leads_look, next, leads_require, site.container_leads sound, leads_pure]
  have gone := removeRun_leads_without sound.wellFormed site.split onward
  rwa [List.head?_cons] at gone

/-- A list begins again with nothing once everything that was shown is gone. -/
theorem Task.removeContent_leads {task : Task σ} (lawful : task.realm.Lawful) (sound : task.realm.Sound task.start)
    (site : task.realm.Site task.start task.container task.front task.rest task.whole) :
    task.whole.part.removeContent.Leads task.start.scene
      (fun _ after => (task.start.scene.without task.whole.inner).Same after ∧ task.Board after [] [])
      (fun _ _ => False) := by
  refine (Leads.both (site.removeContent_leads_without sound) (site.removeContent_leads lawful sound)).mono ?_
    fun _ _ none => none.1
  rintro _ after ⟨gone, -, cleared⟩
  exact ⟨gone, Board.ofFilling (.ofNothing sound cleared rfl rfl)⟩

end Layout

namespace Keyed.Setting

variable {setting : Setting σ} {pass : Pass} {actions others : List Action}

theorem performAll_append : setting.performAll pass (actions ++ others) = (do
    let pass ← setting.performAll pass actions
    setting.performAll pass others) := by
  induction actions generalizing pass with
  | nil => rfl
  | cons action actions ih => simp only [List.cons_append, performAll, bind_assoc, ih]

theorem performAll_indexes (indexes : ∀ action ∈ actions, action.indexes) :
    (setting.performAll pass actions).Matches (pure pass) := by
  induction actions generalizing pass with
  | nil => exact Habit.oblivious.pure pass
  | cons action actions ih =>
      rw [List.forall_mem_cons] at indexes
      exact (setting.perform_indexes pass indexes.1).bind fun _ => ih indexes.2

theorem performAll_atEnd (old : List NodePart) (rule : Rule) (indices : List Nat) :
    { setting with old }.performAll pass (indices.map fun index => .create rule index .atEnd) =
      setting.performAll pass (indices.map fun index => .create rule index .atEnd) := by
  induction indices generalizing pass with
  | nil => rfl
  | cons index indices ih => simp only [List.map_cons, performAll, perform, create, nodeAt, ih]

theorem performAll_removes (unguarded : setting.client.hook? = none) (rule : Rule) {plots : List Plot} {first : Nat}
    (sound : scene.tree.WellFormed)
    (split : scene.tree.childrenOf setting.container = front ++ (plots.flatMap Plot.nodes ++ rest))
    (twins : List.Forall₂ (fun plot part => plot.part.Twin part) plots (setting.old.drop first)) :
    (setting.performAll pass ((List.range' first plots.length).map (.remove rule))).Leads scene
      (fun next after => next.placed = pass.placed ∧ (scene.without (plots.flatMap Plot.nodes)).Same after)
      (fun _ _ => False) := by
  induction plots generalizing first scene pass with
  | nil => exact ⟨rfl, .refl scene⟩
  | cons plot plots ih =>
      rcases places : setting.old.drop first with _ | ⟨part, others⟩
      · rw [places] at twins
        cases twins
      · rw [places] at twins
        cases twins with
        | cons twin twins =>
            obtain ⟨here, later⟩ := of_drop_eq_cons places
            rw [List.flatMap_cons, List.append_assoc] at split
            rw [List.length_cons, List.range'_succ, List.map_cons]
            simp only [performAll, perform, remove, here, leads_bind, leads_note, leads_pure, twin.remove_eq]
            have noted := (Scene.Same.refl scene).add_right (.settling rule)
            have goes := @NodePart.remove_leads_without _ (scene.add (.settling rule)) _ _ _ _ _ unguarded sound split
            refine goes.mono ?_ fun _ _ none => none.elim
            intro _ after gone
            have gone := noted.without.trans gone
            have children : after.tree.childrenOf setting.container = front ++ (plots.flatMap Plot.nodes ++ rest) := by
              have distinct := sound.nodup setting.container
              rw [split, ← List.append_assoc] at distinct
              rw [gone.tree, Scene.without, Tree.childrenOf_detachAll sound, split, ← List.append_assoc,
                Tree.filter_run distinct]
            have sound' : after.tree.WellFormed := gone.tree ▸ sound.detachAll _
            refine (ih sound' children (later ▸ twins)).mono (fun _ _ done => ⟨done.1, ?_⟩) fun _ _ none => none
            rw [List.flatMap_cons, Scene.without_append]
            exact gone.without.trans done.2

end Keyed.Setting

namespace Render

/-- A plan is carried out from its beginning, and what is shown is said. -/
def carryOut (setting : Setting σ) (keys : List Key) (actions : List Action) : RenderM σ Content := do
  let pass ← setting.performAll (.start keys.length) actions
  note (.passDone pass.stats)
  return .keyed keys pass.parts pass.stats

variable {client : Client σ} {items : List (Key × Rendering σ)} {part : NodePart} {oldKeys : List Key}
  {old : List NodePart} {container : NodeId}

/-- Once the container is known, all there is to do but reporting is to carry out the plan. -/
theorem keyedFrom_leads (known : scene.tree.parentOf part.start = some container) : ∃ noted, scene.Noted noted ∧
    ∀ {good : Content → Scene σ → Prop} {bad : Error → Scene σ → Prop},
      (keyedFrom client items part oldKeys old).Leads scene good bad ↔
        (carryOut ⟨client, container, part.stop, old, items.map (·.2)⟩ (items.map (·.1))
          (plan oldKeys (items.map (·.1)))).Leads noted good bad := by
  simp only [keyedFrom, carryOut, NodePart.container, leads_bind, leads_look, known, leads_require, List.length_map]
  by_cases some : (Window.ofKeys (items.map (·.1))).duplicates > 0
  · simp only [some, if_true, leads_bind, leads_note]
    have unkept : ∀ id, Event.duplicateKeys (Window.ofKeys (items.map (·.1))).duplicates ≠ .kept id :=
      fun _ same => by cases same
    exact ⟨_, .inr ⟨_, unkept, rfl⟩, Iff.rfl⟩
  · simp only [some, if_false, leads_bind, leads_pure]
    exact ⟨scene, .inl rfl, Iff.rfl⟩

variable {one : RenderM σ Content} {keys : List Key} {setting : Setting σ} {plots : List Plot}
  {front rest : List NodeId} {shows : Content → Content → Prop}

theorem mirrors_carryOut_apart (unguarded : setting.client.hook? = none) (sound : scene'.tree.WellFormed)
    (split : scene'.tree.childrenOf setting.container = front ++ (plots.flatMap Plot.nodes ++ rest))
    (twins : List.Forall₂ (fun plot part => plot.part.Twin part) plots setting.old)
    (count : oldKeys.length = plots.length) (apart : ∀ key ∈ oldKeys, key ∉ keys)
    (further : ∀ pass last, pass.placed = List.replicate keys.length none →
      (scene'.without (plots.flatMap Plot.nodes)).Same last →
      one.Mirrors (do
        let pass ← { setting with old := [] }.performAll pass ((List.range' 0 keys.length).map fun index =>
          Action.create .insert index .atEnd)
        note (.passDone pass.stats)
        return .keyed keys pass.parts pass.stats : RenderM σ Content) scene last shows) :
    one.Mirrors (carryOut setting keys (plan oldKeys keys)) scene scene' shows := by
  obtain ⟨reports, rule, indexes, planned⟩ := plan_apart apart
  have removes := map_numbered (.remove rule) 0 oldKeys
  have creates := insertAll_numbered 0 keys
  rw [Nat.zero_add] at creates
  rw [carryOut, planned, Window.ofKeys, Window.ofKeys, removes, creates, Setting.performAll_append, bind_assoc, count]
  refine mirrors_right ((Setting.performAll_indexes indexes).leads scene') ?_
  rintro _ between ⟨rfl, noted⟩
  rw [Setting.performAll_append, bind_assoc]
  refine mirrors_right (Setting.performAll_removes unguarded rule (noted.tree ▸ sound) (noted.tree ▸ split) twins) ?_
  rintro pass last ⟨placed, gone⟩
  rw [← Setting.performAll_atEnd []]
  exact further pass last placed (noted.without.trans gone)

end Render

namespace Layout.Task

variable {task : Task σ} {cards ahead behind : List Card} {card : Card} {gone : List (NodeId × Removal)}
  {leaves : List NodeId}

theorem Board.ready (board : task.Board scene (ahead ++ card :: behind) gone) (waits : card.item = none)
    (admits : task.realm.Admits task.start.tree leaves) : task.realm.Ready scene card.part leaves := by
  obtain ⟨kept, blocks, cells, filling, same⟩ := board
  obtain ⟨first, cell, last, rfl, rfl, rfl, rfl⟩ := Cell.exists_card same
  obtain ⟨left, right, rfl, -, -⟩ := filling.split
  have shows := filling.waiting cell (by simp) waits
  have admits := filling.admits admits
  obtain ⟨touched, taken, progress, -, -⟩ := filling.progress
  exact ⟨kept, _, _, _, cell.plot, _, rfl, progress.change.sound, ⟨progress.row.siteOf, shows⟩, admits⟩

theorem Board.parentOf_start (board : task.Board scene cards gone) :
    scene.tree.parentOf task.whole.part.start = some task.container := by
  obtain ⟨kept, blocks, cells, filling, -⟩ := board
  obtain ⟨touched, taken, progress, -, -⟩ := filling.progress
  exact progress.change.sound.wellFormed.parentOf_of_mem progress.row.site.start_mem

/-- The setting that a list by key works in, beside a list by position. -/
abbrev beside (task : Task σ) (olds : List NodePart) (others : List (Rendering σ)) : Setting σ :=
  ⟨task.realm.client, task.container, task.whole.part.stop, olds, others⟩

/-- If no key stays, it makes no difference that the old items are removed at once and not one by one. -/
theorem replace_mirrors {one : RenderM σ Content} {keyed : List (Key × Rendering σ)} {other : NodePart}
    {oldKeys : List Key} {olds : List NodePart} {stats : Stats} (lawful : task.realm.Lawful) (bare : task.realm.bare)
    (sound : task.realm.Sound task.start)
    (site : task.realm.Site task.start task.container task.front task.rest task.whole)
    (twin : task.whole.part.Twin other) (same : task.start.scene.Same scene')
    (shows : task.Shown task.start task.slack task.whole)
    (row : (∃ parts, task.whole.part.content = .list parts) ∨
      ∃ keys parts stats, task.whole.part.content = .keyed keys parts stats)
    (content : other.content = .keyed oldKeys olds stats) (length : oldKeys.length = olds.length)
    (each : List.Forall₂ NodePart.Twin task.whole.part.content.items olds)
    (apart : ∀ key ∈ oldKeys, key ∉ keyed.map (·.1))
    (further : ∀ pass after last, task.Board after [] [] → after.Same last →
      pass.placed = List.replicate (keyed.map (·.1)).length none →
      one.Mirrors (do
        let pass ← (task.beside [] (keyed.map (·.2))).performAll pass
          ((List.range' 0 (keyed.map (·.1)).length).map fun index => Action.create .insert index .atEnd)
        note (.passDone pass.stats)
        return .keyed (keyed.map (·.1)) pass.parts pass.stats : RenderM σ Content) after last Content.Twin) :
    (do task.whole.part.removeContent; one).Mirrors (Render.keyed task.realm.client keyed other) task.start.scene scene'
      Content.Twin := by
  obtain ⟨blocks, arranged, inner, -, -, -, complete⟩ := shows.of_row row
  have nodes := inner.trans (nodesOf_eq_plots (complete bare))
  have parts : (plotsOf blocks).map Plot.part = task.whole.part.content.items := by
    rw [← parts_eq_plotsOf]
    rcases row with ⟨_, content⟩ | ⟨_, _, _, content⟩ <;> rw [content] at arranged ⊢ <;> exact arranged.1
  have count : oldKeys.length = (plotsOf blocks).length := by rw [length, ← each.length_eq, ← parts, List.length_map]
  obtain ⟨noted, same', leads⟩ := @Render.keyedFrom_leads _ scene' task.realm.client keyed other oldKeys olds
    task.container (by rw [twin.start, same.tree]; exact sound.wellFormed.parentOf_of_mem site.start_mem)
  have same := same.trans same'.same
  have split : noted.tree.childrenOf task.container = (task.front ++ [task.whole.part.start]) ++
      ((plotsOf blocks).flatMap Plot.nodes ++ task.whole.part.stop :: task.rest) := by
    rw [same.tree, ← nodes, ← List.append_assoc]
    exact site.split
  rw [← parts, List.forall₂_map_left_iff] at each
  rw [Render.keyed_of_keyed content, mirrors_congr_right leads]
  refine Render.mirrors_carryOut_apart (lawful.unasked bare) (same.tree ▸ sound.wellFormed) split each count apart ?_
  intro pass last placed gone
  refine mirrors_left (removeContent_leads lawful sound site) ?_
  rintro _ after ⟨cleared, board⟩
  rw [nodes] at cleared
  rw [twin.stop]
  exact further pass after last board (cleared.symm.trans (same.without.trans gone)) placed

end Layout.Task

end DomParts
