import DomParts.Proofs.Keyed.Settling
import DomParts.Proofs.Render.Values

/-! # Lists by key

A list by key is an honest renderer if its items are.
-/

namespace DomParts

open Keyed RenderM

variable {σ : Type}

namespace Layout

namespace Task

variable {task : Task σ} {scene : Scene σ} {olds : List Plot} {oldKeys newKeys : List Key} {careful : Prop}
  {pass : Pass} {items : List (Key × Rendering σ)}

theorem Settles.begin (length : oldKeys.length = olds.length) (distinct : careful → oldKeys.Nodup)
    (present : ∀ plot ∈ olds, task.start.tree.size > plot.part.start) (count : newKeys.length = task.items.length)
    (board : task.Board scene (olds.map Card.ofPlot) []) :
    task.Settles olds oldKeys newKeys careful (.ofKeys oldKeys) (.ofKeys newKeys) (.start task.items.length) [] scene := by
  refine ⟨[], olds.map Card.ofPlot, [], by simpa using board, ?_, ?_, .start _ length, .start distinct, present,
    Nat.le_refl _, rfl⟩
  · have places : (Window.ofKeys oldKeys).map Entry.index = List.range olds.length := by
      rw [Window.indices_ofKeys, length, List.range_eq_range']
    have indexed : (Window.ofKeys oldKeys).map (fun entry => olds[entry.index]?.map Card.ofPlot) =
        ((Window.ofKeys oldKeys).map Entry.index).map fun index => olds[index]?.map Card.ofPlot := by
      simp [Function.comp_def]
    rw [indexed, places]
    refine List.ext_getElem? fun index => ?_
    by_cases inside : index < olds.length <;> simp [inside]
  · rw [← count]
    exact .start _

theorem Settles.finished {gone : List (NodeId × Removal)}
    (settles : task.Settles olds oldKeys newKeys careful [] [] pass gone scene)
    (keys : newKeys.length = task.items.length)
    (listed : ∀ plot ∈ olds, ∃ old ∈ task.whole.part.content.keyedItems, old.start = plot.part.start) :
    task.Finished (.keyed newKeys pass.parts pass.stats) scene := by
  obtain ⟨heads, waiting, tails, settling⟩ := settles
  obtain rfl : waiting = [] := by simpa using settling.waits
  have board : task.Board scene (heads ++ tails) gone := by simpa using settling.board
  have holds := settling.holds
  have shown : pass.parts = (heads ++ tails).map Card.part := by
    simp [Pass.parts, holds.placed, Function.comp_def]
  have complete : ∀ card ∈ heads ++ tails, ∃ index, card.item = some index := by
    intro card member
    rw [← Option.ne_none_iff_exists']
    intro none
    rcases List.mem_append.1 member with member | member
    · have := List.mem_map_of_mem (f := Card.item) member
      rw [holds.heads_items, none] at this
      simp at this
    · have := List.mem_map_of_mem (f := Card.item) member
      rw [holds.tails_items, none] at this
      simp at this
  refine board.finish (fun card member => ?_) (fun blocks parts _ => ⟨parts.trans shown.symm, ?_⟩) ?_
  · exact Option.ne_none_iff_exists'.2 (complete card member)
  · have := holds.total
    simp at this
    rw [shown, keys, ← this]
    simp
  · intro item member
    have member : item ∈ pass.parts := member
    rw [shown] at member
    obtain ⟨card, here, rfl⟩ := List.mem_map.1 member
    obtain ⟨index, shows⟩ := complete card here
    rw [board.start_eq card here]
    rcases settling.traced.source card (List.mem_append.1 here) index shows with ⟨place, old, -⟩ | new
    · exact .inr (listed _ (List.mem_of_getElem? old))
    · exact .inl new.1

section Begin

variable (lawful : task.realm.Lawful)
  (honest : ∀ item ∈ task.items, task.realm.Honest item.value.leaves item.render)
  (admits : task.realm.Admits task.start.tree (leavesIn task.items)) (tolerant : task.tolerant)
  (same : task.items = items.map (·.2))
include lawful honest admits tolerant same

/-- The items of a list by key are shown, given the plots shown before, and what goes along with every action goes
    along with all of it. -/
theorem keyedFrom_along (along : List (NodeId × Removal) → Scene σ → Prop)
    (noted : ∀ {event gone scene}, along gone scene → along gone (scene.add event))
    (kept : ∀ {action pass gone scene}, action.removes = false → along gone scene →
      ((task.setting olds).perform pass action).Leads scene (fun _ => along gone) fun _ _ => True)
    (dropped : ∀ {rule o before after new pass gone scene},
      task.Settles olds oldKeys (items.map (·.1)) careful (before ++ o :: after) new pass gone scene →
      along gone scene →
      ((task.setting olds).perform pass (.remove rule o.index)).Leads scene
        (fun next scene => ∀ fates, task.Leaves olds o.index fates →
          task.Settles olds oldKeys (items.map (·.1)) careful (before ++ after) new next (gone ++ fates) scene →
          along (gone ++ fates) scene)
        fun _ _ => True)
    (distinct : careful → oldKeys.Nodup) (length : oldKeys.length = olds.length)
    (present : ∀ plot ∈ olds, task.start.tree.size > plot.part.start)
    (board : task.Board scene (olds.map Card.ofPlot) []) (begun : along [] scene) :
    (Render.keyedFrom task.realm.client items task.whole.part oldKeys (olds.map Plot.part)).Leads scene
      (fun content scene => ∃ pass, content = .keyed (items.map (·.1)) pass.parts pass.stats ∧
        (∃ gone, task.Settles olds oldKeys (items.map (·.1)) careful [] [] pass gone scene ∧ along gone scene) ∧
        Advances (.start items.length) pass (plan oldKeys (items.map (·.1))))
      (fun _ scene => task.Broken scene) := by
  have count : (items.map (·.1)).length = task.items.length := by simp [same]
  have number : items.length = task.items.length := by simp [same]
  have setting : (⟨task.realm.client, task.container, task.whole.part.stop, olds.map Plot.part, items.map (·.2)⟩ :
      Setting σ) = task.setting olds := by
    simp only [Task.setting, same]
  have route : Route careful _ _ _ _ := Route.plan oldKeys (items.map (·.1)) distinct
  rw [count] at route
  have works : ∀ {scene : Scene σ}, task.Board scene (olds.map Card.ofPlot) [] → along [] scene →
      ((task.setting olds).performAll (.start items.length) (plan oldKeys (items.map (·.1)))).Leads scene
        (fun pass scene => ∃ last,
          Content.keyed (items.map (·.1)) pass.parts pass.stats = .keyed (items.map (·.1)) last.parts last.stats ∧
          (∃ gone, task.Settles olds oldKeys (items.map (·.1)) careful [] [] last gone
              (scene.add (.passDone pass.stats)) ∧ along gone (scene.add (.passDone pass.stats))) ∧
          Advances (.start items.length) last (plan oldKeys (items.map (·.1))))
        (fun _ scene => task.Broken scene) := by
    intro scene board begun
    have settles := Settles.begin length distinct present count board
    rw [← number] at settles
    refine (Settling.performAll_along lawful honest admits along tolerant kept dropped route settles begun).imp ?_
    rintro pass scene ⟨⟨gone, ⟨heads, waiting, tails, settling⟩, goes⟩, advances⟩
    exact ⟨pass, rfl, ⟨gone, ⟨heads, waiting, tails, settling.noted lawful fun id => by simp⟩, noted goes⟩, advances⟩
  simp only [Render.keyedFrom, leads_bind, board.container_leads, setting]
  by_cases some : (Window.ofKeys (items.map (·.1))).duplicates > 0
  · simp only [some, if_true, leads_bind, leads_note, leads_pure]
    exact works (board.noted lawful fun id => (by simp : Event.duplicateKeys _ ≠ .kept id)) (noted begun)
  · simp only [some, if_false, leads_bind, leads_note, leads_pure]
    exact works board begun

theorem keyedFrom (distinct : careful → oldKeys.Nodup) (length : oldKeys.length = olds.length)
    (present : ∀ plot ∈ olds, task.start.tree.size > plot.part.start)
    (board : task.Board scene (olds.map Card.ofPlot) []) :
    (Render.keyedFrom task.realm.client items task.whole.part oldKeys (olds.map Plot.part)).Leads scene
      (fun content scene => ∃ pass, content = .keyed (items.map (·.1)) pass.parts pass.stats ∧
        (∃ gone, task.Settles olds oldKeys (items.map (·.1)) careful [] [] pass gone scene) ∧
        Advances (.start items.length) pass (plan oldKeys (items.map (·.1))))
      (fun _ scene => task.Broken scene) := by
  refine (keyedFrom_along lawful honest admits tolerant same (fun _ _ => True) (fun _ => trivial)
    (fun _ _ => leads_trivially fun _ _ => trivial) (fun _ _ => leads_trivially fun _ _ _ _ _ => trivial) distinct length
    present board trivial).imp ?_
  rintro _ scene ⟨pass, rfl, ⟨gone, settles, -⟩, advances⟩
  exact ⟨pass, rfl, ⟨gone, settles⟩, advances⟩

variable (sound : task.realm.Sound task.start)
  (site : task.realm.Site task.start task.container task.front task.rest task.whole)
  (shows : task.Shown task.start task.slack task.whole)
include sound site shows

/-- The plots of a list by key that is shown already are the ones that the work begins with. -/
theorem keyed_of_keyed {parts : List NodePart} {stats : Stats} (distinct : careful → oldKeys.Nodup)
    (content : task.whole.part.content = .keyed oldKeys parts stats) :
    ∃ blocks, parts = (plotsOf blocks).map Plot.part ∧ oldKeys.length = (plotsOf blocks).length ∧
      task.whole.inner = nodesOf blocks ∧
      (∀ plot ∈ plotsOf blocks, task.Shown task.start task.slack plot) ∧
      (Render.keyed task.realm.client items task.whole.part).Leads task.start.scene
        (fun content scene => ∃ pass, content = .keyed (items.map (·.1)) pass.parts pass.stats ∧
          (∃ gone, task.Settles (plotsOf blocks) oldKeys (items.map (·.1)) careful [] [] pass gone scene) ∧
          Advances (.start items.length) pass (plan oldKeys (items.map (·.1))))
        (fun _ scene => task.Broken scene) := by
  obtain ⟨blocks, arranged, inner, owned, shown, strays, complete⟩ := shows.of_row (.inr ⟨_, _, _, content⟩)
  rw [content] at arranged
  obtain ⟨plots, length⟩ := arranged
  rw [parts_eq_plotsOf] at plots
  have board := Board.ofFilling (.ofRow sound site inner owned shown strays complete fun _ _ => tolerant)
  have lengths : oldKeys.length = (plotsOf blocks).length := by rw [length, ← plots, List.length_map]
  refine ⟨blocks, plots.symm, lengths, inner, fun plot member => (shown plot (mem_plotsOf.1 member)).2, ?_⟩
  rw [Render.keyed_of_keyed content, ← plots]
  refine keyedFrom lawful honest admits tolerant same distinct lengths ?_ board
  exact fun plot member => Tree.lt_size_of_kindOf (shown plot (mem_plotsOf.1 member)).1.start

theorem keyed : (Render.keyed task.realm.client items task.whole.part).Leads task.start.scene
    (fun content scene => task.Finished content scene) (fun _ scene => task.Broken scene) := by
  have count : (items.map (·.1)).length = task.items.length := by simp [same]
  have finishes : ∀ {olds : List Plot} {oldKeys : List Key} {content : Content} {scene : Scene σ},
      (∀ plot ∈ olds, ∃ old ∈ task.whole.part.content.keyedItems, old.start = plot.part.start) →
      (∃ pass, content = .keyed (items.map (·.1)) pass.parts pass.stats ∧
        (∃ gone, task.Settles olds oldKeys (items.map (·.1)) False [] [] pass gone scene) ∧
        Advances (.start items.length) pass (plan oldKeys (items.map (·.1)))) → task.Finished content scene := by
    rintro olds oldKeys content scene listed ⟨pass, rfl, ⟨gone, settles⟩, -⟩
    exact settles.finished count listed
  by_cases known : ∃ keys parts stats, task.whole.part.content = .keyed keys parts stats
  · obtain ⟨keys, parts, stats, content⟩ := known
    obtain ⟨blocks, rfl, -, -, -, leads⟩ := keyed_of_keyed lawful honest admits tolerant same sound site shows
      False.elim content
    refine leads.imp fun _ _ => finishes fun plot member => ?_
    rw [content]
    exact ⟨_, List.mem_map_of_mem member, rfl⟩
  · rw [Render.keyed_of_other fun keys parts stats content => known ⟨keys, parts, stats, content⟩]
    simp only [leads_bind]
    refine (site.removeContent_leads lawful sound).mono ?_ fun _ _ none => none.elim
    rintro _ scene ⟨-, cleared⟩
    have board := Board.ofFilling (.ofNothing sound cleared rfl rfl)
    exact (keyedFrom lawful honest admits tolerant same False.elim rfl (by simp) board).imp
      fun _ _ => finishes (by simp)

end Begin

end Task

theorem Realm.honest_keyed {realm : Realm σ} {items : List (Key × Rendering σ)} (lawful : realm.Lawful)
    (honest : ∀ item ∈ items, realm.Honest item.2.value.leaves item.2.render) :
    realm.Honest (leavesIn (items.map (·.2))) (Render.keyed realm.client items) := by
  intro world container front rest plot slack sound site shows admits
  have each : ∀ item ∈ items.map (·.2), realm.Honest item.value.leaves item.render := by
    intro item member
    obtain ⟨pair, here, rfl⟩ := List.mem_map.1 member
    exact honest pair here
  exact @Task.keyed _ ⟨realm, world, container, front, rest, plot, slack, items.map (·.2), True⟩ items lawful each
    admits trivial rfl sound site shows

end Layout

end DomParts
