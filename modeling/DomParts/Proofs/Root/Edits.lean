import DomParts.Proofs.Keyed.Edits
import DomParts.Proofs.Keyed.Quiet
import DomParts.Proofs.Root.Identity
import DomParts.Proofs.Root.Regions

/-! # Edits of a list

What a pass costs when a list by key is edited. If items only come in or only go away, nothing is moved, whatever
became of the tree. If the part is in its place, everything that the plan moves is really moved, and the edits
that lists are made for need no lookups. What a pass reports of itself is told apart from what its items report by
keeping the items quiet.
-/

namespace DomParts

open Keyed

variable {σ : Type} {client : Client σ} {items : List (Key × Value)} {oldKeys : List Key} {part new : NodePart}

namespace Keyed

theorem keys_keyedRenderings (client : Client σ) (items : List (Key × Value)) :
    (Value.keyedRenderings client items).map (·.1) = items.map (·.1) := by
  rw [Value.keyedRenderings_eq_map, List.map_map]
  rfl

theorem plan_creates_removes {old new : List Key} (distinct : old.Nodup) (news : new.Nodup) :
    (old ⊆ new → (plan old new).countP Action.removes = 0) ∧ (new ⊆ old → (plan old new).countP Action.creates = 0) := by
  have tally := tally_plan distinct news
  constructor
  · intro among
    rw [tally.removes, missing, List.countP_eq_zero]
    intro key member
    simpa using among member
  · intro among
    rw [tally.creates, missing, List.countP_eq_zero]
    intro key member
    simpa using among member

/-- Nothing is moved if the keys of one side are among those of the other in the same order. -/
theorem plan_brings {old new : List Key} (olds : old.Nodup) (news : new.Nodup)
    (order : old.Sublist new ∨ new.Sublist old) : (plan old new).countP Action.brings = 0 := by
  have indices : ((Window.ofKeys old).map Entry.index).Nodup := by
    rw [Window.indices_ofKeys]
    exact List.nodup_range'
  have none : ∀ action ∈ plan old new, action.brings = false := by
    cases order with
    | inl more =>
        apply planWindows_of_more none _ _ ⟨indices, fun _ => by simpa using olds, nofun⟩
        · simpa using news
        · simpa using more
    | inr fewer =>
        apply planWindows_of_fewer none
        · simpa using olds
        · simpa using fewer
        · exact nofun
  rw [List.countP_eq_zero]
  intro action member
  simp [none action member]

end Keyed

namespace NodePart

theorem keyed_counts (lists : part.ListsKeys oldKeys) {scene after : Scene σ}
    (ran : ((part.stage (.keyed items)).commit client).runOn scene = ((new, .ok ()), after)) :
    ∃ pass, new.content = .keyed (items.map (·.1)) pass.parts pass.stats ∧
      Ledger (.start items.length) pass (plan oldKeys (items.map (·.1))) := by
  have counts : (Render.keyed client (Value.keyedRenderings client items)
      { part.stage (.keyed items) with pending := none }).Leads scene _ _ := Render.keyed_counts lists scene
  have count : (Value.keyedRenderings client items).length = items.length := by simp [Value.keyedRenderings_eq_map]
  rw [keys_keyedRenderings, count] at counts
  have staged : (part.stage (.keyed items)).pending = some (.keyed items) := rfl
  exact commit_ok staged counts ran

/-- A pass that goes well makes a part for each item, and it moves none if items only come in or only go away. -/
theorem keyed_in_order (lists : part.ListsKeys oldKeys) (oldDistinct : oldKeys.Nodup)
    (newDistinct : (items.map (·.1)).Nodup) {scene after : Scene σ}
    (ran : ((part.stage (.keyed items)).commit client).runOn scene = ((new, .ok ()), after)) :
    new.ListsKeys (items.map (·.1)) ∧ ∃ news stats, new.content = .keyed (items.map (·.1)) news stats ∧
      (oldKeys.Sublist (items.map (·.1)) →
        stats.moved = 0 ∧ stats.created = items.length - oldKeys.length ∧ stats.removed = 0) ∧
      ((items.map (·.1)).Sublist oldKeys →
        stats.moved = 0 ∧ stats.created = 0 ∧ stats.removed = oldKeys.length - items.length) := by
  obtain ⟨pass, shown, ledger⟩ := keyed_counts lists ran
  have moved := ledger.moved
  have created := ledger.created
  have removed := ledger.removed
  simp only [Pass.start, Nat.zero_add] at moved created removed
  obtain ⟨kept, wanted⟩ := plan_creates_removes oldDistinct newDistinct
  have olds := countP_updates_add_removes oldKeys (items.map (·.1))
  have news := countP_updates_add_creates oldKeys (items.map (·.1))
  rw [List.length_map] at news
  refine ⟨?_, pass.parts, pass.stats, shown, ?_, ?_⟩
  · rw [ListsKeys, shown]
    exact ⟨rfl, by rw [ledger.complete (List.length_map ..), List.length_map]⟩
  · intro more
    rw [plan_brings oldDistinct newDistinct (.inl more)] at moved
    have none := kept more.subset
    omega
  · intro fewer
    rw [plan_brings oldDistinct newDistinct (.inr fewer)] at moved
    have none := wanted fewer.subset
    omega

end NodePart

namespace Root.Example

/-- What comes of putting two numbers between the others. -/
def interleaved : (NodePart × Except Error Unit) × Scene Unit :=
  ((numbered.1.1.stage (.keyed [(.int 3, .text "3"), (.int 1, .text "1"), (.int 4, .text "4"), (.int 2, .text "2")])).commit
    wordless).runOn numbering.scene

theorem interleaved_ok : interleaved.1.2 = .ok () := by
  unfold interleaved numbering numbered opened mounted
  cbv

theorem numbered_lists : numbered.1.1.ListsKeys [.int 1, .int 2] := by
  rw [numbered_eq]
  exact ⟨rfl, rfl⟩

end Root.Example

open Root.Example in
/-- Two numbers come in between and none is moved. -/
theorem NodePart.keyed_in_order_interleaved : numbered.1.1.ListsKeys [.int 1, .int 2] ∧
    ([.int 1, .int 2] : List Key).Nodup ∧ ([.int 3, .int 1, .int 4, .int 2] : List Key).Nodup ∧
    interleaved.1.2 = .ok () ∧ interleaved.1.1.ListsKeys [.int 3, .int 1, .int 4, .int 2] ∧
    ∃ news stats, interleaved.1.1.content = .keyed [.int 3, .int 1, .int 4, .int 2] news stats ∧
      stats.moved = 0 ∧ stats.created = 2 ∧ stats.removed = 0 := by
  have ran : interleaved = ((interleaved.1.1, .ok ()), interleaved.2) := Prod.ext (Prod.ext rfl interleaved_ok) rfl
  obtain ⟨lists, news, stats, shown, more, -⟩ :=
    NodePart.keyed_in_order numbered_lists (by decide) (by decide) ran
  exact ⟨numbered_lists, by decide, by decide, interleaved_ok, lists, news, stats, shown, more (by decide)⟩

namespace Keyed

/-- Statistics that say what a plan does. -/
structure Counted (stats : Stats) (actions : List Action) : Prop where
  created : stats.created = actions.countP Action.creates
  updated : stats.updated = actions.countP Action.updates
  moved : stats.moved = actions.countP Action.brings
  removed : stats.removed = actions.countP Action.removes

end Keyed

open Layout in
theorem Reached.counted (regular : client.Regular) {stage : Stage σ} (reached : Reached client stage) {root : NodePart}
    (member : root ∈ stage.parts) (usable : root.isPoisoned = false)
    (inside : Relation.ReflTransGen NodePart.Holds root part) (lists : part.ListsKeys oldKeys)
    (allows : stage.Allows (.keyed items)) {scene : Scene σ}
    (ran : ((part.stage (.keyed items)).commit client).runOn stage.scene = ((new, .ok ()), scene)) :
    ∃ news stats, new.content = .keyed (items.map (·.1)) news stats ∧
      Counted stats (plan oldKeys (items.map (·.1))) := by
  by_cases shown : ∃ keys olds stats, part.content = .keyed keys olds stats
  · obtain ⟨keys, olds, oldStats, content⟩ := shown
    have same : keys = oldKeys := by
      rw [NodePart.ListsKeys, content] at lists
      exact lists.1
    subst same
    obtain ⟨kept, slack, container, front, rest, plot, rfl, sound, placed⟩ :=
      reached.placed regular member usable inside
    obtain ⟨task, blocks, -, -, -, -, -, -, -, -, leads⟩ :=
      (placed.staging none).keyedSettles (regular_lawful regular stage.guest) sound content allows False False.elim
    have staged : (plot.part.stage (.keyed items)).pending = some (.keyed items) := rfl
    obtain ⟨pass, shows, -, advances⟩ := NodePart.commit_ok staged leads ran
    have created := advances.created
    have updated := advances.updated
    have moved := advances.moved
    have removed := advances.removed
    simp only [Pass.start, Nat.zero_add] at created updated moved removed
    exact ⟨pass.parts, pass.stats, shows, created, updated, moved, removed⟩
  · obtain ⟨pass, shows, ledger⟩ := NodePart.keyed_counts lists ran
    have none : oldKeys = [] := by
      unfold NodePart.ListsKeys at lists
      split at lists
      · exact absurd ⟨_, _, _, ‹_›⟩ shown
      · exact lists
    subst none
    have created := ledger.created
    have updated := ledger.updated
    have moved := ledger.moved
    have removed := ledger.removed
    simp only [Pass.start, Nat.zero_add] at created updated moved removed
    -- Where nothing is old, nothing is moved.
    have brings : (plan [] (items.map (·.1))).countP Action.brings = 0 := by
      have made : plan [] (items.map (·.1)) = insertAll _ _ := planWindows_nil_old
      rw [made, List.countP_eq_zero]
      intro action member
      simp [insertAll_brings member]
    exact ⟨pass.parts, pass.stats, shows, created, updated, by omega, removed⟩

/-- What is seen of a list by key that was edited without lookups. The part is in its place with its items in order,
    and the items of the keys that stay stand between the markers that they had. With items that report nothing,
    which makes no other difference, no indexing of keys is reported but each item that is counted as moved. -/
structure NodePart.Edited (client : Client σ) (part new : NodePart) (items : List (Key × Value)) (news : List NodePart)
    (stats : Stats) (before after : Scene σ) : Prop where
  shows : new.content = .keyed (items.map (·.1)) news stats
  inPlace : ∃ container front between rest, new.WellPlaced after container front between rest
  keepsParts : ∀ keys olds oldStats, part.content = .keyed keys olds oldStats →
    KeyedPass before.tree after.tree keys olds items news stats
  reports : ∃ quiet, (part.commitQuietly client items).runOn before = ((new, .ok ()), quiet) ∧ after.Same quiet ∧
    quiet.reported Event.isIndexing = before.reported Event.isIndexing ∧
    quiet.reported Event.isMoved = before.reported Event.isMoved + stats.moved

theorem Reached.edited (regular : client.Regular) {stage : Stage σ} (reached : Reached client stage) {root : NodePart}
    (member : root ∈ stage.parts) (usable : root.isPoisoned = false)
    (inside : Relation.ReflTransGen NodePart.Holds root part) (lists : part.ListsKeys oldKeys)
    (oldDistinct : oldKeys.Nodup) (allows : stage.Allows (.keyed items)) (newDistinct : (items.map (·.1)).Nodup)
    (plain : ∀ action ∈ plan oldKeys (items.map (·.1)), ¬ action.indexes) {news : List NodePart} {stats : Stats}
    (shows : new.content = .keyed (items.map (·.1)) news stats) {scene : Scene σ}
    (ran : ((part.stage (.keyed items)).commit client).runOn stage.scene = ((new, .ok ()), scene)) :
    part.Edited client new items news stats stage.scene scene where
  shows := shows
  inPlace := by
    obtain ⟨kept, slack, container, front, rest, plot, rfl, sound, placed⟩ :=
      reached.placed regular member usable inside
    exact ⟨container, placed.commit_wellPlaced (Layout.regular_lawful regular stage.guest) sound allows ran⟩
  keepsParts keys olds oldStats content := by
    rw [NodePart.ListsKeys, content] at lists
    obtain ⟨rfl, -⟩ := lists
    obtain ⟨news', stats', shown, pass⟩ :=
      reached.keyed_pass regular member usable inside content oldDistinct allows newDistinct ran
    cases shown.symm.trans shows
    exact pass
  reports := by
    obtain ⟨result, same⟩ := part.commitQuietly_matches client items stage.scene
    rw [ran] at result same
    have quiet : (part.commitQuietly client items).runOn stage.scene =
        ((new, .ok ()), ((part.commitQuietly client items).runOn stage.scene).2) := Prod.ext result rfl
    obtain ⟨keys, parts, told, shown, moved, indexing⟩ := NodePart.commitQuietly_tells lists plain quiet
    cases shown.symm.trans shows
    exact ⟨_, quiet, same, indexing, moved⟩

/-- No lookups are made for an edit. Two neighbours change places in one move, other items in two, and a sequence is
    reversed by moving all items but one. -/
theorem Reached.keyed_edit (regular : client.Regular) {stage : Stage σ} (reached : Reached client stage)
    {root : NodePart} (member : root ∈ stage.parts) (usable : root.isPoisoned = false)
    (inside : Relation.ReflTransGen NodePart.Holds root part) (lists : part.ListsKeys oldKeys)
    (oldDistinct : oldKeys.Nodup) (allows : stage.Allows (.keyed items)) (newDistinct : (items.map (·.1)).Nodup)
    (edit : Edit oldKeys (items.map (·.1))) {scene : Scene σ}
    (ran : ((part.stage (.keyed items)).commit client).runOn stage.scene = ((new, .ok ()), scene)) :
    (∀ action ∈ plan oldKeys (items.map (·.1)), ¬ action.indexes) ∧
    ∃ news stats, part.Edited client new items news stats stage.scene scene ∧
      (∀ before between after one two, oldKeys = before ++ one :: (between ++ two :: after) →
        items.map (·.1) = before ++ two :: (between ++ one :: after) →
        stats.moved = (if between = [] then 1 else 2) ∧ stats.created = 0 ∧ stats.removed = 0) ∧
      (items.map (·.1) = oldKeys.reverse →
        stats.moved = oldKeys.length - 1 ∧ stats.created = 0 ∧ stats.removed = 0) := by
  obtain ⟨news, stats, shows, counted⟩ := reached.counted regular member usable inside lists allows ran
  have plain := edit.plain oldDistinct newDistinct
  have edited := reached.edited regular member usable inside lists oldDistinct allows newDistinct plain shows ran
  obtain ⟨kept, wanted⟩ := plan_creates_removes oldDistinct newDistinct
  refine ⟨plain, news, stats, edited, ?_, ?_⟩
  · intro before between after one two olds other
    have both : ∀ key, key ∈ oldKeys ↔ key ∈ items.map (·.1) := by
      intro key
      rw [olds, other]
      simp only [List.mem_append, List.mem_cons]
      tauto
    rw [counted.moved, counted.created, counted.removed, kept fun key => (both key).1, wanted fun key => (both key).2]
    rw [olds] at oldDistinct
    exact ⟨by rw [olds, other, brings_swap oldDistinct], rfl, rfl⟩
  · intro reversed
    have both : ∀ key, key ∈ oldKeys ↔ key ∈ items.map (·.1) := by
      intro key
      rw [reversed, List.mem_reverse]
    rw [counted.moved, counted.created, counted.removed, kept fun key => (both key).1, wanted fun key => (both key).2]
    exact ⟨by rw [reversed, brings_reverse oldDistinct], rfl, rfl⟩

namespace Root.Example

def swapped : (NodePart × Except Error Unit) × Scene Unit :=
  ((numbered.1.1.stage (.keyed [(.int 2, .text "2"), (.int 1, .text "1")])).commit wordless).runOn numbering.scene

theorem swapped_ok : swapped.1.2 = .ok () := by
  unfold swapped numbering numbered opened mounted
  cbv

end Root.Example

open Root.Example in
/-- Two neighbours are swapped by one move, which reverses the list as well. -/
theorem Reached.keyed_edit_swapped : wordless.Regular ∧ Reached wordless numbering ∧
    numbered.1.1 ∈ numbering.parts ∧ numbered.1.1.isPoisoned = false ∧ numbered.1.1.ListsKeys [.int 1, .int 2] ∧
    ([.int 1, .int 2] : List Key).Nodup ∧ numbering.Allows (.keyed [(.int 2, .text "2"), (.int 1, .text "1")]) ∧
    ([.int 2, .int 1] : List Key).Nodup ∧ Edit [.int 1, .int 2] [.int 2, .int 1] ∧ swapped.1.2 = .ok () ∧
    (∀ action ∈ plan [.int 1, .int 2] [.int 2, .int 1], ¬ action.indexes) ∧
    ∃ news stats, numbered.1.1.Edited wordless swapped.1.1 [(.int 2, .text "2"), (.int 1, .text "1")] news stats
        numbering.scene swapped.2 ∧ stats.moved = 1 ∧ stats.created = 0 ∧ stats.removed = 0 := by
  have member : numbered.1.1 ∈ numbering.parts := by
    unfold numbering
    exact List.mem_singleton.2 rfl
  have usable : numbered.1.1.isPoisoned = false := by
    rw [numbered_eq]
    rfl
  have allowed : numbering.Allows (.keyed [(.int 2, .text "2"), (.int 1, .text "1")]) := by
    intro id leaf
    simp [Value.leaves, Value.leavesOfItems] at leaf
  have edit : Edit [.int 1, .int 2] [.int 2, .int 1] := .swap [] [] [] (.int 1) (.int 2)
  have ran : swapped = ((swapped.1.1, .ok ()), swapped.2) := Prod.ext (Prod.ext rfl swapped_ok) rfl
  obtain ⟨plain, news, stats, edited, swaps, -⟩ := Reached.keyed_edit wordless_regular numbering_reached member usable
    .refl numbered_lists (by decide) allowed (by decide) edit ran
  exact ⟨wordless_regular, numbering_reached, member, usable, numbered_lists, by decide, allowed, by decide, edit,
    swapped_ok, plain, news, stats, edited, swaps [] [] [] (.int 1) (.int 2) rfl rfl⟩

end DomParts
