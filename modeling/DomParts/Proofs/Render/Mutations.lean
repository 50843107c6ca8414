import DomParts.Proofs.Render.Leads
import DomParts.Proofs.Tree.Operations
import DomParts.Proofs.Tree.Siblings
import DomParts.Proofs.Tree.Spelling

/-! # Insertions and removals that are done as a whole or not at all

A single insertion checks before it acts. Removing a run goes node by node, but all its nodes have one
parent, so if the first may go all of them may.
-/

namespace DomParts

open DomParts.Tree

namespace Tree

variable {tree : Tree} {id start container : NodeId} {stop : Option NodeId} {run : List NodeId}

/-- A tree some children of a node have been taken out of. -/
structure Plucked (tree changed : Tree) (container : NodeId) (run : List NodeId) : Prop where
  sound : changed.WellFormed
  size : changed.size = tree.size
  kindOf : ∀ id, changed.kindOf id = tree.kindOf id
  parentOf : ∀ id, changed.parentOf id = if id ∈ run then none else tree.parentOf id
  /-- The others stay in order. -/
  kept : changed.childrenOf container = (tree.childrenOf container).filter (· ∉ run)
  elsewhere : ∀ id, id ≠ container → changed.childrenOf id = tree.childrenOf id
  /-- Whatever is below a node that was taken out is still below it. -/
  subtree : ∀ id ∈ run, changed.subtree id = tree.subtree id

theorem WellFormed.plucked (sound : tree.WellFormed) (own : ∀ id ∈ run, id ∈ tree.childrenOf container) :
    tree.Plucked (tree.detachAll run) container run := by
  have elsewhere : ∀ id, id ≠ container → (tree.detachAll run).childrenOf id = tree.childrenOf id := by
    intro id other
    rw [childrenOf_detachAll sound, List.filter_eq_self]
    intro child member
    simpa using fun gone : child ∈ run => other (sound.unique member (own child gone))
  refine ⟨sound.detachAll run, size_detachAll, fun _ => kindOf_detachAll, fun _ => parentOf_detachAll,
    childrenOf_detachAll sound, elsewhere, fun id gone => ?_⟩
  have spells := sound.spells_subtree (sound.lt_size_of_mem (own id gone))
  have same : ∀ other ∈ (tree.subtree id).nodes, (tree.detachAll run).kindOf other = tree.kindOf other ∧
      (tree.detachAll run).childrenOf other = tree.childrenOf other := by
    intro other member
    refine ⟨kindOf_detachAll, elsewhere other ?_⟩
    rintro rfl
    exact sound.not_ascends_child (own id gone) (sound.mem_nodes_subtree.1 member)
  have stays := (sound.detachAll run).subtree_of_spells (spells.stays same)
  rwa [sound.subtree_unfold] at stays ⊢

theorem WellFormed.run_sublist (sound : tree.WellFormed) (above : tree.parentOf start = some container)
    (stop : Option NodeId) : (tree.run start stop).Sublist (tree.childrenOf container) := by
  obtain ⟨front, split⟩ := sound.split_at above
  rw [split]
  exact (List.takeWhile_sublist _).trans (List.sublist_append_right ..)

theorem WellFormed.run_children (sound : tree.WellFormed) (above : tree.parentOf start = some container) :
    ∀ id ∈ tree.run start stop, id ∈ tree.childrenOf container :=
  fun _ member => (sound.run_sublist above stop).subset member

/-- A node that is not in the container stops the walk before anything is removed. -/
theorem removeRun_elsewhere (present : start < tree.size) (onward : stop ≠ some start)
    (elsewhere : tree.parentOf start ≠ some container) :
    tree.removeRun container start stop = (.error (.notChild start container), tree) := by
  obtain ⟨fuel, enough⟩ := Nat.exists_eq_succ_of_ne_zero (Nat.ne_zero_of_lt present)
  have refused : tree.removeChild container start = .error (.notChild start container) := by
    simp [removeChild, has, present, elsewhere]
  rw [removeRun, enough, overRun.eq_def]
  simp [onward, refused]

end Tree

namespace RenderM

variable {σ : Type} {scene : Scene σ} {parent id container start : NodeId} {before stop : Option NodeId}

theorem runOn_edit (change : Tree → Except HostFault Tree) (scene : Scene σ) :
    (edit change).runOn scene = match change scene.tree with
      | .ok tree => (.ok (), { scene with tree })
      | .error fault => (.error (.host fault), scene) := by
  change (match change scene.tree with
    | .ok tree => set { scene with tree }
    | .error fault => throw (.host fault) : RenderM σ Unit).runOn scene = _
  cases change scene.tree <;> rfl

theorem runOn_insert (parent id : NodeId) (before : Option NodeId) (scene : Scene σ) :
    (insert parent id before).runOn scene = match scene.tree.insertBefore parent id before with
      | .ok tree => (.ok (), { scene with tree })
      | .error fault => (.error (.host fault), scene) := runOn_edit _ scene

theorem runOn_removeRun (container start : NodeId) (stop : Option NodeId) (scene : Scene σ) :
    (removeRun container start stop).runOn scene = match scene.tree.removeRun container start stop with
      | (.ok count, tree) => (.ok count, { scene with tree }.add (.removed count))
      | (.error fault, tree) => (.error (.host fault), { scene with tree }) := by
  have leads : (removeRun container start stop).Leads scene
      (fun count after => ∃ tree, scene.tree.removeRun container start stop = (.ok count, tree) ∧
        after = { scene with tree }.add (.removed count))
      (fun error after => ∃ fault tree, scene.tree.removeRun container start stop = (.error fault, tree) ∧
        error = .host fault ∧ after = { scene with tree }) := by
    simp only [removeRun, leads_bind, leads_editInSteps, leads_note, leads_pure]
    rcases scene.tree.removeRun container start stop with ⟨_ | _, _⟩ <;> simp
  rcases ran : (removeRun container start stop).runOn scene with ⟨error | count, after⟩
  · obtain ⟨fault, tree, removed, rfl, rfl⟩ := leads.error ran
    rw [removed]
  · obtain ⟨tree, removed, rfl⟩ := leads.ok ran
    rw [removed]

theorem removeRun_empty (container start : NodeId) (scene : Scene σ) :
    (removeRun container start (some start)).runOn scene = (.ok 0, scene.add (.removed 0)) := by
  rw [runOn_removeRun, Tree.removeRun, overRun_stop]

/-- An insertion goes through exactly if the nodes are there, the place is in the parent, and the parent is not to
    come below itself. Then what comes along is put there in one piece and nothing else changes; otherwise nothing
    changes at all. -/
theorem insert_whole (sound : scene.tree.WellFormed) (parent id : NodeId) (before : Option NodeId) :
    ((∃ after, (insert parent id before).runOn scene = (.ok (), after)) ↔ scene.tree.Admits parent id before) ∧
    (∀ after, (insert parent id before).runOn scene = (.ok (), after) →
      ∃ changed, after = { scene with tree := changed } ∧ scene.tree.Placed changed parent id before) ∧
    ∀ error after, (insert parent id before).runOn scene = (.error error, after) →
      (∃ fault, error = .host fault) ∧ after = scene := by
  rw [runOn_insert]
  cases done : scene.tree.insertBefore parent id before with
  | ok changed =>
      refine ⟨⟨fun _ => sound.admits_of_insertBefore done, fun _ => ⟨_, rfl⟩⟩, fun after ran => ?_, fun _ _ ran => ?_⟩
      · cases ran
        exact ⟨changed, rfl, sound.of_insertBefore done⟩
      · cases ran
  | error fault =>
      refine ⟨⟨fun ⟨_, ran⟩ => ?_, fun admits => ?_⟩, fun _ ran => ?_, fun error after ran => ?_⟩
      · cases ran
      · obtain ⟨changed, fine, -⟩ := sound.insertBefore_placed admits
        cases done.symm.trans fine
      · cases ran
      · cases ran
        exact ⟨⟨fault, rfl⟩, rfl⟩

/-- A list of two items next to a fragment with two texts. -/
def page : Tree := Tree.empty.perform
  [.createElement "ul", .createText "a", .createText "b", .appendChild 0 1, .appendChild 0 2,
    .createFragment, .createText "c", .createText "d", .appendChild 3 4, .appendChild 3 5]

theorem page_wellFormed : page.WellFormed := WellFormed.empty.perform _

/-- The texts of the fragment come between the items. The list does not go into one of its items. -/
theorem insert_whole_between : (Scene.onTree page ()).tree.WellFormed ∧
    (∃ changed, (insert 0 3 (some 2)).runOn (Scene.onTree page ()) = (.ok (), Scene.onTree changed ()) ∧
      changed.childrenOf 0 = [1, 4, 5, 2] ∧ changed.childrenOf 3 = []) ∧
    ¬ ∃ after, (insert 1 0 none).runOn (Scene.onTree page ()) = (.ok (), after) := by
  have admits : page.Admits 0 3 (some 2) := by
    refine ⟨by decide, by decide, fun anchor place => ?_, fun way => ?_⟩
    · rw [← Option.some.inj place]
      decide
    · exact absurd (page_wellFormed.isWithin_iff.2 way) (by decide)
  have within : page.Ascends 1 0 := page_wellFormed.isWithin_iff.1 (by decide)
  have sound : (Scene.onTree page ()).tree.WellFormed := page_wellFormed
  obtain ⟨through, placed, -⟩ := insert_whole sound 0 3 (some 2)
  obtain ⟨after, ran⟩ := through.2 admits
  obtain ⟨changed, rfl, result⟩ := placed after ran
  refine ⟨page_wellFormed, ⟨changed, ran, ?_, result.emptied (by decide)⟩, fun done => ?_⟩
  · have children := result.ahead 2 [1] [] rfl (by decide) (by decide)
    have moved : page.payload 3 = [4, 5] := by decide
    exact children.trans (by rw [Scene.onTree, moved]; decide)
  · exact ((insert_whole sound 1 0 none).1.1 done).apart within

/-- An empty run is removed from wherever it is said to be. Any other is removed from its parent, with all that is below
    it, and from nowhere else: then nothing changes at all. -/
theorem removeRun_whole (sound : scene.tree.WellFormed) (present : start < scene.tree.size) (container : NodeId)
    (stop : Option NodeId) :
    (scene.tree.run start stop = [] →
      (removeRun container start stop).runOn scene = (.ok 0, scene.add (.removed 0))) ∧
    (scene.tree.run start stop ≠ [] → scene.tree.parentOf start = some container →
      ∃ changed, (removeRun container start stop).runOn scene = (.ok (scene.tree.run start stop).length,
          { scene with tree := changed }.add (.removed (scene.tree.run start stop).length)) ∧
        scene.tree.Plucked changed container (scene.tree.run start stop)) ∧
    (scene.tree.run start stop ≠ [] → scene.tree.parentOf start ≠ some container →
      (removeRun container start stop).runOn scene = (.error (.host (.notChild start container)), scene)) := by
  rw [runOn_removeRun]
  refine ⟨fun none => ?_, fun some above => ?_, fun some elsewhere => ?_⟩
  · rw [Tree.removeRun, run_eq_nil_iff.1 none, overRun_stop]
  · obtain ⟨front, split⟩ := sound.split_at above
    have removed := removeRun_upTo sound split (List.head?_cons ..) stop
    rw [removed]
    exact ⟨_, rfl, sound.plucked (sound.run_children above)⟩
  · rw [removeRun_elsewhere present (fun met => some (run_eq_nil_iff.2 met)) elsewhere]

/-- Both items leave the list. They are not removed from the fragment. -/
theorem removeRun_whole_items : (Scene.onTree page ()).tree.WellFormed ∧ 1 < (Scene.onTree page ()).tree.size ∧
    (∃ changed, (removeRun 0 1 none).runOn (Scene.onTree page ()) =
        (.ok 2, (Scene.onTree changed ()).add (.removed 2)) ∧ changed.childrenOf 0 = []) ∧
    (removeRun 3 1 none).runOn (Scene.onTree page ()) = (.error (.host (.notChild 1 3)), Scene.onTree page ()) := by
  have present : 1 < (Scene.onTree page ()).tree.size := by decide
  have items : (Scene.onTree page ()).tree.run 1 none = [1, 2] := by decide
  obtain ⟨-, all, -⟩ := removeRun_whole page_wellFormed present 0 none
  obtain ⟨-, -, nothing⟩ := removeRun_whole page_wellFormed present 3 none
  rw [items] at all nothing
  obtain ⟨changed, ran, plucked⟩ := all (by decide) (by decide)
  exact ⟨page_wellFormed, present, ⟨changed, ran, plucked.kept.trans (by decide)⟩, nothing (by decide) (by decide)⟩

end RenderM

end DomParts
