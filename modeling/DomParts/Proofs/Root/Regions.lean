import DomParts.Proofs.Root.History

/-! # Regions

The markers of a part stand in one container, the start marker first. The items of a list stand between
them one after the other, in the order of the list; a list by key may have nodes between its items, but
only such as the removal hook kept.
-/

namespace DomParts

/-- Nodes in a row: the parts one after the other, each from its start marker to its end marker, and between
    the parts only nodes that are allowed there. -/
inductive Spread (allowed : NodeId → Prop) : List NodePart → List NodeId → Prop where
  | nil : Spread allowed [] []
  | part {part : NodePart} {parts : List NodePart} {between ids : List NodeId} (spread : Spread allowed parts ids) :
      Spread allowed (part :: parts) (part.start :: (between ++ part.stop :: ids))
  | stray {id : NodeId} {parts : List NodePart} {ids : List NodeId} (allows : allowed id)
      (spread : Spread allowed parts ids) : Spread allowed parts (id :: ids)

variable {σ : Type}

/-- A part in its container, and what stands between its markers. No node stands in the container twice, so
    what belongs to one item belongs to no other, and what stands between the items is in none of them. -/
structure NodePart.WellPlaced (scene : Scene σ) (part : NodePart) (container : NodeId)
    (front between rest : List NodeId) : Prop where
  children : scene.tree.childrenOf container = front ++ part.start :: (between ++ part.stop :: rest)
  distinct : (scene.tree.childrenOf container).Nodup
  start : scene.tree.parentOf part.start = some container
  stop : scene.tree.parentOf part.stop = some container
  list : ∀ parts, part.content = .list parts → Spread (fun _ => False) parts between
  keyed : ∀ keys parts stats, part.content = .keyed keys parts stats →
    keys.length = parts.length ∧ Spread (fun id => .kept id ∈ scene.report.toList) parts between

namespace Layout

theorem spread_blocks {allowed : NodeId → Prop} {blocks : List Block}
    (strays : ∀ id, .stray id ∈ blocks → allowed id) :
    Spread allowed (blocks.filterMap Block.part?) (nodesOf blocks) := by
  induction blocks with
  | nil => exact .nil
  | cons block blocks ih =>
      have rest := ih fun id member => strays id (List.mem_cons_of_mem _ member)
      cases block with
      | stray id => exact .stray (strays id (List.mem_cons_self ..)) rest
      | plot plot =>
          have spread : Spread allowed (plot.part :: blocks.filterMap Block.part?)
              (plot.part.start :: (plot.inner ++ plot.part.stop :: nodesOf blocks)) := .part rest
          simpa [Plot.nodes, Block.part?] using spread

namespace Realm

variable {realm : Realm σ} {world : World σ} {container : NodeId} {front rest : List NodeId} {plot : Plot} {slack : Slack}

theorem Placed.wellPlaced (sound : realm.Sound world) (placed : realm.Placed world slack container front rest plot) :
    plot.part.WellPlaced world.scene container front plot.inner rest where
  children := by
    have listed := placed.site.listed
    simpa [Plot.nodes] using listed
  distinct := sound.wellFormed.nodup container
  start := sound.wellFormed.parentOf_of_mem placed.site.start_mem
  stop := sound.wellFormed.parentOf_of_mem placed.site.stop_mem
  list parts content := by
    obtain ⟨blocks, arranged, inner, -, -, -⟩ := placed.row (.inl ⟨parts, content⟩)
    rw [content] at arranged
    rw [← arranged.1, inner]
    exact spread_blocks arranged.2
  keyed keys parts stats content := by
    obtain ⟨blocks, arranged, inner, -, row, -⟩ := placed.row (.inr ⟨keys, parts, stats, content⟩)
    rw [content] at arranged
    refine ⟨arranged.2, ?_⟩
    rw [← arranged.1, inner]
    exact spread_blocks fun id member => sound.answered id (row.strays id member).1

/-- A part that something was rendered into is well placed, where it was before. -/
theorem Placed.commit_wellPlaced (lawful : realm.Lawful) (sound : realm.Sound world)
    (placed : realm.Placed world slack container front rest plot) {value : Value}
    (admits : realm.Admits world.tree value.leaves) {new : NodePart} {scene : Scene σ}
    (ran : ((plot.part.stage value).commit realm.client).runOn world.scene = ((new, .ok ()), scene)) :
    ∃ front between rest, new.WellPlaced scene container front between rest := by
  have staged := placed.staging (some value)
  obtain ⟨result, after, kept, taken, shown, done, committed⟩ := staged.commit lawful sound rfl admits
  have done : ((plot.part.stage value).commit realm.client).runOn world.scene = ((shown.part, result), after) := done
  cases done.symm.trans ran
  have shows : realm.Placed ⟨scene, kept⟩ _ container _ _ shown := ⟨committed.outcome.site, committed.shows rfl⟩
  exact ⟨_, _, _, shows.wellPlaced committed.outcome.change.sound⟩

end Realm

end Layout

variable {client : Client σ} {stage : Stage σ}

/-- Whatever was rendered and cleared before, every part anywhere inside a usable one is well placed. -/
theorem Reached.well_placed (regular : client.Regular) (reached : Reached client stage) {root part : NodePart}
    (member : root ∈ stage.parts) (usable : root.isPoisoned = false)
    (inside : Relation.ReflTransGen NodePart.Holds root part) :
    ∃ container front between rest, part.WellPlaced stage.scene container front between rest := by
  obtain ⟨kept, slack, container, front, rest, plot, rfl, sound, placed⟩ := reached.placed regular member usable inside
  exact ⟨container, front, plot.inner, rest, placed.wellPlaced sound⟩

namespace Root.Example

/-- A client that compiles nothing, with a hook that keeps the text of the second number. -/
def keeping : Client Unit :=
  { wordless with hook? := some { ask := fun target _ => pure (if target = 8 then .skip else .proceed) } }

theorem keeping_regular : keeping.Regular where
  grows := wordless_regular.grows
  separate := wordless_regular.separate
  thinks hook known _ _ _ _ := by
    cases known
    rfl

def tally (list : List Int) : Value := .keyed (list.map fun number => (.int number, .text (toString number)))

def counted : (NodePart × Except Error Unit) × Scene Unit :=
  ((fresh.part.stage (tally [1, 2, 3])).commit keeping).runOn opened.scene

def counting : Stage Unit := { opened with scene := counted.2, parts := [] ++ counted.1.1 :: [] }

def thinned : (NodePart × Except Error Unit) × Scene Unit :=
  ((counted.1.1.stage (tally [1, 3])).commit keeping).runOn counting.scene

def thinning : Stage Unit := { counting with scene := thinned.2, parts := [] ++ thinned.1.1 :: [] }

theorem tally_allowed (stage : Stage Unit) (list : List Int) : stage.Allows (tally list) := by
  have none : (tally list).leaves = [] := by
    rw [tally, Value.leaves]
    apply Value.leavesOfItems_eq_nil
    simp [Value.leaves]
  intro id leaf
  rw [none] at leaf
  cases leaf

theorem thinning_reached : Reached keeping thinning := by
  have counts : Reached keeping counting := by
    unfold counting counted
    exact (opened_reached keeping).rendered [] [] rfl (tally_allowed _ _)
  unfold thinning thinned
  exact counts.rendered [] [] rfl (tally_allowed _ _)

theorem thinned_eq : thinned.1.1 =
    ⟨1, 2, none, .keyed [.int 1, .int 3] [⟨3, 4, none, .text "1"⟩, ⟨9, 10, none, .text "3"⟩] ⟨0, 2, 0, 1⟩⟩ := by
  unfold thinned counting counted opened mounted
  cbv

theorem thinned_children : thinning.scene.tree.childrenOf 0 = [1, 3, 5, 4, 8, 9, 11, 10, 2] := by
  unfold thinning thinned counting counted opened mounted
  cbv

end Root.Example

open Root.Example in
/-- Two items of a list by key, with a node between them that the hook kept. -/
theorem Reached.well_placed_kept : keeping.Regular ∧ Reached keeping thinning ∧ thinned.1.1 ∈ thinning.parts ∧
    thinned.1.1.isPoisoned = false ∧ Relation.ReflTransGen NodePart.Holds thinned.1.1 thinned.1.1 ∧
    (∃ container front between rest, thinned.1.1.WellPlaced thinning.scene container front between rest) ∧
    thinning.scene.tree.childrenOf 0 = [1, 3, 5, 4, 8, 9, 11, 10, 2] := by
  have usable : thinned.1.1.isPoisoned = false := by
    rw [thinned_eq]
    rfl
  have member : thinned.1.1 ∈ thinning.parts := by
    unfold thinning
    exact List.mem_singleton.2 rfl
  exact ⟨keeping_regular, thinning_reached, member, usable, .refl,
    Reached.well_placed keeping_regular thinning_reached member usable .refl, thinned_children⟩

end DomParts
