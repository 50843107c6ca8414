import DomParts.Proofs.Render.Healthy
import DomParts.Proofs.Render.Plain
import DomParts.Proofs.Template.Binding
import DomParts.Proofs.Tree.Attributes
import DomParts.Proofs.Watch.Steps

/-! # Parts that are watched

A part has its place outside what is set aside for templates if its markers are there, and everything inside it has.
Whatever it takes to make, move, empty and remove parts is then done outside. The parts of a new instance are in a
copy of the template, so they have their place outside, too, and those for attributes are at elements.
-/

namespace DomParts

open Scene RenderM

variable {σ : Type}

/-- To leave both the client and its templates alone is a habit. -/
def Habit.aloof : Habit σ where
  has act := ∀ scene, act.Leads scene (fun _ after => after.cache = scene.cache ∧ after.memory = scene.memory)
    fun _ after => after.cache = scene.cache ∧ after.memory = scene.memory
  pure _ _ := ⟨rfl, rfl⟩
  throw _ _ := ⟨rfl, rfl⟩
  bind first rest scene := by
    rw [leads_bind]
    refine (first scene).mono (fun value between same => ?_) fun _ _ same => same
    exact (rest value between).mono (fun _ _ still => ⟨still.1.trans same.1, still.2.trans same.2⟩)
      fun _ _ still => ⟨still.1.trans same.1, still.2.trans same.2⟩
  tryCatch first rest scene := by
    rw [leads_tryCatch]
    refine (first scene).mono (fun _ _ same => same) fun error between same => ?_
    exact (rest error between).mono (fun _ _ still => ⟨still.1.trans same.1, still.2.trans same.2⟩)
      fun _ _ still => ⟨still.1.trans same.1, still.2.trans same.2⟩
  note _ _ := ⟨rfl, rfl⟩
  look _ _ := ⟨rfl, rfl⟩
  grow _ _ := ⟨rfl, rfl⟩
  edit change scene := by
    rw [leads_edit]
    cases change scene.tree <;> exact ⟨rfl, rfl⟩
  editInSteps change scene := by
    rw [leads_editInSteps]
    rcases change scene.tree with ⟨_ | _, _⟩ <;> exact ⟨rfl, rfl⟩

def Part.attribute? : Part → Option AttributePart
  | .node _ => none
  | .attribute part => some part

/-- The parts for attributes of an instance. -/
def Content.labels : Content → List AttributePart
  | .template shown => shown.parts.filterMap Part.attribute?
  | _ => []

/-- The part and everything inside it are outside what is set aside, unless nothing is known of the scene. -/
inductive NodePart.Lodged (watch : Watch σ) (scene : Scene σ) : NodePart → Prop where
  | late {part : NodePart} (late : ¬ watch.Early scene) : part.Lodged watch scene
  | intro {part : NodePart} (start : watch.Outside scene part.start) (stop : watch.Outside scene part.stop)
      (labels : ∀ label ∈ part.content.labels, watch.Labels scene label)
      (inside : ∀ inner, part.Holds inner → inner.Lodged watch scene) : part.Lodged watch scene

/-- A content that may be inside a part outside. -/
structure Content.Lodged (watch : Watch σ) (scene : Scene σ) (content : Content) : Prop where
  labels : ∀ label ∈ content.labels, watch.Labels scene label
  inside : ∀ inner ∈ content.inside, inner.Lodged watch scene

def Part.Lodged (watch : Watch σ) (scene : Scene σ) : Part → Prop
  | .node part => part.Lodged watch scene
  | .attribute part => watch.Labels scene part

variable {watch : Watch σ} {before after scene : Scene σ}

theorem Watch.outside_late {id : NodeId} (late : ¬ watch.Early scene) : watch.Outside scene id :=
  fun early => absurd early late

theorem Watch.labels_late {part : AttributePart} (late : ¬ watch.Early scene) : watch.Labels scene part :=
  ⟨outside_late late, fun early => absurd early late⟩

theorem Part.lodged_late (late : ¬ watch.Early scene) (part : Part) : part.Lodged watch scene := by
  cases part with
  | node part => exact .late late
  | «attribute» part => exact Watch.labels_late late

namespace NodePart.Lodged

variable {part : NodePart}

theorem start (lodged : part.Lodged watch scene) : watch.Outside scene part.start := by
  cases lodged with
  | late late => exact Watch.outside_late late
  | intro start => exact start

theorem stop (lodged : part.Lodged watch scene) : watch.Outside scene part.stop := by
  cases lodged with
  | late late => exact Watch.outside_late late
  | intro _ stop => exact stop

theorem content (lodged : part.Lodged watch scene) : part.content.Lodged watch scene := by
  cases lodged with
  | late late => exact ⟨fun _ _ => Watch.labels_late late, fun _ _ => .late late⟩
  | intro _ _ labels inside => exact ⟨labels, inside⟩

theorem shows (lodged : part.Lodged watch scene) {pending : Option Value} {content : Content}
    (shown : content.Lodged watch scene) : NodePart.Lodged watch scene ⟨part.start, part.stop, pending, content⟩ :=
  .intro lodged.start lodged.stop shown.labels shown.inside

theorem kept (keeps : watch.Keeps before after) (lodged : part.Lodged watch before) : part.Lodged watch after := by
  induction lodged with
  | late late => exact .late fun early => late (keeps.early early)
  | intro start stop labels _ ih =>
      exact .intro (keeps.outside start) (keeps.outside stop) (fun label member => keeps.labels (labels label member)) ih

end NodePart.Lodged

namespace Content

variable {data : String} {id : NodeId} {parts : List NodePart} {keys : List Key} {stats : Stats} {shown : TemplateInstance}

theorem Lodged.kept {content : Content} (keeps : watch.Keeps before after) (lodged : content.Lodged watch before) :
    content.Lodged watch after where
  labels label member := keeps.labels (lodged.labels label member)
  inside inner member := (lodged.inside inner member).kept keeps

theorem lodged_empty : Content.empty.Lodged watch scene := ⟨nofun, nofun⟩

theorem lodged_text : (Content.text data).Lodged watch scene := ⟨nofun, nofun⟩

theorem lodged_node : (Content.node id).Lodged watch scene := ⟨nofun, nofun⟩

theorem lodged_poisoned : Content.poisoned.Lodged watch scene := ⟨nofun, nofun⟩

theorem lodged_list : (Content.list parts).Lodged watch scene ↔ ∀ part ∈ parts, part.Lodged watch scene :=
  ⟨fun lodged => lodged.inside, fun inside => ⟨nofun, inside⟩⟩

theorem lodged_keyed : (Content.keyed keys parts stats).Lodged watch scene ↔ ∀ part ∈ parts, part.Lodged watch scene :=
  ⟨fun lodged => lodged.inside, fun inside => ⟨nofun, inside⟩⟩

theorem lodged_template : (Content.template shown).Lodged watch scene ↔ ∀ part ∈ shown.parts, part.Lodged watch scene := by
  constructor
  · intro lodged part member
    cases part with
    | node inner => exact lodged.inside inner (List.mem_filterMap.2 ⟨_, member, rfl⟩)
    | «attribute» label => exact lodged.labels label (List.mem_filterMap.2 ⟨_, member, rfl⟩)
  · refine fun inside => ⟨fun label member => ?_, fun inner member => ?_⟩
    · obtain ⟨_ | _, listed, ⟨⟩⟩ := List.mem_filterMap.1 member
      exact inside _ listed
    · obtain ⟨_ | _, listed, ⟨⟩⟩ := List.mem_filterMap.1 member
      exact inside _ listed

end Content

theorem Part.Lodged.kept {part : Part} (keeps : watch.Keeps before after) (lodged : part.Lodged watch before) :
    part.Lodged watch after := by
  cases part with
  | node part => exact NodePart.Lodged.kept keeps lodged
  | «attribute» part => exact keeps.labels lodged

theorem Tree.Grafted.kind_renumbered {tree middle : Tree} {original : Subtree} {index : Nat} {id : NodeId}
    (grafted : tree.Grafted middle (original.renumber tree.size))
    (found : (original.renumber tree.size).descendants[index]? = some id) :
    middle.kindOf id = (Subtree.spotsOfAll original.branches)[index]?.map Subtree.Spot.kind := by
  have kinds := congrArg (·[index]?) grafted.spelled.kinds_descendants
  have same := congrArg (·[index]?) (Subtree.kinds_renumberAll (tree.size + 1) original.branches)
  simp only [List.getElem?_map, Subtree.branches_renumber, found, Option.map_some] at kinds same
  rw [← same]
  cases spot : (Subtree.spotsOfAll (Subtree.renumberAll (tree.size + 1) original.branches))[index]? with
  | none => simp [spot] at kinds
  | some spot => simpa [spot] using kinds

namespace Watch

section Hook

variable {hook : RemovalHook σ} {container id : NodeId} (provides : watch.client.Provides watch.shelf)
  (asks : watch.client.hook? = some hook) (guards : watch.Guards scene) (off : watch.Outside scene container)
include provides asks guards off

theorem heeds_mayRemove (outside : watch.Outside scene id) :
    watch.Heeds (mayRemove hook container id) scene fun _ _ => True := by
  have asking : watch.Heeds (consult (hook.ask id container)) scene fun _ _ => True := by
    obtain ⟨wellFormed, size_le⟩ := provides.hookGrows hook asks id container scene.memory scene.tree guards.wellFormed
    exact ⟨guards.skirted wellFormed size_le fun early guarded =>
      provides.hookSkirts hook asks id container scene guarded (outside early) (off early), trivial⟩
  refine (heeds_look guards _).bind ?_
  rintro marker _ - ⟨-, rfl⟩
  cases marker
  · refine asking.bind fun answer after keeps _ => ?_
    cases answer with
    | proceed => exact heeds_pure keeps.guards trivial
    | skip => exact (heeds_note keeps.guards _).map fun _ _ _ _ => trivial
  · exact heeds_pure guards trivial

theorem heeds_removeAsking (outside : watch.Outside scene id) :
    watch.Heeds (removeAsking hook container id) scene fun _ _ => True := by
  have goes : ∀ (may : Bool) (after : Scene σ), watch.Keeps scene after →
      watch.Heeds (if may then do edit (·.removeChild container id); return true else return false) after
        fun _ _ => True := by
    intro may after keeps
    cases may with
    | true => exact (heeds_removeChild keeps.guards (keeps.outside off).clear).map fun _ _ _ _ => trivial
    | false => exact heeds_pure keeps.guards trivial
  refine (heeds_look guards _).bind ?_
  rintro above _ - ⟨-, rfl⟩
  by_cases here : above = some container
  · simp only [here, ne_eq, not_true, if_false]
    exact (heeds_mayRemove provides asks guards off outside).bind fun may after keeps _ => goes may after keeps
  · simp only [here, ne_eq, not_false_eq_true, if_true]
    exact (heeds_note guards _).bind fun _ _ keeps _ => heeds_throw keeps.guards (by simp [Error.Misplaced])

theorem heeds_overRunAsking (stop : Option NodeId) (fuel : Nat) {next : Option NodeId} (count : Nat)
    (outside : ∀ id, next = some id → watch.Outside scene id) :
    watch.Heeds (overRunAsking hook container stop fuel next count) scene fun _ _ => True := by
  induction fuel generalizing scene next count with
  | zero =>
      cases next with
      | none => exact heeds_pure guards trivial
      | some id =>
          rw [overRunAsking]
          split
          · exact heeds_pure guards trivial
          · exact heeds_throw guards (by simp [Error.Misplaced])
  | succ fuel ih =>
      cases next with
      | none => exact heeds_pure guards trivial
      | some id =>
          rw [overRunAsking]
          split
          · exact heeds_pure guards trivial
          · refine (heeds_look guards _).bind ?_
            rintro next _ - ⟨follows, rfl⟩
            refine (heeds_removeAsking provides asks guards off (outside id rfl)).bind fun went after keeps _ => ?_
            refine ih keeps.guards (keeps.outside off) _ fun other same => keeps.outside ?_
            exact guards.outside_sibling (outside id rfl) (follows.symm.trans same)

end Hook

theorem heeds_removeRunFor {container start : NodeId} (provides : watch.client.Provides watch.shelf)
    (guards : watch.Guards scene) (stop : Option NodeId) (off : watch.Outside scene container)
    (here : watch.Outside scene start) :
    watch.Heeds (removeRunFor watch.client container start stop) scene fun _ _ => True := by
  unfold removeRunFor
  split
  case h_1 hook asks =>
    refine (heeds_look guards _).bind ?_
    rintro fuel _ - ⟨-, rfl⟩
    have first : ∀ id, some start = some id → watch.Outside scene id := by
      rintro id ⟨⟩
      exact here
    refine (heeds_overRunAsking provides asks guards off stop fuel 0 first).bind fun _ _ keeps _ => ?_
    exact (heeds_note keeps.guards _).map fun _ _ _ _ => trivial
  case h_2 => exact heeds_removeRun guards stop off.clear here.clear

section Parts

variable {part : NodePart} {container : NodeId} (guards : watch.Guards scene)
include guards

theorem heeds_insertInto (before : Option NodeId) (into : watch.Clear scene container) :
    watch.Heeds (NodePart.insertInto container before) scene fun part after => part.Lodged watch after := by
  have named : Kind.marker.attributeNames.Nodup := List.nodup_nil
  refine (heeds_create guards named).bind fun start _ first ⟨starts, into'⟩ => ?_
  refine (heeds_create first.guards named).bind fun stop _ second ⟨stops, into''⟩ => ?_
  have clear := into'' _ (into' _ into)
  have starts := second.outside starts
  refine (heeds_insert second.guards before clear starts.clear).bind fun _ _ third still => ?_
  have starts := third.outside starts
  have stops := third.outside stops
  refine (heeds_insert third.guards before (still _ clear) stops.clear).map fun _ _ fourth _ => ?_
  exact .intro (fourth.outside starts) (fourth.outside stops) nofun nofun

section Lodged

variable (lodged : part.Lodged watch scene)
include lodged

theorem heeds_container : watch.Heeds part.container scene fun id after => watch.Outside scene id ∧ scene = after := by
  refine (heeds_look guards _).bind ?_
  rintro _ _ - ⟨rfl, rfl⟩
  refine (heeds_require guards (by simp [Error.Misplaced]) _).mono ?_
  rintro id _ - ⟨above, rfl⟩
  exact ⟨guards.outside_parent lodged.start above, rfl⟩

theorem heeds_removeContent : watch.Heeds part.removeContent scene fun _ _ => True := by
  refine (heeds_look guards _).bind ?_
  rintro _ _ - ⟨rfl, rfl⟩
  refine (heeds_require guards (by simp [Error.Misplaced]) _).bind ?_
  rintro first _ - ⟨follows, rfl⟩
  refine (heeds_container guards lodged).bind ?_
  rintro container _ - ⟨outside, rfl⟩
  have first := guards.outside_sibling lodged.start follows
  exact (heeds_removeRun guards _ outside.clear first.clear).map fun _ _ _ _ => trivial

theorem heeds_insertContent {id : NodeId} (clear : watch.Clear scene id) :
    watch.Heeds (part.insertContent id) scene fun _ _ => True := by
  refine (heeds_container guards lodged).bind ?_
  rintro container _ - ⟨outside, rfl⟩
  exact (heeds_insert guards _ outside.clear clear).done

theorem heeds_moveBefore (before : NodeId) (into : watch.Clear scene container) :
    watch.Heeds (part.moveBefore container before) scene fun _ _ => True := by
  refine (heeds_look guards _).bind ?_
  rintro after _ - ⟨-, rfl⟩
  by_cases there : after = some before
  · simp only [there, if_true]
    exact heeds_pure guards trivial
  · simp only [there, if_false]
    exact (heeds_moveRun guards after _ into lodged.start.clear).map fun _ _ _ _ => trivial

theorem heeds_remove (provides : watch.client.Provides watch.shelf) (off : watch.Outside scene container) :
    watch.Heeds (part.remove watch.client container) scene fun _ _ => True := by
  refine (heeds_look guards _).bind ?_
  rintro after _ - ⟨-, rfl⟩
  exact (heeds_removeRunFor provides guards after off lodged.start).map fun _ _ _ _ => trivial

end Lodged

/-- A value for an attribute is given to an element, so it is given. -/
theorem heeds_commit {part : AttributePart} (labels : watch.Labels scene part) :
    watch.Heeds part.commit.orThrow scene fun part after => watch.Labels after part := by
  have edits : ∀ (change : Attributes → Attributes) (value : Option String),
      (∀ attributes : Attributes, (attributes.map (·.1)).Nodup → ((change attributes).map (·.1)).Nodup) →
      ∀ broken, watch.Heeds (Attempt.carry (edit (·.changeAttributes part.element change))
        (fun () => ({ part with pending := none, committed := value } : AttributePart)) broken).orThrow scene
        fun part after => watch.Labels after part := by
    intro change value named broken
    unfold Heeds
    rw [leads_orThrow_carry]
    exact (heeds_changeAttributes guards labels named).mono fun _ _ keeps _ => keeps.labels labels
  unfold AttributePart.commit
  split
  · exact heeds_pure guards labels
  · rename_i value _
    cases value <;> simp only [AttributePart.assign]
    case text data =>
      split
      · exact heeds_pure guards labels
      · exact edits _ _ (fun _ => Attributes.nodup_set) _
    case nothing =>
      split
      · exact heeds_pure guards labels
      · exact edits _ _ (fun _ => Attributes.nodup_erase) _
    all_goals
      unfold Heeds
      rw [leads_orThrow_carry]
      exact (heeds_note guards _).bind fun _ _ keeps _ => heeds_throw keeps.guards (by simp [Error.Misplaced])

theorem heeds_instantiate {shared : SharedTemplate} (fits : watch.Early scene → shared.template.Distinct ∧
      shared.template.Fits (scene.tree.subtree shared.template.fragment)) :
    watch.Heeds (TemplateInstance.create shared) scene fun made after =>
      (∀ part ∈ made.1.parts, part.Lodged watch after) ∧ watch.Outside after made.2 := by
  set original := scene.tree.subtree shared.template.fragment with cut
  set copy := original.renumber scene.tree.size with renumbered
  have grows : ∀ {after : Scene σ} {middle : Tree} {marks : List NodeId}, scene.tree.Grafted middle copy →
      (∀ mark ∈ marks, mark ∈ copy.descendants) → middle.Furnished after.tree marks [] →
      after.cache = scene.cache ∧ after.memory = scene.memory →
      watch.Keeps scene after ∧ ∀ id, watch.Clear scene id → watch.Clear after id :=
    fun grafted among furnished same => grown guards furnished.sound
      (TemplateInstance.extends_furnished guards.wellFormed grafted ⟨_, renumbered⟩ among furnished) same.1 same.2
  have made := (TemplateInstance.create_made guards.wellFormed shared).both (Habit.aloof.instantiate shared scene)
  refine Leads.mono made ?_ ?_
  · rintro ⟨shown, fragment⟩ after ⟨⟨-, -, rfl, made⟩, same⟩
    obtain ⟨middle, grafted, furnished⟩ := made.furnished
    have among : ∀ mark ∈ shared.template.slots.filterMap (Slot.mark? copy.descendants), mark ∈ copy.descendants := by
      intro mark member
      obtain ⟨slot, -, found⟩ := List.mem_filterMap.1 member
      exact Slot.mem_of_mark? found
    obtain ⟨keeps, clear⟩ := grows grafted among furnished same
    have outside : ∀ id ∈ copy.nodes, watch.Outside after id := by
      intro id member early
      have present := Nat.lt_of_lt_of_le (grafted.spelled.lt_size member) furnished.size_le
      refine ⟨present, clear id (clear_new guards ?_) early⟩
      rw [renumbered, Subtree.nodes_renumber, List.mem_range'_1] at member
      exact member.1
    refine ⟨keeps, fun part member => ?_, outside _ (by rw [Subtree.nodes_unfold]; exact List.mem_cons_self ..)⟩
    by_cases early : watch.Early after
    case neg => exact part.lodged_late early
    obtain ⟨distinct, fits⟩ := fits (keeps.early early)
    have seats := made.seated (Slot.nodup_marks (Subtree.nodup_descendants_renumber _ _) distinct.markers)
    obtain ⟨slot, listed, seated⟩ := exists_left_of_forall₂ seats member
    cases seated with
    | node found opens behind closes =>
        have here := outside _ (Subtree.mem_nodes_of_descendant (List.mem_of_getElem? found))
        exact .intro here (keeps.guards.outside_sibling here behind) nofun nofun
    | @«attribute» index name element found =>
        have within := Subtree.mem_nodes_of_descendant (List.mem_of_getElem? found)
        obtain ⟨spot, tag, attributes, here, kind⟩ := fits index name listed
        have standing := grafted.kind_renumbered found
        rw [here, Option.map_some, kind] at standing
        refine ⟨outside _ within, fun _ => ⟨tag, attributes, ?_⟩⟩
        exact (furnished.kindOf element (grafted.spelled.lt_size within) (List.forall_mem_nil _)).trans standing
  · rintro error after ⟨⟨reason, middle, marks, grafted, among, furnished⟩, same⟩
    refine ⟨(grows grafted among furnished same).1, fun _ misplaced => ?_⟩
    obtain ⟨found, rfl⟩ := Error.misplaced_iff.1 misplaced
    split at reason
    · obtain ⟨-, fault, ⟨⟩⟩ := reason
    · cases reason

end Parts

end Watch

end DomParts
