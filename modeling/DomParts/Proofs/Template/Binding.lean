import DomParts.Proofs.Layout.Install
import DomParts.Proofs.Tree.Furnished
import DomParts.Proofs.Tree.Operations

/-! # Binding parts to slots

A new instance counts its slots in the copy of the fragment before any part is bound, so the end markers
that come in with the parts do not shift the slots that are bound later. It is made if and only if every
slot lands on a node that suits it, provided that there is room for the walk to the last of them. Whatever
happens, only nodes are added.
-/

namespace DomParts

open RenderM
open Layout.Job (reach_of_take)
open Subtree (nodesOfAll spotsOfAll)

variable {σ : Type}

/-- The nodes below the topmost one, each before its children. -/
def Subtree.descendants (tree : Subtree) : List NodeId := nodesOfAll tree.branches

namespace Slot

variable {tree changed : Tree} {nodes others : List NodeId} {slot : Slot}

/-- Whether the slot's index is that of a node, and of a marker if the slot takes content. -/
def Lands (tree : Tree) (nodes : List NodeId) : Slot → Prop
  | .node index => ∃ id, nodes[index]? = some id ∧ tree.isMarker id = true
  | .attribute index _ => index < nodes.length

instance : Decidable (slot.Lands tree nodes) :=
  match slot with
  | .node index => decidable_of_iff (nodes[index]?.any tree.isMarker = true) (by simp [Lands, Option.any_eq_true])
  | .attribute index _ => inferInstanceAs (Decidable (index < nodes.length))

/-- The node that new content is put behind, if the slot takes content. -/
def mark? (nodes : List NodeId) : Slot → Option NodeId
  | .node index => nodes[index]?
  | .attribute .. => none

/-- A part that is bound to the slot's own node, and that nothing was rendered into yet. -/
inductive Seated (tree : Tree) (nodes : List NodeId) : Slot → Part → Prop where
  /-- The marker at the slot's index is the start marker, and a marker that stands right behind it is the
      end marker. -/
  | node {index : Nat} {start stop : NodeId} (found : nodes[index]? = some start) (opens : tree.isMarker start = true)
      (behind : tree.nextSibling start = some stop) (closes : tree.isMarker stop = true) :
      Seated tree nodes (.node index) (.node (.between start stop))
  /-- The attribute is that of the node at the slot's index, with the value that it has there. -/
  | attribute {index : Nat} {name : String} {element : NodeId} (found : nodes[index]? = some element) :
      Seated tree nodes (.attribute index name) (.attribute ⟨element, name, none, tree.attribute? element name⟩)

theorem mem_of_mark? {id : NodeId} (found : slot.mark? nodes = some id) : id ∈ nodes := by
  cases slot with
  | node index => exact List.mem_of_getElem? found
  | «attribute» index name => cases found

theorem lands_congr (same : nodes.map tree.kindOf = others.map changed.kindOf) :
    slot.Lands tree nodes ↔ slot.Lands changed others := by
  have length : nodes.length = others.length := by simpa using congrArg List.length same
  cases slot with
  | node index =>
      have here : (nodes.map tree.kindOf)[index]? = (others.map changed.kindOf)[index]? := by rw [same]
      rw [List.getElem?_map, List.getElem?_map] at here
      have marker : ∀ (tree : Tree) (nodes : List NodeId), (∃ id, nodes[index]? = some id ∧ tree.isMarker id = true) ↔
          nodes[index]?.map tree.kindOf = some (some .marker) := by
        intro tree nodes
        simp only [Option.map_eq_some_iff, Tree.isMarker_iff]
      rw [Lands, Lands, marker, marker, here]
  | «attribute» index name => rw [Lands, Lands, length]

theorem mark?_eq (nodes : List NodeId) (slot : Slot) : slot.mark? nodes = slot.markerIndex?.bind (nodes[·]?) := by
  cases slot <;> rfl

theorem nodup_marks {slots : List Slot} (distinct : nodes.Nodup) (separate : (slots.filterMap markerIndex?).Nodup) :
    (slots.filterMap (mark? nodes)).Nodup := by
  have found : slots.filterMap (mark? nodes) = (slots.filterMap markerIndex?).filterMap (nodes[·]?) := by
    rw [List.filterMap_filterMap]
    exact List.filterMap_congr fun slot _ => mark?_eq nodes slot
  rw [found]
  apply separate.filterMap
  intro first second id here there
  exact (List.getElem?_inj (List.getElem?_eq_some_iff.1 here).1 distinct).1 (Eq.trans here there.symm)

theorem Seated.of_take {part : Part} {limit : Nat} (seated : slot.Seated tree (nodes.take limit) part) :
    slot.Seated tree nodes part := by
  cases seated with
  | node found opens behind closes => exact .node (reach_of_take found) opens behind closes
  | «attribute» found => exact .attribute (reach_of_take found)

theorem lands_take {limit : Nat} (within : slot.index < limit) :
    slot.Lands tree (nodes.take limit) ↔ slot.Lands tree nodes := by
  cases slot with
  | node index =>
      have within : index < limit := within
      simp only [Lands, List.getElem?_take, within, if_true]
  | «attribute» index name =>
      have within : index < limit := within
      simp only [Lands, List.length_take]
      omega

theorem mark?_take {limit : Nat} (within : slot.index < limit) : slot.mark? (nodes.take limit) = slot.mark? nodes := by
  cases slot with
  | node index =>
      have within : index < limit := within
      simp only [mark?, List.getElem?_take, within, if_true]
  | «attribute» index name => rfl

theorem Seated.stays {part : Part} {marks : List NodeId} (seated : slot.Seated tree nodes part)
    (furnished : tree.Furnished changed marks []) (inside : ∀ id ∈ nodes, id < tree.size)
    (apart : ∀ start, slot.mark? nodes = some start → start ∉ marks) : slot.Seated changed nodes part := by
  cases seated with
  | @node index start stop found opens behind closes =>
      have present := inside start (List.mem_of_getElem? found)
      have stop_present := Tree.lt_size_of_kindOf (Tree.isMarker_iff.1 closes)
      refine .node found ((furnished.isMarker present).trans opens) ?_ ((furnished.isMarker stop_present).trans closes)
      rw [furnished.nextSibling start present (apart start found), behind]
  | @«attribute» index name element found =>
      have present := inside element (List.mem_of_getElem? found)
      rw [← furnished.attribute? element name present List.not_mem_nil]
      exact .attribute found

end Slot

namespace Part

variable {scene : Scene σ} {nodes : List NodeId}

def stop? : Part → Option NodeId
  | .node part => some part.stop
  | .attribute _ => none

/-- Binding one part: it fails without having done anything, or the part is in its seat. -/
theorem bind_seats (sound : scene.tree.WellFormed) (attached : ∀ id ∈ nodes, ∃ parent, scene.tree.parentOf id = some parent)
    (slot : Slot) : (Part.bind nodes slot : RenderM σ Part).Leads scene
      (fun part after => slot.Lands scene.tree nodes ∧
        scene.tree.Furnished after.tree (slot.mark? nodes).toList [] ∧ slot.Seated after.tree nodes part ∧
        part.stop? = (slot.mark? nodes).map fun _ => scene.tree.size)
      (fun error after => ¬ slot.Lands scene.tree nodes ∧ after = scene ∧ ∃ fault, error = .template fault) := by
  cases found : nodes[slot.index]? with
  | none =>
      simp only [Part.bind, leads_bind, leads_require, found]
      refine ⟨?_, trivial, _, rfl⟩
      cases slot with
      | node index =>
          rintro ⟨id, here, -⟩
          cases found.symm.trans here
      | «attribute» index name => exact Nat.not_lt.2 (List.getElem?_eq_none_iff.1 found)
  | some id =>
      cases slot with
      | node index =>
          have found : nodes[index]? = some id := found
          obtain ⟨parent, above⟩ := attached id (List.mem_of_getElem? found)
          by_cases marker : scene.tree.isMarker id = true
          · obtain ⟨left, right, listed⟩ := List.append_of_mem (sound.mem_childrenOf above)
            obtain ⟨tree, ran, joined⟩ := bind_marker sound found marker listed
            obtain ⟨furnished, behind, -⟩ := joined.furnished sound listed
            have opens := (furnished.isMarker (Tree.lt_size_of_parentOf above)).trans marker
            have mark : (Slot.node index).mark? nodes = some id := found
            rw [Leads, ran, mark]
            exact ⟨⟨id, found, marker⟩, furnished, .node found opens behind (Tree.isMarker_iff.2 joined.kind), rfl⟩
          · rw [Leads, bind_unmarked found marker]
            refine ⟨?_, rfl, _, rfl⟩
            rintro ⟨other, again, here⟩
            cases found.symm.trans again
            exact marker here
      | «attribute» index name =>
          simp only [Part.bind, AttributePart.bind, leads_bind, leads_require, leads_look, leads_pure, found]
          exact ⟨(List.getElem?_eq_some_iff.1 found).1, .refl sound, .attribute found, rfl⟩

theorem bindAll_seats (sound : scene.tree.WellFormed)
    (attached : ∀ id ∈ nodes, ∃ parent, scene.tree.parentOf id = some parent) (slots : List Slot) :
    (slots.mapM (Part.bind nodes) : RenderM σ (List Part)).Leads scene
      (fun parts after => (∀ slot ∈ slots, slot.Lands scene.tree nodes) ∧
        scene.tree.Furnished after.tree (slots.filterMap (Slot.mark? nodes)) [] ∧
        parts.filterMap Part.stop? = List.range' scene.tree.size (slots.filterMap (Slot.mark? nodes)).length ∧
        ((slots.filterMap (Slot.mark? nodes)).Nodup →
          List.Forall₂ (Slot.Seated after.tree nodes) slots parts))
      (fun error after => (∃ slot ∈ slots, ¬ slot.Lands scene.tree nodes) ∧ (∃ fault, error = .template fault) ∧
        ∃ marks, (∀ mark ∈ marks, mark ∈ nodes) ∧ scene.tree.Furnished after.tree marks []) := by
  induction slots generalizing scene with
  | nil => exact ⟨by simp, .refl sound, rfl, fun _ => .nil⟩
  | cons slot slots ih =>
      have inside : ∀ id ∈ nodes, id < scene.tree.size := by
        intro id member
        obtain ⟨parent, above⟩ := attached id member
        exact Tree.lt_size_of_parentOf above
      simp only [List.mapM_cons, leads_bind, leads_pure]
      refine (bind_seats sound attached slot).mono ?_ ?_
      · rintro part middle ⟨lands, first, seated, stop⟩
        have still := first.attached attached
        have kinds : nodes.map scene.tree.kindOf = nodes.map middle.tree.kindOf := by
          apply List.map_congr_left
          intro id member
          exact (first.kindOf id (inside id member) (List.forall_mem_nil _)).symm
        have split : (slot :: slots).filterMap (Slot.mark? nodes) =
            (slot.mark? nodes).toList ++ slots.filterMap (Slot.mark? nodes) := by
          cases mark : slot.mark? nodes <;> simp [mark]
        refine (ih first.sound still).mono ?_ ?_
        · rintro parts after ⟨land, rest, stops, seats⟩
          rw [split]
          refine ⟨List.forall_mem_cons.2 ⟨lands, fun other member => (Slot.lands_congr kinds).2 (land other member)⟩,
            first.trans rest, ?_, fun distinct => ?_⟩
          · have grown := first.size
            cases mark : slot.mark? nodes with
            | none => simpa [mark, stop, List.filterMap_cons, grown] using stops
            | some start => simpa [mark, stop, List.filterMap_cons, grown, List.range'_succ] using stops
          · rw [List.nodup_append'] at distinct
            refine .cons ?_ (seats distinct.2.1)
            apply seated.stays rest
            · intro id member
              exact Nat.lt_of_lt_of_le (inside id member) first.size_le
            · intro start found
              exact distinct.2.2 (by simp [found])
        · rintro error after ⟨⟨other, member, missed⟩, fault, marks, among, rest⟩
          refine ⟨⟨other, List.mem_cons_of_mem _ member, fun lands => missed ((Slot.lands_congr kinds).1 lands)⟩, fault,
            _, ?_, first.trans rest⟩
          rw [List.forall_mem_append]
          exact ⟨fun mark listed => Slot.mem_of_mark? (Option.mem_toList.1 listed), among⟩
      · rintro error after ⟨missed, rfl, fault⟩
        exact ⟨⟨slot, List.mem_cons_self .., missed⟩, fault, [], List.forall_mem_nil _, .refl sound⟩

end Part

theorem Template.index_lt_reach {template : Template} {slot : Slot} (member : slot ∈ template.slots) :
    slot.index < template.reach := by
  have bound : ∀ (slots : List Slot) (reach : Nat), reach ≤ slots.foldl (fun reach slot => max reach (slot.index + 1)) reach ∧
      ∀ slot ∈ slots, slot.index < slots.foldl (fun reach slot => max reach (slot.index + 1)) reach := by
    intro slots
    induction slots with
    | nil => simp
    | cons first slots ih =>
        intro reach
        obtain ⟨grows, covers⟩ := ih (max reach (first.index + 1))
        rw [List.foldl_cons, List.forall_mem_cons]
        refine ⟨by omega, by omega, covers⟩
  exact (bound template.slots 0).2 slot member

namespace Subtree

theorem branches_renumber (first : NodeId) (tree : Subtree) :
    (tree.renumber first).branches = renumberAll (first + 1) tree.branches := by
  cases tree
  rfl

theorem descendants_eq_spots (tree : Subtree) : tree.descendants = (spotsOfAll tree.branches).map Spot.id :=
  nodesOfAll_eq_spots tree.branches

theorem mem_nodes_of_descendant {tree : Subtree} {id : NodeId} (member : id ∈ tree.descendants) : id ∈ tree.nodes := by
  rw [nodes_unfold]
  exact List.mem_cons_of_mem _ member

theorem nodup_renumber (first : NodeId) (tree : Subtree) : (tree.renumber first).nodes.Nodup := by
  rw [nodes_renumber]
  exact List.nodup_range'

theorem nodup_descendants_renumber (first : NodeId) (tree : Subtree) : (tree.renumber first).descendants.Nodup := by
  have distinct := nodup_renumber first tree
  rw [nodes_unfold, List.nodup_cons] at distinct
  exact distinct.2

theorem listed_of_descendant {tree : Subtree} {id : NodeId} (member : id ∈ tree.descendants)
    (distinct : tree.nodes.Nodup) : ∃ spot ∈ tree.spots, id ∈ spot.children := by
  have among := (listed_once tree).symm.subset (mem_nodes_of_descendant member)
  rw [nodes_unfold, List.nodup_cons] at distinct
  rcases List.mem_cons.1 among with rfl | listed
  · exact absurd member distinct.1
  · simpa using listed

end Subtree

namespace Tree

variable {tree changed : Tree} {copy : Subtree}

/-- What is spelled out below a node has the kinds that it is spelled out with. -/
theorem Spells.kinds_descendants (spells : tree.Spells copy.spots) :
    copy.descendants.map tree.kindOf = (spotsOfAll copy.branches).map fun spot => some spot.kind := by
  rw [Subtree.descendants_eq_spots, List.map_map]
  apply List.map_congr_left
  intro spot member
  rw [Subtree.spots_eq] at spells
  exact (spells spot (List.mem_cons_of_mem _ member)).1

theorem Grafted.kinds_descendants (sound : tree.WellFormed) {root : NodeId}
    (grafted : tree.Grafted changed ((tree.subtree root).renumber tree.size)) :
    (tree.subtree root).descendants.map tree.kindOf =
      ((tree.subtree root).renumber tree.size).descendants.map changed.kindOf := by
  rw [grafted.spelled.kinds_descendants, Subtree.branches_renumber]
  have same := congrArg (List.map some) (Subtree.kinds_renumberAll (tree.size + 1) (tree.subtree root).branches)
  rw [List.map_map, List.map_map] at same
  by_cases inside : root < tree.size
  · rw [(sound.spells_subtree inside).kinds_descendants]
    exact same.symm
  · have none : (tree.subtree root).branches = [] := by
      rw [sound.subtree_unfold, childrenOf_of_size_le (Nat.not_lt.1 inside)]
      rfl
    simp [Subtree.descendants, none, Subtree.nodesOfAll, Subtree.renumberAll, spotsOfAll]

theorem Grafted.walk_eq (grafted : tree.Grafted changed copy) (limit : Nat) : changed.walk copy.id limit =
    if limit < roomLimit then some (copy.descendants.take limit) else none := by
  have spelled := grafted.spelled
  rw [Subtree.spots_eq] at spelled
  have top := spelled _ (List.mem_cons_self ..)
  exact Tree.walk_eq grafted.sound top.2 (fun spot listed => spelled spot (List.mem_cons_of_mem _ listed)) limit

theorem Grafted.attached {original : Subtree} (grafted : tree.Grafted changed (original.renumber tree.size)) :
    ∀ id ∈ (original.renumber tree.size).descendants, ∃ parent, changed.parentOf id = some parent := by
  intro id member
  obtain ⟨spot, listed, child⟩ := Subtree.listed_of_descendant member (Subtree.nodup_renumber _ _)
  rw [← (grafted.spelled spot listed).2] at child
  exact ⟨spot.id, grafted.sound.parentOf_of_mem child⟩

end Tree

namespace TemplateInstance

variable {scene : Scene σ} {shared : SharedTemplate}

def ends (shown : TemplateInstance) : List NodeId := shown.parts.filterMap Part.stop?

/-- A new instance: the fragment was copied, and the copy was furnished with end markers. -/
structure Made (tree changed : Tree) (shared : SharedTemplate) (copy : Subtree) (shown : TemplateInstance) : Prop where
  template : shown.template = shared
  furnished : ∃ middle, tree.Grafted middle copy ∧
    middle.Furnished changed (shared.template.slots.filterMap (Slot.mark? copy.descendants)) []
  ends : shown.ends = List.range' (tree.size + copy.size)
    (shared.template.slots.filterMap (Slot.mark? copy.descendants)).length
  seated : (shared.template.slots.filterMap (Slot.mark? copy.descendants)).Nodup →
    List.Forall₂ (Slot.Seated changed copy.descendants) shared.template.slots shown.parts

/-- An instance is made if there is room for the walk to the last slot, and every slot lands. Otherwise the copy is
    left behind, with some end markers in it. -/
theorem create_made (sound : scene.tree.WellFormed) (shared : SharedTemplate) :
    let original := scene.tree.subtree shared.template.fragment
    let copy := original.renumber scene.tree.size
    (create shared : RenderM σ (TemplateInstance × NodeId)).Leads scene
      (fun made after => shared.template.reach < Tree.roomLimit ∧
        (∀ slot ∈ shared.template.slots, slot.Lands scene.tree original.descendants) ∧ made.2 = copy.id ∧
          made.1.Made scene.tree after.tree shared copy)
      (fun error after => (if shared.template.reach < Tree.roomLimit then
          (∃ slot ∈ shared.template.slots, ¬ slot.Lands scene.tree original.descendants) ∧
            ∃ fault, error = .template fault
        else error = .overflow) ∧ ∃ middle marks, scene.tree.Grafted middle copy ∧
          (∀ mark ∈ marks, mark ∈ copy.descendants) ∧ middle.Furnished after.tree marks []) := by
  intro original copy
  obtain ⟨root, grafted⟩ := Tree.cloneDeep_grafted sound shared.template.fragment
  have same : (scene.tree.cloneDeep shared.template.fragment).1 = copy.id := by
    rw [root, Subtree.id_renumber]
  have attached : ∀ id ∈ copy.descendants.take shared.template.reach,
      ∃ parent, (scene.tree.cloneDeep shared.template.fragment).2.parentOf id = some parent :=
    fun id member => grafted.attached id (List.mem_of_mem_take member)
  have kinds := grafted.kinds_descendants sound
  have lands : ∀ slot ∈ shared.template.slots,
      (slot.Lands (scene.tree.cloneDeep shared.template.fragment).2 (copy.descendants.take shared.template.reach) ↔
        slot.Lands scene.tree original.descendants) := by
    intro slot member
    rw [Slot.lands_take (Template.index_lt_reach member)]
    exact (Slot.lands_congr kinds).symm
  have marks : shared.template.slots.filterMap (Slot.mark? (copy.descendants.take shared.template.reach)) =
      shared.template.slots.filterMap (Slot.mark? copy.descendants) := by
    apply List.filterMap_congr
    intro slot member
    exact Slot.mark?_take (Template.index_lt_reach member)
  simp only [create, leads_bind, leads_grow, leads_look, leads_require, leads_note, leads_pure, same]
  rw [grafted.walk_eq]
  by_cases room : shared.template.reach < Tree.roomLimit
  case neg =>
    simp only [if_neg room]
    exact ⟨trivial, _, [], grafted, List.forall_mem_nil _, .refl grafted.sound⟩
  simp only [if_pos room]
  have bound : (shared.template.slots.mapM (Part.bind (copy.descendants.take shared.template.reach))).Leads
      { scene with tree := (scene.tree.cloneDeep shared.template.fragment).2 } _ _ :=
    Part.bindAll_seats grafted.sound attached shared.template.slots
  rw [marks, grafted.size] at bound
  refine bound.mono ?_ ?_
  · rintro parts after ⟨land, furnished, ends, seats⟩
    refine ⟨room, fun slot member => (lands slot member).1 (land slot member), trivial, rfl, ⟨_, grafted, furnished⟩, ends, ?_⟩
    exact fun separate => (seats separate).imp fun _ _ seated => seated.of_take
  · rintro error after ⟨⟨slot, member, missed⟩, fault, marks, among, furnished⟩
    refine ⟨⟨⟨slot, member, fun there => missed ((lands slot member).2 there)⟩, fault⟩, _, marks, grafted, ?_, furnished⟩
    exact fun mark listed => List.mem_of_mem_take (among mark listed)

variable {copy : Subtree} {tree changed middle : Tree} {marks : List NodeId} {shown : TemplateInstance}

theorem extends_furnished (sound : tree.WellFormed) (grafted : tree.Grafted middle copy)
    (renumbered : ∃ original : Subtree, copy = original.renumber tree.size) (among : ∀ mark ∈ marks, mark ∈ copy.descendants)
    (furnished : middle.Furnished changed marks []) : tree.Extends changed := by
  apply furnished.extended sound grafted.sound grafted.extended ?_ (List.forall_mem_nil _)
  obtain ⟨original, rfl⟩ := renumbered
  intro mark member
  have listed := Subtree.mem_nodes_of_descendant (among mark member)
  refine ⟨?_, grafted.spelled.lt_size listed⟩
  rw [Subtree.nodes_renumber, List.mem_range'_1] at listed
  exact listed.1

theorem Made.without_ends (made : shown.Made tree changed shared copy) : (changed.subtree copy.id).without shown.ends = copy := by
  obtain ⟨middle, grafted, furnished⟩ := made.furnished
  apply furnished.sound.subtree_without
  intro spot listed
  have present : spot.id < middle.size := Tree.lt_size_of_kindOf (grafted.spelled spot listed).1
  refine ⟨(furnished.kindOf spot.id present (List.forall_mem_nil _)).trans (grafted.spelled spot listed).1, ?_⟩
  rw [← (grafted.spelled spot listed).2, ← furnished.childrenOf spot.id]
  apply List.filter_congr
  intro child member
  have inside : changed.size > child := furnished.sound.lt_size_of_mem member
  rw [furnished.size, grafted.size] at inside
  rw [grafted.size, made.ends]
  simp only [List.mem_range'_1, decide_eq_decide]
  omega

/-- Making an instance of a template. It goes well if and only if every slot's index is that of a node below the
    fragment, and of a marker if the slot takes content; otherwise the template is at fault. This supposes that
    there is room for a walk to the last slot, whether it is there or not. Without such room the program stops, when
    it could have found the slot to be missing. In any case nothing happens to the nodes that were there. If no two
    slots share a marker, each part is bound to the copy of the slot's node, each end marker stands right behind its
    start marker, and without the end markers the clone is a copy of the fragment. -/
theorem create_binds (sound : scene.tree.WellFormed) (shared : SharedTemplate) :
    let original := scene.tree.subtree shared.template.fragment
    let copy := original.renumber scene.tree.size
    let made := (create shared).runOn scene
    ((∃ pair, made.1 = .ok pair) ↔ shared.template.reach < Tree.roomLimit ∧
      ∀ slot ∈ shared.template.slots, slot.Lands scene.tree original.descendants) ∧
    (∀ error, made.1 = .error error →
      if shared.template.reach < Tree.roomLimit then ∃ fault, error = .template fault else error = .overflow) ∧
    scene.tree.Extends made.2.tree ∧
    ∀ shown fragment, made.1 = .ok (shown, fragment) → (shared.template.slots.filterMap Slot.markerIndex?).Nodup →
      shown.template = shared ∧ fragment = copy.id ∧ made.2.tree.parentOf fragment = none ∧
      List.Forall₂ (Slot.Seated made.2.tree copy.descendants) shared.template.slots shown.parts ∧
      (made.2.tree.subtree fragment).without shown.ends = copy := by
  intro original copy made
  have renumbered : ∃ original : Subtree, copy = original.renumber scene.tree.size := ⟨original, rfl⟩
  obtain ⟨well, badly⟩ := leads_iff.1 (create_made sound shared)
  rcases ran : (create shared).runOn scene with ⟨error | ⟨shown, fragment⟩, after⟩
  · obtain ⟨reason, middle, marks, grafted, among, furnished⟩ := badly error after ran
    have failed : made = (.error error, after) := ran
    have extended := extends_furnished sound grafted renumbered among furnished
    rw [failed]
    split at reason
    · rename_i room
      obtain ⟨⟨slot, member, missed⟩, fault⟩ := reason
      refine ⟨⟨nofun, fun all => absurd (all.2 slot member) missed⟩, ?_, extended, nofun⟩
      rintro _ ⟨⟩
      exact (if_pos room).symm ▸ fault
    · rename_i crowded
      refine ⟨⟨nofun, fun all => absurd all.1 crowded⟩, ?_, extended, nofun⟩
      rintro _ ⟨⟩
      exact (if_neg crowded).symm ▸ reason
  · obtain ⟨room, lands, same, here⟩ := well _ after ran
    have done : made = (.ok (shown, fragment), after) := ran
    rw [done]
    obtain ⟨middle, grafted, furnished⟩ := here.furnished
    have among : ∀ mark ∈ shared.template.slots.filterMap (Slot.mark? copy.descendants), mark ∈ copy.descendants := by
      intro mark member
      obtain ⟨slot, -, found⟩ := List.mem_filterMap.1 member
      exact Slot.mem_of_mark? found
    refine ⟨⟨fun _ => ⟨room, lands⟩, fun _ => ⟨_, rfl⟩⟩, nofun, extends_furnished sound grafted renumbered among furnished, ?_⟩
    rintro _ _ ⟨⟩ separate
    obtain rfl : fragment = copy.id := same
    have top : copy.id < middle.size := by
      apply grafted.spelled.lt_size
      rw [Subtree.nodes_unfold]
      exact List.mem_cons_self ..
    refine ⟨here.template, rfl, (furnished.parentOf _ top).trans grafted.alone, here.seated ?_, here.without_ends⟩
    exact Slot.nodup_marks (Subtree.nodup_descendants_renumber _ _) separate

end TemplateInstance

namespace Template.Example

/-- A fragment with a paragraph, and with two markers next to each other. -/
def leaflet : Tree := .perform .empty [.createFragment, .createElement "p", .createComment "", .createComment "",
  .appendChild 0 1, .appendChild 0 2, .appendChild 0 3]

/-- Content at the second marker, a class for the paragraph, and content at the first marker. -/
def leafletTemplate : SharedTemplate := ⟨0, ⟨0, [.node 2, .attribute 0 "class", .node 1]⟩⟩

/-- An instance of a template on the leaflet alone. -/
def onLeaflet (shared : SharedTemplate) : Except Error (TemplateInstance × NodeId) × Scene Unit :=
  (TemplateInstance.create shared).runOn (.onTree leaflet ())

-- The end markers come in behind the markers of the copy, whichever is bound first.
example : (onLeaflet leafletTemplate).2.tree.childrenOf 4 = [5, 6, 9, 7, 8] := by decide +kernel

-- A slot that is not there is found to be missing, unless it is too far away to be looked for.
example : (onLeaflet ⟨0, ⟨0, [.node 3]⟩⟩).1 = .error (.template (.indexOutOfRange 3 3)) ∧
    (onLeaflet ⟨0, ⟨0, [.node (2 ^ 60 - 1)]⟩⟩).1 = .error .overflow := ⟨rfl, rfl⟩

end Template.Example

end DomParts
