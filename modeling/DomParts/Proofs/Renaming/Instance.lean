import DomParts.Part.Instance
import DomParts.Proofs.Renaming.Attributes
import DomParts.Proofs.Tree.Walk

/-! # Template instances with other keys and texts

Instances of the same template are made in the same way whatever texts there are, and their parts are given their
values in the same way. An attribute part of a new instance goes by the value that its element has until its turn
comes. No part before it changes that value: the node parts are empty, so that all they change are attributes of
new nodes, and no two parts are for the same attribute.
-/

namespace DomParts

open RenderM

variable {σ : Type} {r : Renaming} {count first bound : Nat} {scene other : Scene σ}

theorem Tree.walk_cloneDeep {tree : Tree} (wellFormed : tree.WellFormed) {fragment node : NodeId} {nodes : List NodeId}
    {limit index : Nat} (walked : (tree.cloneDeep fragment).2.walk (tree.cloneDeep fragment).1 limit = some nodes)
    (found : nodes[index]? = some node) :
    node = tree.size + 1 + index ∧ (tree.cloneDeep fragment).2.size > node := by
  obtain ⟨root, grafted⟩ := cloneDeep_grafted wellFormed fragment
  obtain ⟨children, shape⟩ := subtree_eq tree fragment
  rw [shape, Subtree.renumber] at grafted
  have top := grafted.spelled _ (List.mem_cons_self ..)
  have below := fun spot listed => grafted.spelled spot (List.mem_cons_of_mem _ listed)
  rw [root, walk_eq grafted.sound top.2 below, Subtree.nodesOfAll_renumberAll] at walked
  split at walked <;> cases walked
  obtain ⟨inside, -⟩ := List.getElem?_eq_some_iff.1 found
  rw [List.length_take, List.length_range'] at inside
  have listed := List.getElem?_take_of_lt (l := List.range' (tree.size + 1) (Subtree.sizeOfAll children))
    (Nat.lt_of_lt_of_le inside (Nat.min_le_left ..))
  rw [listed, List.getElem?_range' (Nat.lt_of_lt_of_le inside (Nat.min_le_right ..)), Nat.one_mul] at found
  have size := grafted.size
  rw [Subtree.size, Subtree.sizeOfAll_renumberAll] at size
  cases found
  refine ⟨rfl, ?_⟩
  omega

namespace Part

/-- The attribute that the part is for, if it is for one. -/
def place? : Part → Option (NodeId × String)
  | .node _ => none
  | .attribute part => some (part.element, part.name)

/-- The part as far as it does not depend on the value that an element has. -/
def plain : Part → Part
  | .node part => .node part
  | .attribute part => .attribute { part with committed := none }

/-- Nothing was committed by the part yet: it shows nothing, or the value that a new element has. -/
def Fresh (first bound : Nat) (tree : Tree) : Part → Prop
  | .node part => part.content = .empty
  | .attribute part => first ≤ part.element ∧ bound > part.element ∧ part.Bound tree

theorem Fresh.spared {part : Part} {tree after : Tree} (fresh : part.Fresh first bound tree)
    (same : ∀ id name, part.place? = some (id, name) → after.attribute? id name = tree.attribute? id name)
    {more : Nat} (le : bound ≤ more) : part.Fresh first more after := by
  cases part with
  | node part => exact fresh
  | «attribute» part =>
      obtain ⟨old, new, committed⟩ := fresh
      exact ⟨old, Nat.lt_of_lt_of_le new le, committed.trans (same _ _ rfl).symm⟩

theorem Fresh.inside {part : Part} {tree : Tree} (fresh : part.Fresh first bound tree) {id : NodeId} {name : String}
    (place : part.place? = some (id, name)) : bound > id := by
  cases part with
  | node part => cases place
  | «attribute» part =>
      cases place
      exact fresh.2.1

theorem place?_plain (part : Part) : part.plain.place? = part.place? := by cases part <;> rfl

theorem filterMap_place?_plain (parts : List Part) : (parts.map plain).filterMap place? = parts.filterMap place? := by
  simp only [List.filterMap_map, Function.comp_def, place?_plain]

section Still

variable {parts : List Part} {tree after : Tree}

theorem fresh_of_spares (fresh : ∀ part ∈ parts, part.Fresh first tree.size tree)
    (spares : tree.Spares tree.size after) : ∀ part ∈ parts, part.Fresh first after.size after := by
  intro part member
  have here := fresh part member
  exact here.spared (fun id name place => spares.attributes id name (here.inside place)) spares.size_le

/-- Parts stay fresh if only an attribute is changed that none of them is for. -/
theorem fresh_of_apart (fresh : ∀ part ∈ parts, part.Fresh first tree.size tree) (le : tree.size ≤ after.size)
    {place : NodeId × String} (apart : place ∉ parts.filterMap place?)
    (same : ∀ id name, (id, name) ≠ place → after.attribute? id name = tree.attribute? id name) :
    ∀ part ∈ parts, part.Fresh first after.size after := by
  intro part member
  refine (fresh part member).spared (fun id name here => same id name ?_) le
  rintro rfl
  exact apart (List.mem_filterMap.2 ⟨part, member, here⟩)

end Still

section Binding

variable {nodes : List NodeId}

theorem alike_bind (nodes : List NodeId) (slot : Slot) :
    (bind nodes slot : RenderM σ Part).Alike r count (bind nodes slot) fun left right => right.plain = left.plain := by
  apply (alike_require _ _).andThen
  intro id
  cases slot with
  | «attribute» index name =>
      intro scene other paired _
      simp only [AttributePart.bind, Follows, leads_bind, leads_look, leads_pure]
      exact ⟨paired.refl, rfl⟩
  | node index =>
      apply (alike_look fun _ _ renamed => renamed.isMarker_eq _).andThen
      intro marker
      cases marker with
      | false => exact alike_throw _
      | true =>
          apply (alike_look fun _ _ renamed => renamed.parentOf_eq _).andThen
          intro above
          refine (alike_require _ _).andThen fun parent => alike_createMarker.andThen fun stop => ?_
          apply (alike_look fun _ _ renamed => renamed.nextSibling_eq _).andThen
          intro next
          exact (alike_insert _ _ _).andThen fun _ => alike_pure rfl

theorem alike_bindAll (nodes : List NodeId) (slots : List Slot) :
    (slots.mapM (bind nodes) : RenderM σ (List Part)).Alike r count (slots.mapM (bind nodes))
      fun left right => right.map plain = left.map plain := by
  induction slots with
  | nil => exact alike_pure rfl
  | cons slot slots ih =>
      rw [List.mapM_cons]
      refine (alike_bind nodes slot).bind fun _ _ same => ih.bind fun _ _ rest => alike_pure ?_
      rw [List.map_cons, List.map_cons, same, rest]

variable (numbered : ∀ index id, nodes[index]? = some id → id = first + index ∧ bound > id)
include numbered

/-- A part that was bound is fresh, and the attributes of the nodes that were there are left alone. -/
theorem bind_fresh (slot : Slot) (inside : bound ≤ scene.tree.size) : (bind nodes slot).Leads scene
    (fun part after => scene.tree.Spares bound after.tree ∧ part.Fresh first bound after.tree ∧
      part.place? = slot.attribute?.map fun place => (first + place.1, place.2)) fun _ _ => True := by
  rw [bind, leads_bind, leads_require]
  cases found : nodes[slot.index]? with
  | none => exact trivial
  | some id =>
      obtain ⟨rfl, near⟩ := numbered _ _ found
      cases slot with
      | «attribute» index name =>
          simp only [AttributePart.bind, leads_bind, leads_look, leads_pure]
          exact ⟨.refl _, ⟨Nat.le_add_right .., near, rfl⟩, rfl⟩
      | node index =>
          simp only [leads_bind, leads_look]
          cases scene.tree.isMarker (first + (Slot.node index).index) with
          | false => simp
          | true =>
              simp only [not_true_eq_false, if_false, leads_bind, leads_look, leads_require]
              cases scene.tree.parentOf (first + (Slot.node index).index) with
              | none => exact trivial
              | some parent =>
                  simp only [leads_create, leads_pure, RenderM.insert, leads_edit]
                  split
                  next after done =>
                    have grown : scene.tree.Spares bound (scene.tree.create .marker).2 :=
                      .of_extends (Tree.extends_create _) inside
                    exact ⟨grown.trans (.insertBefore done), rfl, rfl⟩
                  next => exact trivial

theorem bindAll_fresh (slots : List Slot) (inside : bound ≤ scene.tree.size) : (slots.mapM (bind nodes)).Leads scene
    (fun parts after => scene.tree.Spares bound after.tree ∧ (∀ part ∈ parts, part.Fresh first bound after.tree) ∧
      parts.filterMap place? = (slots.filterMap Slot.attribute?).map fun place => (first + place.1, place.2))
    fun _ _ => True := by
  induction slots generalizing scene with
  | nil => exact ⟨.refl _, List.forall_mem_nil _, rfl⟩
  | cons slot slots ih =>
      rw [List.mapM_cons, leads_bind]
      refine (bind_fresh numbered slot inside).imp ?_
      rintro part scene ⟨spares, fresh, place⟩
      rw [leads_bind]
      refine (ih (Nat.le_trans inside spares.size_le)).imp ?_
      rintro parts after ⟨spares', rest, places⟩
      have still := fresh.spared (fun id name here => spares'.attributes id name (fresh.inside here)) (Nat.le_refl _)
      refine ⟨spares.trans spares', List.forall_mem_cons.2 ⟨still, rest⟩, ?_⟩
      rw [List.filterMap_cons, List.filterMap_cons, place, places]
      cases slot.attribute? <;> rfl

end Binding

end Part

namespace TemplateInstance

variable (shared : SharedTemplate)

theorem alike_create : (TemplateInstance.create shared : RenderM σ _).Alike r count (TemplateInstance.create shared)
    fun left right => right.1.template = left.1.template ∧ right.1.parts.map Part.plain = left.1.parts.map Part.plain ∧
      right.2 = left.2 := by
  apply (alike_cloneDeep _).andThen
  intro fragment
  apply (alike_look fun _ _ renamed => renamed.walk_eq _ _).andThen
  intro walked
  apply (alike_require _ _).andThen
  intro nodes
  apply (Part.alike_bindAll nodes _).bind
  intro left right same
  have length : right.length = left.length := by simpa using congrArg List.length same
  rw [length]
  exact (alike_note _).andThen fun _ => alike_pure ⟨rfl, same, rfl⟩

/-- The parts of an instance that was made are fresh, and no two of them are for the same attribute. -/
theorem create_fresh (wellFormed : scene.tree.WellFormed) (distinct : shared.template.Tidy) :
    (TemplateInstance.create shared).Leads scene (fun made after => made.1.template = shared ∧
      (∀ part ∈ made.1.parts, part.Fresh (scene.tree.size + 1) after.tree.size after.tree) ∧
      (made.1.parts.filterMap Part.place?).Nodup) fun _ _ => True := by
  simp only [TemplateInstance.create, leads_bind, leads_grow, leads_look, leads_require, leads_note, leads_pure]
  split
  case h_2 => trivial
  rename_i nodes walked
  have numbered : ∀ index id, nodes[index]? = some id →
      id = scene.tree.size + 1 + index ∧ (scene.tree.cloneDeep shared.template.fragment).2.size > id :=
    fun _ _ => Tree.walk_cloneDeep wellFormed walked
  refine (Part.bindAll_fresh numbered shared.template.slots (Nat.le_refl _)).imp ?_
  rintro parts after ⟨spares, fresh, places⟩
  refine ⟨trivial, fun part member => (fresh part member).spared (fun _ _ _ => rfl) spares.size_le, ?_⟩
  · rw [places]
    refine distinct.map fun one two same => ?_
    rw [Prod.mk.injEq] at same
    exact Prod.ext (Nat.add_left_cancel same.1) same.2

end TemplateInstance

namespace Part

section Committing

variable {one two : Rendering σ} {ones twos : List (Rendering σ)} {parts others : List Part}

theorem commitWith_node (part : NodePart) (item : Rendering σ) :
    ((Part.node part).stage item.value).commitWith item.render = ((part.stage item.value).commitWith item.render).map .node := rfl

theorem commitWith_attribute (part : AttributePart) (item : Rendering σ) :
    ((Part.attribute part).stage item.value).commitWith item.render =
      (AttributePart.assign { part with pending := none } item.value).map .attribute := rfl

theorem alike_commit (renamed : one.Renamed r two) (part : Part) :
    ((part.stage one.value).commitWith one.render).orThrow.Alike r 0
      (((part.rename r).stage two.value).commitWith two.render).orThrow fun left right => right = left.rename r := by
  cases part with
  | node part =>
      rw [rename, commitWith_node, commitWith_node, alike_orThrow_map]
      exact (renamed.renderWith (.inr rfl)).mono fun left _ shown => by rw [rename, shown]
  | «attribute» part =>
      rw [rename, commitWith_attribute, commitWith_attribute, alike_orThrow_map, renamed.value]
      apply (AttributePart.alike_assign { part with pending := none } (Nat.zero_le _) one.value).mono
      intro left right shown
      rw [rename, shown]

/-- All parts of an instance that was given values before are given theirs. -/
theorem alike_commitEach (parts : List Part) (each : List.Forall₂ (Rendering.Renamed r) ones twos) :
    (commitEach (parts.zipWith (fun part item => (part.stage item.value, item.render)) ones)).orThrow.Alike r 0
      (commitEach ((parts.map (Part.rename r)).zipWith (fun part item => (part.stage item.value, item.render)) twos)).orThrow
      fun left right => right = left.map (Part.rename r) := by
  induction each generalizing parts with
  | nil =>
      rw [List.zipWith_nil_right, List.zipWith_nil_right]
      exact alike_pure rfl
  | cons first _ ih =>
      cases parts with
      | nil => exact alike_pure rfl
      | cons part parts =>
          rw [List.map_cons, List.zipWith_cons_cons, List.zipWith_cons_cons, orThrow_commitEach, orThrow_commitEach]
          apply (alike_commit first part).bind
          intro part part' same
          subst same
          apply (ih parts).bind
          intro parts parts' same
          subst same
          exact alike_pure rfl

theorem renderWith_of_empty {part : NodePart} (empty : part.content = .empty) (item : Rendering σ) :
    (part.rename r).renderWith item = part.renderWith item := by
  cases part
  cases empty
  rw [NodePart.rename, Content.rename]
  rfl

theorem alike_commit_empty (renamed : one.Renamed r two) {part : NodePart} (empty : part.content = .empty) :
    (((Part.node part).stage one.value).commitWith one.render).orThrow.Alike r count
      (((Part.node part).stage two.value).commitWith two.render).orThrow fun left right => right = left.rename r := by
  have shown : (part.renderWith one).Alike r count ((part.rename r).renderWith two) fun left right =>
      right = left.rename r := renamed.renderWith (.inl empty)
  rw [renderWith_of_empty empty] at shown
  rw [commitWith_node, commitWith_node, alike_orThrow_map]
  exact shown.mono fun left _ same => by rw [rename, same]

theorem follows_commit_bound (renamed : one.Renamed r two) {part part' : AttributePart} (outside : count ≤ part.element)
    (bound : part.Bound scene.tree) (bound' : part'.Bound other.tree)
    (same : (Part.attribute part').plain = (Part.attribute part).plain) (paired : scene.Paired r other)
    (inside : count ≤ scene.tree.size) :
    (((Part.attribute part).stage one.value).commitWith one.render).orThrow.Follows r count
      (((Part.attribute part').stage two.value).commitWith two.render).orThrow scene other
      fun left right => right = left.rename r := by
  obtain ⟨element, name, pending, committed⟩ := part
  obtain ⟨_, _, _, committed'⟩ := part'
  cases same
  rw [commitWith_attribute, commitWith_attribute, renamed.value]
  have unstaged : AttributePart.Bound other.tree ⟨element, name, none, committed'⟩ := bound'
  have assigned := AttributePart.follows_assign_bound ⟨element, name, none, committed⟩ outside bound unstaged rfl rfl
    rfl rfl paired inside one.value
  simp only [Follows, leads_orThrow_map] at assigned ⊢
  exact Follows.mono assigned fun left _ shown => by rw [rename, shown]

/-- Only its own attribute is changed when an attribute part is given a value. -/
theorem commit_attribute_leads (part : AttributePart) (item : Rendering σ) :
    (((Part.attribute part).stage item.value).commitWith item.render).orThrow.Leads scene
      (fun _ after => ∀ id name, (id, name) ≠ (part.element, part.name) →
        after.tree.attribute? id name = scene.tree.attribute? id name) fun _ _ => True := by
  rw [commitWith_attribute, leads_orThrow_map]
  exact AttributePart.assign_leads { part with pending := none } item.value

/-- The first part of a new instance is given its value. The others are still fresh behind it, whatever it is. -/
theorem follows_commit_first {β : Type} {next next' : Part → RenderM σ β} {shows : β → β → Prop} {part part' : Part}
    (item : one.Renamed r two) (paired : scene.Paired r other) (inside : count ≤ scene.tree.size)
    (outside : count ≤ first) (fresh : ∀ new ∈ part :: parts, new.Fresh first scene.tree.size scene.tree)
    (fresh' : ∀ new ∈ part' :: others, new.Fresh first other.tree.size other.tree)
    (here : part'.plain = part.plain) (rest : others.map plain = parts.map plain)
    (distinct : ((part :: parts).filterMap place?).Nodup)
    (onward : ∀ left after last, Scene.Changes r count scene other after last →
      (∀ part ∈ parts, part.Fresh first after.tree.size after.tree) →
      (∀ part ∈ others, part.Fresh first last.tree.size last.tree) →
      (next left).Follows r count (next' (left.rename r)) after last shows) :
    (((part.stage one.value).commitWith one.render).orThrow >>= next).Follows r count
      (((part'.stage two.value).commitWith two.render).orThrow >>= next') scene other shows := by
  obtain ⟨fresh, later⟩ := List.forall_mem_cons.1 fresh
  obtain ⟨fresh', later'⟩ := List.forall_mem_cons.1 fresh'
  cases part with
  | node part =>
      cases part' with
      | «attribute» => cases here
      | node part' =>
          cases here
          refine (alike_commit_empty item fresh scene other paired (Nat.le_refl _)).bind_leads inside
            (leads_somehow _ _) (leads_somehow _ _) ?_
          rintro left _ after last changes - - rfl
          have spared : other.tree.Spares other.tree.size last.tree := paired.size_eq ▸ changes.right
          exact onward left after last (changes.mono inside) (fresh_of_spares later changes.left)
            (fresh_of_spares later' spared)
  | «attribute» part =>
      cases part' with
      | node => cases here
      | «attribute» part' =>
          have apart : (part.element, part.name) ∉ parts.filterMap place? := by
            rw [List.filterMap_cons, place?, List.nodup_cons] at distinct
            exact distinct.1
          have own : (part'.element, part'.name) = (part.element, part.name) :=
            Option.some.inj ((place?_plain _).symm.trans ((congrArg place? here).trans (place?_plain _)))
          have apart' : (part'.element, part'.name) ∉ others.filterMap place? := by
            rwa [own, ← filterMap_place?_plain, rest, filterMap_place?_plain]
          refine (follows_commit_bound item (Nat.le_trans outside fresh.1) fresh.2.2 fresh'.2.2 here paired
            inside).bind_leads (Nat.le_refl _) (commit_attribute_leads part one) (commit_attribute_leads part' two) ?_
          rintro left _ after last changes same same' rfl
          exact onward left after last changes (fresh_of_apart later changes.left.size_le apart same)
            (fresh_of_apart later' changes.right.size_le apart' same')

theorem follows_commitEach (each : List.Forall₂ (Rendering.Renamed r) ones twos) (paired : scene.Paired r other)
    (inside : count ≤ scene.tree.size) (outside : count ≤ first)
    (fresh : ∀ part ∈ parts, part.Fresh first scene.tree.size scene.tree)
    (fresh' : ∀ part ∈ others, part.Fresh first other.tree.size other.tree)
    (same : others.map plain = parts.map plain) (distinct : (parts.filterMap place?).Nodup) :
    (commitEach (parts.zipWith (fun part item => (part.stage item.value, item.render)) ones)).orThrow.Follows r count
      (commitEach (others.zipWith (fun part item => (part.stage item.value, item.render)) twos)).orThrow scene other
      fun left right => right = left.map (Part.rename r) := by
  induction each generalizing parts others scene other with
  | nil =>
      rw [List.zipWith_nil_right, List.zipWith_nil_right]
      exact alike_pure rfl scene other paired inside
  | cons item _ ih =>
      cases parts with
      | nil =>
          cases List.map_eq_nil_iff.1 same
          exact alike_pure rfl scene other paired inside
      | cons part parts =>
          cases others with
          | nil => cases same
          | cons part' others =>
              rw [List.map_cons, List.map_cons, List.cons.injEq] at same
              rw [List.zipWith_cons_cons, List.zipWith_cons_cons, orThrow_commitEach, orThrow_commitEach]
              refine follows_commit_first item paired inside outside fresh fresh' same.1 same.2 distinct ?_
              intro left after last changes fresh fresh'
              have grown := changes.left.size_le
              refine (ih changes.paired (Nat.le_trans inside grown) fresh fresh' same.2 ?_).bind ?_
              · exact distinct.sublist ((List.sublist_cons_self part parts).filterMap _)
              · rintro parts _ after last further rfl
                exact alike_pure rfl after last further.paired
                  (Nat.le_trans (Nat.le_trans inside grown) further.left.size_le)

end Committing

end Part

namespace TemplateInstance

variable {ones twos : List (Rendering σ)} (each : List.Forall₂ (Rendering.Renamed r) ones twos)
include each

theorem alike_update (shown : TemplateInstance) : (shown.update ones).orThrow.Alike r 0
    ((shown.rename r).update twos).orThrow fun left right => right = left.rename r := by
  obtain ⟨template, parts⟩ := shown
  simp only [rename, Part.renameAll_eq_map, update, ← each.length_eq, List.length_map]
  split
  · rw [alike_orThrow_map]
    refine (Part.alike_commitEach parts each).mono fun left _ shown => ?_
    rw [rename, Part.renameAll_eq_map, shown]
  · exact alike_throw _

theorem follows_update {shown shown' : TemplateInstance} (paired : scene.Paired r other)
    (inside : count ≤ scene.tree.size) (outside : count ≤ first)
    (fresh : ∀ part ∈ shown.parts, part.Fresh first scene.tree.size scene.tree)
    (fresh' : ∀ part ∈ shown'.parts, part.Fresh first other.tree.size other.tree)
    (template : shown'.template = shown.template) (same : shown'.parts.map Part.plain = shown.parts.map Part.plain)
    (distinct : (shown.parts.filterMap Part.place?).Nodup) :
    (shown.update ones).orThrow.Follows r count (shown'.update twos).orThrow scene other
      fun left right => right = left.rename r := by
  have length : shown'.parts.length = shown.parts.length := by simpa using congrArg List.length same
  simp only [update, ← each.length_eq, length]
  split
  · have committed := Part.follows_commitEach each paired inside outside fresh fresh' same distinct
    simp only [Follows, leads_orThrow_map] at committed ⊢
    exact Follows.mono committed fun left _ parts => by rw [rename, Part.renameAll_eq_map, parts, template]
  · exact alike_throw _ scene other paired inside

end TemplateInstance

theorem Render.renamed_template {client : Client σ} (discreet : client.Discreet r) (kind : TemplateKind)
    (literal : Literal) {ones twos : List (Rendering σ)} (each : List.Forall₂ (Rendering.Renamed r) ones twos) :
    Renderer.Renamed r (Render.template client kind literal ones) (Render.template client kind literal twos) := by
  intro count part free
  rw [Render.template, Render.template]
  refine (alike_templateFor discreet kind literal).bind ?_
  rintro _ shared ⟨rfl, distinct⟩
  rw [NodePart.content_rename, Content.instanceOf?_rename]
  cases known : part.content.instanceOf? shared with
  | some shown =>
      obtain ⟨content, -⟩ := Content.instanceOf?_eq_some known
      cases free.resolve_left (by simp [content])
      apply (alike_note _).andThen
      intro _
      apply (TemplateInstance.alike_update each shown).bind
      intro shown shown' same
      subst same
      exact alike_pure (by rw [Content.rename])
  | none =>
      apply (alike_note _).andThen
      intro _ scene other paired inside
      refine (TemplateInstance.alike_create shared scene other paired inside).bind_leads (Nat.le_refl _)
        (TemplateInstance.create_fresh shared paired.wellFormed distinct)
        (TemplateInstance.create_fresh shared paired.other_wellFormed distinct) ?_
      rintro ⟨shown, fragment⟩ ⟨shown', _⟩ after last changes ⟨-, fresh, places⟩ ⟨-, fresh', -⟩ ⟨template, same, rfl⟩
      have inside' := Nat.le_trans inside changes.left.size_le
      rw [paired.size_eq] at fresh'
      refine (TemplateInstance.follows_update each changes.paired inside' (Nat.le_succ_of_le inside) fresh fresh' template
        same places).bind ?_
      rintro shown _ after last further rfl
      rw [part.removeContent_rename, part.insertContent_rename]
      refine (part.alike_removeContent.andThen fun _ => (part.alike_insertContent _).andThen fun _ => alike_pure ?_)
        after last further.paired (Nat.le_trans inside' further.left.size_le)
      rw [Content.rename]

end DomParts
