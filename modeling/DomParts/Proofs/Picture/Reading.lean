import DomParts.Proofs.Layout.Instance
import DomParts.Proofs.Picture.Basic

/-! # Reading a layout

Where a part has its layout and shows what a value says, the nodes between its markers look like the value.
This needs that no removed node is kept, that no guest of the value is missing, and that templates are what
they are taken for. If one is to see below texts, too, no text of a part may have been a template with something
below it: a text that is there is given new text, and what is below it stays.
-/

namespace DomParts

/-- The element that a slot counts and the name of its attribute, if it takes one. -/
def Slot.attribute? : Slot → Option (Nat × String)
  | .node _ => none
  | .attribute index name => some (index, name)

namespace Value

theorem denote_of_label (sight : Sight) {plan? : TemplateKind → Literal → Option Blueprint} {value : Value}
    {text? : Option String} (label : value.label? = some text?) : ∃ shown, value.denote sight plan? = some shown := by
  cases value with
  | text data => exact ⟨_, rfl⟩
  | nothing => exact ⟨_, rfl⟩
  | _ => cases label

theorem mem_leavesOfAll {values : List Value} {value : Value} {id : NodeId} (member : value ∈ values)
    (leaf : id ∈ value.leaves) : id ∈ leavesOfAll values := by
  induction values with
  | nil => cases member
  | cons first values ih =>
      rw [leavesOfAll, List.mem_append]
      rcases List.mem_cons.1 member with rfl | member
      · exact .inl leaf
      · exact .inr (ih member)

theorem mem_leavesOfItems {items : List (Key × Value)} {item : Key × Value} {id : NodeId} (member : item ∈ items)
    (leaf : id ∈ item.2.leaves) : id ∈ leavesOfItems items := by
  induction items with
  | nil => cases member
  | cons first items ih =>
      rw [leavesOfItems, List.mem_append]
      rcases List.mem_cons.1 member with rfl | member
      · exact .inl leaf
      · exact .inr (ih member)

end Value

namespace Layout

open Subtree (nodesOfAll spotsOfAll renumberAll sizeOfAll)

variable {premises : Premises} {tree : Tree} {sight : Sight} {hosts : List NodeId} {fittings : List Fitting} {first : NodeId}

/-- How a slot with what a value puts into it is found in a copy of the template whose nodes are numbered from
    `first` on. -/
inductive Inlaid (tree : Tree) (sight : Sight) (hosts : List NodeId) (first : NodeId) : Inlay → Fitting → Prop where
  | content {index : Nat} {plot : Plot} (start : plot.part.start = first + index)
      (stop : (tree.subtree plot.part.stop).picture sight hosts = .marker) :
      Inlaid tree sight hosts first (.content index (tree.pictures sight hosts plot.inner)) (.node plot)
  | label {index : Nat} {part : AttributePart} (element : part.element = first + index) :
      Inlaid tree sight hosts first (.label index part.name part.committed) (.label part)

namespace Inlaid

variable {inlays : List Inlay} {place : Nat} {name : String}

theorem pictures_behind (inlaid : List.Forall₂ (Inlaid tree sight hosts first) inlays fittings) :
    tree.pictures sight hosts (behind fittings (first + place)) = inlays.flatMap (·.behind place) := by
  induction inlaid with
  | nil => rfl
  | @cons inlay fitting inlays fittings here _ ih =>
      simp only [behind, List.flatMap_cons, Tree.pictures_append] at ih ⊢
      rw [ih]
      congr 1
      cases here with
      | label => rfl
      | @content index plot start stop =>
          by_cases same : index = place
          · simp [Fitting.behind, Inlay.behind, start, same, stop]
          · simp [Fitting.behind, Inlay.behind, start, same]

theorem boundText?_eq (inlaid : List.Forall₂ (Inlaid tree sight hosts first) inlays fittings) :
    boundText? fittings (first + place) name = inlays.findSome? (·.bound? place name) := by
  induction inlaid with
  | nil => rfl
  | @cons inlay fitting inlays fittings here _ ih =>
      simp only [boundText?, List.findSome?_cons] at ih ⊢
      cases here with
      | content => simpa [Inlay.bound?] using ih
      | @label index part element =>
          by_cases same : index = place ∧ part.name = name
          · simp [Inlay.bound?, element, same]
          · simp only [Inlay.bound?, element, Nat.add_left_cancel_iff, same, if_false]
            exact ih

end Inlaid

section Fits

variable {count index : Nat} {slot : Slot}

theorem Fits.of_node {plot : Plot} (fits : Fits (List.range' first count) slot (.node plot)) :
    ∃ index, slot = .node index ∧ plot.part.start = first + index := by
  cases slot with
  | node index =>
      obtain ⟨inside, start⟩ := List.getElem?_eq_some_iff.1 (show (List.range' first count)[index]? = _ from fits)
      rw [List.getElem_range', Nat.one_mul] at start
      exact ⟨index, rfl, start.symm⟩
  | _ => exact fits.elim

theorem Fits.of_label {part : AttributePart} (fits : Fits (List.range' first count) slot (.label part)) :
    ∃ index, slot = .attribute index part.name ∧ part.element = first + index := by
  cases slot with
  | node => exact fits.elim
  | _ index name =>
      obtain ⟨found, rfl⟩ := fits
      obtain ⟨inside, element⟩ := List.getElem?_eq_some_iff.1 found
      rw [List.getElem_range', Nat.one_mul] at element
      exact ⟨index, rfl, element.symm⟩

end Fits

/-- Slots on different attributes have their parts on different attributes. -/
theorem separate_of_fit {count : Nat} {slots : List Slot}
    (fit : List.Forall₂ (Fits (List.range' first count)) slots fittings)
    (distinct : (slots.filterMap Slot.attribute?).Nodup) : Separate fittings := by
  have same : fittings.filterMap Fitting.attribute? =
      (slots.filterMap Slot.attribute?).map fun place => (first + place.1, place.2) := by
    clear distinct
    induction fit with
    | nil => rfl
    | @cons slot fitting _ _ fits _ ih =>
        cases fitting with
        | node plot =>
            obtain ⟨index, rfl, -⟩ := Fits.of_node fits
            exact ih
        | label part =>
            obtain ⟨index, rfl, element⟩ := Fits.of_label fits
            simp only [List.filterMap_cons, Fitting.attribute?, Slot.attribute?, List.map_cons, ih, element]
  rw [Separate, same]
  refine distinct.map fun one two same => ?_
  rw [Prod.mk.injEq, Nat.add_left_cancel_iff] at same
  exact Prod.ext same.1 same.2

/-- A node with what its parts committed looks like the node that it was copied from with that bound to it. -/
theorem picture_of_accords {id : NodeId} {planned kind : Kind} {children : List Picture} (separate : Separate fittings)
    (accords : Accords fittings id planned kind) :
    kind.picture sight (fun _ => none) children = planned.picture sight (boundText? fittings id) children := by
  cases planned with
  | element name attributes =>
      obtain ⟨actual, rfl, bound⟩ := accords
      simp only [Kind.picture, Option.getD_none, Picture.element.injEq, true_and, and_true]
      exact funext (bound separate)
  | _ =>
      simp only [Accords] at accords
      subst accords
      rfl

/-- A clone in the tree, with the parts that are bound into it. -/
structure Clone (tree : Tree) (hosts : List NodeId) (fittings : List Fitting) (forest : List Subtree) : Prop where
  own : ∀ id ∈ nodesOfAll forest, id ∉ hosts
  kinds : ∀ spot ∈ spotsOfAll forest, ∃ kind, tree.kindOf spot.id = some kind ∧
    Accords fittings spot.id spot.kind kind
  children : ∀ spot ∈ spotsOfAll forest, tree.childrenOf spot.id = weave fittings spot.children

mutual

theorem Clone.pictures_top (sound : tree.WellFormed) (separate : Separate fittings) {top : Subtree}
    (clone : Clone tree hosts fittings [top]) :
    (tree.subtree top.id).picture sight hosts :: tree.pictures sight hosts (behind fittings top.id) =
      top.draw sight (boundText? fittings) fun id => tree.pictures sight hosts (behind fittings id) := by
  cases top with
  | branch id kind children =>
      have spotted : ⟨id, kind, children.map Subtree.id⟩ ∈ spotsOfAll [.branch id kind children] := by
        simp [spotsOfAll, Subtree.spots]
      obtain ⟨actual, found, accords⟩ := clone.kinds _ spotted
      have listed := clone.children _ spotted
      have below : Clone tree hosts fittings children :=
        ⟨fun id member => clone.own id (by simp [nodesOfAll, Subtree.nodes, member]),
          fun spot member => clone.kinds spot (by simp [spotsOfAll, Subtree.spots, member]),
          fun spot member => clone.children spot (by simp [spotsOfAll, Subtree.spots, member])⟩
      simp only at found listed
      rw [Subtree.id_branch, Tree.picture_own sound (clone.own id (by simp [nodesOfAll, Subtree.nodes])) found, listed,
        below.pictures sound separate, picture_of_accords separate accords, Subtree.draw]
termination_by sizeOf top

theorem Clone.pictures (sound : tree.WellFormed) (separate : Separate fittings) {forest : List Subtree}
    (clone : Clone tree hosts fittings forest) : tree.pictures sight hosts (weave fittings (forest.map Subtree.id)) =
      Subtree.drawAll sight (boundText? fittings) (fun id => tree.pictures sight hosts (behind fittings id)) forest := by
  cases forest with
  | nil => rfl
  | cons top rest =>
      have alone : nodesOfAll [top] = top.nodes ∧ spotsOfAll [top] = top.spots := by simp [nodesOfAll, spotsOfAll]
      have one : Clone tree hosts fittings [top] :=
        ⟨fun id member => clone.own id (List.mem_append_left _ (alone.1 ▸ member)),
          fun spot member => clone.kinds spot (List.mem_append_left _ (alone.2 ▸ member)),
          fun spot member => clone.children spot (List.mem_append_left _ (alone.2 ▸ member))⟩
      have others : Clone tree hosts fittings rest :=
        ⟨fun id member => clone.own id (List.mem_append_right _ member),
          fun spot member => clone.kinds spot (List.mem_append_right _ member),
          fun spot member => clone.children spot (List.mem_append_right _ member)⟩
      have split : weave fittings ((top :: rest).map Subtree.id) =
          top.id :: (behind fittings top.id ++ weave fittings (rest.map Subtree.id)) := rfl
      rw [split, Tree.pictures_cons, Tree.pictures_append, ← List.cons_append, one.pictures_top sound separate,
        others.pictures sound separate, Subtree.drawAll]
termination_by sizeOf forest

end

/-- A clone that is numbered from `first` on looks like the template with these inlays. -/
theorem Clone.draw {slots : List Slot} {body : List Subtree} {inlays : List Inlay} (sound : tree.WellFormed)
    (separate : Separate fittings) (clone : Clone tree hosts fittings (renumberAll first body))
    (inlaid : List.Forall₂ (Inlaid tree sight hosts first) inlays fittings) :
    tree.pictures sight hosts (weave fittings ((renumberAll first body).map Subtree.id)) =
      Blueprint.draw sight ⟨slots, body⟩ inlays := by
  have look : tree.pictures sight hosts _ = _ := clone.pictures sound separate
  rw [← Nat.add_zero first, Subtree.drawAll_renumberAll, Nat.add_zero] at look
  simp only [Inlaid.pictures_behind inlaid] at look
  rwa [funext fun place => funext fun name => Inlaid.boundText?_eq inlaid] at look

/-- What reading a layout takes. -/
structure Legible (premises : Premises) (tree : Tree) (cache : TemplateCache) (sight : Sight)
    (plan? : TemplateKind → Literal → Option Blueprint) (hosts : List NodeId) : Prop where
  wellFormed : tree.WellFormed
  bare : premises.bare
  leafy : sight = .whole → premises.leafy
  guests : ∀ id ∈ hosts, premises.guest id
  present : ∀ id ∈ hosts, ¬ premises.lost id
  /-- Instances were copied from what is planned for the literal. -/
  planned : ∀ {kind literal shared template original}, cache.findIdentity? kind literal = some shared →
    template.serial = shared.serial → premises.shape template original →
    ∃ id body, original = .branch id .fragment body ∧ plan? kind literal = some ⟨template.template.slots, body⟩ ∧
      (template.template.slots.filterMap Slot.attribute?).Nodup

namespace Legible

variable {cache : TemplateCache} {plan? : TemplateKind → Literal → Option Blueprint} {α : Type}
  (legible : Legible premises tree cache sight plan? hosts)
include legible

theorem own {id : NodeId} (own : ¬ premises.guest id) : id ∉ hosts := fun host => own (legible.guests id host)

theorem stop {first last : NodeId} (marked : Marked premises.guest premises.kept tree first last) :
    (tree.subtree last).picture sight hosts = .marker :=
  Tree.picture_marker legible.wellFormed (legible.own marked.stop_own) marked.stop marked.stop_leaf

theorem start {plot : Plot} (lined : Lined premises.survey premises.guest premises.kept tree plot) :
    (tree.subtree plot.part.start).picture sight hosts = .marker :=
  Tree.picture_marker legible.wellFormed (legible.own lined.start_own) lined.start lined.start_leaf

theorem text {id : NodeId} {data : String} (kind : tree.kindOf id = some (.text data)) (own : ¬ premises.guest id)
    (leaf : premises.leafy → tree.childrenOf id = []) : (tree.subtree id).picture sight hosts = .text data [] := by
  rw [Tree.picture_own legible.wellFormed (legible.own own) kind, Kind.picture]
  cases sight with
  | whole => rw [leaf (legible.leafy rfl), Tree.pictures_nil, Sight.below_nil]
  | surface => rfl

theorem row {blocks : List Block} {items : List α} {look : α → Option (List Picture)} {shows : α → NodePart → Prop}
    (solid : ∀ id, .stray id ∉ blocks)
    (marked : ∀ plot, .plot plot ∈ blocks → Lined premises.survey premises.guest premises.kept tree plot)
    (each : List.Forall₂ shows items (blocks.filterMap Block.part?))
    (inner : ∀ item ∈ items, ∀ plot, .plot plot ∈ blocks → shows item plot.part →
      look item = some (tree.pictures sight hosts plot.inner)) :
    ∃ shown, List.Forall₂ (fun item shown => look item = some shown) items shown ∧
      tree.pictures sight hosts (blocks.flatMap Block.nodes) = shown.flatMap Picture.framed := by
  induction blocks generalizing items with
  | nil =>
      cases each
      exact ⟨[], .nil, rfl⟩
  | cons block blocks ih =>
      cases block with
      | stray id => exact absurd (List.mem_cons_self ..) (solid id)
      | plot plot =>
          obtain ⟨item, items, here, rest, rfl⟩ := List.forall₂_cons_right_iff.1 each
          have start := legible.start (marked plot (List.mem_cons_self ..))
          have stop := legible.stop (marked plot (List.mem_cons_self ..)).toMarked
          obtain ⟨shown, looks, others⟩ := ih (fun id member => solid id (List.mem_cons_of_mem _ member))
            (fun plot member => marked plot (List.mem_cons_of_mem _ member)) rest fun item among plot member =>
              inner item (List.mem_cons_of_mem _ among) plot (List.mem_cons_of_mem _ member)
          refine ⟨_, .cons (inner item (List.mem_cons_self ..) plot (List.mem_cons_self ..) here) looks, ?_⟩
          rw [List.flatMap_cons, Tree.pictures_append, others, List.flatMap_cons]
          congr 1
          simp [Block.nodes, Plot.nodes, Picture.framed, start, stop]

theorem inlaid {count : Nat} {slots : List Slot} {values : List Value}
    (fit : List.Forall₂ (Fits (List.range' first count)) slots fittings)
    (parts : List.Forall₂ (fun value fitting => DepictsPart cache value (Fitting.part fitting)) values fittings)
    (marked : ∀ plot, .node plot ∈ fittings → Charted premises.survey premises.guest premises.kept tree plot)
    (inner : ∀ value ∈ values, ∀ plot, .node plot ∈ fittings → Depicts cache value plot.part.content →
      value.denote sight plan? = some (tree.pictures sight hosts plot.inner)) :
    ∃ shown, List.Forall₂ (fun value shown => value.denote sight plan? = some shown) values shown ∧
      List.Forall₂ (Inlaid tree sight hosts first)
        (List.zipWith (fun slot inlaid => slot.inlay inlaid.1 inlaid.2) slots (values.zip shown)) fittings := by
  induction fit generalizing values with
  | nil =>
      cases parts
      exact ⟨[], .nil, .nil⟩
  | @cons slot fitting slots fittings fits _ ih =>
      obtain ⟨value, values, here, rest, rfl⟩ := List.forall₂_cons_right_iff.1 parts
      obtain ⟨shown, looks, others⟩ := ih rest (fun plot member => marked plot (List.mem_cons_of_mem _ member))
        fun value among plot member => inner value (List.mem_cons_of_mem _ among) plot (List.mem_cons_of_mem _ member)
      cases fitting with
      | node plot =>
          obtain ⟨index, rfl, start⟩ := Fits.of_node fits
          cases here with
          | node depicts =>
              have last := legible.stop (marked plot (List.mem_cons_self ..)).toMarked
              have look := inner value (List.mem_cons_self ..) plot (List.mem_cons_self ..) depicts
              exact ⟨_, .cons look looks, .cons (.content start last) others⟩
      | label part =>
          obtain ⟨index, rfl, element⟩ := Fits.of_label fits
          cases here with
          | label same =>
              obtain ⟨look, seen⟩ := Value.denote_of_label sight same
              refine ⟨_, .cons seen looks, .cons ?_ others⟩
              show Inlaid tree sight hosts first (.label index part.name (value.label?.getD none)) (.label part)
              rw [same]
              exact .label element

end Legible

/-- A part that has its layout and shows what a value says looks like the value. -/
theorem Shows.pictures {cache : TemplateCache} {plan? : TemplateKind → Literal → Option Blueprint} {value : Value}
    {content : Content} {inner owned : List NodeId} (legible : Legible premises tree cache sight plan? hosts)
    (depicts : Depicts cache value content) (shows : Shows premises tree content inner owned)
    (leaves : ∀ id ∈ value.leaves, id ∈ hosts) : value.denote sight plan? = some (tree.pictures sight hosts inner) := by
  have sound := legible.wellFormed
  induction value using Value.nested generalizing content inner owned with
  | nothing =>
      cases depicts
      cases shows with
      | row arranged => exact arranged.elim
      | empty => rfl
  | text data =>
      cases depicts
      cases shows with
      | row arranged => exact arranged.elim
      | text kind own free leaf =>
          rw [Tree.pictures_cons, legible.text kind own leaf]
          rfl
  | node id =>
      have host := leaves id (List.mem_cons_self ..)
      cases depicts
      cases shows with
      | row arranged => exact arranged.elim
      | absent guest wanted gone => exact absurd gone (legible.present id host)
      | guest =>
          rw [Tree.pictures_cons, Tree.picture_host sound host]
          rfl
  | template kind literal values ih =>
      cases depicts with
      | @template _ _ _ shown shared known serial parts =>
          cases shows with
          | row arranged => exact arranged.elim
          | @template _ original forest reach fittings shape planted same fit _ own kinds children marked nested =>
              obtain ⟨id, body, rfl, plan, separate⟩ := legible.planned known serial shape
              cases planted with
              | solid _ _ _ solid => exact absurd rfl solid
              | loose first =>
                  rw [Subtree.nodesOfAll_renumberAll] at fit
                  rw [same, List.forall₂_map_right_iff] at parts
                  obtain ⟨shown, looks, inlaid⟩ := legible.inlaid fit parts marked fun value member plot listed depicts =>
                    ih value member depicts (nested plot listed) fun id leaf => leaves id (Value.mem_leavesOfAll member leaf)
                  have clone : Clone tree hosts fittings (renumberAll first body) :=
                    ⟨fun id member => legible.own (own id member).1, kinds, children⟩
                  rw [clone.draw sound (separate_of_fit fit separate) inlaid, Value.denote, plan,
                    Value.denoteEach_of_each looks]
                  rfl
  | list items ih =>
      cases depicts with
      | @list _ parts each =>
          cases shows with
          | @row blocks _ arranged marked shown strays complete =>
              rw [← arranged.1] at each
              obtain ⟨shown, looks, look⟩ := legible.row (complete legible.bare) marked each
                fun value member plot listed depicts =>
                  ih value member depicts (shown plot listed) fun id leaf => leaves id (Value.mem_leavesOfAll member leaf)
              rw [look, Value.denote, Value.denoteEach_of_each looks]
              rfl
  | keyed items ih =>
      cases depicts with
      | @keyed _ parts stats each =>
          cases shows with
          | @row blocks _ arranged marked shown strays complete =>
              have each := each (by simpa using arranged.2.symm)
              rw [← arranged.1] at each
              obtain ⟨shown, looks, look⟩ := legible.row (complete legible.bare) marked each
                fun item member plot listed depicts =>
                  ih item member depicts (shown plot listed) fun id leaf => leaves id (Value.mem_leavesOfItems member leaf)
              rw [look, Value.denote, Value.denoteItems_of_each looks]
              rfl

end Layout

end DomParts
