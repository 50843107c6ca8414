import DomParts.Proofs.Keyed.Shortcuts
import DomParts.Proofs.Render.Values
import DomParts.Proofs.Twins.Lockstep
import Mathlib.Data.List.Forall2

/-! # Twins

A list by position can be taken for a list by key whose keys are the positions. Two parts are twins if they
stand between the same markers and show the same, where one of them may show such a list by key instead of a
list by position, here or anywhere inside.
-/

namespace DomParts

variable {σ : Type}

namespace Value

mutual

/-- The value with positions for keys in place of each list by position, at any depth. -/
def indexed : Value → Value
  | .nothing => .nothing
  | .text data => .text data
  | .node id => .node id
  | .template kind literal values => .template kind literal (indexedAll values)
  | .list items => .keyed (indexedFrom 0 items)
  | .keyed items => .keyed (indexedItems items)

def indexedAll : List Value → List Value
  | [] => []
  | value :: values => value.indexed :: indexedAll values

/-- The items of a list by position with their positions, the first of which is given. -/
def indexedFrom (position : Nat) : List Value → List (Key × Value)
  | [] => []
  | value :: values => (.index position, value.indexed) :: indexedFrom (position + 1) values

/-- The same for values with keys, which they keep. -/
def indexedItems : List (Key × Value) → List (Key × Value)
  | [] => []
  | (key, value) :: items => (key, value.indexed) :: indexedItems items

end

mutual

def keys : Value → List Key
  | .nothing => []
  | .text _ => []
  | .node _ => []
  | .template _ _ values => keysOfAll values
  | .list items => keysOfAll items
  | .keyed items => keysOfItems items

def keysOfAll : List Value → List Key
  | [] => []
  | value :: values => value.keys ++ keysOfAll values

def keysOfItems : List (Key × Value) → List Key
  | [] => []
  | (key, value) :: items => key :: (value.keys ++ keysOfItems items)

end

/-- No list by key in the value goes by positions. -/
def Named (value : Value) : Prop := ∀ key ∈ value.keys, ∀ position, key ≠ .index position

theorem indexedAll_eq_map (values : List Value) : indexedAll values = values.map indexed := by
  induction values with
  | nil => rfl
  | cons value values ih => rw [indexedAll, ih, List.map_cons]

theorem indexedItems_eq_map (items : List (Key × Value)) :
    indexedItems items = items.map fun item => (item.1, item.2.indexed) := by
  induction items with
  | nil => rfl
  | cons item items ih => rw [indexedItems, ih, List.map_cons]

theorem keys_indexedFrom (position : Nat) (values : List Value) :
    (indexedFrom position values).map (·.1) = Keyed.positions position values.length := by
  induction values generalizing position with
  | nil => rfl
  | cons value values ih => rw [indexedFrom, List.map_cons, ih, List.length_cons, Keyed.positions_succ]

theorem values_indexedFrom (position : Nat) (values : List Value) :
    (indexedFrom position values).map (·.2) = values.map indexed := by
  induction values generalizing position with
  | nil => rfl
  | cons value values ih => rw [indexedFrom, List.map_cons, ih, List.map_cons]

theorem indexed_list (items : List Value) : (Value.list items).indexed =
    .keyed (Id.run (indexedPairs (fun value _ => pure value.indexed) items)) := by
  have pairs : ∀ position, indexedFrom position items = Id.run
      (pairsFrom (fun _ position => pure (.index position)) (fun value _ => pure value.indexed) position items) := by
    induction items with
    | nil => exact fun _ => rfl
    | cons value values ih =>
        intro position
        rw [indexedFrom, ih (position + 1)]
        rfl
  rw [indexed, pairs 0]
  rfl

theorem named_all {values : List Value} : (∀ key ∈ keysOfAll values, ∀ position, key ≠ .index position) ↔
    ∀ value ∈ values, value.Named := by
  induction values with
  | nil => exact ⟨fun _ => nofun, fun _ => nofun⟩
  | cons value values ih => rw [keysOfAll, List.forall_mem_append, ih, List.forall_mem_cons, Named]

theorem named_items {items : List (Key × Value)} : (∀ key ∈ keysOfItems items, ∀ position, key ≠ .index position) ↔
    (∀ item ∈ items, ∀ position, item.1 ≠ .index position) ∧ ∀ item ∈ items, item.2.Named := by
  induction items with
  | nil => exact ⟨fun _ => ⟨nofun, nofun⟩, fun _ => nofun⟩
  | cons item items ih =>
      rw [keysOfItems, List.forall_mem_cons, List.forall_mem_append, ih, List.forall_mem_cons, List.forall_mem_cons,
        Named]
      tauto

theorem named_template {kind : TemplateKind} {literal : Literal} {values : List Value} :
    (Value.template kind literal values).Named ↔ ∀ value ∈ values, value.Named := named_all

theorem named_list {items : List Value} : (Value.list items).Named ↔ ∀ value ∈ items, value.Named := named_all

theorem named_keyed {items : List (Key × Value)} : (Value.keyed items).Named ↔
    (∀ item ∈ items, ∀ position, item.1 ≠ .index position) ∧ ∀ item ∈ items, item.2.Named := named_items

end Value

mutual

/-- Two contents that look the same. -/
inductive Content.Twin : Content → Content → Prop where
  | empty : Content.Twin .empty .empty
  | text (data : String) : Content.Twin (.text data) (.text data)
  | node (id : NodeId) : Content.Twin (.node id) (.node id)
  | template {shown other : TemplateInstance} (template : other.template = shown.template)
      (parts : List.Forall₂ Part.Twin shown.parts other.parts) : Content.Twin (.template shown) (.template other)
  /-- A list by position and a list by key. -/
  | list {parts others : List NodePart} {stats : Stats} (each : List.Forall₂ NodePart.Twin parts others) :
      Content.Twin (.list parts) (.keyed (Keyed.positions 0 others.length) others stats)
  /-- Two lists by key, neither of which goes by positions. -/
  | keyed {keys : List Key} {parts others : List NodePart} {stats stats' : Stats}
      (named : ∀ key ∈ keys, ∀ position, key ≠ .index position) (each : List.Forall₂ NodePart.Twin parts others) :
      Content.Twin (.keyed keys parts stats) (.keyed keys others stats')
  | poisoned : Content.Twin .poisoned .poisoned

/-- Two parts between the same markers that look the same. -/
inductive NodePart.Twin : NodePart → NodePart → Prop where
  | intro {part other : NodePart} (start : other.start = part.start) (stop : other.stop = part.stop)
      (content : Content.Twin part.content other.content) : NodePart.Twin part other

inductive Part.Twin : Part → Part → Prop where
  | node {part other : NodePart} (twin : NodePart.Twin part other) : Part.Twin (.node part) (.node other)
  | attribute (part : AttributePart) : Part.Twin (.attribute part) (.attribute part)

end

end DomParts
