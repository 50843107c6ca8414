import DomParts.Key
import DomParts.Tree.Node

/-! # Values

What can be rendered. A template value pairs the fixed segments of a template literal with the values
for the slots between them; a keyed list pairs each item with the key that identifies it.
-/

namespace DomParts

/-- The fixed text segments of a template. `site` is the place they are stored at: equal sites and
    equal numbers of segments mean equal segments. -/
structure Literal where
  site : Nat
  segments : List String
  deriving Repr, DecidableEq, Inhabited

/-- The markup language of a template. -/
inductive TemplateKind where
  | html
  | svg
  deriving Repr, DecidableEq, Inhabited

/-- Anything that a node part can render. -/
inductive Value where
  /-- No content. -/
  | nothing
  /-- A single text node. -/
  | text (data : String)
  /-- A node of the host, inserted as it is. -/
  | node (id : NodeId)
  /-- An instance of a template, with a value for each slot. -/
  | template (kind : TemplateKind) (literal : Literal) (values : List Value)
  /-- Items that are reused by position. -/
  | list (items : List Value)
  /-- Items that are reused by key. -/
  | keyed (items : List (Key × Value))
  deriving Inhabited

namespace Value

def describe : Value → String
  | .nothing => "nothing"
  | .text _ => "text"
  | .node _ => "a node"
  | .template .. => "a template"
  | .list _ => "a list"
  | .keyed _ => "\x60repeat\x60"

end Value

/-- Pairs each item with the key and the value made for it, in order. Both makers get the item and its
    position, the key's maker first; they may have effects of their own. -/
def pairsFrom {m : Type → Type} [Monad m] {α β γ : Type} (key : α → Nat → m β)
    (value : α → Nat → m γ) : Nat → List α → m (List (β × γ))
  | _, [] => pure []
  | position, item :: rest => do
      let first ← key item position
      let second ← value item position
      let others ← pairsFrom key value (position + 1) rest
      return (first, second) :: others

/-- The pairs of a keyed list, with keys made by `key`. -/
def keyedPairs {m : Type → Type} [Monad m] {α : Type} (key : α → Nat → m Key)
    (value : α → Nat → m Value) (items : List α) : m (List (Key × Value)) :=
  pairsFrom key value 0 items

/-- The pairs of a keyed list whose items are known by their positions. -/
def indexedPairs {m : Type → Type} [Monad m] {α : Type} (value : α → Nat → m Value)
    (items : List α) : m (List (Key × Value)) :=
  pairsFrom (fun _ position => pure (.index position)) value 0 items

end DomParts
