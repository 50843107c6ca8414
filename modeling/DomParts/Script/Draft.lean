import DomParts.Value

/-! # Drafts of values

A script writes values down as drafts. A draft names its literals, and may leave the making of keys to
the two ways of keying a list.
-/

namespace DomParts.Script

/-- A value as a script writes it. -/
inductive Draft where
  | nothing
  | text (data : String)
  | node (id : NodeId)
  /-- A template over the literal that was bound to a name. -/
  | template (kind : TemplateKind) (literal : String) (values : List Draft)
  | list (items : List Draft)
  /-- Exactly these keys and values. -/
  | pairs (items : List (Key × Draft))
  /-- Each number is the key of its own decimal text. -/
  | numbers (items : List Int)
  /-- Items known by their positions. -/
  | indexed (items : List Draft)
  deriving Inhabited

namespace Draft

mutual

/-- The value meant, or the name of a literal that is not bound. -/
def resolve (literals : List (String × Literal)) : Draft → Except String Value
  | .nothing => return .nothing
  | .text data => return .text data
  | .node id => return .node id
  | .template kind name values => do
      match literals.lookup name with
      | some literal => return .template kind literal (← resolveAll literals values)
      | none => throw name
  | .list items => return .list (← resolveAll literals items)
  | .pairs items => return .keyed (← resolvePairs literals items)
  | .numbers items =>
      return .keyed (← keyedPairs (fun number _ => return .int number)
        (fun number _ => return .text (toString number)) items)
  | .indexed items => do
      return .keyed (← indexedPairs (fun value _ => return value) (← resolveAll literals items))

def resolveAll (literals : List (String × Literal)) : List Draft → Except String (List Value)
  | [] => return []
  | first :: rest => return (← first.resolve literals) :: (← resolveAll literals rest)

def resolvePairs (literals : List (String × Literal)) :
    List (Key × Draft) → Except String (List (Key × Value))
  | [] => return []
  | (key, first) :: rest =>
      return (key, ← first.resolve literals) :: (← resolvePairs literals rest)

end

end Draft

/-- A call of one of the two makers of a keyed list's pairs. -/
inductive MakerCall where
  | key (item : String) (position : Nat)
  | value (item : String) (position : Nat)
  deriving Repr, DecidableEq

def record {α : Type} (call : MakerCall) (result : α) : StateM (List MakerCall) α := fun calls =>
  (result, calls ++ [call])

/-- The calls made while a keyed list is made of some texts, each of which is its own key and value, and
    the pairs. -/
def observePairs (indexed : Bool) (items : List String) : List (Key × Value) × List MakerCall :=
  let value (item : String) (position : Nat) := record (.value item position) (Value.text item)
  let key (item : String) (position : Nat) := record (.key item position) (Key.str item)
  (if indexed then indexedPairs value items else keyedPairs key value items).run []

end DomParts.Script
