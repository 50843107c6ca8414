import DomParts.Text.Quoted

/-! # Keys

A key tells which item of a keyed list is which, from one render to the next. Keys are compared by
value; a position never equals a number, nor a number the text that spells it.
-/

namespace DomParts

/-- The identity of one item of a keyed list. -/
inductive Key where
  /-- The item's position, for lists that give no keys of their own. -/
  | index (position : Nat)
  /-- A number. -/
  | int (value : Int)
  /-- A text. -/
  | str (value : String)
  deriving Repr, DecidableEq, Inhabited

namespace Key

/-- A key for a reader: a position after a number sign, a plain number, or a quoted text. Which
    characters are hidden in a quoted text is a parameter. -/
def displayBy (hidden : Char → Bool) : Key → String
  | .index position => "#" ++ toString position
  | .int value => toString value
  | .str value => Text.quotedBy hidden value

def display (key : Key) : String := key.displayBy Text.isHidden

def describe : Key → String
  | .index position => "Index(" ++ toString position ++ ")"
  | .int value => "Int(" ++ toString value ++ ")"
  | .str value => "Str(" ++ Text.quoted value ++ ")"

def equalities (keys : List Key) : List (List Bool) :=
  keys.map fun row => keys.map fun column => row == column

end Key

end DomParts
