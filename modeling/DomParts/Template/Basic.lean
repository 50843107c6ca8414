import DomParts.Value

/-! # Compiled templates

A template is a prepared fragment together with the places in it that take values. A place is given
by the number of nodes that come before it in document order, the fragment itself not counted.
-/

namespace DomParts

/-- A place in a template that takes one value. -/
inductive Slot where
  /-- Content after the marker at that index. -/
  | node (index : Nat)
  /-- An attribute of the element at that index. -/
  | attribute (index : Nat) (name : String)
  deriving Repr, DecidableEq, Inhabited

/-- The number of nodes that come before the slot's own. -/
def Slot.index : Slot → Nat
  | .node index => index
  | .attribute index _ => index

/-- A prepared fragment and its slots, one for each value. -/
structure Template where
  fragment : NodeId
  slots : List Slot
  deriving Repr, DecidableEq, Inhabited

/-- How many nodes of the fragment have to be known to find every slot. -/
def Template.reach (template : Template) : Nat :=
  template.slots.foldl (fun reach slot => max reach (slot.index + 1)) 0

/-- A template as a cache hands it out. Of the templates of one cache, `serial` tells which is which. -/
structure SharedTemplate where
  serial : Nat
  template : Template
  deriving Repr, DecidableEq, Inhabited

end DomParts
