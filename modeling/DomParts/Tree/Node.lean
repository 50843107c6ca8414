import DomParts.Text.Quoted

/-! # Nodes

What one node of a host tree holds. A tree names its nodes by the order of their creation, so a
node's name also says how many nodes came before it.
-/

namespace DomParts

/-- A node, named by its place in the order of creation. -/
abbrev NodeId := Nat

def NodeId.describe (id : NodeId) : String :=
  "NodeId(" ++ toString id ++ ")"

/-- The attributes of an element, each a name and a value, in the order in which they were first set. -/
abbrev Attributes := List (String × String)

namespace Attributes

/-- The value of the first attribute of that name. -/
def get? (attributes : Attributes) (name : String) : Option String := attributes.lookup name

/-- Gives an attribute a value: the value of the first attribute of that name is replaced, and if
    there is none, the attribute is added at the end. -/
def set (attributes : Attributes) (name value : String) : Attributes :=
  match attributes with
  | [] => [(name, value)]
  | (other, current) :: rest =>
      if other = name then (other, value) :: rest else (other, current) :: set rest name value

def erase (attributes : Attributes) (name : String) : Attributes :=
  attributes.filter (·.1 ≠ name)

def describePair : String × String → String
  | (name, value) => "(" ++ Text.quoted name ++ ", " ++ Text.quoted value ++ ")"

def describe (attributes : Attributes) : String :=
  "[" ++ String.intercalate ", " (attributes.map describePair) ++ "]"

end Attributes

/-- What a node is, apart from its place in the tree. -/
inductive Kind where
  /-- An element with its attributes. -/
  | element (name : String) (attributes : Attributes)
  /-- A run of text. -/
  | text (data : String)
  /-- A comment. One without data is a marker. -/
  | comment (data : String)
  /-- A loose sequence of nodes, which dissolves when it is inserted. -/
  | fragment
  deriving Repr, DecidableEq, Inhabited

namespace Kind

def plain (name : String) : Kind := .element name []

/-- An empty comment, which takes no room and so can mark a position. -/
def marker : Kind := .comment ""

/-- Whether this is an empty comment. -/
def isMarker : Kind → Bool
  | .comment data => data.isEmpty
  | _ => false

def isText : Kind → Bool
  | .text _ => true
  | _ => false

/-- The text that the node itself contributes to the text of a subtree. -/
def ownText : Kind → String
  | .text data => data
  | _ => ""

def attribute? (name : String) : Kind → Option String
  | .element _ attributes => attributes.get? name
  | _ => none

def describe : Kind → String
  | .element name attributes =>
      "Element \x7b name: " ++ Text.quoted name ++ ", attributes: " ++ attributes.describe ++ " \x7d"
  | .text data => "Text(" ++ Text.quoted data ++ ")"
  | .comment data => "Comment(" ++ Text.quoted data ++ ")"
  | .fragment => "Fragment"

end Kind

/-- A node together with its links to the nodes around it. -/
structure Node where
  kind : Kind
  /-- Absent for a node that stands at the top of a tree of its own. -/
  parent : Option NodeId
  children : List NodeId
  deriving Repr, DecidableEq, Inhabited

end DomParts
