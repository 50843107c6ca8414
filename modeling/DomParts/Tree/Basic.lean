import DomParts.Error

/-! # Trees of nodes

A tree holds every node that was ever created, attached or not, so a node keeps its name for good.
Parents and children are recorded on both sides; the operations that change them keep both in step.
-/

namespace DomParts

/-- All nodes created so far, in the order of their creation. -/
structure Tree where
  nodes : Array Node := #[]
  deriving Repr, DecidableEq, Inhabited

namespace Tree

def empty : Tree := ⟨#[]⟩

def size (tree : Tree) : Nat := tree.nodes.size

def node? (tree : Tree) (id : NodeId) : Option Node := tree.nodes[id]?

def has (tree : Tree) (id : NodeId) : Bool := decide (id < tree.size)

def kindOf (tree : Tree) (id : NodeId) : Option Kind := (tree.node? id).map (·.kind)

/-- The node that `id` is a child of, if it is attached. -/
def parentOf (tree : Tree) (id : NodeId) : Option NodeId := (tree.node? id).bind (·.parent)

def childrenOf (tree : Tree) (id : NodeId) : List NodeId :=
  ((tree.node? id).map (·.children)).getD []

def firstChild (tree : Tree) (id : NodeId) : Option NodeId := (tree.childrenOf id).head?

/-- What comes right after the first occurrence of a node in a list of nodes. -/
def following (id : NodeId) : List NodeId → Option NodeId
  | [] => none
  | first :: rest => if first = id then rest.head? else following id rest

/-- The child that follows `id` under the same parent. -/
def nextSibling (tree : Tree) (id : NodeId) : Option NodeId :=
  (tree.parentOf id).bind fun parent => following id (tree.childrenOf parent)

/-- Whether the node is an empty comment. -/
def isMarker (tree : Tree) (id : NodeId) : Bool := ((tree.kindOf id).map Kind.isMarker).getD false

def isText (tree : Tree) (id : NodeId) : Bool := ((tree.kindOf id).map Kind.isText).getD false

def attribute? (tree : Tree) (id : NodeId) (name : String) : Option String :=
  (tree.kindOf id).bind (·.attribute? name)

/-- Whether `ancestor` is met on the way up from `id`, which counts as its own ancestor. The walk is
    cut off after `fuel` nodes. -/
def climbsTo (tree : Tree) (ancestor : NodeId) : Nat → NodeId → Bool
  | 0, _ => false
  | fuel + 1, id =>
      if id = ancestor then true
      else match tree.parentOf id with
        | some parent => tree.climbsTo ancestor fuel parent
        | none => false

/-- Whether `id` is `ancestor` or lies somewhere below it. No way up is longer than the tree has
    nodes. -/
def isWithin (tree : Tree) (ancestor id : NodeId) : Bool :=
  tree.climbsTo ancestor (tree.size + 1) id

def create (tree : Tree) (kind : Kind) : NodeId × Tree :=
  (tree.size, ⟨tree.nodes.push ⟨kind, none, []⟩⟩)

def update (tree : Tree) (id : NodeId) (change : Node → Node) : Tree :=
  ⟨tree.nodes.modify id change⟩

/-- Changes what a node is and leaves its links alone. -/
def setKind (tree : Tree) (id : NodeId) (kind : Kind) : Tree :=
  tree.update id fun node => { node with kind }

def mapChildren (tree : Tree) (id : NodeId) (change : List NodeId → List NodeId) : Tree :=
  tree.update id fun node => { node with children := change node.children }

/-- Says which node `id` is a child of, without telling the parent. -/
def setParent (tree : Tree) (id : NodeId) (parent : Option NodeId) : Tree :=
  tree.update id fun node => { node with parent }

end Tree

end DomParts
