import DomParts.Tree.Basic

/-! # Changing a tree

Each operation first looks for a reason to refuse and then cannot fail any more, so a refused
operation leaves the tree as it was.
-/

namespace DomParts.Tree

/-- Takes a node out of its parent's children. A node without a parent stays as it is. -/
def detach (tree : Tree) (id : NodeId) : Tree :=
  match tree.parentOf id with
  | some parent => (tree.setParent id none).mapChildren parent (·.filter (· ≠ id))
  | none => tree

/-- Takes each of the nodes out of its parent's children. -/
def detachAll (tree : Tree) (ids : List NodeId) : Tree := ids.foldl detach tree

/-- Tells each of the nodes that it is a child of `parent`. -/
def setParents (tree : Tree) (parent : NodeId) (ids : List NodeId) : Tree :=
  ids.foldl (fun tree id => tree.setParent id (some parent)) tree

/-- Puts nodes in front of `before`, or behind all others if there is no such node. -/
def splice (before : Option NodeId) (moved siblings : List NodeId) : List NodeId :=
  match before with
  | some before =>
      siblings.takeWhile (· ≠ before) ++ moved ++ siblings.dropWhile (· ≠ before)
  | none => siblings ++ moved

/-- Moves nodes, wherever they are, below `parent` and in front of `before`. -/
def place (tree : Tree) (parent : NodeId) (moved : List NodeId) (before : Option NodeId) : Tree :=
  ((tree.detachAll moved).setParents parent moved).mapChildren parent (splice before moved)

/-- The nodes that come along when a node is inserted: a fragment stands for its children. -/
def payload (tree : Tree) (id : NodeId) : List NodeId :=
  if tree.kindOf id = some .fragment then tree.childrenOf id else [id]

/-- Why nothing can be inserted into `parent` before `before`, if that is so. -/
def referenceFault? (tree : Tree) (parent before : NodeId) : Option HostFault :=
  if ¬ tree.has before then some (.noSuchNode before)
  else if tree.parentOf before ≠ some parent then some (.notChild before parent)
  else none

/-- Why `id` cannot be inserted into `parent` before `before`, if that is so. -/
def insertFault? (tree : Tree) (parent id : NodeId) (before : Option NodeId) :
    Option HostFault :=
  match before.bind (tree.referenceFault? parent) with
  | some fault => some fault
  | none =>
      if tree.isWithin id parent then some (.intoOwnSubtree id)
      else if ¬ tree.has parent then some (.noSuchNode parent)
      else if ¬ tree.has id then some (.noSuchNode id)
      else none

/-- Inserts a node into `parent` before `before`, or as its last child. An attached node is moved, and
    a fragment is emptied into the place. Before itself, a node stays where it is. -/
def insertBefore (tree : Tree) (parent id : NodeId) (before : Option NodeId) :
    Except HostFault Tree :=
  match tree.insertFault? parent id before with
  | some fault => .error fault
  | none =>
      let before := if before = some id then tree.nextSibling id else before
      .ok (tree.place parent (tree.payload id) before)

def appendChild (tree : Tree) (parent id : NodeId) : Except HostFault Tree :=
  tree.insertBefore parent id none

def removeChild (tree : Tree) (parent id : NodeId) : Except HostFault Tree :=
  if ¬ tree.has id then .error (.noSuchNode id)
  else if tree.parentOf id ≠ some parent then .error (.notChild id parent)
  else .ok (tree.detach id)

def changeKind (tree : Tree) (id : NodeId) (change : Kind → Except HostFault Kind) :
    Except HostFault Tree :=
  match tree.kindOf id with
  | some kind => (change kind).map (tree.setKind id)
  | none => .error (.noSuchNode id)

def setText (tree : Tree) (id : NodeId) (data : String) : Except HostFault Tree :=
  tree.changeKind id fun
    | .text _ => .ok (.text data)
    | other => .error (.expectedText other)

def changeAttributes (tree : Tree) (id : NodeId)
    (change : Attributes → Attributes) : Except HostFault Tree :=
  tree.changeKind id fun
    | .element name attributes => .ok (.element name (change attributes))
    | other => .error (.expectedElement other)

def setAttribute (tree : Tree) (id : NodeId) (name value : String) : Except HostFault Tree :=
  tree.changeAttributes id (·.set name value)

/-- Removes an attribute from an element. A missing one is no error. -/
def removeAttribute (tree : Tree) (id : NodeId) (name : String) : Except HostFault Tree :=
  tree.changeAttributes id (·.erase name)

/-! ## Runs of siblings

A run starts at a node and ends right before another one, or with the last sibling. If both are the
same node, the run is empty. The next sibling is read before a node is touched, so a run may be taken
apart while it is walked. A refused operation ends the walk; what was done until then stays done.
-/

/-- Changes a tree node by node along a run, and counts the nodes. The walk is cut off after `fuel`
    nodes. -/
def overRun (visit : Tree → NodeId → Except HostFault Tree) (stop : Option NodeId) :
    Nat → Option NodeId → Nat → Tree → Except HostFault Nat × Tree
  | _, none, count, tree => (.ok count, tree)
  | fuel, some id, count, tree =>
      if stop = some id then (.ok count, tree)
      else match fuel with
        | 0 => (.error .endlessRun, tree)
        | fuel + 1 =>
            match visit tree id with
            | .error fault => (.error fault, tree)
            | .ok changed => overRun visit stop fuel (tree.nextSibling id) (count + 1) changed

/-- Moves a run into `container` before `before`, or behind its last child. -/
def moveRun (tree : Tree) (container start : NodeId) (stop before : Option NodeId) :
    Except HostFault Nat × Tree :=
  overRun (fun tree id => tree.insertBefore container id before) stop tree.size (some start) 0 tree

def removeRun (tree : Tree) (container start : NodeId) (stop : Option NodeId) :
    Except HostFault Nat × Tree :=
  overRun (fun tree id => tree.removeChild container id) stop tree.size (some start) 0 tree

end DomParts.Tree
