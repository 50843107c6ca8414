import DomParts.Tree.Basic

/-! # Subtrees

A node with everything below it, as one value. What is read off a whole subtree (its text, its markup,
a copy of it) is a recursion over that value.
-/

namespace DomParts

/-- A node and its subtrees in order. -/
inductive Subtree where
  | branch (id : NodeId) (kind : Kind) (children : List Subtree)
  deriving Inhabited

namespace Subtree

def id : Subtree → NodeId
  | .branch id _ _ => id

mutual

/-- The nodes from the top down, each before its children. -/
def nodes : Subtree → List NodeId
  | .branch id _ children => id :: nodesOfAll children

/-- The nodes of several subtrees, one after the other. -/
def nodesOfAll : List Subtree → List NodeId
  | [] => []
  | first :: rest => first.nodes ++ nodesOfAll rest

end

mutual

/-- The text of every text node, from the top down. -/
def text : Subtree → String
  | .branch _ kind children => kind.ownText ++ textOfAll children

/-- The text of several subtrees, one after the other. -/
def textOfAll : List Subtree → String
  | [] => ""
  | first :: rest => first.text ++ textOfAll rest

end

def attributeMarkup : String × String → String
  | (name, value) => " " ++ name ++ "=" ++ Text.quoted value

mutual

/-- The subtree as markup. Text is written as it is, and the children of text or of a comment are
    not shown. -/
def markup : Subtree → String
  | .branch _ (.element name attributes) children =>
      "<" ++ name ++ String.join (attributes.map attributeMarkup) ++ ">" ++
        markupOfAll children ++ "</" ++ name ++ ">"
  | .branch _ (.text data) _ => data
  | .branch _ (.comment data) _ => "<!--" ++ data ++ "-->"
  | .branch _ .fragment children => markupOfAll children

/-- The markup of several subtrees, one after the other. -/
def markupOfAll : List Subtree → String
  | [] => ""
  | first :: rest => first.markup ++ markupOfAll rest

end

end Subtree

namespace Tree

/-- The subtree below a node, cut off at a depth. -/
def subtreeTo (tree : Tree) : Nat → NodeId → Subtree
  | 0, id => .branch id ((tree.kindOf id).getD .fragment) []
  | depth + 1, id =>
      .branch id ((tree.kindOf id).getD .fragment)
        ((tree.childrenOf id).map (tree.subtreeTo depth))

/-- The subtree below a node. No subtree is deeper than the tree has nodes. -/
def subtree (tree : Tree) (id : NodeId) : Subtree := tree.subtreeTo tree.size id

def markup (tree : Tree) (id : NodeId) : String :=
  Subtree.markupOfAll ((tree.childrenOf id).map tree.subtree)

/-- Makes a node that stands alone the last child of `parent`. -/
def adopt (tree : Tree) (parent id : NodeId) : Tree :=
  (tree.setParent id (some parent)).mapChildren parent (· ++ [id])

mutual

/-- Adds new nodes in the shape of a subtree, each before its children, and names the topmost. -/
def graft (tree : Tree) : Subtree → NodeId × Tree
  | .branch _ kind children =>
      let (copy, tree) := tree.create kind
      (copy, tree.graftAll copy children)

/-- Adds new nodes in the shape of several subtrees as the last children of `parent`. -/
def graftAll (tree : Tree) (parent : NodeId) : List Subtree → Tree
  | [] => tree
  | first :: rest =>
      let (copy, tree) := tree.graft first
      (tree.adopt parent copy).graftAll parent rest

end

/-- Copies a node with everything below it. The copy stands alone. -/
def cloneDeep (tree : Tree) (id : NodeId) : NodeId × Tree :=
  tree.graft (tree.subtree id)

/-! ## Walks in document order

Two loops that visit a subtree with a stack in hand: one gathers all of its text, the other stops
after a number of nodes.
-/

/-- Gathers the text of the nodes on a stack and of everything below them, from the top of the stack
    down. The loop is cut off after `fuel` nodes. -/
def gatherText (tree : Tree) : Nat → List NodeId → String → String
  | _, [], gathered => gathered
  | 0, _ :: _, gathered => gathered
  | fuel + 1, id :: stack, gathered =>
      tree.gatherText fuel (tree.childrenOf id ++ stack)
        (gathered ++ ((tree.kindOf id).map Kind.ownText).getD "")

/-- The text of all text nodes in a subtree, in document order. No node is met twice. -/
def textContent (tree : Tree) (id : NodeId) : String :=
  tree.gatherText tree.size [id] ""

/-- Walks on from `current`, for at most `limit` nodes. `pending` holds the siblings to return to once
    a subtree is done, the innermost first. -/
def walkFrom (tree : Tree) : Nat → Option NodeId → List NodeId → List NodeId
  | 0, _, _ => []
  | _ + 1, none, _ => []
  | limit + 1, some id, pending =>
      id ::
        match tree.firstChild id, tree.nextSibling id, pending with
        | some child, some sibling, pending => tree.walkFrom limit (some child) (sibling :: pending)
        | some child, none, pending => tree.walkFrom limit (some child) pending
        | none, some sibling, pending => tree.walkFrom limit (some sibling) pending
        | none, none, sibling :: pending => tree.walkFrom limit (some sibling) pending
        | none, none, [] => []

/-- From 2 ^ 60 nodes on, a list of them cannot be laid out: at eight bytes each it takes more than the
    2 ^ 63 - 1 bytes that a single object may have. -/
def roomLimit : Nat := 0x1000000000000000

/-- The first `limit` nodes below `root`, each before its children. Room is made for `limit` nodes before
    the first of them is visited, however few there are. -/
def walk (tree : Tree) (root : NodeId) (limit : Nat) : Option (List NodeId) :=
  if limit < roomLimit then some (tree.walkFrom limit (tree.firstChild root) []) else none

end Tree

end DomParts
