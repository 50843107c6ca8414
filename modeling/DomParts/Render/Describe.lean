import DomParts.Render.Scene

/-! # Descriptions for debugging

A context in full, as it is shown to someone who looks for a fault: every node with its links, the
number of templates, and whether a removal hook is in place.
-/

namespace DomParts

def describeParent : Option NodeId → String
  | some parent => "Some(" ++ parent.describe ++ ")"
  | none => "None"

def describeFields (name : String) (fields : List (String × String)) : String :=
  name ++ " \x7b " ++ String.intercalate ", " (fields.map fun (field, text) => field ++ ": " ++ text) ++
    " \x7d"

def describeItems (items : List String) : String := "[" ++ String.intercalate ", " items ++ "]"

def Node.describe (node : Node) : String :=
  describeFields "NodeData"
    [("kind", node.kind.describe), ("parent", describeParent node.parent),
      ("children", describeItems (node.children.map NodeId.describe))]

/-- All nodes of a tree in the order of their creation. -/
def Tree.describe (tree : Tree) : String :=
  describeFields "MemoryDom"
    [("nodes", describeFields "RefCell"
      [("value", describeItems (tree.nodes.toList.map Node.describe))])]

def describeContext {σ : Type} (tree : Tree) (cache : TemplateCache) (client : Client σ) : String :=
  describeFields "RenderContext"
    [("dom", tree.describe), ("templates", toString cache.size),
      ("removal_hook", if client.hook?.isSome then "true" else "false")]

end DomParts
