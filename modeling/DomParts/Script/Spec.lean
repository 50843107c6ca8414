import DomParts.Tree.Edit

/-! # Node specifications

A script writes nodes down as a nested specification and has them built below a node that exists.
-/

namespace DomParts.Script

/-- A node to build. -/
inductive Spec where
  /-- An element, with attributes to set one after the other, and what to build below it. -/
  | element (name : String) (attributes : Attributes) (children : List Spec)
  | text (data : String)
  | comment (data : String)
  deriving Inhabited

/-- Adding nodes to a tree. If the tree refuses on the way, what was added before stays. -/
abbrev BuildM := ExceptT HostFault (StateM Tree)

namespace Spec

/-- Attributes set one after the other, so that a later one replaces an earlier one of its name. -/
def gather (attributes : Attributes) : Attributes :=
  attributes.foldl (fun gathered (name, value) => gathered.set name value) []

/-- Creates a node and makes it the last child of `parent`. The node stays, on its own, if the tree
    refuses to attach it, which it does if `parent` is the very node that was created. -/
def attach (parent : NodeId) (kind : Kind) : BuildM NodeId := do
  let (id, grown) := (← get).create kind
  set grown
  match grown.appendChild parent id with
  | .ok attached =>
      set attached
      return id
  | .error fault => throw fault

mutual

/-- Builds a node below `parent`, the node before its children. -/
def build (parent : NodeId) : Spec → BuildM Unit
  | .element name attributes children => do
      let id ← attach parent (.element name (gather attributes))
      buildAll id children
  | .text data => do
      let _ ← attach parent (.text data)
  | .comment data => do
      let _ ← attach parent (.comment data)

/-- Builds nodes below `parent`, one after the other. -/
def buildAll (parent : NodeId) : List Spec → BuildM Unit
  | [] => return ()
  | first :: rest => do
      first.build parent
      buildAll parent rest

end

end Spec

end DomParts.Script
