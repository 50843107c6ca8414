import DomParts.Tree.Node

/-! # Errors

Every way in which rendering can fail, by its cause. The wording of a cause is its `message`.
Whoever compiles templates reports failures of its own, so each family of causes has a member that
is stated in free words.
-/

namespace DomParts

/-- Why the host tree refused an operation. -/
inductive HostFault where
  /-- A node that has to be a child of `parent` is not. -/
  | notChild (node parent : NodeId)
  /-- A node was to be inserted below itself. -/
  | intoOwnSubtree (node : NodeId)
  /-- Text was to be set on a node of another kind. -/
  | expectedText (found : Kind)
  /-- An attribute was to be changed on a node of another kind. -/
  | expectedElement (found : Kind)
  /-- The tree holds no such node. -/
  | noSuchNode (node : NodeId)
  /-- The run never ended, because it was being moved behind itself. -/
  | endlessRun
  /-- A reason in free words. -/
  | stated (reason : String)
  deriving Repr, DecidableEq

/-- How the nodes of a part were found to be changed by someone else. -/
inductive MutationFault where
  /-- A part's start marker has no parent. -/
  | startDetached
  /-- Nothing follows a part's start marker, not even its end marker. -/
  | endDetached
  /-- A node of a run left its container before its turn to be removed. -/
  | leftContainer
  /-- A reason in free words. -/
  | stated (reason : String)
  deriving Repr, DecidableEq

/-- How a compiled template misfits its own fragment or the values given to it. -/
inductive TemplateFault where
  /-- A slot's index is not below the number of nodes. -/
  | indexOutOfRange (index count : Nat)
  /-- The node at a node slot's index is not a marker. -/
  | notMarker (index : Nat)
  /-- The marker at a node slot's index has no parent. -/
  | noParent (index : Nat)
  /-- The number of values is not the number of slots. -/
  | valueCount (expected got : Nat)
  /-- A reason in free words. -/
  | stated (reason : String)
  deriving Repr, DecidableEq

/-- What can go wrong while values are rendered into parts. Nothing is tried again: an error that
    escapes a commit leaves the part poisoned. -/
inductive Error where
  /-- A value was committed into a position that cannot hold that kind of value. -/
  | usage (what : String)
  /-- The nodes of a part were changed by someone else. -/
  | illegalMutation (fault : MutationFault)
  /-- A template fits neither its values nor its own fragment. -/
  | template (fault : TemplateFault)
  /-- The host tree refused an operation. -/
  | host (fault : HostFault)
  /-- An earlier commit into the same part failed. -/
  | poisoned
  /-- More room was asked for than there can be. This one is not handed to anyone: the program stops. -/
  | overflow
  deriving Repr, DecidableEq

def HostFault.reason : HostFault → String
  | .notChild node parent => node.describe ++ " is not a child of " ++ parent.describe ++ "."
  | .intoOwnSubtree node => "Can't insert " ++ node.describe ++ " into its own subtree."
  | .expectedText found => "Expected text but found " ++ found.describe ++ "."
  | .expectedElement found => "Expected element but found " ++ found.describe ++ "."
  | .noSuchNode node => node.describe ++ " does not exist."
  | .endlessRun => "The run has no end."
  | .stated reason => reason

def MutationFault.reason : MutationFault → String
  | .startDetached => "a part's start marker was detached"
  | .endDetached => "a part's end marker was detached"
  | .leftContainer => "a node in a removed range is no longer attached to its container"
  | .stated reason => reason

def TemplateFault.reason : TemplateFault → String
  | .indexOutOfRange index count =>
      "part index " ++ toString index ++ " is out of range for a fragment of " ++
        toString count ++ " node(s)"
  | .notMarker index =>
      "node part at index " ++ toString index ++ " doesn't point at a marker"
  | .noParent index => "marker at index " ++ toString index ++ " has no parent"
  | .valueCount expected got =>
      "expected " ++ toString expected ++ " value(s) but got " ++ toString got
  | .stated reason => reason

namespace Error

def message : Error → String
  | .usage what => what ++ " can only be used for list/child content"
  | .illegalMutation fault => "illegal mutation: " ++ fault.reason
  | .template fault => "malformed template: " ++ fault.reason
  | .host fault => "host DOM operation failed: " ++ fault.reason
  | .poisoned => "the part is poisoned by an earlier failed commit; clear it before reuse"
  | .overflow => "capacity overflow"

def family : Error → String
  | .usage _ => "Usage"
  | .illegalMutation _ => "IllegalMutation"
  | .template _ => "Template"
  | .host _ => "Host"
  | .poisoned => "Poisoned"
  | .overflow => "Panic"

def reason? : Error → Option String
  | .usage what => some what
  | .illegalMutation fault => some fault.reason
  | .template fault => some fault.reason
  | .host fault => some fault.reason
  | .poisoned => none
  | .overflow => none

def describe (error : Error) : String :=
  match error.reason? with
  | some reason => error.family ++ "(" ++ Text.quoted reason ++ ")"
  | none => error.family

end Error

end DomParts
