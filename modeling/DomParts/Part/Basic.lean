import DomParts.Keyed.Plan
import DomParts.Template.Basic

/-! # Parts

A part is a position that values are rendered into, together with what it shows at the moment. A node
part owns the nodes between its two markers; an attribute part owns one attribute of an element. A
value is first staged and takes effect when the part is committed.
-/

namespace DomParts

/-- An attribute of one element. A value that the element had before counts as committed. -/
structure AttributePart where
  element : NodeId
  name : String
  /-- The staged value. -/
  pending : Option Value
  /-- The text that the attribute is believed to have. -/
  committed : Option String
  deriving Inhabited

mutual

/-- Child content between two markers. -/
structure NodePart where
  /-- The marker before the content. -/
  start : NodeId
  /-- The marker behind the content. -/
  stop : NodeId
  /-- The staged value. -/
  pending : Option Value
  content : Content

/-- What a node part shows. -/
inductive Content where
  /-- No nodes. -/
  | empty
  /-- One text node with this text. -/
  | text (data : String)
  /-- A node of the host. -/
  | node (id : NodeId)
  /-- The clone of a template's fragment. -/
  | template (shown : TemplateInstance)
  /-- One part after the other. -/
  | list (parts : List NodePart)
  /-- One part after the other, each with its key, and what the latest pass did. -/
  | keyed (keys : List Key) (parts : List NodePart) (stats : Stats)
  /-- Whatever a failed commit left behind. -/
  | poisoned

/-- A part of a template instance. -/
inductive Part where
  | node (part : NodePart)
  | attribute (part : AttributePart)

/-- The live parts in one clone of a template's fragment, one for each slot. -/
structure TemplateInstance where
  template : SharedTemplate
  parts : List Part

end

namespace Content

def text? : Content → Option String
  | .text data => some data
  | _ => none

def node? : Content → Option NodeId
  | .node id => some id
  | _ => none

/-- The instance shown, if it is one of that template. -/
def instanceOf? (shared : SharedTemplate) : Content → Option TemplateInstance
  | .template shown => if shown.template.serial = shared.serial then some shown else none
  | _ => none

def isPoisoned : Content → Bool
  | .poisoned => true
  | _ => false

def items : Content → List NodePart
  | .list parts => parts
  | .keyed _ parts _ => parts
  | _ => []

/-- What the latest pass did, if a keyed list is shown. -/
def stats? : Content → Option Stats
  | .keyed _ _ stats => some stats
  | _ => none

end Content

namespace NodePart

/-- An empty part between two markers. -/
def between (start stop : NodeId) : NodePart := ⟨start, stop, none, .empty⟩

/-- Whether a commit into this part failed since it was last cleared. -/
def isPoisoned (part : NodePart) : Bool := part.content.isPoisoned

/-- Stages a value for the next commit. A value that was staged before is forgotten. -/
def stage (value : Value) (part : NodePart) : NodePart := { part with pending := some value }

end NodePart

namespace AttributePart

/-- Stages a value for the next commit. A value that was staged before is forgotten. -/
def stage (value : Value) (part : AttributePart) : AttributePart :=
  { part with pending := some value }

end AttributePart

namespace Part

def stage (value : Value) : Part → Part
  | .node part => .node (part.stage value)
  | .attribute part => .attribute (part.stage value)

end Part

end DomParts
