import DomParts.Part.Basic
import DomParts.Script.Draft
import DomParts.Script.Memory
import DomParts.Tree.Subtree

/-! # Steps of a script, and answers to them

A step changes or inspects one tree, or one of the contexts, parts, templates and caches that the
script has given names to.
-/

namespace DomParts.Script

/-- One step of a script. A name that is bound again stands for the new thing from then on. -/
inductive Step where
  | create (kind : Kind)
  | build (parent : NodeId) (specs : List Spec)
  | appendChild (parent node : NodeId)
  | insertBefore (parent node : NodeId) (before : Option NodeId)
  | removeChild (parent node : NodeId)
  | cloneDeep (node : NodeId)
  | setText (node : NodeId) (data : String)
  | isMarker (node : NodeId)
  | isText (node : NodeId)
  | parentNode (node : NodeId)
  | firstChild (node : NodeId)
  | nextSibling (node : NodeId)
  | kind (node : NodeId)
  | children (node : NodeId)
  | textContent (node : NodeId)
  | markup (node : NodeId)
  | subtree (node : NodeId)
  | getAttribute (node : NodeId) (name : String)
  | setAttribute (node : NodeId) (name value : String)
  | removeAttribute (node : NodeId) (name : String)
  | moveRun (container start : NodeId) (stop before : Option NodeId)
  | removeRun (container start : NodeId) (stop : Option NodeId) (hook? : Option Hook)
  /-- Binds a literal that is stored at a place of its own. -/
  | bindLiteral (name : String) (segments : List String)
  /-- Binds the first segments of another literal, at the other's place. -/
  | bindPart (name other : String) (count : Nat)
  | inspectTemplate (kind : TemplateKind) (literal : String) (values : List Draft)
  | bindContext (name : String) (processor : Processor) (hook? : Option Hook)
  | countTemplates (context : String)
  | showContext (context : String)
  | bindRoot (name context : String) (container : NodeId)
  | bindNodePart (name context : String) (container : NodeId)
  | bindAttributePart (name context : String) (element : NodeId) (attributeName : String)
  | render (part : String) (value : Draft)
  | stage (part : String) (value : Draft)
  | commit (part : String)
  | clear (part : String)
  | inspect (part : String)
  | bindTemplate (name : String) (template : Template)
  | bindInstance (name context template : String)
  | update (shown : String) (values : List Draft)
  | bindCache (name : String) (processor : Processor)
  | fetch (cache literal : String) (kind : TemplateKind)

/-- The answer to a step. -/
inductive Answer where
  /-- Done, with nothing to tell. -/
  | done
  | failed (error : Error)
  | node (id? : Option NodeId)
  | flag (value : Bool)
  | count (value : Nat)
  | text (value? : Option String)
  | nodes (ids : List NodeId)
  | kind (value : Kind)
  | subtree (value : Subtree)
  | templateValue (kind : TemplateKind) (segments : List String) (values : Nat)
  /-- The number of templates in a cache. -/
  | templates (count : Nat)
  | nodePart (part : NodePart)
  | attributePart (element : NodeId) (name : String)
  /-- How an operation on a node part went, the part, and the tree around it. -/
  | nodeState (result : Except Error Unit) (part : NodePart) (around : Except Error Subtree)
  /-- How an operation on an attribute part went, the attribute, and its element. -/
  | attributeState (result : Except Error Unit) (name : String) (element : Subtree)
  | template (value : Template)
  /-- A new instance's clone and parts, and whether it knows the template it was made of. -/
  | shownInstance (clone : Subtree) (parts : List Part) (same : Bool)
  /-- How an update went, and each part with the current text if it is an attribute's. -/
  | updated (result : Except Error Unit) (parts : List (Part × Option String))
  /-- What a cache found or why not, and the number of its templates. A template comes with its number
      among all those found by the script, and with its fragment. -/
  | fetched (result : Except Error (Nat × Template × Subtree)) (count : Nat)

/-- Why a script cannot go on. -/
inductive Halt where
  /-- The program stopped in the middle of a step. -/
  | crashed
  /-- A step used a name that is not bound to such a thing. -/
  | unknownName (name : String)
  deriving Repr, DecidableEq

/-- A step named a node that was never created, which stops the program. -/
@[match_pattern] abbrev Halt.noSuchNode : Halt := .crashed

/-- Everything that a step shows. -/
structure Response where
  /-- The answer, or why there is none, in which case this was the last step. -/
  answer : Except Halt Answer
  /-- The literals that were to be compiled. -/
  requests : List (TemplateKind × List String)
  /-- The targets and containers that removal hooks were asked about. -/
  questions : List (NodeId × NodeId)
  report : List Event

end DomParts.Script
