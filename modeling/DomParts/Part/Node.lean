import DomParts.Part.Basic
import DomParts.Render.Removal

/-! # Node parts

How a node part is made, cleared and committed, and how it takes the simplest contents. Rendering is
described by renderers: what a value makes of a part that shows something else. A renderer only says
what the part shows if all goes well; it is the commit that poisons the part otherwise.
-/

namespace DomParts

variable {σ : Type}

/-- Makes a part show something and says what it shows then. -/
abbrev Renderer (σ : Type) := NodePart → RenderM σ Content

/-- A value with what rendering it into a node part does. -/
structure Rendering (σ : Type) where
  value : Value
  render : Renderer σ

namespace NodePart

open RenderM

/-- Makes an empty part, and puts its markers into `container` before `before`, or at its end. -/
def insertInto (container : NodeId) (before : Option NodeId) : RenderM σ NodePart := do
  let start ← create .marker
  let stop ← create .marker
  insert container start before
  insert container stop before
  return between start stop

/-- The node that the part's markers are children of. -/
def container (part : NodePart) : RenderM σ NodeId := do
  require (.illegalMutation .startDetached) (← look (·.parentOf part.start))

def removeContent (part : NodePart) : RenderM σ Unit := do
  let first ← require (.illegalMutation .endDetached) (← look (·.nextSibling part.start))
  let _ ← removeRun (← part.container) first (some part.stop)

def insertContent (part : NodePart) (id : NodeId) : RenderM σ Unit := do
  insert (← part.container) id (some part.stop)

def attend (part : NodePart) (render : Renderer σ) : RenderM σ Content :=
  tryCatch (render part) fun error => do
    note (.commitFailed error)
    throw error

/-- Runs a renderer. The part then shows what the renderer says, or is poisoned. -/
def settle (part : NodePart) (render : Renderer σ) : Attempt σ NodePart :=
  .carry (part.attend render) (fun content => { part with content })
    { part with content := .poisoned }

/-- Commits the staged value, which `render` is the renderer of. Without a staged value nothing
    happens. A poisoned part drops the value and refuses. -/
def commitWith (part : NodePart) (render : Renderer σ) : Attempt σ NodePart :=
  match part.pending with
  | none => .done part
  | some _ =>
      let part := { part with pending := none }
      if part.isPoisoned then .refused part .poisoned else part.settle render

def renderWith (part : NodePart) (rendering : Rendering σ) : RenderM σ NodePart :=
  ((part.stage rendering.value).commitWith rendering.render).orThrow

/-- Removes the part's content. A poisoned part is usable again, even if that fails. -/
def clear (part : NodePart) : Attempt σ NodePart :=
  let part := { part with content := .empty }
  .carry part.removeContent (fun () => part) part

/-- The text node that is all there is between the markers, if so. -/
def loneText? (part : NodePart) : RenderM σ (Option NodeId) :=
  look fun tree =>
    (tree.nextSibling part.start).filter fun first =>
      tree.isText first && tree.nextSibling first == some part.stop

end NodePart

namespace Render

open RenderM

def nothing : Renderer σ := fun part => do
  part.removeContent
  return .empty

/-- Shows a text. A lone text node is given the new text, whoever put it there. -/
def text (data : String) : Renderer σ := fun part => do
  if part.content.text? = some data then return .text data
  match ← part.loneText? with
  | some id =>
      note .textUpdated
      edit (·.setText id data)
  | none =>
      let id ← create (.text data)
      part.removeContent
      part.insertContent id
  return .text data

/-- Shows a node of the host, unless the part is showing it already. -/
def node (id : NodeId) : Renderer σ := fun part => do
  if part.content.node? = some id then return .node id
  part.removeContent
  part.insertContent id
  return .node id

end Render

end DomParts
