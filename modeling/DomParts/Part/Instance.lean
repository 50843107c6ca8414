import DomParts.Part.Attribute
import DomParts.Part.Node
import DomParts.Render.Compile
import DomParts.Tree.Subtree

/-! # Template instances

An instance is made by cloning a template's fragment and binding a part to each slot. All slots are
found before any part is bound, since binding a node part adds its end marker to the clone.
-/

namespace DomParts

open RenderM

variable {σ : Type}

namespace Part

/-- Binds a part to a slot, given the clone's nodes in document order. -/
def bind (nodes : List NodeId) (slot : Slot) : RenderM σ Part := do
  let id ← require (.template (.indexOutOfRange slot.index nodes.length)) nodes[slot.index]?
  match slot with
  | .node index =>
      if ¬ (← look (·.isMarker id)) then throw (.template (.notMarker index))
      let parent ← require (.template (.noParent index)) (← look (·.parentOf id))
      let stop ← create .marker
      insert parent stop (← look (·.nextSibling id))
      return .node (.between id stop)
  | .attribute _ name => return .attribute (← AttributePart.bind id name)

/-- Commits the staged value, which `render` is the renderer of. -/
def commitWith (render : Renderer σ) : Part → Attempt σ Part
  | .node part => (part.commitWith render).map .node
  | .attribute part => part.commit.map .attribute

/-- Commits parts one after the other up to the first failure. The parts behind it keep what was staged
    in them. -/
def commitEach : List (Part × Renderer σ) → Attempt σ (List Part)
  | [] => .done []
  | (part, render) :: rest => fun scene =>
      match (part.commitWith render).runOn scene with
      | ((part, .ok ()), scene) => ((commitEach rest).map (part :: ·)).runOn scene
      | ((part, .error error), scene) => ((part :: rest.map (·.1), .error error), scene)

end Part

namespace TemplateInstance

/-- Clones a template's fragment and binds a part to each slot. The clone is returned too, and stands
    alone. The walk over the clone has to reach the last slot, and is made room for in one piece. -/
def create (shared : SharedTemplate) : RenderM σ (TemplateInstance × NodeId) := do
  let fragment ← grow (·.cloneDeep shared.template.fragment)
  let nodes ← require .overflow (← look (·.walk fragment shared.template.reach))
  let parts ← shared.template.slots.mapM (Part.bind nodes)
  note (.bound parts.length)
  return (⟨shared, parts⟩, fragment)

/-- Stages a value in each part and then commits them in order. A wrong number of values is refused
    before any is staged. -/
def update (shown : TemplateInstance) (values : List (Rendering σ)) :
    Attempt σ TemplateInstance :=
  if values.length = shown.parts.length then
    let staged := shown.parts.zipWith
      (fun part rendering => (part.stage rendering.value, rendering.render)) values
    (Part.commitEach staged).map fun parts => { shown with parts }
  else .refused shown (.template (.valueCount shown.parts.length values.length))

end TemplateInstance

namespace Render

/-- Shows an instance of a template. An instance of the same template is given the new values;
    otherwise a new one is completed before the part's old content goes. -/
def template (client : Client σ) (kind : TemplateKind) (literal : Literal)
    (values : List (Rendering σ)) : Renderer σ := fun part => do
  let shared ← templateFor client kind literal
  match part.content.instanceOf? shared with
  | some shown =>
      note .instanceUpdated
      return .template (← (shown.update values).orThrow)
  | none =>
      note .instanceStarted
      let (shown, fragment) ← TemplateInstance.create shared
      let shown ← (shown.update values).orThrow
      part.removeContent
      part.insertContent fragment
      return .template shown

end Render

end DomParts
