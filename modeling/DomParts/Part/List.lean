import DomParts.Part.Node

/-! # Lists by position

The item at a position is rendered into the part at that position. Parts are added at the end and
dropped at the end, whatever the items are.
-/

namespace DomParts.Render

open RenderM

variable {σ : Type}

/-- Renders each item into the next part. Once the parts run out, new ones are made before `stop`. -/
def intoParts (container stop : NodeId) :
    List NodePart → List (Rendering σ) → RenderM σ (List NodePart)
  | _, [] => return []
  | [], item :: items => do
      let fresh ← NodePart.insertInto container (some stop)
      let shown ← fresh.renderWith item
      return shown :: (← intoParts container stop [] items)
  | part :: parts, item :: items => do
      let shown ← part.renderWith item
      return shown :: (← intoParts container stop parts items)

/-- Removes the nodes of all parts but the first `count`. -/
def truncate (container stop : NodeId) (parts : List NodePart) (count : Nat) : RenderM σ Unit := do
  match parts[count]? with
  | some stale =>
      note (.truncated parts.length count)
      let _ ← removeRun container stale.start (some stop)
  | none => return ()

/-- Shows one item after the other, each in the part that showed the item at its position. -/
def list (items : List (Rendering σ)) : Renderer σ := fun part => do
  let parts ← match part.content with
    | .list parts => pure parts
    | _ => do
        part.removeContent
        pure []
  let container ← part.container
  let shown ← intoParts container part.stop parts items
  truncate container part.stop parts items.length
  return .list shown

end DomParts.Render
