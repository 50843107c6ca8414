import DomParts.Part.Instance
import DomParts.Part.Keyed
import DomParts.Part.List

/-! # Rendering values

What a value makes of a node part, by recursion on the value: the contents of a template, a list or a
keyed list are renderers themselves by the time their container is rendered. Above that stand the
entry points: committing a part, and roots.
-/

namespace DomParts

variable {σ : Type}

namespace Value

mutual

def render (client : Client σ) : Value → Renderer σ
  | .nothing => Render.nothing
  | .text data => Render.text data
  | .node id => Render.node id
  | .template kind literal values => Render.template client kind literal (renderings client values)
  | .list items => Render.list (renderings client items)
  | .keyed items => Render.keyed client (keyedRenderings client items)

def renderings (client : Client σ) : List Value → List (Rendering σ)
  | [] => []
  | value :: values => ⟨value, value.render client⟩ :: renderings client values

def keyedRenderings (client : Client σ) : List (Key × Value) → List (Key × Rendering σ)
  | [] => []
  | (key, value) :: items => (key, ⟨value, value.render client⟩) :: keyedRenderings client items

end

def rendering (client : Client σ) (value : Value) : Rendering σ := ⟨value, value.render client⟩

end Value

namespace NodePart

def commit (client : Client σ) (part : NodePart) : Attempt σ NodePart :=
  part.commitWith ((part.pending.getD .nothing).render client)

end NodePart

namespace Part

def commit (client : Client σ) : Part → Attempt σ Part
  | .node part => (part.commit client).map .node
  | .attribute part => part.commit.map .attribute

end Part

namespace TemplateInstance

def assign (client : Client σ) (shown : TemplateInstance) (values : List Value) :
    Attempt σ TemplateInstance :=
  shown.update (Value.renderings client values)

end TemplateInstance

/-- A value rendered into a container, behind the children that the container had before. -/
structure Root where
  part : NodePart

namespace Root

open RenderM

/-- Puts the markers of a root at the end of `container`. -/
def create (container : NodeId) : RenderM σ Root := do
  let part ← NodePart.insertInto container none
  note .rootCreated
  return ⟨part⟩

/-- Renders a value in place of what was rendered before. -/
def render (client : Client σ) (value : Value) (root : Root) : Attempt σ Root :=
  ((root.part.stage value).commit client).map .mk

def clear (root : Root) : Attempt σ Root := root.part.clear.map .mk

end Root

end DomParts
