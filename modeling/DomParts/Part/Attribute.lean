import DomParts.Part.Basic
import DomParts.Render.Scene

/-! # Attribute parts

An attribute part remembers the text it committed last and spares the host a change that would change
nothing.
-/

namespace DomParts.AttributePart

open RenderM

variable {σ : Type}

/-- Binds a part to an element's attribute as it is now. -/
def bind (element : NodeId) (name : String) : RenderM σ AttributePart := do
  return ⟨element, name, none, ← look (·.attribute? element name)⟩

/-- Gives the attribute a value, which has to be text or nothing. Whether there is anything to remove
    is forgotten even if the host then refuses to remove it. -/
def assign (part : AttributePart) : Value → Attempt σ AttributePart
  | .text data =>
      if part.committed = some data then .done part
      else
        .carry (edit (·.setAttribute part.element part.name data))
          (fun () => { part with committed := some data }) part
  | .nothing =>
      let bare := { part with committed := none }
      if part.committed.isNone then .done bare
      else .carry (edit (·.removeAttribute part.element part.name)) (fun () => bare) bare
  | other =>
      .carry
        (do
          note (.misfit other.describe part.name)
          throw (.usage other.describe))
        (fun () => part) part

/-- Commits the staged value. Without one nothing happens. -/
def commit (part : AttributePart) : Attempt σ AttributePart :=
  match part.pending with
  | none => .done part
  | some value => { part with pending := none }.assign value

end DomParts.AttributePart
