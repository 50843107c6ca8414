import DomParts.Render.Scene

/-! # Compiling templates on demand

A literal is compiled the first time its content is asked for. A failed compilation leaves no trace in
the cache, so the next request compiles again.
-/

namespace DomParts.RenderM

variable {σ : Type}

/-- Has the client compile a literal, and remembers the template by its content. -/
def compileNew (client : Client σ) (kind : TemplateKind) (literal : Literal) :
    RenderM σ SharedTemplate := do
  match ← consult (client.compile kind literal) with
  | .error error => throw error
  | .ok template =>
      note (.compiled template.slots.length)
      let scene ← get
      let shared := ⟨scene.cache.size, template⟩
      set { scene with cache := scene.cache.recordContent kind literal shared }
      return shared

/-- The template of a literal's content, which is compiled if there is none yet. -/
def contentTemplate (client : Client σ) (kind : TemplateKind) (literal : Literal) :
    RenderM σ SharedTemplate := do
  match (← get).cache.findContent? kind literal with
  | some shared =>
      note .foundByContent
      return shared
  | none => compileNew client kind literal

/-- The template of a literal. It is found without reading the literal if it was asked for before. -/
def templateFor (client : Client σ) (kind : TemplateKind) (literal : Literal) :
    RenderM σ SharedTemplate := do
  match (← get).cache.findIdentity? kind literal with
  | some shared =>
      note .foundByIdentity
      return shared
  | none =>
      let shared ← contentTemplate client kind literal
      modify fun scene => { scene with cache := scene.cache.recordIdentity kind literal shared }
      return shared

end DomParts.RenderM
