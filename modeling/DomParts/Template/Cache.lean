import DomParts.Template.Basic

/-! # The template cache

Templates are found again in two ways: by the place and length of their literal, which is cheap, and
by the content of its segments, which also serves equal literals at other places. Only the content
decides which templates there are; the first way is a shortcut to the second.
-/

namespace DomParts

/-- What identifies a literal without reading its segments. -/
structure LiteralId where
  site : Nat
  length : Nat
  deriving Repr, DecidableEq, Inhabited

namespace Literal

/-- The literal's place and length. -/
def id (literal : Literal) : LiteralId := ⟨literal.site, literal.segments.length⟩

/-- What stands between two segments in a content key. No markup can hold it. -/
def separator : String := "\x00reprise-part\x00"

/-- The segments joined into one text. -/
def contentKey (literal : Literal) : String := separator.intercalate literal.segments

end Literal

/-- The templates compiled so far. -/
structure TemplateCache where
  byIdentity : List ((TemplateKind × LiteralId) × SharedTemplate) := []
  byContent : List ((TemplateKind × String) × SharedTemplate) := []
  deriving Repr, DecidableEq, Inhabited

namespace TemplateCache

def empty : TemplateCache := ⟨[], []⟩

def size (cache : TemplateCache) : Nat := cache.byContent.length

/-- The template of this very literal, if it was asked for before. -/
def findIdentity? (cache : TemplateCache) (kind : TemplateKind) (literal : Literal) :
    Option SharedTemplate :=
  cache.byIdentity.lookup (kind, literal.id)

/-- The template of any literal with the same content. -/
def findContent? (cache : TemplateCache) (kind : TemplateKind) (literal : Literal) :
    Option SharedTemplate :=
  cache.byContent.lookup (kind, literal.contentKey)

/-- Remembers which template belongs to this very literal. -/
def recordIdentity (cache : TemplateCache) (kind : TemplateKind) (literal : Literal)
    (shared : SharedTemplate) : TemplateCache :=
  { cache with byIdentity := ((kind, literal.id), shared) :: cache.byIdentity }

/-- Remembers which template belongs to the literal's content. -/
def recordContent (cache : TemplateCache) (kind : TemplateKind) (literal : Literal)
    (shared : SharedTemplate) : TemplateCache :=
  { cache with byContent := ((kind, literal.contentKey), shared) :: cache.byContent }

end TemplateCache

end DomParts
