import DomParts.Script.Spec
import DomParts.Template.Basic

/-! # Scripted compilation

A script says in advance what becomes of a literal. What it says nothing about is compiled as plain
text, with a slot between each two segments.
-/

namespace DomParts.Script

/-- What becomes of a literal with exactly these segments, of this kind if one is given. -/
structure Recipe where
  segments : List String
  kind? : Option TemplateKind
  /-- An error, or what the fragment holds and where its slots are. -/
  outcome : Except Error (List Spec × List Slot)

/-- How literals are compiled: the first requests fail, then the first recipe that fits applies, and a
    literal without a recipe becomes a template of plain text. -/
structure Processor where
  failures : Nat := 0
  recipes : List Recipe := []

namespace Recipe

def fits (recipe : Recipe) (kind : TemplateKind) (literal : Literal) : Bool :=
  recipe.segments = literal.segments && (recipe.kind?.getD kind) = kind

end Recipe

namespace Processor

def textPiece (segment : String) : List Kind :=
  if segment.isEmpty then [] else [.text segment]

def textPieces : List String → List Kind
  | [] => []
  | first :: rest => textPiece first ++ rest.flatMap fun segment => .marker :: textPiece segment

def markerSlots : Nat → List Kind → List Slot
  | _, [] => []
  | index, kind :: rest =>
      if kind.isMarker then .node index :: markerSlots (index + 1) rest
      else markerSlots (index + 1) rest

/-- Creates nodes as the last children of `parent`. -/
def appendKinds (parent : NodeId) : List Kind → BuildM Unit
  | [] => return ()
  | kind :: rest => do
      let _ ← Spec.attach parent kind
      appendKinds parent rest

/-- Makes a template whose fragment is filled by `fill`. -/
def assemble (tree : Tree) (fill : NodeId → BuildM Unit) (slots : List Slot) :
    Except Error Template × Tree :=
  let (fragment, tree) := tree.create .fragment
  match (fill fragment).run.run tree with
  | (.ok (), tree) => (.ok ⟨fragment, slots⟩, tree)
  | (.error fault, tree) => (.error (.host fault), tree)

/-- The template for a literal, when `earlier` literals were to be compiled before it. -/
def compile (processor : Processor) (earlier : Nat) (kind : TemplateKind) (literal : Literal)
    (tree : Tree) : Except Error Template × Tree :=
  if earlier < processor.failures then (.error (.template (.stated "not yet")), tree)
  else match processor.recipes.find? (·.fits kind literal) with
    | some recipe =>
        match recipe.outcome with
        | .error error => (.error error, tree)
        | .ok (specs, slots) => assemble tree (Spec.buildAll · specs) slots
    | none =>
        let pieces := textPieces literal.segments
        assemble tree (appendKinds · pieces) (markerSlots 0 pieces)

end Processor

end DomParts.Script
