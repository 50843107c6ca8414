import DomParts.Part.Basic
import Mathlib.Logic.Function.Basic

/-! # Renamings

Other keys for the keys of a client and other texts for its texts. Keys and texts stay different if they were,
and a key may become one of another sort. Whatever a template says and whatever nodes there are stays.
-/

namespace DomParts

/-- Other keys and other texts. -/
structure Renaming where
  key : Key → Key
  text : String → String
  key_injective : Function.Injective key
  text_injective : Function.Injective text

variable (r : Renaming)

namespace Value

mutual

/-- The value with other keys and texts, at any depth. -/
def rename : Value → Value
  | .nothing => .nothing
  | .text data => .text (r.text data)
  | .node id => .node id
  | .template kind literal values => .template kind literal (renameAll values)
  | .list items => .list (renameAll items)
  | .keyed items => .keyed (renameItems items)

def renameAll : List Value → List Value
  | [] => []
  | value :: values => value.rename :: renameAll values

def renameItems : List (Key × Value) → List (Key × Value)
  | [] => []
  | (key, value) :: items => (r.key key, value.rename) :: renameItems items

end

theorem renameAll_eq_map (values : List Value) : renameAll r values = values.map (rename r) := by
  induction values with
  | nil => rfl
  | cons value values ih => rw [renameAll, ih, List.map_cons]

theorem renameItems_eq_map (items : List (Key × Value)) :
    renameItems r items = items.map fun item => (r.key item.1, item.2.rename r) := by
  induction items with
  | nil => rfl
  | cons item items ih => rw [renameItems, ih, List.map_cons]

end Value

def AttributePart.rename (part : AttributePart) : AttributePart :=
  { part with pending := part.pending.map (Value.rename r), committed := part.committed.map r.text }

mutual

/-- A part that shows the same with other keys and texts. -/
def NodePart.rename : NodePart → NodePart
  | ⟨start, stop, pending, content⟩ => ⟨start, stop, pending.map (Value.rename r), content.rename⟩

def Content.rename : Content → Content
  | .empty => .empty
  | .text data => .text (r.text data)
  | .node id => .node id
  | .template shown => .template shown.rename
  | .list parts => .list (NodePart.renameAll parts)
  | .keyed keys parts stats => .keyed (keys.map r.key) (NodePart.renameAll parts) stats
  | .poisoned => .poisoned

def NodePart.renameAll : List NodePart → List NodePart
  | [] => []
  | part :: parts => part.rename :: NodePart.renameAll parts

/-- A part of an instance that shows the same with other keys and texts. -/
def Part.rename : Part → Part
  | .node part => .node part.rename
  | .attribute part => .attribute (part.rename r)

/-- An instance that shows the same with other keys and texts. -/
def TemplateInstance.rename : TemplateInstance → TemplateInstance
  | ⟨template, parts⟩ => ⟨template, Part.renameAll parts⟩

def Part.renameAll : List Part → List Part
  | [] => []
  | part :: parts => part.rename :: Part.renameAll parts

end

namespace NodePart

theorem renameAll_eq_map (parts : List NodePart) : renameAll r parts = parts.map (rename r) := by
  induction parts with
  | nil => rw [renameAll, List.map_nil]
  | cons part parts ih => rw [renameAll, ih, List.map_cons]

variable (part : NodePart)

@[simp] theorem start_rename : (part.rename r).start = part.start := by
  cases part
  rw [rename]

@[simp] theorem stop_rename : (part.rename r).stop = part.stop := by
  cases part
  rw [rename]

@[simp] theorem content_rename : (part.rename r).content = part.content.rename r := by
  cases part
  rw [rename]

end NodePart

namespace Part

theorem renameAll_eq_map (parts : List Part) : renameAll r parts = parts.map (rename r) := by
  induction parts with
  | nil => rw [renameAll, List.map_nil]
  | cons part parts ih => rw [renameAll, ih, List.map_cons]

end Part

namespace TemplateInstance

variable (shown : TemplateInstance)

@[simp] theorem template_rename : (shown.rename r).template = shown.template := by
  cases shown
  rw [rename]

@[simp] theorem parts_rename : (shown.rename r).parts = shown.parts.map (Part.rename r) := by
  cases shown
  rw [rename, Part.renameAll_eq_map]

end TemplateInstance

namespace Content

variable (content : Content)

@[simp] theorem isPoisoned_rename : (content.rename r).isPoisoned = content.isPoisoned := by
  cases content <;> simp only [rename, isPoisoned]

@[simp] theorem text?_rename : (content.rename r).text? = content.text?.map r.text := by
  cases content <;> simp [rename, text?]

@[simp] theorem node?_rename : (content.rename r).node? = content.node? := by
  cases content <;> simp only [rename, node?]

@[simp] theorem instanceOf?_rename (shared : SharedTemplate) :
    (content.rename r).instanceOf? shared = (content.instanceOf? shared).map (TemplateInstance.rename r) := by
  cases content with
  | template shown =>
      simp only [rename, instanceOf?, TemplateInstance.template_rename]
      split <;> rfl
  | _ => simp only [rename, instanceOf?, Option.map_none]

end Content

@[simp] theorem NodePart.isPoisoned_rename (part : NodePart) : (part.rename r).isPoisoned = part.isPoisoned := by
  simp [NodePart.isPoisoned]

end DomParts
