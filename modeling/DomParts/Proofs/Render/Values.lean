import DomParts.Render.Value

/-! # Values and what they replace

Values hold values in lists, with keys or without. What holds of a value as soon as it holds of the
values in it holds of every value. What a list replaces is either a list of its own sort, whose parts are
used again, or something else that goes first.
-/

namespace DomParts

namespace Value

variable {σ : Type} {client : Client σ}

@[elab_as_elim]
theorem nested {motive : Value → Prop} (nothing : motive .nothing) (text : ∀ data, motive (.text data))
    (node : ∀ id, motive (.node id))
    (template : ∀ kind literal values, (∀ value ∈ values, motive value) →
      motive (.template kind literal values))
    (list : ∀ items, (∀ value ∈ items, motive value) → motive (.list items))
    (keyed : ∀ items : List (Key × Value), (∀ item ∈ items, motive item.2) → motive (.keyed items))
    (value : Value) : motive value :=
  match value with
  | .nothing => nothing
  | .text data => text data
  | .node id => node id
  | .template kind literal values => template kind literal values fun value _ =>
      nested nothing text node template list keyed value
  | .list items => list items fun value _ => nested nothing text node template list keyed value
  | .keyed items => keyed items fun item _ => nested nothing text node template list keyed item.2
termination_by sizeOf value
decreasing_by
  · have := List.sizeOf_lt_of_mem ‹value ∈ values›
    simp only [Value.template.sizeOf_spec]
    omega
  · have := List.sizeOf_lt_of_mem ‹value ∈ items›
    simp only [Value.list.sizeOf_spec]
    omega
  · have := List.sizeOf_lt_of_mem ‹item ∈ items›
    obtain ⟨key, value⟩ := item
    simp only [Value.keyed.sizeOf_spec, Prod.mk.sizeOf_spec] at this ⊢
    omega

theorem renderings_eq_map (values : List Value) :
    renderings client values = values.map (rendering client) := by
  induction values with
  | nil => rfl
  | cons value values ih => simp only [renderings, List.map_cons, ih, rendering]

theorem keyedRenderings_eq_map (items : List (Key × Value)) :
    keyedRenderings client items = items.map fun item => (item.1, rendering client item.2) := by
  induction items with
  | nil => rfl
  | cons item items ih => simp only [keyedRenderings, List.map_cons, ih, rendering]

end Value

theorem Content.instanceOf?_eq_some {content : Content} {shared : SharedTemplate} {shown : TemplateInstance}
    (found : content.instanceOf? shared = some shown) :
    content = .template shown ∧ shown.template.serial = shared.serial := by
  unfold instanceOf? at found
  split at found
  · split at found
    · cases found
      exact ⟨rfl, ‹_›⟩
    · cases found
  · cases found

namespace Render

open Keyed RenderM

variable {σ : Type} {part : NodePart}

section List

variable {items : List (Rendering σ)}

theorem list_of_parts {parts : List NodePart} (content : part.content = .list parts) :
    Render.list items part = (do
      let container ← part.container
      let shown ← intoParts container part.stop parts items
      truncate container part.stop parts items.length
      return .list shown) := by
  simp only [Render.list, content, pure_bind]

theorem list_of_other (other : ∀ parts, part.content ≠ .list parts) :
    Render.list items part = (do
      part.removeContent
      let container ← part.container
      let shown ← intoParts container part.stop [] items
      truncate container part.stop [] items.length
      return .list shown) := by
  unfold Render.list
  split
  · exact absurd ‹_› (other _)
  · simp only [pure_bind]

end List

section Keyed

variable {client : Client σ} {items : List (Key × Rendering σ)}

/-- What happens once the parts shown before are known. -/
def keyedFrom (client : Client σ) (items : List (Key × Rendering σ)) (part : NodePart) (oldKeys : List Key)
    (old : List NodePart) : RenderM σ Content := do
  let container ← part.container
  let duplicates := (Window.ofKeys (items.map (·.1))).duplicates
  if duplicates > 0 then note (.duplicateKeys duplicates)
  let setting := ⟨client, container, part.stop, old, items.map (·.2)⟩
  let pass ← Setting.performAll setting (.start items.length) (plan oldKeys (items.map (·.1)))
  note (.passDone pass.stats)
  return .keyed (items.map (·.1)) pass.parts pass.stats

theorem keyed_of_keyed {keys : List Key} {parts : List NodePart} {stats : Stats}
    (content : part.content = .keyed keys parts stats) :
    Render.keyed client items part = keyedFrom client items part keys parts := by
  simp only [Render.keyed, content, pure_bind]
  rfl

theorem keyed_of_other (other : ∀ keys parts stats, part.content ≠ .keyed keys parts stats) :
    Render.keyed client items part = (do
      part.removeContent
      keyedFrom client items part [] []) := by
  unfold Render.keyed
  split
  · exact absurd ‹_› (other _ _ _)
  · simp only [pure_bind]
    rfl

end Keyed

end Render

end DomParts
