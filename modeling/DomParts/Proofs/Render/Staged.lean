import DomParts.Part.Instance
import DomParts.Proofs.Render.Depicts

/-! # Staged values

Committing a part uses up the value that was staged in it, whatever comes of it, and leaves the part where it
is. Parts behind one that failed keep what was staged in them until another value is.
-/

namespace DomParts

open RenderM

variable {σ : Type} {scene after : Scene σ}

namespace Part

/-- Where the part is: its markers, or its element and the name of the attribute. -/
def outline : Part → Part
  | .node part => .node (.between part.start part.stop)
  | .attribute part => .attribute ⟨part.element, part.name, none, none⟩

def unstaged : Part → Part
  | .node part => .node { part with pending := none }
  | .attribute part => .attribute { part with pending := none }

@[simp] theorem unstaged_stage (part : Part) (value : Value) : (part.stage value).unstaged = part.unstaged := by
  cases part <;> rfl

/-- Staging values in parts makes no difference to what has nothing to do with that. -/
theorem map_staged {α : Type} {key : Part → α} (ignores : ∀ (part : Part) value, key (part.stage value) = key part)
    {parts : List Part} {items : List (Rendering σ)} (count : items.length = parts.length) :
    (parts.zipWith (fun part item => part.stage item.value) items).map key = parts.map key := by
  induction items generalizing parts with
  | nil =>
      obtain rfl := List.eq_nil_of_length_eq_zero count.symm
      rfl
  | cons item items ih =>
      obtain ⟨part, parts, rfl⟩ := List.exists_cons_of_length_eq_add_one count.symm
      rw [List.zipWith_cons_cons, List.map_cons, List.map_cons, ignores, ih (by simpa using count)]

@[simp] theorem stage_unstaged (part : Part) (value : Value) : part.unstaged.stage value = part.stage value := by
  cases part <;> rfl

theorem zipWith_stage {one two : List Part} (same : one.map unstaged = two.map unstaged) (items : List (Rendering σ)) :
    one.zipWith (fun part item => (part.stage item.value, item.render)) items =
      two.zipWith (fun part item => (part.stage item.value, item.render)) items := by
  have forgotten : ∀ parts : List Part, parts.zipWith (fun part item => (part.stage item.value, item.render)) items =
      (parts.map unstaged).zipWith (fun part item => (part.stage item.value, item.render)) items := by
    intro parts
    simp only [List.zipWith_map_left, stage_unstaged]
  rw [forgotten one, same, ← forgotten two]

end Part

/-- An attempt that went well gives its result if it is carried out as a computation. -/
theorem Attempt.orThrow_ok {α : Type} {attempt : Attempt σ α} {value : α}
    (ran : attempt.runOn scene = ((value, .ok ()), after)) : attempt.orThrow.runOn scene = (.ok value, after) := by
  have ran : attempt scene = ((value, .ok ()), after) := ran
  simp only [RenderM.runOn, orThrow, runOn, ran]

/-- Carrying out a computation leaves what is made of its result, or what there is for its failure. -/
theorem Attempt.carry_ended {α β : Type} {act : RenderM σ β} {kept : β → α} {broken value : α} {result : Except Error Unit}
    (ran : (Attempt.carry act kept broken).runOn scene = ((value, result), after)) :
    (∃ made, value = kept made) ∧ result = .ok () ∨ value = broken ∧ ∃ error, result = .error error := by
  rcases ended : act.runOn scene with ⟨error | made, last⟩
  · simp only [runOn, carry, ended] at ran
    cases ran
    exact .inr ⟨rfl, error, rfl⟩
  · simp only [runOn, carry, ended] at ran
    cases ran
    exact .inl ⟨⟨made, rfl⟩, rfl⟩

namespace AttributePart

variable {part : AttributePart} {value : Value}

theorem assign_misfit (misfit : value.label? = none) (part : AttributePart) (scene : Scene σ) :
    (part.assign value).runOn scene =
      ((part, .error (.usage value.describe)), scene.add (.misfit value.describe part.name)) := by
  cases value with
  | text data => cases misfit
  | nothing => cases misfit
  | _ => rfl

theorem assign_label {tag : String} {attributes : Attributes} {text? : Option String}
    (standing : scene.tree.kindOf part.element = some (.element tag attributes)) (label : value.label? = some text?) :
    (part.assign value).orThrow.Leads scene (fun _ _ => True) fun _ _ => False := by
  cases value with
  | text data =>
      rw [assign]
      split
      · trivial
      · simp [Tree.setAttribute, Tree.changeAttributes, Tree.changeKind, standing, Except.map]
  | nothing =>
      rw [assign]
      split
      · trivial
      · simp [Tree.removeAttribute, Tree.changeAttributes, Tree.changeKind, standing, Except.map]
  | _ => cases label

theorem assign_settled (idle : part.pending = none) {new : AttributePart} {result : Except Error Unit}
    (ran : (part.assign value).runOn scene = ((new, result), after)) :
    new.element = part.element ∧ new.name = part.name ∧ new.pending = none := by
  cases value with
  | text data =>
      simp only [assign] at ran
      split at ran
      · cases ran
        exact ⟨rfl, rfl, idle⟩
      · obtain ⟨⟨-, rfl⟩, -⟩ | ⟨rfl, -⟩ := Attempt.carry_ended ran <;> exact ⟨rfl, rfl, idle⟩
  | nothing =>
      simp only [assign] at ran
      split at ran
      · cases ran
        exact ⟨rfl, rfl, idle⟩
      · obtain ⟨⟨-, rfl⟩, -⟩ | ⟨rfl, -⟩ := Attempt.carry_ended ran <;> exact ⟨rfl, rfl, idle⟩
  | _ =>
      cases ran
      exact ⟨rfl, rfl, idle⟩

end AttributePart

theorem NodePart.commitWith_settled {part new : NodePart} {value : Value} {render : Renderer σ} {result : Except Error Unit}
    (ran : ((part.stage value).commitWith render).runOn scene = ((new, result), after)) :
    new.start = part.start ∧ new.stop = part.stop ∧ new.pending = none ∧
      ∀ error, result = .error error → new.isPoisoned = true := by
  by_cases poisoned : ({ part with pending := none } : NodePart).isPoisoned = true
  · simp only [commitWith, stage, poisoned, if_true] at ran
    cases ran
    exact ⟨rfl, rfl, rfl, fun _ _ => poisoned⟩
  · simp only [commitWith, stage, poisoned, Bool.false_eq_true, if_false, settle] at ran
    obtain ⟨⟨content, rfl⟩, rfl⟩ | ⟨rfl, error, rfl⟩ := Attempt.carry_ended ran
    · exact ⟨rfl, rfl, rfl, by simp⟩
    · exact ⟨rfl, rfl, rfl, fun _ _ => rfl⟩

namespace Part

variable {value : Value} {render : Renderer σ} {error : Error} {result : Except Error Unit} {new : Part}

theorem commitWith_of_node {part : NodePart}
    (ran : (((Part.node part).stage value).commitWith render).runOn scene = ((new, result), after)) :
    ∃ left, new = .node left ∧ ((part.stage value).commitWith render).runOn scene = ((left, result), after) := by
  rcases inner : ((part.stage value).commitWith render).runOn scene with ⟨⟨left, outcome⟩, last⟩
  have same : (((Part.node part).stage value).commitWith render).runOn scene = ((.node left, outcome), last) :=
    congrArg (fun ended => ((Part.node ended.1.1, ended.1.2), ended.2)) inner
  cases same.symm.trans ran
  exact ⟨left, rfl, rfl⟩

theorem commitWith_of_attribute {part : AttributePart}
    (ran : (((Part.attribute part).stage value).commitWith render).runOn scene = ((new, result), after)) :
    ∃ left, new = .attribute left ∧
      (({ part with pending := none } : AttributePart).assign value).runOn scene = ((left, result), after) := by
  rcases inner : (({ part with pending := none } : AttributePart).assign value).runOn scene with ⟨⟨left, outcome⟩, last⟩
  have same : (((Part.attribute part).stage value).commitWith render).runOn scene = ((.attribute left, outcome), last) :=
    congrArg (fun ended => ((Part.attribute ended.1.1, ended.1.2), ended.2)) inner
  cases same.symm.trans ran
  exact ⟨left, rfl, rfl⟩

theorem poisoned_of_node {part : NodePart}
    (ran : (((Part.node part).stage value).commitWith render).runOn scene = ((new, .error error), after)) :
    ∃ left : NodePart, new = .node left ∧ left.isPoisoned = true := by
  obtain ⟨left, rfl, inner⟩ := commitWith_of_node ran
  obtain ⟨-, -, -, poisoned⟩ := NodePart.commitWith_settled inner
  exact ⟨left, rfl, poisoned error rfl⟩

/-- An attribute part of an element fails only if it is given what is neither text nor nothing, and nothing comes of
    that but a report. -/
theorem misfit_of_attribute {part : AttributePart} {tag : String} {attributes : Attributes}
    (standing : scene.tree.kindOf part.element = some (.element tag attributes))
    (ran : (((Part.attribute part).stage value).commitWith render).runOn scene = ((new, .error error), after)) :
    value.label? = none ∧ new = .attribute { part with pending := none } ∧ error = .usage value.describe ∧
      after = scene.add (.misfit value.describe part.name) := by
  obtain ⟨left, rfl, inner⟩ := commitWith_of_attribute ran
  cases label : value.label? with
  | none =>
      rw [AttributePart.assign_misfit label] at inner
      cases inner
      exact ⟨rfl, rfl, rfl, rfl⟩
  | some text? =>
      have standing : scene.tree.kindOf ({ part with pending := none } : AttributePart).element =
        some (.element tag attributes) := standing
      obtain ⟨_, _, went, -⟩ := (AttributePart.assign_label standing label).attempted
      rw [inner] at went
      cases went

theorem commitEach_ok {part : Part} (rest : List (Part × Renderer σ))
    (ran : (part.commitWith render).runOn scene = ((new, .ok ()), after)) :
    (commitEach ((part, render) :: rest)).runOn scene =
      ((new :: ((commitEach rest).runOn after).1.1, ((commitEach rest).runOn after).1.2),
        ((commitEach rest).runOn after).2) := by
  simp only [commitEach, Attempt.runOn] at ran ⊢
  simp only [ran]
  rfl

theorem commitEach_error {part : Part} (rest : List (Part × Renderer σ))
    (ran : (part.commitWith render).runOn scene = ((new, .error error), after)) :
    (commitEach ((part, render) :: rest)).runOn scene = ((new :: rest.map (·.1), .error error), after) := by
  simp only [commitEach, Attempt.runOn] at ran ⊢
  simp only [ran]

theorem commitWith_settled {part : Part}
    (ran : ((part.stage value).commitWith render).runOn scene = ((new, result), after)) :
    new.outline = part.outline ∧ new.unstaged = new := by
  cases part with
  | node part =>
      obtain ⟨left, rfl, inner⟩ := commitWith_of_node ran
      obtain ⟨start, stop, idle, -⟩ := NodePart.commitWith_settled inner
      cases left
      cases start
      cases stop
      cases idle
      exact ⟨rfl, rfl⟩
  | «attribute» part =>
      obtain ⟨left, rfl, inner⟩ := commitWith_of_attribute ran
      obtain ⟨element, name, idle⟩ := AttributePart.assign_settled rfl inner
      cases left
      cases element
      cases name
      cases idle
      exact ⟨rfl, rfl⟩

end Part

namespace TemplateInstance

variable {shown next : TemplateInstance} {values : List (Rendering σ)} {result : Except Error Unit}

theorem update_miscounted (miscount : values.length ≠ shown.parts.length) (scene : Scene σ) :
    (shown.update values).runOn scene =
      ((shown, .error (.template (.valueCount shown.parts.length values.length))), scene) := by
  rw [update, if_neg miscount]
  rfl

theorem update_counted (count : values.length = shown.parts.length)
    (ran : (shown.update values).runOn scene = ((next, result), after)) : next.template = shown.template ∧
      (Part.commitEach (shown.parts.zipWith (fun part item => (part.stage item.value, item.render)) values)).runOn scene =
        ((next.parts, result), after) := by
  rcases committed : (Part.commitEach (shown.parts.zipWith (fun part item => (part.stage item.value, item.render))
    values)).runOn scene with ⟨⟨parts, outcome⟩, last⟩
  have same : (shown.update values).runOn scene = (({ shown with parts }, outcome), last) := by
    rw [update, if_pos count]
    exact congrArg (fun ended => (({ shown with parts := ended.1.1 }, ended.1.2), ended.2)) committed
  cases same.symm.trans ran
  exact ⟨rfl, committed⟩

end TemplateInstance

end DomParts
