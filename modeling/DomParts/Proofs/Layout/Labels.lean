import DomParts.Proofs.Layout.Taken
import DomParts.Proofs.Tree.Attributes

/-! # Labels

What a part says about its attribute, and what the element of the clone has then.
-/

namespace DomParts

namespace Layout

variable {fittings ahead behind : List Fitting} {part new : AttributePart} {plot : Plot} {id : NodeId}
  {name : String} {planned kind : Kind}

theorem boundText?_append : boundText? (ahead ++ behind) id name =
    (boundText? ahead id name).or (boundText? behind id name) := List.findSome?_append

@[simp] theorem boundText?_node : boundText? (.node plot :: fittings) id name = boundText? fittings id name :=
  rfl

theorem boundText?_label : boundText? (.label part :: fittings) id name =
    if part.element = id ∧ part.name = name then some part.committed else boundText? fittings id name := by
  by_cases here : part.element = id ∧ part.name = name <;> simp [boundText?, here]

theorem boundText?_eq_none (unbound : (id, name) ∉ fittings.filterMap Fitting.attribute?) :
    boundText? fittings id name = none := by
  induction fittings with
  | nil => rfl
  | cons fitting fittings ih =>
      cases fitting with
      | node plot => exact ih unbound
      | label part =>
          have cons : (Fitting.label part :: fittings).filterMap Fitting.attribute? =
              (part.element, part.name) :: fittings.filterMap Fitting.attribute? := rfl
          rw [cons, List.mem_cons, not_or] at unbound
          have elsewhere : ¬ (part.element = id ∧ part.name = name) := by
            rintro ⟨rfl, rfl⟩
            exact unbound.1 rfl
          rw [boundText?_label, if_neg elsewhere, ih unbound.2]

theorem boundText?_own (separate : Separate (ahead ++ .label part :: behind)) :
    boundText? (ahead ++ .label part :: behind) part.element part.name = some part.committed := by
  have cons : (Fitting.label part :: behind).filterMap Fitting.attribute? =
      (part.element, part.name) :: behind.filterMap Fitting.attribute? := rfl
  rw [Separate, List.filterMap_append, cons, List.nodup_middle, List.nodup_cons, List.mem_append,
    not_or] at separate
  rw [boundText?_append, boundText?_eq_none separate.1.1, boundText?_label, if_pos ⟨rfl, rfl⟩]
  rfl

theorem boundText?_other (different : ¬ (part.element = id ∧ part.name = name)) :
    boundText? (ahead ++ .label part :: behind) id name = boundText? (ahead ++ behind) id name := by
  rw [boundText?_append, boundText?_append, boundText?_label, if_neg different]

section Committed

variable (element : new.element = part.element) (label : new.name = part.name)
include element label

theorem separate_committed : Separate (ahead ++ .label new :: behind) ↔
    Separate (ahead ++ .label part :: behind) := by
  have same : Fitting.attribute? (.label new) = Fitting.attribute? (.label part) := by
    simp only [Fitting.attribute?, element, label]
  simp only [Separate, List.filterMap_append, List.filterMap_cons, same]

theorem Accords.committed {tag : String} {attributes changed : Attributes}
    (accords : Accords (ahead ++ .label part :: behind) part.element planned (.element tag attributes))
    (values : ∀ other, changed.get? other =
      if other = part.name then new.committed else attributes.get? other) :
    Accords (ahead ++ .label new :: behind) part.element planned (.element tag changed) := by
  cases planned with
  | element kind planned =>
      obtain ⟨_, same, accords⟩ := accords
      cases same
      refine ⟨changed, rfl, fun separate other => ?_⟩
      by_cases here : other = part.name
      · have own := boundText?_own separate
        rw [element, label] at own
        rw [values, if_pos here, here, own]
        rfl
      · have before : ¬ (part.element = part.element ∧ part.name = other) := fun same => here same.2.symm
        have beyond : ¬ (new.element = part.element ∧ new.name = other) :=
          fun same => here (label ▸ same.2.symm)
        rw [values, if_neg here, accords ((separate_committed element label).1 separate),
          boundText?_other before, boundText?_other beyond]
  | _ => cases accords

theorem Accords.elsewhere (accords : Accords (ahead ++ .label part :: behind) id planned kind)
    (apart : part.element ≠ id) : Accords (ahead ++ .label new :: behind) id planned kind := by
  cases planned with
  | element kind planned =>
      obtain ⟨attributes, same, accords⟩ := accords
      refine ⟨attributes, same, fun separate other => ?_⟩
      have before : ¬ (part.element = id ∧ part.name = other) := fun same => apart same.1
      have beyond : ¬ (new.element = id ∧ new.name = other) := fun same => apart (element ▸ same.1)
      rw [accords ((separate_committed element label).1 separate) other, boundText?_other before,
        boundText?_other beyond]
  | _ => exact accords

theorem Accords.relabel (accords : Accords (ahead ++ .label part :: behind) id planned kind)
    (committed : new.committed = part.committed) :
    Accords (ahead ++ .label new :: behind) id planned kind := by
  have texts : ∀ name, boundText? (ahead ++ .label new :: behind) id name =
      boundText? (ahead ++ .label part :: behind) id name := by
    intro name
    rw [boundText?_append, boundText?_append, boundText?_label, boundText?_label, element, label, committed]
  cases planned <;> simpa only [Accords, texts, separate_committed element label] using accords

end Committed

theorem accords_rendered {old rendered : Plot} {taken : List NodeId} :
    Accords (ahead.map (Fitting.without taken) ++ .node rendered :: behind.map (Fitting.without taken)) id
        planned kind ↔ Accords (ahead ++ .node old :: behind) id planned kind := by
  have texts : ∀ name, boundText?
        (ahead.map (Fitting.without taken) ++ .node rendered :: behind.map (Fitting.without taken)) id name =
      boundText? (ahead ++ .node old :: behind) id name := by
    intro name
    rw [boundText?_append, boundText?_append, boundText?_node, boundText?_node, boundText?_without,
      boundText?_without]
  have separate : Separate
        (ahead.map (Fitting.without taken) ++ .node rendered :: behind.map (Fitting.without taken)) ↔
      Separate (ahead ++ .node old :: behind) := by
    have skip : ∀ plot : Plot, Fitting.attribute? (.node plot) = none := fun _ => rfl
    simp [Separate, List.filterMap_append, List.filterMap_map, skip]
  cases planned <;> simp only [Accords, texts, separate]

theorem Accords.joined (accords : Accords fittings id planned kind) :
    Accords (fittings ++ [.node plot]) id planned kind := by
  have texts : ∀ name, boundText? (fittings ++ [.node plot]) id name = boundText? fittings id name := by
    intro name
    rw [boundText?_append, boundText?_node]
    exact Option.or_none
  have separate : Separate (fittings ++ [.node plot]) ↔ Separate fittings := by
    have skip : [Fitting.node plot].filterMap Fitting.attribute? = [] := rfl
    rw [Separate, List.filterMap_append, skip, List.append_nil]
    rfl
  cases planned <;> simpa only [Accords, texts, separate] using accords

theorem Accords.bound (accords : Accords fittings id planned kind)
    (known : part.element = id → part.committed = kind.attribute? part.name) :
    Accords (fittings ++ [.label part]) id planned kind := by
  cases planned with
  | element tag planned =>
      obtain ⟨attributes, rfl, accords⟩ := accords
      refine ⟨attributes, rfl, fun separate other => ?_⟩
      have fewer : Separate fittings := by
        simp only [Separate, List.filterMap_append] at separate ⊢
        exact (List.nodup_append'.1 separate).1
      by_cases here : part.element = id ∧ part.name = other
      · obtain ⟨rfl, rfl⟩ := here
        rw [boundText?_own separate, known rfl]
        rfl
      · rw [accords fewer other, boundText?_other here, List.append_nil]
  | _ => exact accords

end Layout

end DomParts
