import DomParts.Proofs.Tree.WellFormed
import DomParts.Tree.Edit

/-! # Attributes

What setting and removing an attribute does to the values that are found by name and to the names, and
which node an attribute can be changed on.
-/

namespace DomParts

namespace Attributes

variable {attributes : Attributes} {name other value : String}

theorem get?_cons {first : String × String} :
    get? (first :: attributes) name = if first.1 = name then some first.2 else attributes.get? name := by
  obtain ⟨key, value⟩ := first
  by_cases same : key = name
  · subst same
    simp [get?]
  · have : (name == key) = false := by simpa using Ne.symm same
    simp [get?, List.lookup_cons, this, same]

theorem get?_set : (attributes.set name value).get? other =
    if other = name then some value else attributes.get? other := by
  induction attributes with
  | nil =>
      by_cases same : other = name
      · simp [set, get?, same]
      · have different : (other == name) = false := by simpa using same
        simp [set, get?, same, List.lookup_cons, different]
  | cons first attributes ih =>
      obtain ⟨key, current⟩ := first
      by_cases here : key = name
      · subst here
        by_cases same : other = key
        · simp [set, get?_cons, same]
        · simp [set, get?_cons, same, Ne.symm same]
      · by_cases same : key = other
        · subst same
          simp [set, get?_cons, here]
        · simp [set, get?_cons, here, same, ih]

theorem get?_erase : (attributes.erase name).get? other =
    if other = name then none else attributes.get? other := by
  induction attributes with
  | nil => simp [erase, get?]
  | cons first attributes ih =>
      have cons : erase (first :: attributes) name =
          if first.1 = name then erase attributes name else first :: erase attributes name := by
        by_cases here : first.1 = name <;> simp [erase, here]
      by_cases here : first.1 = name
      · by_cases same : other = name
        · simpa [cons, here, same] using ih
        · simp [cons, here, same, ih, get?_cons, Ne.symm same]
      · by_cases same : first.1 = other
        · subst same
          simp [cons, here, get?_cons]
        · simp [cons, here, same, ih, get?_cons]

theorem names_set : (attributes.set name value).map (·.1) =
    if name ∈ attributes.map (·.1) then attributes.map (·.1) else attributes.map (·.1) ++ [name] := by
  induction attributes with
  | nil => rfl
  | cons first attributes ih =>
      obtain ⟨key, current⟩ := first
      by_cases here : key = name
      · subst here
        simp [set]
      · have : name ≠ key := Ne.symm here
        simp only [set, if_neg here, List.map_cons, ih, List.mem_cons, this, false_or]
        split <;> rfl

theorem nodup_set (distinct : (attributes.map (·.1)).Nodup) :
    ((attributes.set name value).map (·.1)).Nodup := by
  rw [names_set]
  by_cases known : name ∈ attributes.map (·.1)
  · rw [if_pos known]
    exact distinct
  · rw [if_neg known]
    exact distinct.append (by simp) (List.disjoint_singleton.2 known)

theorem nodup_erase (distinct : (attributes.map (·.1)).Nodup) :
    ((attributes.erase name).map (·.1)).Nodup :=
  distinct.sublist (List.filter_sublist.map _)

theorem set_self (found : attributes.get? name = some value) :
    attributes.set name value = attributes := by
  induction attributes with
  | nil => cases found
  | cons first attributes ih =>
      rw [get?_cons] at found
      rw [set]
      by_cases here : first.1 = name
      · rw [if_pos here] at found ⊢
        cases found
        rfl
      · rw [if_neg here] at found ⊢
        rw [ih found]

theorem erase_self (missing : attributes.get? name = none) : attributes.erase name = attributes := by
  induction attributes with
  | nil => rfl
  | cons first attributes ih =>
      rw [get?_cons] at missing
      by_cases here : first.1 = name
      · rw [if_pos here] at missing
        cases missing
      · rw [if_neg here] at missing
        have others := ih missing
        rw [erase] at others
        rw [erase, List.filter_cons_of_pos (by simpa using here), others]

theorem erase_set : (attributes.set name value).erase name = attributes.erase name := by
  induction attributes with
  | nil => simp [set, erase]
  | cons first attributes ih =>
      rw [set]
      by_cases here : first.1 = name
      · simp [erase, here]
      · rw [if_neg here, erase, List.filter_cons_of_pos (by simpa using here), erase,
          List.filter_cons_of_pos (by simpa using here)]
        exact congrArg (first :: ·) ih

theorem erase_erase : (attributes.erase name).erase name = attributes.erase name := by
  simp only [erase, List.filter_filter, Bool.and_self]

end Attributes

namespace Tree

variable {tree changed : Tree} {id : NodeId} {change : Attributes → Attributes}

theorem of_changeAttributes (done : tree.changeAttributes id change = .ok changed) :
    ∃ name attributes, tree.kindOf id = some (.element name attributes) ∧
      changed = tree.setKind id (.element name (change attributes)) := by
  unfold changeAttributes changeKind at done
  cases found : tree.kindOf id with
  | none => simp [found] at done
  | some kind =>
      cases kind with
      | element name attributes =>
          simp only [found, Except.map] at done
          cases done
          exact ⟨name, attributes, rfl, rfl⟩
      | _ => simp [found, Except.map] at done

theorem setKind_self {kind : Kind} (found : tree.kindOf id = some kind) : tree.setKind id kind = tree := by
  have nodes : ∀ place : NodeId, (tree.setKind id kind).node? place = tree.node? place := by
    intro place
    rw [setKind, node?_update]
    split
    next here =>
      subst here
      obtain ⟨node, stored, rfl⟩ := Option.map_eq_some_iff.1 found
      rw [stored, Option.map_some]
    next => rfl
  have same : (tree.setKind id kind).nodes = tree.nodes := Array.ext_getElem? nodes
  cases tree
  exact congrArg Tree.mk same

theorem setAttribute_self {name value : String} (found : tree.attribute? id name = some value) :
    tree.setAttribute id name value = .ok tree := by
  obtain ⟨kind, here, known⟩ := Option.bind_eq_some_iff.1 found
  cases kind with
  | element element attributes =>
      have same : tree.setKind id (.element element (attributes.set name value)) = tree := by
        rw [Attributes.set_self known]
        exact setKind_self here
      simp only [setAttribute, changeAttributes, changeKind, here, Except.map, same]
  | _ => cases known

theorem attribute?_changeAttributes {change : Attributes → Attributes} {name : String} {changed : Tree}
    (others : ∀ attributes : Attributes, ∀ other, other ≠ name → (change attributes).get? other = attributes.get? other)
    (done : tree.changeAttributes id change = .ok changed) {place : NodeId} {other : String}
    (different : (place, other) ≠ (id, name)) : changed.attribute? place other = tree.attribute? place other := by
  obtain ⟨element, attributes, found, rfl⟩ := of_changeAttributes done
  rw [attribute?, attribute?, kindOf_setKind (lt_size_of_kindOf found)]
  by_cases here : place = id
  · subst here
    have different : other ≠ name := fun same => different (by rw [same])
    simp only [if_true, found, Option.bind_some, Kind.attribute?, others attributes other different]
  · rw [if_neg here]

end Tree

end DomParts
