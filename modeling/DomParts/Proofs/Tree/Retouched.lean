import DomParts.Proofs.Tree.Operations

/-! # One attribute changed

What becomes of a tree when one attribute of one node is written, and what becomes of an attribute when
something else is done.
-/

namespace DomParts

/-- What a node is, apart from one of its attributes. -/
def Kind.without (name : String) : Kind → Kind
  | .element tag attributes => .element tag (attributes.erase name)
  | other => other

namespace Tree

variable {tree middle changed : Tree} {id : NodeId} {name data tag : String} {kind : Kind} {attributes : Attributes}

/-- A tree in which nothing was changed but one attribute of one node. The node's other attributes have the values
    that they had, and in the same order. -/
structure Retouched (tree changed : Tree) (id : NodeId) (name : String) : Prop where
  size : changed.size = tree.size
  parentOf : ∀ other, changed.parentOf other = tree.parentOf other
  childrenOf : ∀ other, changed.childrenOf other = tree.childrenOf other
  elsewhere : ∀ other, other ≠ id → changed.kindOf other = tree.kindOf other
  without : (changed.kindOf id).map (Kind.without name) = (tree.kindOf id).map (Kind.without name)

namespace Retouched

theorem refl (tree : Tree) : tree.Retouched tree id name :=
  ⟨rfl, fun _ => rfl, fun _ => rfl, fun _ _ => rfl, rfl⟩

theorem trans (one : tree.Retouched middle id name) (two : middle.Retouched changed id name) :
    tree.Retouched changed id name where
  size := two.size.trans one.size
  parentOf other := (two.parentOf other).trans (one.parentOf other)
  childrenOf other := (two.childrenOf other).trans (one.childrenOf other)
  elsewhere other apart := (two.elsewhere other apart).trans (one.elsewhere other apart)
  without := two.without.trans one.without

end Retouched

theorem changeAttributes_element (standing : tree.kindOf id = some (.element tag attributes))
    (change : Attributes → Attributes) :
    tree.changeAttributes id change = .ok (tree.setKind id (.element tag (change attributes))) := by
  simp only [changeAttributes, changeKind, standing, Except.map]

theorem changeAttributes_misplaced (standing : tree.kindOf id = some kind)
    (solid : ∀ tag attributes, kind ≠ .element tag attributes) (change : Attributes → Attributes) :
    tree.changeAttributes id change = .error (.expectedElement kind) := by
  cases kind with
  | element tag attributes => exact absurd rfl (solid tag attributes)
  | _ => simp only [changeAttributes, changeKind, standing, Except.map]

theorem retouched_changeAttributes {change : Attributes → Attributes}
    (others : ∀ attributes : Attributes, (change attributes).erase name = attributes.erase name)
    (done : tree.changeAttributes id change = .ok changed) : tree.Retouched changed id name := by
  obtain ⟨tag, attributes, standing, rfl⟩ := of_changeAttributes done
  have inside := lt_size_of_kindOf standing
  refine ⟨size_setKind, fun _ => parentOf_setKind, fun _ => childrenOf_setKind, fun other apart => ?_, ?_⟩
  · rw [kindOf_setKind inside, if_neg apart]
  · simp only [kindOf_setKind inside, if_true, standing, Option.map_some, Kind.without, others attributes]

theorem retouched_setAttribute (done : tree.setAttribute id name data = .ok changed) :
    tree.Retouched changed id name ∧ changed.attribute? id name = some data := by
  refine ⟨retouched_changeAttributes (fun _ => Attributes.erase_set) done, ?_⟩
  obtain ⟨tag, attributes, standing, rfl⟩ := of_changeAttributes done
  rw [attribute?, kindOf_setKind (lt_size_of_kindOf standing), if_pos rfl, Option.bind_some, Kind.attribute?,
    Attributes.get?_set, if_pos rfl]

theorem retouched_removeAttribute (done : tree.removeAttribute id name = .ok changed) :
    tree.Retouched changed id name ∧ changed.attribute? id name = none := by
  refine ⟨retouched_changeAttributes (fun _ => Attributes.erase_erase) done, ?_⟩
  obtain ⟨tag, attributes, standing, rfl⟩ := of_changeAttributes done
  rw [attribute?, kindOf_setKind (lt_size_of_kindOf standing), if_pos rfl, Option.bind_some, Kind.attribute?,
    Attributes.get?_erase, if_pos rfl]

theorem removeAttribute_self (done : tree.removeAttribute id name = .ok changed)
    (missing : tree.attribute? id name = none) : changed = tree := by
  obtain ⟨tag, attributes, standing, rfl⟩ := of_changeAttributes done
  rw [attribute?, standing, Option.bind_some, Kind.attribute?] at missing
  rw [Attributes.erase_self missing]
  exact setKind_self standing

theorem removeAttribute_found (found : tree.attribute? id name = some data) :
    ∃ changed, tree.removeAttribute id name = .ok changed := by
  obtain ⟨kind, standing, known⟩ := Option.bind_eq_some_iff.1 found
  cases kind with
  | element tag attributes => exact ⟨_, changeAttributes_element standing _⟩
  | _ => cases known

theorem attribute?_of_refused {fault : HostFault} (refused : tree.removeAttribute id name = .error fault) :
    tree.attribute? id name = none := by
  cases found : tree.attribute? id name with
  | none => rfl
  | some data =>
      obtain ⟨changed, done⟩ := removeAttribute_found found
      cases refused.symm.trans done

/-- Whether an operation does not write an attribute. -/
def Operation.Avoids (id : NodeId) (name : String) : Operation → Prop
  | .setAttribute other key _ => (other, key) ≠ (id, name)
  | .removeAttribute other key => (other, key) ≠ (id, name)
  | _ => True

theorem WellFormed.operation_avoids (sound : tree.WellFormed) (inside : id < tree.size) {operation : Operation}
    (avoids : operation.Avoids id name) (done : operation.perform tree = .ok changed) :
    id < changed.size ∧ changed.attribute? id name = tree.attribute? id name := by
  have kinds : changed.kindOf id = tree.kindOf id → id < changed.size ∧
      changed.attribute? id name = tree.attribute? id name := by
    intro same
    obtain ⟨kind, standing⟩ := exists_kind_of_lt inside
    exact ⟨lt_size_of_kindOf (same.trans standing), by rw [attribute?, attribute?, same]⟩
  have created : ∀ kind, (tree.create kind).2.kindOf id = tree.kindOf id := fun kind =>
    (extends_create kind).kindOf_eq inside
  cases operation with
  | createElement _ | createText _ | createComment _ | createFragment =>
      cases done
      exact kinds (created _)
  | insertBefore parent node before => exact kinds ((sound.of_insertBefore done).kindOf id)
  | appendChild parent node => exact kinds ((sound.of_insertBefore done).kindOf id)
  | removeChild parent node => exact kinds (of_removeChild done ▸ kindOf_detach)
  | cloneDeep node =>
      cases done
      exact kinds ((cloneDeep_grafted sound node).2.extended.kindOf_eq inside)
  | setText node data =>
      obtain ⟨old, standing, rfl⟩ := of_setText done
      refine ⟨by simpa using inside, ?_⟩
      rw [attribute?, attribute?, kindOf_setKind (lt_size_of_kindOf standing)]
      split
      · rename_i same
        subst same
        rw [standing]
        rfl
      · rfl
  | setAttribute node key data =>
      refine ⟨(retouched_setAttribute done).1.size ▸ inside, ?_⟩
      exact attribute?_changeAttributes (fun _ _ other => by rw [Attributes.get?_set, if_neg other]) done
        (Ne.symm avoids)
  | removeAttribute node key =>
      refine ⟨(retouched_removeAttribute done).1.size ▸ inside, ?_⟩
      exact attribute?_changeAttributes (fun _ _ other => by rw [Attributes.get?_erase, if_neg other]) done
        (Ne.symm avoids)

end Tree

end DomParts
