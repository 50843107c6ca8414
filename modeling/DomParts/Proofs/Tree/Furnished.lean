import DomParts.Proofs.Tree.Attributes
import DomParts.Proofs.Tree.Pair
import DomParts.Proofs.Tree.Spelling

/-! # Furnishing a tree

A template instance adds to the copy that it lives in: new nodes right behind some of the nodes, and new
values for some attributes. All else stays where it is, so what one addition says of the tree goes on to
hold after the next one elsewhere.
-/

namespace DomParts

namespace Subtree

mutual

/-- The subtree without some of the nodes below its topmost one, and without what is below them. -/
def without (gone : List NodeId) : Subtree → Subtree
  | .branch id kind children => .branch id kind (withoutAll gone children)

/-- The subtrees without those of some nodes, and without such nodes below the others. -/
def withoutAll (gone : List NodeId) : List Subtree → List Subtree
  | [] => []
  | first :: rest =>
      if first.id ∈ gone then withoutAll gone rest else first.without gone :: withoutAll gone rest

end

theorem withoutAll_eq (gone : List NodeId) (trees : List Subtree) :
    withoutAll gone trees = (trees.filter (·.id ∉ gone)).map (without gone) := by
  induction trees with
  | nil => rfl
  | cons first rest ih =>
      by_cases here : first.id ∈ gone <;> simp [withoutAll, here, ih]

end Subtree

/-- What a node is, apart from its attributes. -/
def Kind.bare : Kind → Kind
  | .element name _ => .element name []
  | other => other

namespace Tree

variable {tree middle changed : Tree} {id mark container : NodeId} {kind : Kind} {left right marks others : List NodeId}
  {places more : List (NodeId × String)}

/-- A tree to which one new node was added right behind each of `marks`, while attributes were only changed
    at `places`. -/
structure Furnished (tree changed : Tree) (marks : List NodeId) (places : List (NodeId × String)) : Prop where
  sound : changed.WellFormed
  size : changed.size = tree.size + marks.length
  parentOf : ∀ id, id < tree.size → changed.parentOf id = tree.parentOf id
  childrenOf : ∀ id, (changed.childrenOf id).filter (· < tree.size) = tree.childrenOf id
  /-- A node that nothing was added behind has the same next sibling. -/
  nextSibling : ∀ id, id < tree.size → id ∉ marks → changed.nextSibling id = tree.nextSibling id
  /-- A node has the same children if nothing was added behind one of them. -/
  undisturbed : ∀ id, id < tree.size → (∀ mark ∈ marks, changed.parentOf mark ≠ some id) →
    changed.childrenOf id = tree.childrenOf id
  bare : ∀ id, id < tree.size → (changed.kindOf id).map Kind.bare = (tree.kindOf id).map Kind.bare
  kindOf : ∀ id, id < tree.size → (∀ place ∈ places, place.1 ≠ id) → changed.kindOf id = tree.kindOf id
  attribute? : ∀ id name, id < tree.size → (id, name) ∉ places →
    changed.attribute? id name = tree.attribute? id name

namespace Furnished

theorem refl (sound : tree.WellFormed) : tree.Furnished tree [] [] where
  sound := sound
  size := rfl
  parentOf _ _ := rfl
  childrenOf id := by
    apply List.filter_eq_self.2
    intro child member
    simpa using sound.lt_size_of_mem member
  nextSibling _ _ _ := rfl
  undisturbed _ _ _ := rfl
  bare _ _ := rfl
  kindOf _ _ _ := rfl
  attribute? _ _ _ _ := rfl

variable (one : tree.Furnished middle marks places)
include one

theorem size_le : tree.size ≤ middle.size := by
  rw [one.size]
  omega

theorem trans (two : middle.Furnished changed others more) :
    tree.Furnished changed (marks ++ others) (places ++ more) where
  sound := two.sound
  size := by
    rw [two.size, one.size, List.length_append]
    omega
  parentOf id inside := (two.parentOf id (Nat.lt_of_lt_of_le inside one.size_le)).trans (one.parentOf id inside)
  childrenOf id := by
    have wider : ∀ child, decide (child < tree.size) =
        (decide (child < tree.size) && decide (child < middle.size)) := by
      intro child
      have grown := one.size_le
      by_cases inside : child < tree.size
      · have : child < middle.size := by omega
        simp [inside, this]
      · simp [inside]
    rw [← one.childrenOf id, ← two.childrenOf id, List.filter_filter]
    exact List.filter_congr fun child _ => wider child
  nextSibling id inside apart := by
    rw [List.mem_append, not_or] at apart
    rw [two.nextSibling id (Nat.lt_of_lt_of_le inside one.size_le) apart.2, one.nextSibling id inside apart.1]
  undisturbed id inside apart := by
    rw [List.forall_mem_append] at apart
    rw [two.undisturbed id (Nat.lt_of_lt_of_le inside one.size_le) apart.2]
    apply one.undisturbed id inside
    intro mark member above
    apply apart.1 mark member
    rw [two.parentOf mark (lt_size_of_parentOf above), above]
  bare id inside := (two.bare id (Nat.lt_of_lt_of_le inside one.size_le)).trans (one.bare id inside)
  kindOf id inside apart := by
    rw [List.forall_mem_append] at apart
    rw [two.kindOf id (Nat.lt_of_lt_of_le inside one.size_le) apart.2, one.kindOf id inside apart.1]
  attribute? id name inside apart := by
    rw [List.mem_append, not_or] at apart
    rw [two.attribute? id name (Nat.lt_of_lt_of_le inside one.size_le) apart.2,
      one.attribute? id name inside apart.1]

theorem isMarker (inside : id < tree.size) : middle.isMarker id = tree.isMarker id := by
  have same : ∀ kind : Kind, kind.isMarker = kind.bare.isMarker := fun kind => by cases kind <;> rfl
  have read : ∀ tree : Tree, tree.isMarker id = (((tree.kindOf id).map Kind.bare).map Kind.isMarker).getD false := by
    intro tree
    simp only [Tree.isMarker, Option.map_map, Function.comp_def, ← same]
  rw [read, read, one.bare id inside]

theorem attached {nodes : List NodeId} (attached : ∀ id ∈ nodes, ∃ parent, tree.parentOf id = some parent) :
    ∀ id ∈ nodes, ∃ parent, middle.parentOf id = some parent := by
  intro id member
  obtain ⟨parent, above⟩ := attached id member
  exact ⟨parent, (one.parentOf id (lt_size_of_parentOf above)).trans above⟩

theorem ordered {ids : List NodeId} (ordered : ids.Sublist (tree.childrenOf id)) : ids.Sublist (middle.childrenOf id) := by
  rw [← one.childrenOf id] at ordered
  exact ordered.trans List.filter_sublist

/-- Nothing happens to what was there before the nodes that are furnished. -/
theorem extended {old : Tree} (sound : old.WellFormed) (before : tree.WellFormed) (extended : old.Extends tree)
    (new : ∀ mark ∈ marks, old.size ≤ mark ∧ mark < tree.size) (newer : ∀ place ∈ places, old.size ≤ place.1) :
    old.Extends middle where
  size_le := Nat.le_trans extended.size_le one.size_le
  node?_eq id inside := by
    have here := Nat.lt_of_lt_of_le inside extended.size_le
    apply node?_ext
    · rw [one.kindOf id here, extended.kindOf_eq inside]
      intro place member same
      exact Nat.not_lt.2 (newer place member) (same ▸ inside)
    · rw [one.parentOf id here, extended.parentOf_eq inside]
    · rw [one.undisturbed id here, extended.childrenOf_eq inside]
      intro mark member above
      obtain ⟨beyond, present⟩ := new mark member
      rw [one.parentOf mark present] at above
      have listed := before.mem_childrenOf above
      rw [extended.childrenOf_eq inside] at listed
      exact Nat.not_lt.2 beyond (sound.lt_size_of_mem listed)

end Furnished

theorem Joined.relisted (joined : tree.Joined changed kind container (left ++ [mark]) right) :
    changed.childrenOf container = left ++ mark :: tree.size :: right := by
  simpa using joined.children

section Joined

variable (sound : tree.WellFormed) (listed : tree.childrenOf container = left ++ mark :: right)
  (joined : tree.Joined changed kind container (left ++ [mark]) right)
include sound listed joined

theorem Joined.nextSibling_eq (inside : id < tree.size) (other : id ≠ mark) :
    changed.nextSibling id = tree.nextSibling id := by
  have relisted := joined.relisted
  have above := joined.parentOf id inside
  cases found : tree.parentOf id with
  | none => simp only [nextSibling, above, found, Option.bind_none]
  | some parent =>
      by_cases here : parent = container
      · subst here
        have member := sound.mem_childrenOf found
        rw [listed, List.mem_append, List.mem_cons] at member
        rcases member with before | same | behind
        · obtain ⟨first, second, rfl⟩ := List.append_of_mem before
          have old : tree.childrenOf parent = first ++ id :: (second ++ mark :: right) := by simpa using listed
          have new : changed.childrenOf parent = first ++ id :: (second ++ mark :: tree.size :: right) := by
            simpa using relisted
          rw [sound.nextSibling_eq old, joined.sound.nextSibling_eq new]
          cases second <;> rfl
        · exact absurd same other
        · obtain ⟨first, second, rfl⟩ := List.append_of_mem behind
          have old : tree.childrenOf parent = (left ++ mark :: first) ++ id :: second := by simpa using listed
          have new : changed.childrenOf parent = (left ++ mark :: tree.size :: first) ++ id :: second := by
            simpa using relisted
          rw [sound.nextSibling_eq old, joined.sound.nextSibling_eq new]
      · simp only [nextSibling, above, found, Option.bind_some, joined.childrenOf parent here]

theorem Joined.furnished : tree.Furnished changed [mark] [] ∧ changed.nextSibling mark = some tree.size ∧
    changed.nextSibling tree.size = tree.nextSibling mark := by
  have relisted := joined.relisted
  have behind : changed.childrenOf container = (left ++ [mark]) ++ tree.size :: right := by simpa using relisted
  have old := (Furnished.refl sound).childrenOf
  refine ⟨⟨joined.sound, joined.size, joined.parentOf, fun id => ?_, fun id inside apart => ?_, fun id inside apart => ?_,
    fun id inside => by rw [joined.kindOf id inside], fun id inside _ => joined.kindOf id inside, fun id name inside _ => ?_⟩,
    joined.sound.nextSibling_eq relisted, ?_⟩
  · by_cases here : id = container
    · subst here
      rw [relisted, ← old id, listed]
      simp [List.filter_append, List.filter_cons]
    · rw [joined.childrenOf id here]
      exact old id
  · exact joined.nextSibling_eq sound listed inside (by simpa using apart)
  · apply joined.childrenOf id
    rintro rfl
    apply apart mark (List.mem_singleton.2 rfl)
    exact joined.sound.parentOf_of_mem (by simp [relisted])
  · simp only [Tree.attribute?, joined.kindOf id inside]
  · rw [sound.nextSibling_eq listed]
    exact joined.sound.nextSibling_eq behind

end Joined

@[simp] theorem id_subtree (tree : Tree) (id : NodeId) : (tree.subtree id).id = id := by
  obtain ⟨children, shape⟩ := subtree_eq tree id
  rw [shape]
  rfl

mutual

/-- A tree that holds a subtree and besides it only nodes that are to go holds the subtree once they went. -/
theorem WellFormed.subtree_without (sound : tree.WellFormed) {gone : List NodeId} {one : Subtree}
    (known : ∀ spot ∈ one.spots, tree.kindOf spot.id = some spot.kind ∧
      (tree.childrenOf spot.id).filter (· ∉ gone) = spot.children) : (tree.subtree one.id).without gone = one := by
  cases one with
  | branch id kind children =>
      obtain ⟨standing, listed⟩ := known ⟨id, kind, children.map Subtree.id⟩ (List.mem_cons_self ..)
      have below := sound.subtree_without_all fun spot member => known spot (List.mem_cons_of_mem _ member)
      rw [Subtree.id_branch, sound.subtree_unfold, Subtree.without, Subtree.withoutAll_eq, List.filter_map]
      simp only [Function.comp_def, id_subtree, listed, standing, Option.getD_some, List.map_map]
      rw [below]
termination_by sizeOf one

theorem WellFormed.subtree_without_all (sound : tree.WellFormed) {gone : List NodeId} {ones : List Subtree}
    (known : ∀ spot ∈ Subtree.spotsOfAll ones, tree.kindOf spot.id = some spot.kind ∧
      (tree.childrenOf spot.id).filter (· ∉ gone) = spot.children) :
    ones.map (fun one => (tree.subtree one.id).without gone) = ones := by
  cases ones with
  | nil => rfl
  | cons first rest =>
      rw [List.map_cons,
        sound.subtree_without fun spot member => known spot (List.mem_append_left _ member),
        sound.subtree_without_all fun spot member => known spot (List.mem_append_right _ member)]
termination_by sizeOf ones

end

theorem furnished_setKind (sound : tree.WellFormed) {tag name : String} {attributes changed : Attributes}
    (standing : tree.kindOf id = some (.element tag attributes)) (named : (changed.map (·.1)).Nodup)
    (values : ∀ other, other ≠ name → changed.get? other = attributes.get? other) :
    tree.Furnished (tree.setKind id (.element tag changed)) [] [(id, name)] := by
  have inside := lt_size_of_kindOf standing
  have old := Furnished.refl sound
  refine ⟨sound.setKind inside named nofun, size_setKind, fun _ _ => parentOf_setKind, fun other => ?_,
    fun other _ _ => ?_, fun _ _ _ => childrenOf_setKind, fun other _ => ?_, fun other _ apart => ?_,
    fun other key _ apart => ?_⟩
  · rw [childrenOf_setKind]
    exact old.childrenOf other
  · simp only [nextSibling, parentOf_setKind, childrenOf_setKind]
  · rw [kindOf_setKind inside]
    split
    · rename_i same
      rw [same, standing]
      rfl
    · rfl
  · rw [kindOf_setKind inside, if_neg]
    rintro rfl
    exact apart _ (List.mem_singleton.2 rfl) rfl
  · simp only [Tree.attribute?, kindOf_setKind inside]
    split
    · rename_i same
      subst same
      have differs : key ≠ name := by simpa using apart
      simpa only [standing, Option.bind_some, Kind.attribute?] using values key differs
    · rfl

end Tree

end DomParts
