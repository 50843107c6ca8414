import DomParts.Proofs.Tree.Operations
import DomParts.Proofs.Tree.Siblings

/-! # Fences

A fence goes around nodes that the tree links with no others. Work that begins outside and goes on from parent to
child and from sibling to sibling stays outside, so that nothing happens to what is fenced in. And whatever
happens to an element, it stays an element.
-/

namespace DomParts

namespace Tree

variable {tree after next : Tree} {fence : NodeId → Prop} {id other parent : NodeId}

def IsElement (tree : Tree) (id : NodeId) : Prop := ∃ tag attributes, tree.kindOf id = some (.element tag attributes)

/-- No link of the tree goes through the fence. -/
structure Fenced (tree : Tree) (fence : NodeId → Prop) : Prop where
  wellFormed : tree.WellFormed
  present : ∀ id, fence id → id < tree.size
  linked : ∀ child parent, tree.parentOf child = some parent → (fence child ↔ fence parent)

/-- Whether there is such a node, and outside the fence. -/
def Outside (tree : Tree) (fence : NodeId → Prop) (id : NodeId) : Prop := id < tree.size ∧ ¬ fence id

/-- Nothing happened behind the fence, and elements are still elements. -/
structure Skirts (fence : NodeId → Prop) (tree after : Tree) : Prop where
  wellFormed : after.WellFormed
  size_le : tree.size ≤ after.size
  kindOf : ∀ id, fence id → after.kindOf id = tree.kindOf id
  parentOf : ∀ id, fence id → after.parentOf id = tree.parentOf id
  childrenOf : ∀ id, fence id → after.childrenOf id = tree.childrenOf id
  elements : ∀ id, tree.IsElement id → after.IsElement id

theorem IsElement.of_kindOf (element : tree.IsElement id) (same : after.kindOf id = tree.kindOf id) : after.IsElement id := by
  rwa [IsElement, same]

theorem IsElement.lt_size (element : tree.IsElement id) : id < tree.size := by
  obtain ⟨tag, attributes, standing⟩ := element
  exact lt_size_of_kindOf standing

theorem IsElement.changeAttributes (element : tree.IsElement id) (change : Attributes → Attributes) :
    ∃ after, tree.changeAttributes id change = .ok after := by
  obtain ⟨tag, attributes, standing⟩ := element
  refine ⟨tree.setKind id (.element tag (change attributes)), ?_⟩
  simp only [Tree.changeAttributes, changeKind, standing]
  rfl

namespace Skirts

theorem refl (wellFormed : tree.WellFormed) : Skirts fence tree tree :=
  ⟨wellFormed, Nat.le_refl _, fun _ _ => rfl, fun _ _ => rfl, fun _ _ => rfl, fun _ => id⟩

theorem trans (one : Skirts fence tree after) (two : Skirts fence after next) : Skirts fence tree next where
  wellFormed := two.wellFormed
  size_le := Nat.le_trans one.size_le two.size_le
  kindOf id inside := (two.kindOf id inside).trans (one.kindOf id inside)
  parentOf id inside := (two.parentOf id inside).trans (one.parentOf id inside)
  childrenOf id inside := (two.childrenOf id inside).trans (one.childrenOf id inside)
  elements id element := two.elements id (one.elements id element)

theorem mono {inner : NodeId → Prop} (skirts : Skirts fence tree after) (less : ∀ id, inner id → fence id) :
    Skirts inner tree after :=
  ⟨skirts.wellFormed, skirts.size_le, fun id inside => skirts.kindOf id (less id inside),
    fun id inside => skirts.parentOf id (less id inside), fun id inside => skirts.childrenOf id (less id inside),
    skirts.elements⟩

theorem of_moved (wellFormed : after.WellFormed) (size : after.size = tree.size)
    (kindOf : ∀ id, after.kindOf id = tree.kindOf id) (parentOf : ∀ id, fence id → after.parentOf id = tree.parentOf id)
    (childrenOf : ∀ id, fence id → after.childrenOf id = tree.childrenOf id) : Skirts fence tree after :=
  ⟨wellFormed, Nat.le_of_eq size.symm, fun id _ => kindOf id, parentOf, childrenOf,
    fun id element => element.of_kindOf (kindOf id)⟩

theorem setKind {kind new : Kind} (wellFormed : (tree.setKind id new).WellFormed) (found : tree.kindOf id = some kind)
    (own : ¬ fence id) (element : tree.IsElement id → ∃ tag attributes, new = .element tag attributes) :
    Skirts fence tree (tree.setKind id new) where
  wellFormed := wellFormed
  size_le := Nat.le_of_eq (by simp)
  kindOf other inside := by
    rw [kindOf_setKind (lt_size_of_kindOf found), if_neg fun same : other = id => own (same ▸ inside)]
  parentOf _ _ := parentOf_setKind
  childrenOf _ _ := childrenOf_setKind
  elements other standing := by
    by_cases same : other = id
    · subst same
      obtain ⟨tag, attributes, rfl⟩ := element standing
      exact ⟨tag, attributes, by rw [kindOf_setKind (lt_size_of_kindOf found), if_pos rfl]⟩
    · exact standing.of_kindOf (by rw [kindOf_setKind (lt_size_of_kindOf found), if_neg same])

end Skirts

theorem Fenced.nowhere (wellFormed : tree.WellFormed) : tree.Fenced fun _ => False :=
  ⟨wellFormed, fun _ => False.elim, fun _ _ _ => Iff.rfl⟩

namespace Fenced

variable (fenced : tree.Fenced fence)
include fenced

theorem skirted (skirts : Skirts fence tree after) : after.Fenced fence where
  wellFormed := skirts.wellFormed
  present id inside := Nat.lt_of_lt_of_le (fenced.present id inside) skirts.size_le
  linked child parent above := by
    constructor
    · intro inside
      rw [skirts.parentOf child inside] at above
      exact (fenced.linked child parent above).1 inside
    · intro inside
      have listed := skirts.wellFormed.mem_childrenOf above
      rw [skirts.childrenOf parent inside] at listed
      exact (fenced.linked child parent (fenced.wellFormed.parentOf_of_mem listed)).2 inside

theorem extended (wellFormed : after.WellFormed) (extended : tree.Extends after) : Skirts fence tree after where
  wellFormed := wellFormed
  size_le := extended.size_le
  kindOf id inside := extended.kindOf_eq (fenced.present id inside)
  parentOf id inside := extended.parentOf_eq (fenced.present id inside)
  childrenOf id inside := extended.childrenOf_eq (fenced.present id inside)
  elements _ element := element.of_kindOf (extended.kindOf_eq element.lt_size)

section Ways

variable (off : ¬ fence id)
include off

theorem outside_parent (above : tree.parentOf id = some parent) : tree.Outside fence parent :=
  ⟨fenced.wellFormed.lt_size_of_parent above, fun inside => off ((fenced.linked id parent above).2 inside)⟩

theorem outside_child (listed : other ∈ tree.childrenOf id) : tree.Outside fence other :=
  ⟨fenced.wellFormed.lt_size_of_mem listed,
    fun inside => off ((fenced.linked other id (fenced.wellFormed.parentOf_of_mem listed)).1 inside)⟩

theorem outside_sibling (follows : tree.nextSibling id = some other) : tree.Outside fence other := by
  obtain ⟨parent, before, rest, above, split⟩ := fenced.wellFormed.split_next follows
  exact fenced.outside_child (fenced.outside_parent off above).2 (by simp [split])

end Ways

section Steps

theorem insertBefore {before : Option NodeId} (into : ¬ fence parent) (own : ¬ fence id)
    (done : tree.insertBefore parent id before = .ok after) : Skirts fence tree after := by
  have placed := fenced.wellFormed.of_insertBefore done
  -- A fragment's children are outside because it is.
  have payload : ∀ moved ∈ tree.payload id, ¬ fence moved := by
    intro moved among
    unfold Tree.payload at among
    split at among
    · exact (fenced.outside_child own among).2
    · rwa [List.mem_singleton.1 among]
  refine .of_moved placed.sound placed.size placed.kindOf (fun other inside => ?_) fun other inside => ?_
  · rw [placed.parentOf, if_neg fun among => payload other among inside]
  · rw [placed.left other fun same => into (same ▸ inside), List.filter_eq_self]
    intro child listed
    have near := (fenced.linked child other (fenced.wellFormed.parentOf_of_mem listed)).2 inside
    simpa using fun among => payload child among near

theorem removeChild (off : ¬ fence parent) (done : tree.removeChild parent id = .ok after) : Skirts fence tree after := by
  have above : tree.parentOf id = some parent := by
    unfold Tree.removeChild at done
    split at done
    · cases done
    · split at done
      · cases done
      · exact not_not.1 ‹_›
  have own : ¬ fence id := fun inside => off ((fenced.linked id parent above).1 inside)
  rw [of_removeChild done]
  refine .of_moved (fenced.wellFormed.detach id) size_detach (fun _ => kindOf_detach) (fun other inside => ?_)
    fun other inside => ?_
  · rw [parentOf_detach, if_neg fun same : other = id => own (same ▸ inside)]
  · rw [childrenOf_detach fenced.wellFormed, List.filter_eq_self]
    intro child listed
    have near := (fenced.linked child other (fenced.wellFormed.parentOf_of_mem listed)).2 inside
    simpa using fun same : child = id => own (same ▸ near)

theorem setText {data : String} (own : ¬ fence id) (done : tree.setText id data = .ok after) : Skirts fence tree after := by
  have wellFormed := fenced.wellFormed.setText done
  obtain ⟨old, found, rfl⟩ := of_setText done
  refine .setKind wellFormed found own ?_
  rintro ⟨tag, attributes, element⟩
  cases found.symm.trans element

theorem changeAttributes {change : Attributes → Attributes} (own : ¬ fence id)
    (named : ∀ attributes : Attributes, (attributes.map (·.1)).Nodup → ((change attributes).map (·.1)).Nodup)
    (done : tree.changeAttributes id change = .ok after) : Skirts fence tree after := by
  have wellFormed := fenced.wellFormed.changeAttributes done named
  obtain ⟨tag, attributes, found, rfl⟩ := of_changeAttributes done
  exact .setKind wellFormed found own fun _ => ⟨tag, _, rfl⟩

theorem overRun {visit : Tree → NodeId → Except HostFault Tree} (stop : Option NodeId)
    (each : ∀ {tree after : Tree} {id}, tree.Fenced fence → ¬ fence id → visit tree id = .ok after →
      Skirts fence tree after)
    {fuel : Nat} {first : Option NodeId} {count : Nat} (off : ∀ id, first = some id → ¬ fence id) :
    Skirts fence tree (Tree.overRun visit stop fuel first count tree).2 := by
  induction fuel generalizing tree first count with
  | zero =>
      cases first with
      | none =>
          rw [overRun_none]
          exact .refl fenced.wellFormed
      | some id =>
          unfold Tree.overRun
          split <;> exact .refl fenced.wellFormed
  | succ fuel ih =>
      cases first with
      | none =>
          rw [overRun_none]
          exact .refl fenced.wellFormed
      | some id =>
          unfold Tree.overRun
          split
          · exact .refl fenced.wellFormed
          · dsimp only
            split
            · exact .refl fenced.wellFormed
            · rename_i done
              have skirts := each fenced (off id rfl) done
              exact skirts.trans (ih (fenced.skirted skirts) fun next follows =>
                (fenced.outside_sibling (off id rfl) follows).2)

theorem moveRun {container start : NodeId} {stop before : Option NodeId} (into : ¬ fence container) (here : ¬ fence start) :
    Skirts fence tree (tree.moveRun container start stop before).2 := by
  refine fenced.overRun stop (fun fenced off done => fenced.insertBefore into off done) ?_
  rintro id ⟨⟩
  exact here

theorem removeRun {container start : NodeId} {stop : Option NodeId} (off : ¬ fence container) (here : ¬ fence start) :
    Skirts fence tree (tree.removeRun container start stop).2 := by
  refine fenced.overRun stop (fun fenced _ done => fenced.removeChild off done) ?_
  rintro id ⟨⟩
  exact here

end Steps

end Fenced

end Tree

end DomParts
