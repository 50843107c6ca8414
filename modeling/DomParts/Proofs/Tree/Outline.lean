import DomParts.Proofs.Tree.WellFormed
import DomParts.Tree.Subtree
import Mathlib.Data.List.Perm.Basic

/-! # Subtrees as outlines

A subtree read flat: one spot for each node, in document order. A tree spells a subtree out when it
holds each of its spots. Copying a subtree gives it new numbers, again in document order.
-/

namespace DomParts.Subtree

/-- A node of an outline with its children. -/
structure Spot where
  id : NodeId
  kind : Kind
  children : List NodeId

@[simp] theorem id_branch (id : NodeId) (kind : Kind) (children : List Subtree) :
    (branch id kind children).id = id := rfl

mutual

/-- One spot for each node, a node before its children. -/
def spots : Subtree → List Spot
  | .branch id kind children => ⟨id, kind, children.map Subtree.id⟩ :: spotsOfAll children

/-- The spots of several subtrees, one after the other. -/
def spotsOfAll : List Subtree → List Spot
  | [] => []
  | first :: rest => first.spots ++ spotsOfAll rest

end

mutual

def size : Subtree → Nat
  | .branch _ _ children => sizeOfAll children + 1

def sizeOfAll : List Subtree → Nat
  | [] => 0
  | first :: rest => first.size + sizeOfAll rest

end

mutual

/-- The same shape with nodes numbered from `first` on, in document order. -/
def renumber (first : NodeId) : Subtree → Subtree
  | .branch _ kind children => .branch first kind (renumberAll (first + 1) children)

/-- The same shapes with nodes numbered from `first` on, in document order. -/
def renumberAll (first : NodeId) : List Subtree → List Subtree
  | [] => []
  | tree :: rest => tree.renumber first :: renumberAll (first + tree.size) rest

end

/-- Whether the nodes can be children: none is a fragment, and no attribute is there twice. -/
def Proper (spots : List Spot) : Prop :=
  ∀ spot ∈ spots, spot.kind ≠ .fragment ∧ spot.kind.attributeNames.Nodup

mutual

theorem nodes_eq_spots (tree : Subtree) : tree.nodes = tree.spots.map Spot.id := by
  cases tree with
  | branch id kind children => simp only [nodes, spots, List.map_cons, nodesOfAll_eq_spots children]
termination_by sizeOf tree

theorem nodesOfAll_eq_spots (trees : List Subtree) :
    nodesOfAll trees = (spotsOfAll trees).map Spot.id := by
  cases trees with
  | nil => rfl
  | cons first rest =>
      simp only [nodesOfAll, spotsOfAll, List.map_append, nodes_eq_spots first,
        nodesOfAll_eq_spots rest]
termination_by sizeOf trees

end

mutual

/-- Every node but the topmost is listed as a child exactly once. -/
theorem listed_once (tree : Subtree) :
    (tree.id :: tree.spots.flatMap Spot.children).Perm tree.nodes := by
  cases tree with
  | branch id kind children =>
      simp only [id_branch, spots, List.flatMap_cons, nodes]
      exact (listed_once_all children).cons _
termination_by sizeOf tree

theorem listed_once_all (trees : List Subtree) :
    (trees.map Subtree.id ++ (spotsOfAll trees).flatMap Spot.children).Perm (nodesOfAll trees) := by
  cases trees with
  | nil => simp [spotsOfAll, nodesOfAll]
  | cons first rest =>
      simp only [List.map_cons, spotsOfAll, List.flatMap_append, nodesOfAll, List.cons_append]
      have one := listed_once first
      have others := listed_once_all rest
      calc first.id :: (rest.map Subtree.id ++
              (first.spots.flatMap Spot.children ++ (spotsOfAll rest).flatMap Spot.children))
          _ |>.Perm (first.id :: (first.spots.flatMap Spot.children ++
              (rest.map Subtree.id ++ (spotsOfAll rest).flatMap Spot.children))) :=
            (List.perm_append_comm_assoc _ _ _).cons _
          _ |>.Perm (first.nodes ++ nodesOfAll rest) := by
            rw [← List.cons_append]
            exact one.append others
termination_by sizeOf trees

end

section Members

variable {tree : Subtree} {forest : List Subtree} {id : NodeId} {spot : Spot}

theorem mem_nodes : id ∈ tree.nodes ↔ ∃ spot ∈ tree.spots, spot.id = id := by
  rw [nodes_eq_spots, List.mem_map]

theorem mem_nodesOfAll : id ∈ nodesOfAll forest ↔ ∃ spot ∈ spotsOfAll forest, spot.id = id := by
  rw [nodesOfAll_eq_spots, List.mem_map]

theorem child_mem_nodes (listed : spot ∈ tree.spots) (child : id ∈ spot.children) : id ∈ tree.nodes :=
  (listed_once tree).subset (List.mem_cons_of_mem _ (List.mem_flatMap.2 ⟨spot, listed, child⟩))

theorem spot_mem (listed : spot ∈ spotsOfAll forest) : spot.id ∈ nodesOfAll forest :=
  mem_nodesOfAll.2 ⟨spot, listed, rfl⟩

theorem child_mem (listed : spot ∈ spotsOfAll forest) (child : id ∈ spot.children) : id ∈ nodesOfAll forest :=
  (listed_once_all forest).subset (List.mem_append_right _ (List.mem_flatMap.2 ⟨spot, listed, child⟩))

theorem top_or_child (member : id ∈ nodesOfAll forest) :
    id ∈ forest.map Subtree.id ∨ ∃ spot ∈ spotsOfAll forest, id ∈ spot.children := by
  have := (listed_once_all forest).symm.subset member
  simpa [List.mem_flatMap] using this

end Members

mutual

theorem length_nodes (tree : Subtree) : tree.nodes.length = tree.size := by
  cases tree with
  | branch id kind children => simp only [nodes, size, List.length_cons, length_nodesOfAll children]
termination_by sizeOf tree

theorem length_nodesOfAll (trees : List Subtree) : (nodesOfAll trees).length = sizeOfAll trees := by
  cases trees with
  | nil => rfl
  | cons first rest =>
      simp only [nodesOfAll, sizeOfAll, List.length_append, length_nodes first,
        length_nodesOfAll rest]
termination_by sizeOf trees

end

mutual

theorem size_renumber (first : NodeId) (tree : Subtree) : (tree.renumber first).size = tree.size := by
  cases tree with
  | branch id kind children => simp only [renumber, size, sizeOfAll_renumberAll (first + 1) children]
termination_by sizeOf tree

theorem sizeOfAll_renumberAll (first : NodeId) (trees : List Subtree) :
    sizeOfAll (renumberAll first trees) = sizeOfAll trees := by
  cases trees with
  | nil => rfl
  | cons tree rest =>
      simp only [renumberAll, sizeOfAll, size_renumber first tree,
        sizeOfAll_renumberAll (first + tree.size) rest]
termination_by sizeOf trees

end

mutual

theorem nodes_renumber (first : NodeId) (tree : Subtree) :
    (tree.renumber first).nodes = List.range' first tree.size := by
  cases tree with
  | branch id kind children =>
      simp only [renumber, nodes, size, nodesOfAll_renumberAll (first + 1) children, List.range'_succ]
termination_by sizeOf tree

theorem nodesOfAll_renumberAll (first : NodeId) (trees : List Subtree) :
    nodesOfAll (renumberAll first trees) = List.range' first (sizeOfAll trees) := by
  cases trees with
  | nil => rfl
  | cons tree rest =>
      simp only [renumberAll, nodesOfAll, sizeOfAll, nodes_renumber first tree,
        nodesOfAll_renumberAll (first + tree.size) rest]
      rw [← List.range'_append_1]
termination_by sizeOf trees

end

mutual

theorem kinds_renumber (first : NodeId) (tree : Subtree) :
    (tree.renumber first).spots.map Spot.kind = tree.spots.map Spot.kind := by
  cases tree with
  | branch id kind children =>
      simp only [renumber, spots, List.map_cons, kinds_renumberAll (first + 1) children]
termination_by sizeOf tree

theorem kinds_renumberAll (first : NodeId) (trees : List Subtree) :
    (spotsOfAll (renumberAll first trees)).map Spot.kind = (spotsOfAll trees).map Spot.kind := by
  cases trees with
  | nil => rfl
  | cons tree rest =>
      simp only [renumberAll, spotsOfAll, List.map_append, kinds_renumber first tree,
        kinds_renumberAll (first + tree.size) rest]
termination_by sizeOf trees

end

theorem mem_spotsOfAll {spot : Spot} {trees : List Subtree} :
    spot ∈ spotsOfAll trees ↔ ∃ tree ∈ trees, spot ∈ tree.spots := by
  induction trees with
  | nil => simp [spotsOfAll]
  | cons first rest ih => simp [spotsOfAll, ih]

theorem one_le_size (tree : Subtree) : 1 ≤ tree.size := by
  cases tree
  exact Nat.le_add_left 1 _

theorem mem_spots_renumber {first : NodeId} {tree : Subtree} {spot : Spot}
    (member : spot ∈ (tree.renumber first).spots) : first ≤ spot.id ∧ spot.id < first + tree.size := by
  have : spot.id ∈ (tree.renumber first).nodes := mem_nodes.2 ⟨spot, member, rfl⟩
  rw [nodes_renumber, List.mem_range'_1] at this
  exact this

@[simp] theorem id_renumber (first : NodeId) (tree : Subtree) : (tree.renumber first).id = first := by
  cases tree
  rfl

end DomParts.Subtree

namespace DomParts.Tree

open Subtree

variable {tree : Tree}

/-- Whether the tree holds exactly these nodes. -/
def Spells (tree : Tree) (spots : List Spot) : Prop :=
  ∀ spot ∈ spots, tree.kindOf spot.id = some spot.kind ∧ tree.childrenOf spot.id = spot.children

end DomParts.Tree
