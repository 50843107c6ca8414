import DomParts.Proofs.Tree.Insert
import DomParts.Proofs.Tree.Outline

/-! # Copies

Copying a subtree only adds nodes. The new nodes are numbered in document order and spell out the
same shape; the copy stands alone.
-/

namespace DomParts.Tree

open Subtree

variable {tree changed next : Tree} {id parent : NodeId}

/-- Every node of a tree is still there and as it was. -/
structure Extends (tree changed : Tree) : Prop where
  size_le : tree.size ≤ changed.size
  node?_eq : ∀ id, id < tree.size → changed.node? id = tree.node? id

namespace Extends

theorem refl (tree : Tree) : tree.Extends tree := ⟨Nat.le_refl _, fun _ _ => rfl⟩

theorem trans (one : tree.Extends changed) (two : changed.Extends next) : tree.Extends next :=
  ⟨Nat.le_trans one.size_le two.size_le, fun id inside =>
    (two.node?_eq id (Nat.lt_of_lt_of_le inside one.size_le)).trans (one.node?_eq id inside)⟩

variable (extended : tree.Extends changed)
include extended

theorem kindOf_eq (inside : id < tree.size) : changed.kindOf id = tree.kindOf id := by
  simp only [kindOf, extended.node?_eq id inside]

theorem parentOf_eq (inside : id < tree.size) : changed.parentOf id = tree.parentOf id := by
  simp only [parentOf, extended.node?_eq id inside]

theorem childrenOf_eq (inside : id < tree.size) : changed.childrenOf id = tree.childrenOf id := by
  simp only [childrenOf, extended.node?_eq id inside]

end Extends

theorem extends_create (kind : Kind) : tree.Extends (tree.create kind).2 where
  size_le := by simp
  node?_eq id inside := by
    rw [node?_create, if_neg (Nat.ne_of_lt inside)]

theorem upward_old (sound : tree.WellFormed) (parents : ∀ id, id < tree.size →
    changed.parentOf id = tree.parentOf id) : changed.Upward (· < tree.size) := by
  intro child parent inside above
  rw [parents child inside] at above
  exact sound.lt_size_of_parent above

theorem adopt_inserted (sound : tree.WellFormed) (movable : tree.Movable parent [id])
    (alone : tree.parentOf id = none) : tree.Inserted (tree.adopt parent id) parent [id] none := by
  have same : tree.place parent [id] none = tree.adopt parent id := by
    simp [place, adopt, setParents, detach, alone]
    rfl
  exact same ▸ place_inserted sound movable none

/-- What grafting one subtree does. -/
structure Grafted (tree changed : Tree) (copy : Subtree) : Prop where
  sound : changed.WellFormed
  size : changed.size = tree.size + copy.size
  extended : tree.Extends changed
  spelled : changed.Spells copy.spots
  alone : changed.parentOf copy.id = none

/-- What grafting several subtrees below `parent` does. -/
structure GraftedAll (tree changed : Tree) (parent : NodeId) (copies : List Subtree) : Prop where
  sound : changed.WellFormed
  size : changed.size = tree.size + sizeOfAll copies
  spared : ∀ id, id < tree.size → id ≠ parent → changed.node? id = tree.node? id
  kindOf : changed.kindOf parent = tree.kindOf parent
  parentOf : changed.parentOf parent = tree.parentOf parent
  childrenOf : changed.childrenOf parent = tree.childrenOf parent ++ copies.map Subtree.id
  spelled : changed.Spells (spotsOfAll copies)

theorem Grafted.adopted {copy : Subtree} (sound : tree.WellFormed) (grafted : tree.Grafted next copy)
    (room : parent < tree.size) (numbered : copy.id = tree.size) (solid : next.kindOf tree.size ≠ some .fragment)
    (bounds : ∀ spot ∈ copy.spots, tree.size ≤ spot.id) :
    tree.GraftedAll (next.adopt parent tree.size) parent [copy] := by
  have alone : next.parentOf tree.size = none := numbered ▸ grafted.alone
  have movable : next.Movable parent [tree.size] := by
    refine ⟨Nat.lt_of_lt_of_le room grafted.extended.size_le, ?_, by simp, by simpa using solid, (· < tree.size), ?_,
      room, by simp⟩
    · intro id member
      rw [List.mem_singleton.1 member, grafted.size]
      exact Nat.lt_add_of_pos_right (one_le_size copy)
    · exact upward_old sound fun id inside => grafted.extended.parentOf_eq inside
  have adopted := adopt_inserted grafted.sound movable alone
  have unlisted : ∀ id, (next.childrenOf id).filter (· ∉ [tree.size]) = next.childrenOf id := by
    intro id
    rw [List.filter_eq_self]
    intro child member
    refine decide_eq_true fun same => ?_
    rw [List.mem_singleton.1 same] at member
    rw [grafted.sound.parentOf_of_mem member] at alone
    cases alone
  refine ⟨adopted.sound, ?size, fun id inside elsewhere => ?spared, ?kind, ?parent, ?children, fun spot member =>
    ?spelled⟩
  case size =>
    rw [adopted.size, grafted.size]
    rfl
  case spared =>
    rw [← grafted.extended.node?_eq id inside]
    refine node?_ext (adopted.kindOf id) ?_ ?_
    · rw [adopted.parentOf, if_neg]
      simpa using Nat.ne_of_lt inside
    · rw [adopted.childrenOf, if_neg elsewhere, unlisted]
  case kind => rw [adopted.kindOf, grafted.extended.kindOf_eq room]
  case parent => rw [adopted.parentOf, if_neg (by simpa using Nat.ne_of_lt room), grafted.extended.parentOf_eq room]
  case children =>
    rw [adopted.childrenOf, if_pos rfl, unlisted, grafted.extended.childrenOf_eq room, List.map_singleton, numbered]
    simp [splice]
  case spelled =>
    have member : spot ∈ copy.spots := by simpa [spotsOfAll] using member
    have elsewhere : spot.id ≠ parent := fun same => Nat.not_lt.2 (bounds spot member) (same ▸ room)
    have spelled := grafted.spelled spot member
    refine ⟨(adopted.kindOf spot.id).trans spelled.1, ?_⟩
    rw [adopted.childrenOf, if_neg elsewhere, unlisted, spelled.2]

theorem GraftedAll.cons {copy : Subtree} {more : List Subtree} (first : tree.GraftedAll next parent [copy])
    (room : parent < tree.size) (bounds : ∀ spot ∈ copy.spots, tree.size ≤ spot.id ∧ spot.id < next.size)
    (second : next.GraftedAll changed parent more) : tree.GraftedAll changed parent (copy :: more) where
  sound := second.sound
  size := by
    rw [second.size, first.size]
    simp only [sizeOfAll]
    omega
  spared id inside elsewhere := by
    have wider : id < next.size := by
      rw [first.size]
      exact Nat.lt_of_lt_of_le inside (Nat.le_add_right _ _)
    exact (second.spared id wider elsewhere).trans (first.spared id inside elsewhere)
  kindOf := second.kindOf.trans first.kindOf
  parentOf := second.parentOf.trans first.parentOf
  childrenOf := by
    rw [second.childrenOf, first.childrenOf, List.append_assoc]
    rfl
  spelled spot member := by
    rcases List.mem_append.1 member with member | member
    · obtain ⟨beyond, inside⟩ := bounds spot member
      have elsewhere : spot.id ≠ parent := fun same => Nat.not_lt.2 beyond (same ▸ room)
      have spelled := first.spelled spot (List.mem_append_left _ member)
      have same := second.spared spot.id inside elsewhere
      simpa only [Tree.kindOf, Tree.childrenOf, same] using spelled
    · exact second.spelled spot member

mutual

theorem graft_grafted {tree : Tree} (sound : tree.WellFormed) (original : NodeId) (kind : Kind)
    (children : List Subtree) (named : kind.attributeNames.Nodup)
    (proper : Proper (spotsOfAll children)) :
    tree.Grafted (tree.graft (.branch original kind children)).2
      ((Subtree.branch original kind children).renumber tree.size) := by
  have created := sound.create named
  have room : tree.size < (tree.create kind).2.size := by simp
  have all := graftAll_grafted created room children proper
  simp only [graft, fst_create, renumber]
  rw [size_create] at all
  refine ⟨all.sound, ?_, ⟨?_, fun id inside => ?_⟩, ?_, ?_⟩
  · rw [all.size, size_create, Subtree.size, sizeOfAll_renumberAll]
    omega
  · rw [all.size, size_create]
    omega
  · rw [all.spared id (Nat.lt_trans inside room) (Nat.ne_of_lt inside)]
    exact (extends_create kind).node?_eq id inside
  · intro spot member
    simp only [spots, List.mem_cons] at member
    rcases member with rfl | member
    · constructor
      · rw [all.kindOf, kindOf_create, if_pos rfl]
      · rw [all.childrenOf, childrenOf_create, childrenOf_of_size_le (Nat.le_refl _), List.nil_append]
    · exact all.spelled spot member
  · rw [id_branch, all.parentOf, parentOf_create, parentOf_of_size_le (Nat.le_refl _)]
termination_by sizeOf children + 1

theorem graftAll_grafted {tree : Tree} {parent : NodeId} (sound : tree.WellFormed)
    (room : parent < tree.size) (subtrees : List Subtree) (proper : Proper (spotsOfAll subtrees)) :
    tree.GraftedAll (tree.graftAll parent subtrees) parent (renumberAll tree.size subtrees) := by
  match subtrees with
  | [] => exact ⟨sound, rfl, fun _ _ _ => rfl, rfl, rfl, by simp [graftAll, renumberAll],
      by simp [Spells, renumberAll, spotsOfAll]⟩
  | .branch original kind children :: rest =>
      have here : ∀ spot ∈ (Subtree.branch original kind children).spots,
          spot.kind ≠ .fragment ∧ spot.kind.attributeNames.Nodup := fun spot member =>
        proper spot (List.mem_append_left _ member)
      have top := here _ (List.mem_cons_self ..)
      have one := graft_grafted sound original kind children top.2
        (fun spot member => here spot (List.mem_cons_of_mem _ member))
      have bounds := fun spot => @mem_spots_renumber tree.size (.branch original kind children) spot
      have kinds : (tree.graft (.branch original kind children)).2.kindOf tree.size = some kind :=
        (one.spelled ⟨tree.size, kind, (renumberAll (tree.size + 1) children).map Subtree.id⟩
          (List.mem_cons_self ..)).1
      have adopted := one.adopted sound room rfl (by simpa [kinds] using top.1) fun spot member => (bounds spot member).1
      have counted : ((tree.graft (.branch original kind children)).2.adopt parent tree.size).size =
          tree.size + (Subtree.branch original kind children).size := by
        rw [adopted.size, sizeOfAll, sizeOfAll, size_renumber, Nat.add_zero]
      have others := graftAll_grafted adopted.sound (counted ▸ Nat.lt_of_lt_of_le room (Nat.le_add_right _ _)) rest
        (fun spot member => proper spot (List.mem_append_right _ member))
      rw [counted] at others
      exact adopted.cons room (fun spot member => counted ▸ bounds spot member) others
termination_by sizeOf subtrees

end

theorem subtreeTo_proper (sound : tree.WellFormed) (depth : Nat) (member : id ∈ tree.childrenOf parent) :
    Proper (tree.subtreeTo depth id).spots := by
  have above := sound.parentOf_of_mem member
  obtain ⟨kind, found⟩ := exists_kind_of_lt (lt_size_of_parentOf above)
  have solid : kind ≠ .fragment := by
    rintro rfl
    rw [sound.loose id found] at above
    cases above
  induction depth generalizing id parent kind with
  | zero =>
      intro spot among
      simp only [subtreeTo, spots, spotsOfAll, List.mem_singleton] at among
      subst among
      simpa [found] using ⟨solid, sound.named id kind found⟩
  | succ depth ih =>
      intro spot among
      simp only [subtreeTo, spots, List.mem_cons] at among
      rcases among with rfl | among
      · simpa [found] using ⟨solid, sound.named id kind found⟩
      · obtain ⟨_, listed, among⟩ := mem_spotsOfAll.1 among
        obtain ⟨child, below, rfl⟩ := List.mem_map.1 listed
        have link := sound.parentOf_of_mem below
        obtain ⟨inner, known⟩ := exists_kind_of_lt (lt_size_of_parentOf link)
        refine ih below link inner known ?_ spot among
        rintro rfl
        rw [sound.loose child known] at link
        cases link

theorem subtree_eq (tree : Tree) (id : NodeId) : ∃ children,
    tree.subtree id = .branch id ((tree.kindOf id).getD .fragment) children := by
  unfold subtree
  cases tree.size with
  | zero => exact ⟨_, rfl⟩
  | succ depth => exact ⟨_, rfl⟩

theorem subtree_below_proper (sound : tree.WellFormed) {kind : Kind} {children : List Subtree}
    (shape : tree.subtree id = .branch id kind children) : Proper (spotsOfAll children) := by
  unfold subtree at shape
  intro spot among
  obtain ⟨child, listed, among⟩ := mem_spotsOfAll.1 among
  cases size : tree.size with
  | zero =>
      simp only [size, subtreeTo, Subtree.branch.injEq] at shape
      rw [← shape.2.2] at listed
      cases listed
  | succ depth =>
      simp only [size, subtreeTo, Subtree.branch.injEq] at shape
      rw [← shape.2.2] at listed
      obtain ⟨below, member, rfl⟩ := List.mem_map.1 listed
      exact subtreeTo_proper sound depth member spot among

/-- A copy of a subtree: new nodes in document order that spell out the same shape. -/
theorem cloneDeep_grafted (sound : tree.WellFormed) (id : NodeId) :
    (tree.cloneDeep id).1 = tree.size ∧
      tree.Grafted (tree.cloneDeep id).2 ((tree.subtree id).renumber tree.size) := by
  obtain ⟨children, shape⟩ := subtree_eq tree id
  have named : ((tree.kindOf id).getD .fragment).attributeNames.Nodup := by
    cases found : tree.kindOf id with
    | none => simp [Kind.attributeNames]
    | some kind => simpa using sound.named id kind found
  unfold cloneDeep
  rw [shape]
  exact ⟨rfl, graft_grafted sound id _ children named (subtree_below_proper sound shape)⟩

end DomParts.Tree
