import DomParts.Proofs.Tree.Insert
import DomParts.Tree.Subtree
import Mathlib.Data.Finset.Card
import Mathlib.Data.List.Dedup
import Mathlib.Logic.Relation

/-! # Ways up

The nodes above a node, one after the other. In a well-formed tree no way up comes back to where it
was, so it is no longer than the tree has nodes; neither is a way down. Every walk on a tree that is
cut off after so many nodes therefore ends by itself.
-/

namespace DomParts

open Subtree (nodesOfAll textOfAll)

namespace Tree

/-- A node and its parent. -/
def Link (tree : Tree) (child parent : NodeId) : Prop := tree.parentOf child = some parent

/-- A node and one of the nodes met on its way up, the first of which is the node itself. -/
abbrev Ascends (tree : Tree) : NodeId → NodeId → Prop := Relation.ReflTransGen tree.Link

variable {tree : Tree} {id other parent child ancestor : NodeId}

theorem rightUnique_link : Relator.RightUnique tree.Link := fun _ _ _ first second =>
  Option.some.inj (first.symm.trans second)

theorem ascends_head : tree.Ascends id ancestor ↔
    id = ancestor ∨ ∃ parent, tree.Link id parent ∧ tree.Ascends parent ancestor :=
  Relation.ReflTransGen.cases_head_iff

theorem ascends_tail : tree.Ascends id ancestor ↔
    ancestor = id ∨ ∃ child, tree.Ascends id child ∧ tree.Link child ancestor :=
  Relation.ReflTransGen.cases_tail_iff _ _ _

theorem subtreeTo_eq_leaf (childless : tree.childrenOf id = []) (depth : Nat) :
    tree.subtreeTo depth id = .branch id ((tree.kindOf id).getD .fragment) [] := by
  cases depth <;> simp [subtreeTo, childless]

namespace WellFormed

variable (sound : tree.WellFormed)
include sound

theorem exists_rank : ∃ rank : NodeId → Nat,
    (∀ parent child, tree.parentOf child = some parent → rank parent < rank child) ∧
      (∀ id, id < tree.size → rank id < tree.size) ∧ ∀ id, rank id ≤ tree.size := by
  obtain ⟨rank, ranked⟩ := sound.ranked
  -- A node's new rank is the number of nodes that ranked below it.
  let lower (id : NodeId) : Finset NodeId := (Finset.range tree.size).filter (rank · < rank id)
  have inside : ∀ id, lower id ⊆ Finset.range tree.size := fun id => Finset.filter_subset _ _
  refine ⟨fun id => (lower id).card, fun parent child above => ?_, fun id present => ?_, fun id => ?_⟩
  · have below := ranked parent child above
    refine Finset.card_lt_card (Finset.ssubset_iff_of_subset ?_ |>.2 ⟨parent, ?_, ?_⟩)
    · intro id member
      simp only [lower, Finset.mem_filter] at member ⊢
      exact ⟨member.1, Nat.lt_trans member.2 below⟩
    · simp only [lower, Finset.mem_filter, Finset.mem_range]
      exact ⟨sound.lt_size_of_parent above, below⟩
    · simp [lower]
  · have proper : lower id ⊂ Finset.range tree.size :=
      (Finset.ssubset_iff_of_subset (inside id)).2 ⟨id, Finset.mem_range.2 present, by simp [lower]⟩
    simpa using Finset.card_lt_card proper
  · simpa using Finset.card_le_card (inside id)

theorem descend {motive : NodeId → Prop}
    (step : ∀ id, (∀ child ∈ tree.childrenOf id, motive child) → motive id) (id : NodeId) : motive id := by
  obtain ⟨rank, ranked, -, bounded⟩ := sound.exists_rank
  induction left : tree.size - rank id using Nat.strongRecOn generalizing id with
  | _ left ih =>
      refine step id fun child member => ?_
      have lower := ranked id child (sound.parentOf_of_mem member)
      have high := bounded child
      exact ih (tree.size - rank child) (by omega) child rfl

theorem ascends_antisymm (up : tree.Ascends id other) (down : tree.Ascends other id) : id = other := by
  obtain ⟨rank, ranked⟩ := sound.ranked
  have falls : ∀ {low high}, tree.Ascends low high → high = low ∨ rank high < rank low := by
    intro low high way
    induction way with
    | refl => exact .inl rfl
    | tail _ link ih =>
        have next := ranked _ _ link
        rcases ih with rfl | lower
        · exact .inr next
        · exact .inr (Nat.lt_trans next lower)
  rcases falls up with same | lower
  · exact same.symm
  · rcases falls down with same | higher
    · exact same
    · omega

theorem acyclic (id : NodeId) : ¬ Relation.TransGen tree.Link id id := by
  intro around
  obtain ⟨parent, link, back⟩ := Relation.TransGen.head'_iff.1 around
  cases sound.ascends_antisymm (.single link) back
  exact sound.not_mem_own (sound.mem_childrenOf link)

theorem not_ascends_child (member : child ∈ tree.childrenOf id) : ¬ tree.Ascends id child := by
  intro way
  have link : tree.Link child id := sound.parentOf_of_mem member
  exact sound.acyclic id (.tail' way link)

/-- The way up is walked to its end: more fuel than there are nodes makes no difference. -/
theorem climbsTo_iff {fuel : Nat} (enough : tree.size < fuel) :
    tree.climbsTo ancestor fuel id = true ↔ tree.Ascends id ancestor := by
  obtain ⟨rank, ranked, -, bounded⟩ := sound.exists_rank
  have climb : ∀ fuel id, rank id < fuel → (tree.climbsTo ancestor fuel id = true ↔ tree.Ascends id ancestor) := by
    intro fuel
    induction fuel with
    | zero => intro id none; cases none
    | succ fuel ih =>
        intro id within
        by_cases here : id = ancestor
        · simp [climbsTo, here, Relation.ReflTransGen.refl]
        · simp only [climbsTo, if_neg here]
          rw [ascends_head]
          cases above : tree.parentOf id with
          | none => simp [here, Link, above]
          | some parent =>
              have lower := ranked parent id above
              simp [here, Link, above, ih parent (by omega)]
  exact climb fuel id (Nat.lt_of_le_of_lt (bounded id) enough)

theorem isWithin_iff : tree.isWithin ancestor id = true ↔ tree.Ascends id ancestor :=
  sound.climbsTo_iff (Nat.lt_succ_self _)

/-- A subtree is followed to its leaves: more depth than there are nodes makes no difference. -/
theorem subtreeTo_eq {depth : Nat} (enough : tree.size ≤ depth) (id : NodeId) :
    tree.subtreeTo depth id =
      .branch id ((tree.kindOf id).getD .fragment) ((tree.childrenOf id).map tree.subtree) := by
  obtain ⟨rank, ranked, below, bounded⟩ := sound.exists_rank
  have childless : ∀ id, tree.size - rank id ≤ 0 → tree.childrenOf id = [] := by
    intro id none
    refine childrenOf_of_size_le (Nat.le_of_not_lt fun inside => ?_)
    have := below id inside
    omega
  have same : ∀ first second id, tree.size - rank id ≤ first → tree.size - rank id ≤ second →
      tree.subtreeTo first id = tree.subtreeTo second id := by
    intro first
    induction first with
    | zero =>
        intro second id short _
        rw [subtreeTo_eq_leaf (childless id short), subtreeTo_eq_leaf (childless id short)]
    | succ first ih =>
        intro second id short long
        cases second with
        | zero => rw [subtreeTo_eq_leaf (childless id long), subtreeTo_eq_leaf (childless id long)]
        | succ second =>
            simp only [subtreeTo, Subtree.branch.injEq, true_and]
            refine List.map_congr_left fun child member => ?_
            have lower := ranked id child (sound.parentOf_of_mem member)
            have high := bounded child
            exact ih second child (by omega) (by omega)
  rw [same depth (tree.size + 1) id (by omega) (by omega)]
  rfl

theorem subtree_unfold (id : NodeId) : tree.subtree id =
    .branch id ((tree.kindOf id).getD .fragment) ((tree.childrenOf id).map tree.subtree) :=
  sound.subtreeTo_eq (Nat.le_refl _) id

theorem mem_nodes_subtree : other ∈ (tree.subtree id).nodes ↔ tree.Ascends other id := by
  induction id using sound.descend generalizing other with
  | step id ih =>
      have among : ∀ children : List NodeId, (∀ child ∈ children, child ∈ tree.childrenOf id) →
          (other ∈ nodesOfAll (children.map tree.subtree) ↔ ∃ child ∈ children, tree.Ascends other child) := by
        intro children known
        induction children with
        | nil => simp [nodesOfAll]
        | cons child children next =>
            rw [List.forall_mem_cons] at known
            simp [nodesOfAll, ih child known.1, next known.2]
      rw [sound.subtree_unfold, Subtree.nodes, List.mem_cons, among _ fun _ member => member,
        ascends_tail]
      refine or_congr eq_comm ⟨?_, ?_⟩
      · rintro ⟨child, member, way⟩
        exact ⟨child, way, sound.parentOf_of_mem member⟩
      · rintro ⟨child, way, link⟩
        exact ⟨child, sound.mem_childrenOf link, way⟩

theorem nodup_nodes_subtree (id : NodeId) : (tree.subtree id).nodes.Nodup := by
  induction id using sound.descend with
  | step id ih =>
      have apart : ∀ {first second other}, first ∈ tree.childrenOf id → second ∈ tree.childrenOf id →
          tree.Ascends other first → tree.Ascends other second → first = second := by
        have comparable : ∀ {first second}, first ∈ tree.childrenOf id → second ∈ tree.childrenOf id →
            tree.Ascends first second → first = second := by
          intro first second one two way
          rcases ascends_head.1 way with same | ⟨next, link, way⟩
          · exact same
          · cases rightUnique_link link (sound.parentOf_of_mem one)
            exact absurd way (sound.not_ascends_child two)
        intro first second other one two up down
        rcases Relation.ReflTransGen.total_of_right_unique rightUnique_link up down with way | way
        · exact comparable one two way
        · exact (comparable two one way).symm
      have many : ∀ children : List NodeId, children.Nodup → (∀ child ∈ children, child ∈ tree.childrenOf id) →
          (nodesOfAll (children.map tree.subtree)).Nodup ∧
            ∀ other ∈ nodesOfAll (children.map tree.subtree), ∃ child ∈ children, tree.Ascends other child := by
        intro children distinct known
        induction children with
        | nil => simp [nodesOfAll]
        | cons child children next =>
            rw [List.forall_mem_cons] at known
            rw [List.nodup_cons] at distinct
            obtain ⟨nodup, covered⟩ := next distinct.2 known.2
            rw [List.map_cons, nodesOfAll]
            refine ⟨(ih child known.1).append nodup fun other here there => ?_, fun other member => ?_⟩
            · obtain ⟨second, listed, way⟩ := covered other there
              cases apart known.1 (known.2 second listed) (sound.mem_nodes_subtree.1 here) way
              exact distinct.1 listed
            · rcases List.mem_append.1 member with here | there
              · exact ⟨child, List.mem_cons_self .., sound.mem_nodes_subtree.1 here⟩
              · obtain ⟨second, listed, way⟩ := covered other there
                exact ⟨second, List.mem_cons_of_mem _ listed, way⟩
      obtain ⟨nodup, covered⟩ := many _ (sound.nodup id) fun _ member => member
      rw [sound.subtree_unfold, Subtree.nodes, List.nodup_cons]
      refine ⟨fun again => ?_, nodup⟩
      obtain ⟨child, member, way⟩ := covered id again
      exact sound.not_ascends_child member way

end WellFormed

end Tree

end DomParts
