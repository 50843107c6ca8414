import DomParts.Proofs.Tree.Insert
import DomParts.Tree.Edit
import Mathlib.Data.List.Perm.Subperm
import Mathlib.Data.List.TakeWhile

/-! # Removing runs

A run is given by how it splits the children of its container. Removing one detaches exactly its
nodes.
-/

namespace DomParts.Tree

variable {tree changed : Tree} {container id : NodeId} {front run rest : List NodeId}

theorem WellFormed.length_childrenOf_le (sound : tree.WellFormed) (id : NodeId) :
    (tree.childrenOf id).length ≤ tree.size := by
  have inside : tree.childrenOf id ⊆ List.range tree.size := by
    intro child member
    exact List.mem_range.2 (sound.lt_size_of_mem member)
  simpa using (List.subperm_of_subset (sound.nodup id) inside).length_le

theorem WellFormed.length_run_le (sound : tree.WellFormed)
    (split : tree.childrenOf container = front ++ run ++ rest) : run.length ≤ tree.size := by
  have all := sound.length_childrenOf_le container
  simp only [split, List.length_append] at all
  omega

theorem WellFormed.head?_ne_of_listed (sound : tree.WellFormed)
    (listed : tree.childrenOf container = front ++ id :: (run ++ rest)) : rest.head? ≠ some id := by
  intro stop
  have distinct := sound.nodup container
  rw [listed] at distinct
  exact (List.nodup_cons.1 (List.nodup_append.1 distinct).2.1).1 (List.mem_append_right _ (List.mem_of_head? stop))

theorem overRun_stop {visit : Tree → NodeId → Except HostFault Tree} {fuel count : Nat} :
    overRun visit (some id) fuel (some id) count tree = (.ok count, tree) := by
  rw [overRun.eq_def]
  simp

theorem overRun_none {visit : Tree → NodeId → Except HostFault Tree} {stop : Option NodeId}
    {fuel count : Nat} : overRun visit stop fuel none count tree = (.ok count, tree) := by
  rw [overRun.eq_def]

theorem overRun_step {visit : Tree → NodeId → Except HostFault Tree} {stop : Option NodeId}
    {fuel count : Nat} (onward : stop ≠ some id) (done : visit tree id = .ok changed) :
    overRun visit stop (fuel + 1) (some id) count tree =
      overRun visit stop fuel (tree.nextSibling id) (count + 1) changed := by
  rw [overRun.eq_def]
  simp [onward, done]

/-- The nodes that come before `stop`, or all of them if it is not among them. -/
def upTo (stop : Option NodeId) (ids : List NodeId) : List NodeId := ids.takeWhile (some · ≠ stop)

@[simp] theorem upTo_nil (stop : Option NodeId) : upTo stop [] = [] := rfl

@[simp] theorem upTo_cons_self (id : NodeId) (rest : List NodeId) : upTo (some id) (id :: rest) = [] := by
  simp [upTo]

theorem upTo_cons {stop : Option NodeId} (onward : stop ≠ some id) (rest : List NodeId) :
    upTo stop (id :: rest) = id :: upTo stop rest := by
  simp [upTo, Ne.symm onward]

theorem ne_of_mem_upTo {stop : Option NodeId} {ids : List NodeId} (member : id ∈ upTo stop ids) : stop ≠ some id := by
  have passed := List.mem_takeWhile_imp member
  exact fun met => of_decide_eq_true passed met.symm

theorem upTo_split {stop : Option NodeId} {ids : List NodeId} (ends : ∀ id, stop = some id → id ∈ ids) :
    ∃ rest, ids = upTo stop ids ++ rest ∧ rest.head? = stop := by
  induction ids with
  | nil =>
      cases stop with
      | none => exact ⟨[], rfl, rfl⟩
      | some last => exact absurd (ends last rfl) List.not_mem_nil
  | cons first ids ih =>
      by_cases met : stop = some first
      · exact ⟨first :: ids, by simp [met], met.symm⟩
      · have later : ∀ id, stop = some id → id ∈ ids := by
          intro id same
          rcases List.mem_cons.1 (ends id same) with rfl | member
          · exact absurd same met
          · exact member
        obtain ⟨rest, parted, begins⟩ := ih later
        refine ⟨rest, ?_, begins⟩
        rw [upTo_cons met, List.cons_append, ← parted]

theorem upTo_append (distinct : (run ++ rest).Nodup) : upTo rest.head? (run ++ rest) = run := by
  induction run with
  | nil => cases rest <;> simp
  | cons first run ih =>
      rw [List.cons_append, List.nodup_cons] at distinct
      have onward : rest.head? ≠ some first := by
        intro same
        apply distinct.1
        exact List.mem_append_right _ (List.mem_of_head? same)
      rw [List.cons_append, upTo_cons onward, ih distinct.2]

theorem overRun_removeChild (sound : tree.WellFormed) {left : List NodeId}
    (split : tree.childrenOf container = front ++ left) (stop : Option NodeId) {fuel : Nat}
    (enough : (upTo stop left).length ≤ fuel) (count : Nat) :
    overRun (fun tree id => tree.removeChild container id) stop fuel left.head? count tree =
      (.ok (count + (upTo stop left).length), tree.detachAll (upTo stop left)) := by
  induction left generalizing tree fuel count with
  | nil => exact overRun_none
  | cons first left ih =>
      by_cases met : stop = some first
      · subst met
        simpa using overRun_stop
      · rw [upTo_cons met] at enough ⊢
        obtain ⟨fuel, rfl⟩ : ∃ less, fuel = less + 1 := ⟨fuel - 1, by simp at enough; omega⟩
        have fewer : (upTo stop left).length ≤ fuel := by simpa using enough
        have member : first ∈ tree.childrenOf container := by simp [split]
        have distinct := sound.nodup container
        rw [split] at distinct
        have remaining : (tree.detach first).childrenOf container = front ++ left := by
          have gone : ∀ id ∈ front ++ left, decide (id ≠ first) = true := by
            intro id among
            simpa using fun same : id = first =>
              (List.nodup_cons.1 (List.nodup_middle.1 distinct)).1 (same ▸ among)
          rw [childrenOf_detach sound, split]
          simp only [List.filter_append, List.filter_cons, ne_eq, not_true, decide_false]
          rw [← List.filter_eq_self.2 gone]
          simp
        rw [List.head?_cons, overRun_step met (removeChild_eq sound member), sound.nextSibling_eq split,
          ih (sound.detach first) remaining fewer]
        simp [Nat.add_assoc, Nat.add_comm 1]

/-- Removing from a child on detaches all nodes up to `stop` and nothing else. If `stop` is not met, all
    siblings go that are left. -/
theorem removeRun_upTo (sound : tree.WellFormed) {left : List NodeId}
    (split : tree.childrenOf container = front ++ left) {start : NodeId} (begins : left.head? = some start)
    (stop : Option NodeId) : tree.removeRun container start stop =
      (.ok (upTo stop left).length, tree.detachAll (upTo stop left)) := by
  have enough : (upTo stop left).length ≤ tree.size := by
    have all := sound.length_childrenOf_le container
    have part : (upTo stop left).length ≤ left.length := (List.takeWhile_sublist _).length_le
    simp only [split, List.length_append] at all
    omega
  simpa only [removeRun, ← begins, Nat.zero_add] using overRun_removeChild sound split stop enough 0

theorem removeRun_eq (sound : tree.WellFormed)
    (split : tree.childrenOf container = front ++ run ++ rest) {start : NodeId}
    (begins : (run ++ rest).head? = some start) :
    tree.removeRun container start rest.head? = (.ok run.length, tree.detachAll run) := by
  have distinct := sound.nodup container
  rw [split, List.append_assoc] at distinct
  have here := upTo_append (List.nodup_append.1 distinct).2.1
  rw [removeRun_upTo sound ((List.append_assoc ..).symm ▸ split) begins, here]

end DomParts.Tree
