import DomParts.Proofs.Keyed.Listing
import DomParts.Proofs.Layout.Install
import DomParts.Proofs.Layout.Leaf

/-! # Rendering values

Every value is rendered honestly, since the values in it are.
-/

namespace DomParts

variable {σ : Type}

namespace Value

open Layout (leavesIn)

theorem leavesIn_renderings (client : Client σ) (values : List Value) :
    leavesIn (values.map (rendering client)) = leavesOfAll values := by
  induction values with
  | nil => rfl
  | cons value values ih =>
      rw [List.map_cons, leavesOfAll, ← ih]
      rfl

theorem leavesIn_keyedRenderings (client : Client σ) (items : List (Key × Value)) :
    leavesIn ((items.map fun item => (item.1, rendering client item.2)).map (·.2)) = leavesOfItems items := by
  induction items with
  | nil => rfl
  | cons item items ih =>
      rw [List.map_cons, List.map_cons, leavesOfItems, ← ih]
      rfl

end Value

namespace Layout.Realm

variable {realm : Realm σ}

theorem honest_value (lawful : realm.Lawful) (value : Value) :
    realm.Honest value.leaves (value.render realm.client) := by
  induction value using Value.nested with
  | nothing => exact honest_nothing lawful
  | text data => exact honest_text lawful data
  | node id => exact honest_node lawful id
  | template kind literal values ih =>
      rw [Value.render, Value.renderings_eq_map, Value.leaves, ← Value.leavesIn_renderings realm.client]
      exact honest_template lawful kind literal (List.forall_mem_map.2 ih)
  | list items ih =>
      rw [Value.render, Value.renderings_eq_map, Value.leaves, ← Value.leavesIn_renderings realm.client]
      exact honest_list lawful (List.forall_mem_map.2 ih)
  | keyed items ih =>
      rw [Value.render, Value.keyedRenderings_eq_map, Value.leaves,
        ← Value.leavesIn_keyedRenderings realm.client]
      exact honest_keyed lawful (List.forall_mem_map.2 ih)

end Layout.Realm

end DomParts
