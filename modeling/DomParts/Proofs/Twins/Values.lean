import DomParts.Proofs.Twins.Instance
import DomParts.Proofs.Twins.Keys
import DomParts.Proofs.Twins.Positions

/-! # Values with positions for keys

Every value is rendered in lockstep with itself with positions for keys, since the values in it are. Only the
lists by key that the value has anyway must not go by positions: a list by position would be taken for one of them.
-/

namespace DomParts.Layout.Realm

open Keyed

variable {σ : Type} {realm : Realm σ}

section Paired

variable (lawful : realm.Lawful)
include lawful

theorem Paired.of_value {value : Value}
    (twins : realm.Twins value.leaves (value.render realm.client) (value.indexed.render realm.client)) :
    realm.Paired (value.rendering realm.client) (value.indexed.rendering realm.client) :=
  ⟨rfl, honest_value lawful value, twins⟩

theorem Paired.of_values {values : List Value} (twins : ∀ value ∈ values,
      realm.Twins value.leaves (value.render realm.client) (value.indexed.render realm.client)) :
    List.Forall₂ realm.Paired (values.map (Value.rendering realm.client))
      ((values.map Value.indexed).map (Value.rendering realm.client)) := by
  rw [List.map_map, List.forall₂_map_left_iff, List.forall₂_map_right_iff, List.forall₂_same]
  exact fun value member => .of_value lawful (twins value member)

end Paired

/-- A value is rendered in lockstep with the value with positions for keys. -/
theorem twins_value (lawful : realm.Lawful) (bare : realm.bare) (value : Value) (named : value.Named) :
    realm.Twins value.leaves (value.render realm.client) (value.indexed.render realm.client) := by
  induction value using Value.nested with
  | nothing => exact twins_nothing
  | text data => exact twins_text data
  | node id => exact twins_node id
  | template kind literal values ih =>
      rw [Value.indexed, Value.render, Value.render, Value.renderings_eq_map, Value.renderings_eq_map,
        Value.indexedAll_eq_map, Value.leaves, ← Value.leavesIn_renderings realm.client]
      exact twins_template lawful kind literal
        (Paired.of_values lawful fun value member => ih value member (Value.named_template.1 named value member))
  | list items ih =>
      rw [Value.indexed, Value.render, Value.render, Value.renderings_eq_map, Value.keyedRenderings_eq_map,
        Value.leaves, ← Value.leavesIn_renderings realm.client]
      have twins : ∀ value ∈ items, realm.Twins value.leaves (value.render realm.client)
          (value.indexed.render realm.client) :=
        fun value member => ih value member (Value.named_list.1 named value member)
      have keys : ((Value.indexedFrom 0 items).map fun item => (item.1, item.2.rendering realm.client)).map (·.1) =
          positions 0 (items.map (Value.rendering realm.client)).length := by
        rw [List.map_map, List.length_map, ← Value.keys_indexedFrom]
        rfl
      have values : ((Value.indexedFrom 0 items).map fun item => (item.1, item.2.rendering realm.client)).map (·.2) =
          (items.map Value.indexed).map (Value.rendering realm.client) := by
        rw [← Value.values_indexedFrom 0, List.map_map, List.map_map]
        rfl
      have paired := Paired.of_values lawful twins
      rw [← values] at paired
      exact @twins_list σ realm _ _ lawful bare keys paired
  | keyed items ih =>
      rw [Value.indexed, Value.render, Value.render, Value.keyedRenderings_eq_map, Value.keyedRenderings_eq_map,
        Value.indexedItems_eq_map, Value.leaves, ← Value.leavesIn_keyedRenderings realm.client]
      obtain ⟨own, inner⟩ := Value.named_keyed.1 named
      have twins : ∀ value ∈ items.map (·.2), realm.Twins value.leaves (value.render realm.client)
          (value.indexed.render realm.client) :=
        List.forall_mem_map.2 fun item member => ih item member (inner item member)
      have keys : ((items.map fun item => (item.1, item.2.indexed)).map fun item =>
          (item.1, item.2.rendering realm.client)).map (·.1) =
          (items.map fun item => (item.1, item.2.rendering realm.client)).map (·.1) := by
        simp only [List.map_map, Function.comp_def]
      have own : ∀ key ∈ (items.map fun item => (item.1, item.2.rendering realm.client)).map (·.1), ∀ position,
          key ≠ .index position := by
        simpa only [List.map_map, Function.comp_def, List.forall_mem_map] using own
      have paired := Paired.of_values lawful twins
      simp only [List.map_map, Function.comp_def] at paired
      refine @twins_keyed σ realm _ _ lawful bare keys own ?_
      simpa only [List.map_map, Function.comp_def] using paired

end DomParts.Layout.Realm
