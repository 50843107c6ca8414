import DomParts.Proofs.Layout.Honest
import DomParts.Proofs.Render.Depicts

/-! # Plain values

A value is plain if no list by key and no node of the host is anywhere in it, and so is a part that shows such a
value. All nodes of a plain part are its own, and none of them is in the hands of the removal hook.
-/

namespace DomParts

variable {cache : TemplateCache} {value : Value} {content : Content}

/-- There are no lists by key and no nodes of the host anywhere in the value. -/
inductive Value.Plain : Value → Prop where
  | nothing : Value.nothing.Plain
  | text (data : String) : (Value.text data).Plain
  | template (kind : TemplateKind) (literal : Literal) {values : List Value}
      (each : ∀ value ∈ values, value.Plain) : (Value.template kind literal values).Plain
  | list {items : List Value} (each : ∀ value ∈ items, value.Plain) : (Value.list items).Plain

/-- The part shows no list by key and no node of the host, and neither does any part inside it. -/
inductive NodePart.Plain : NodePart → Prop where
  | intro {part : NodePart} (unkeyed : ∀ keys parts stats, part.content ≠ .keyed keys parts stats)
      (ownerless : part.content.node? = none) (inside : ∀ inner, part.Holds inner → inner.Plain) : part.Plain

namespace NodePart

variable {part inner item : NodePart}

theorem Plain.unkeyed (plain : part.Plain) {keys : List Key} {parts : List NodePart} {stats : Stats} :
    part.content ≠ .keyed keys parts stats := by
  cases plain with
  | intro unkeyed _ _ => exact unkeyed _ _ _

theorem Plain.inside (plain : part.Plain) (holds : part.Holds inner) : inner.Plain := by
  cases plain with
  | intro _ _ inside => exact inside inner holds

theorem Plain.of_hollow (unkeyed : ∀ keys parts stats, part.content ≠ .keyed keys parts stats)
    (ownerless : part.content.node? = none) (hollow : part.content.inside = []) : part.Plain :=
  ⟨unkeyed, ownerless, fun inner holds => absurd holds (by simp [Holds, hollow])⟩

theorem Plain.descend (plain : part.Plain) (way : Relation.ReflTransGen Holds part inner) : inner.Plain := by
  induction way with
  | refl => exact plain
  | tail _ holds ih => exact ih.inside holds

theorem Plain.keyedItems (plain : part.Plain) : part.content.keyedItems = [] := by
  cases shown : part.content with
  | keyed keys parts stats => exact absurd shown plain.unkeyed
  | _ => rfl

theorem holds_of_keyed (listed : item ∈ part.content.keyedItems) : part.Holds item := by
  rw [Holds]
  cases shown : part.content <;> rw [shown] at listed <;> first | exact listed | cases listed

end NodePart

namespace Value

theorem leavesOfAll_eq_nil {values : List Value} (each : ∀ value ∈ values, value.leaves = []) :
    leavesOfAll values = [] := by
  induction values with
  | nil => rfl
  | cons value values ih =>
      rw [List.forall_mem_cons] at each
      rw [leavesOfAll, each.1, ih each.2, List.append_nil]

theorem leavesOfItems_eq_nil {items : List (Key × Value)} (each : ∀ item ∈ items, item.2.leaves = []) :
    leavesOfItems items = [] := by
  induction items with
  | nil => rfl
  | cons item items ih =>
      rw [List.forall_mem_cons] at each
      rw [leavesOfItems, each.1, ih each.2, List.append_nil]

theorem Plain.leaves (plain : value.Plain) : value.leaves = [] := by
  induction plain with
  | nothing => rfl
  | text => rfl
  | template kind literal each ih =>
      rw [Value.leaves]
      exact leavesOfAll_eq_nil ih
  | list each ih =>
      rw [Value.leaves]
      exact leavesOfAll_eq_nil ih

end Value

/-- What stands on the right of related lists is related to something on the left. -/
theorem exists_left_of_forall₂ {α β : Type} {related : α → β → Prop} {ones : List α} {twos : List β}
    (each : List.Forall₂ related ones twos) {two : β} (member : two ∈ twos) : ∃ one ∈ ones, related one two := by
  induction each with
  | nil => cases member
  | cons here _ ih =>
      rcases List.mem_cons.1 member with rfl | member
      · exact ⟨_, List.mem_cons_self .., here⟩
      · obtain ⟨one, listed, here⟩ := ih member
        exact ⟨one, List.mem_cons_of_mem _ listed, here⟩

theorem Value.Plain.depicts (plain : value.Plain) {part : NodePart} (depicts : Depicts cache value part.content) :
    part.Plain := by
  induction plain generalizing part with
  | nothing =>
      cases shown : part.content <;> rw [shown] at depicts <;> cases depicts
      exact .of_hollow (by simp [shown]) (by simp [shown, Content.node?])
        (by simp [shown, Content.inside, Content.items])
  | text data =>
      cases shown : part.content <;> rw [shown] at depicts <;> cases depicts
      exact .of_hollow (by simp [shown]) (by simp [shown, Content.node?])
        (by simp [shown, Content.inside, Content.items])
  | template kind literal each ih =>
      cases shown : part.content <;> rw [shown] at depicts <;> cases depicts
      rename_i known serial parts
      refine ⟨by simp [shown], by simp [shown, Content.node?], fun inner holds => ?_⟩
      rw [NodePart.Holds, shown, Content.inside, List.mem_filterMap] at holds
      obtain ⟨slot, member, same⟩ := holds
      obtain ⟨value, listed, depicts⟩ := exists_left_of_forall₂ parts member
      cases depicts with
      | node depicts =>
          cases same
          exact ih value listed depicts
      | label => cases same
  | list each ih =>
      cases shown : part.content <;> rw [shown] at depicts <;> cases depicts
      rename_i pairs
      refine ⟨by simp [shown], by simp [shown, Content.node?], fun inner holds => ?_⟩
      rw [NodePart.Holds, shown] at holds
      obtain ⟨value, listed, depicts⟩ := exists_left_of_forall₂ pairs holds
      exact ih value listed depicts

namespace Layout

variable {premises : Premises} {tree : Tree} {part : NodePart} {inner owned : List NodeId}

theorem Shows.of_plain (plain : part.Plain) (shows : Shows premises tree part.content inner owned) :
    ∀ id ∈ owned, ¬ premises.guest id ∧ ¬ premises.kept id := by
  induction plain generalizing inner owned with
  | @intro part unkeyed ownerless _ ih =>
      have held : ∀ inner, inner ∈ part.content.inside → part.Holds inner := fun _ => id
      generalize part.content = content at *
      cases shows with
      | empty => exact List.forall_mem_nil _
      | text kind own free => exact List.forall_mem_singleton.2 ⟨own, free⟩
      | guest => cases ownerless
      | absent => cases ownerless
      | row arranged marked shown =>
          intro id member
          obtain ⟨block, listed, here⟩ := List.mem_flatMap.1 member
          cases content with
          | keyed keys parts stats => exact absurd rfl (unkeyed keys parts stats)
          | list parts =>
              cases block with
              | stray id => exact absurd listed (arranged.2 id)
              | plot plot =>
                  have among : plot.part ∈ parts := arranged.1 ▸ List.mem_filterMap.2 ⟨_, listed, rfl⟩
                  have charted := marked plot listed
                  simp only [Block.claimed, Plot.claimed, List.mem_cons] at here
                  rcases here with rfl | rfl | owned
                  · exact ⟨charted.start_own, charted.start_free⟩
                  · exact ⟨charted.stop_own, charted.stop_free⟩
                  · exact ih plot.part (held _ among) (shown plot listed) id owned
          | _ => exact arranged.elim
      | template shape planted parts fit distinct own kinds children marked nested =>
          intro id member
          rcases List.mem_append.1 member with top | member
          · exact own id top
          · obtain ⟨fitting, listed, here⟩ := List.mem_flatMap.1 member
            cases fitting with
            | label => cases here
            | node plot =>
                have charted := marked plot listed
                rcases List.mem_cons.1 here with rfl | owned
                · exact ⟨charted.stop_own, charted.stop_free⟩
                · refine ih plot.part (held _ ?_) (nested plot listed) id owned
                  rw [Content.inside, parts]
                  exact List.mem_filterMap.2 ⟨_, List.mem_map_of_mem listed, rfl⟩

end Layout

end DomParts
