import DomParts.Proofs.Renaming.Parts

/-! # Lists with other keys and texts

Items by position and items by key go through the same steps when they have other keys and texts: the plan of a
keyed pass is the same, and each of its actions is carried out on the same places.
-/

namespace DomParts

open Keyed RenderM

variable {σ : Type} {r : Renaming} {count : Nat}

namespace Render

section Positions

variable {ones twos : List (Rendering σ)}

theorem alike_intoParts (container stop : NodeId) {parts : List NodePart} (free : ∀ part ∈ parts, part.Free count)
    (each : List.Forall₂ (Rendering.Renamed r) ones twos) :
    (intoParts container stop parts ones).Alike r count (intoParts container stop (parts.map (NodePart.rename r)) twos)
      fun left right => right = left.map (NodePart.rename r) := by
  induction each generalizing parts with
  | nil => cases parts <;> exact alike_pure rfl
  | cons first _ ih =>
      cases parts with
      | nil =>
          rw [List.map_nil, intoParts, intoParts]
          refine (NodePart.alike_insertInto _ _).bind ?_
          rintro fresh _ ⟨rfl, empty⟩
          apply (first.renderWith (.inl empty)).bind
          intro shown shown' same
          subst same
          apply (ih (List.forall_mem_nil _)).bind
          intro rest rest' same
          subst same
          exact alike_pure rfl
      | cons part parts =>
          obtain ⟨here, free⟩ := List.forall_mem_cons.1 free
          rw [List.map_cons, intoParts, intoParts]
          apply (first.renderWith here).bind
          intro shown shown' same
          subst same
          apply (ih free).bind
          intro rest rest' same
          subst same
          exact alike_pure rfl

theorem alike_truncate (container stop : NodeId) (parts : List NodePart) (kept : Nat) :
    (truncate container stop parts kept : RenderM σ Unit).Alike r count
      (truncate container stop (parts.map (NodePart.rename r)) kept) Eq := by
  simp only [truncate, List.getElem?_map, List.length_map]
  cases parts[kept]? with
  | none => exact alike_pure rfl
  | some stale =>
      simp only [Option.map_some, NodePart.start_rename]
      exact (alike_note _).andThen fun _ => (alike_removeRun _ _ _).andThen fun _ => alike_pure rfl

theorem renamed_list (each : List.Forall₂ (Rendering.Renamed r) ones twos) :
    Renderer.Renamed r (Render.list ones) (Render.list twos) := by
  intro count part free
  -- What is done once the parts shown before are known.
  have rest : ∀ parts : List NodePart, (∀ part ∈ parts, part.Free count) → (do
        let container ← part.container
        let shown ← intoParts container part.stop parts ones
        truncate container part.stop parts ones.length
        return .list shown : RenderM σ Content).Alike r count (do
        let container ← part.container
        let shown ← intoParts container part.stop (parts.map (NodePart.rename r)) twos
        truncate container part.stop (parts.map (NodePart.rename r)) twos.length
        return .list shown : RenderM σ Content) fun left right => right = left.rename r := by
    intro parts free
    apply part.alike_container.andThen
    intro container
    apply (alike_intoParts container part.stop free each).bind
    intro shown shown' same
    subst same
    rw [each.length_eq]
    refine (alike_truncate container part.stop parts twos.length).andThen fun _ => alike_pure ?_
    rw [Content.rename, NodePart.renameAll_eq_map]
  by_cases listed : ∃ parts, part.content = .list parts
  · obtain ⟨parts, listed⟩ := listed
    have listed' : (part.rename r).content = .list (parts.map (NodePart.rename r)) := by
      rw [NodePart.content_rename, listed, Content.rename, NodePart.renameAll_eq_map]
    rw [list_of_parts listed, list_of_parts listed', part.container_rename, part.stop_rename]
    have none : count = 0 := free.resolve_left (by simp [listed])
    exact rest parts fun _ _ => .inr none
  · have other : ∀ parts, part.content ≠ .list parts := not_exists.1 listed
    have other' : ∀ parts, (part.rename r).content ≠ .list parts := by
      intro parts
      rw [NodePart.content_rename]
      cases shown : part.content with
      | list parts => exact absurd shown (other parts)
      | _ => simp [Content.rename]
    rw [list_of_other other, list_of_other other', part.container_rename, part.stop_rename, part.removeContent_rename]
    exact part.alike_removeContent.andThen fun _ => rest [] (List.forall_mem_nil _)

end Positions

end Render

namespace Keyed

/-- A pass that achieved the same with other keys and texts. -/
def Pass.rename (r : Renaming) (pass : Pass) : Pass :=
  { pass with placed := pass.placed.map (Option.map (NodePart.rename r)) }

namespace Pass

variable (pass : Pass)

theorem place_rename (index : Nat) (part : NodePart) :
    (pass.rename r).place index (part.rename r) = (pass.place index part).rename r := by
  simp [rename, place, List.map_set]

theorem start_rename (length : Nat) : (start length).rename r = start length := by
  simp [rename, start]

theorem parts_rename : (pass.rename r).parts = pass.parts.map (NodePart.rename r) := by
  simp only [parts, rename, List.filterMap_map, List.map_filterMap, Function.comp_def, id]

end Pass

namespace Setting

structure Renamed (r : Renaming) (count : Nat) (setting other : Setting σ) : Prop where
  client : other.client = setting.client
  container : other.container = setting.container
  stop : other.stop = setting.stop
  old : other.old = setting.old.map (NodePart.rename r)
  items : List.Forall₂ (Rendering.Renamed r) setting.items other.items
  free : ∀ part ∈ setting.old, part.Free count
  discreet : setting.client.Discreet r

variable {setting other : Setting σ} (renamed : setting.Renamed r count other) (pass : Pass)
include renamed

theorem Renamed.nodeAt_eq (anchor : Anchor) : other.nodeAt (pass.rename r) anchor = setting.nodeAt pass anchor := by
  cases anchor with
  | beforeOld index =>
      simp only [nodeAt, renamed.old, renamed.stop, List.getElem?_map]
      cases setting.old[index]? with
      | none => rfl
      | some part => simp only [Option.map_some, NodePart.start_rename]
  | beforeNew index =>
      simp only [nodeAt, renamed.stop, Pass.rename, List.getElem?_map]
      rcases pass.placed[index]? with _ | _ | part
      · rfl
      · rfl
      · simp only [Option.map_some, Option.join_some, NodePart.start_rename]
  | atEnd => exact renamed.stop

theorem Renamed.item (index : Nat) : (setting.items[index]? = none ∧ other.items[index]? = none) ∨
    ∃ one two, setting.items[index]? = some one ∧ other.items[index]? = some two ∧ one.Renamed r two := by
  have length := renamed.items.length_eq
  by_cases inside : index < setting.items.length
  · have inside' : index < other.items.length := length ▸ inside
    exact .inr ⟨_, _, List.getElem?_eq_getElem inside, List.getElem?_eq_getElem inside',
      renamed.items.get inside inside'⟩
  · exact .inl ⟨List.getElem?_eq_none (Nat.le_of_not_lt inside), List.getElem?_eq_none (by omega)⟩

theorem Renamed.alike_keep (old new : Nat) : (setting.keep pass old new).Alike r count
    (other.keep (pass.rename r) old new) fun left right => right = left.rename r := by
  simp only [keep, renamed.old, List.getElem?_map]
  rcases renamed.item new with ⟨none, none'⟩ | ⟨one, two, wanted, wanted', item⟩
  · simp only [none, none']
    cases setting.old[old]? <;> exact alike_pure rfl
  · cases found : setting.old[old]? with
    | none => exact alike_pure rfl
    | some part =>
        simp only [Option.map_some, wanted, wanted']
        apply (item.renderWith (renamed.free part (List.mem_of_getElem? found))).bind
        intro part part' same
        subst same
        rw [Pass.place_rename]
        exact alike_pure rfl

theorem Renamed.alike_bring (old new : Nat) (anchor : Anchor) : (setting.bring pass old new anchor).Alike r count
    (other.bring (pass.rename r) old new anchor) fun left right => right = left.rename r := by
  simp only [bring, renamed.old, List.getElem?_map]
  rcases renamed.item new with ⟨none, none'⟩ | ⟨one, two, wanted, wanted', item⟩
  · simp only [none, none']
    cases setting.old[old]? <;> exact alike_pure rfl
  · cases found : setting.old[old]? with
    | none => exact alike_pure rfl
    | some part =>
        simp only [Option.map_some, wanted, wanted', renamed.nodeAt_eq, renamed.container]
        apply (item.renderWith (renamed.free part (List.mem_of_getElem? found))).bind
        intro part part' same
        subst same
        rw [part.moveBefore_rename, Pass.place_rename]
        exact (part.alike_moveBefore _ _).andThen fun moved => alike_pure rfl

theorem Renamed.alike_create (new : Nat) (anchor : Anchor) : (setting.create pass new anchor).Alike r count
    (other.create (pass.rename r) new anchor) fun left right => right = left.rename r := by
  simp only [create, renamed.nodeAt_eq, renamed.container]
  rcases renamed.item new with ⟨none, none'⟩ | ⟨one, two, wanted, wanted', item⟩
  · simp only [none, none']
    exact alike_pure rfl
  · simp only [wanted, wanted']
    refine (NodePart.alike_insertInto _ _).bind ?_
    rintro fresh _ ⟨rfl, empty⟩
    apply (item.renderWith (.inl empty)).bind
    intro part part' same
    subst same
    rw [Pass.place_rename]
    exact alike_pure rfl

theorem Renamed.alike_remove (old : Nat) : (setting.remove pass old).Alike r count
    (other.remove (pass.rename r) old) fun left right => right = left.rename r := by
  simp only [remove, renamed.old, renamed.client, renamed.container, List.getElem?_map]
  cases setting.old[old]? with
  | none => exact alike_pure rfl
  | some part =>
      simp only [Option.map_some, part.remove_rename]
      exact (part.alike_remove renamed.discreet _).andThen fun _ => alike_pure rfl

theorem Renamed.alike_perform (action : Action) : (setting.perform pass action).Alike r count
    (other.perform (pass.rename r) action) fun left right => right = left.rename r := by
  cases action with
  | keep rule old new => exact (alike_note _).andThen fun _ => renamed.alike_keep pass old new
  | bring rule old new anchor => exact (alike_note _).andThen fun _ => renamed.alike_bring pass old new anchor
  | create rule new anchor => exact (alike_note _).andThen fun _ => renamed.alike_create pass new anchor
  | remove rule old => exact (alike_note _).andThen fun _ => renamed.alike_remove pass old
  | index new old duplicates =>
      apply (alike_note _).andThen
      intro _
      by_cases some : duplicates > 0
      · simp only [some, if_true]
        exact (alike_note _).andThen fun _ => alike_pure rfl
      · simp only [some, if_false]
        exact alike_pure rfl

theorem Renamed.alike_performAll (actions : List Action) : (setting.performAll pass actions).Alike r count
    (other.performAll (pass.rename r) actions) fun left right => right = left.rename r := by
  induction actions generalizing pass with
  | nil => exact alike_pure rfl
  | cons action actions ih =>
      apply (renamed.alike_perform pass action).bind
      intro pass pass' same
      subst same
      exact ih pass

end Setting

end Keyed

namespace Render

variable {client : Client σ} {ones twos : List (Key × Rendering σ)}

theorem renamed_keyed (discreet : client.Discreet r) (keys : twos.map (·.1) = (ones.map (·.1)).map r.key)
    (each : List.Forall₂ (Rendering.Renamed r) (ones.map (·.2)) (twos.map (·.2))) :
    Renderer.Renamed r (Render.keyed client ones) (Render.keyed client twos) := by
  intro count part free
  have length : twos.length = ones.length := by simpa using each.length_eq.symm
  have rest : ∀ (oldKeys : List Key) (old : List NodePart), (∀ part ∈ old, part.Free count) →
      (keyedFrom client ones part oldKeys old).Alike r count
        (keyedFrom client twos (part.rename r) (oldKeys.map r.key) (old.map (NodePart.rename r)))
        fun left right => right = left.rename r := by
    intro oldKeys old free
    simp only [keyedFrom, keys, plan_map, length, part.container_rename, part.stop_rename, Window.ofKeys,
      Window.numbered_map, Window.duplicates_rename]
    apply part.alike_container.andThen
    intro container
    have renamed : Setting.Renamed r count ⟨client, container, part.stop, old, ones.map (·.2)⟩
        ⟨client, container, part.stop, old.map (NodePart.rename r), twos.map (·.2)⟩ :=
      ⟨rfl, rfl, rfl, rfl, each, free, discreet⟩
    have performed := renamed.alike_performAll (.start ones.length) (plan oldKeys (ones.map (·.1)))
    rw [Pass.start_rename] at performed
    by_cases repeats : (Window.numbered 0 (ones.map (·.1))).duplicates > 0 <;> simp only [repeats, if_true, if_false]
    on_goal 1 => refine (alike_note _).andThen fun _ => ?_
    all_goals
      apply performed.bind
      intro pass pass' same
      subst same
      refine (alike_note _).andThen fun _ => alike_pure ?_
      rw [Content.rename, NodePart.renameAll_eq_map, Pass.parts_rename]
      rfl
  by_cases listed : ∃ keys parts stats, part.content = .keyed keys parts stats
  · obtain ⟨keys, parts, stats, listed⟩ := listed
    have listed' : (part.rename r).content = .keyed (keys.map r.key) (parts.map (NodePart.rename r)) stats := by
      rw [NodePart.content_rename, listed, Content.rename, NodePart.renameAll_eq_map]
    rw [keyed_of_keyed listed, keyed_of_keyed listed']
    have none : count = 0 := free.resolve_left (by simp [listed])
    exact rest keys parts fun _ _ => .inr none
  · have other : ∀ keys parts stats, part.content ≠ .keyed keys parts stats :=
      fun keys parts stats shown => listed ⟨keys, parts, stats, shown⟩
    have other' : ∀ keys parts stats, (part.rename r).content ≠ .keyed keys parts stats := by
      intro keys parts stats
      rw [NodePart.content_rename]
      cases shown : part.content with
      | keyed keys parts stats => exact absurd shown (other keys parts stats)
      | _ => simp [Content.rename]
    rw [keyed_of_other other, keyed_of_other other', part.removeContent_rename]
    exact part.alike_removeContent.andThen fun _ => rest [] [] (List.forall_mem_nil _)

end Render

end DomParts
