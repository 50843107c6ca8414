import DomParts.Proofs.Keyed.Order
import DomParts.Proofs.Layout.Commit

/-! # What a pass counts

A pass that goes well has carried out its whole plan, whatever scene it found and whatever became of the tree on
the way. So its statistics follow from the keys: they count the actions of the plan, and where items only come
in or only go away, nothing was moved.
-/

namespace DomParts

open Keyed RenderM

variable {σ : Type}

namespace Keyed

/-- The places that an action is about are among the old parts and among the items. -/
structure Setting.Covers (setting : Setting σ) (action : Action) : Prop where
  old : ∀ place ∈ action.old?, place < setting.old.length
  new : ∀ place ∈ action.new?, place < setting.items.length

/-- What actions add to a pass. A part that is said to move may have been in its place already. -/
structure Ledger (pass next : Pass) (actions : List Action) : Prop where
  updated : next.stats.updated = pass.stats.updated + actions.countP Action.updates
  created : next.stats.created = pass.stats.created + actions.countP Action.creates
  removed : next.stats.removed = pass.stats.removed + actions.countP Action.removes
  moved : next.stats.moved ≤ pass.stats.moved + actions.countP Action.brings
  length : next.placed.length = pass.placed.length
  placed : ∀ index, index < pass.placed.length →
    index ∈ actions.filterMap Action.new? ∨ (∃ part, pass.placed[index]? = some (some part)) →
    ∃ part, next.placed[index]? = some (some part)

namespace Ledger

variable {pass next last : Pass} {action : Action} {actions : List Action} {part : NodePart} {index : Nat}

theorem refl (pass : Pass) : Ledger pass pass [] where
  updated := rfl
  created := rfl
  removed := rfl
  moved := Nat.le_refl _
  length := rfl
  placed _ _ known := known.resolve_left List.not_mem_nil

theorem trans (one : Ledger pass next [action]) (rest : Ledger next last actions) :
    Ledger pass last (action :: actions) where
  updated := by
    rw [rest.updated, one.updated, Nat.add_assoc, ← List.countP_append, List.singleton_append]
  created := by
    rw [rest.created, one.created, Nat.add_assoc, ← List.countP_append, List.singleton_append]
  removed := by
    rw [rest.removed, one.removed, Nat.add_assoc, ← List.countP_append, List.singleton_append]
  moved := by
    have here := one.moved
    have beyond := rest.moved
    rw [← List.singleton_append, List.countP_append]
    omega
  length := rest.length.trans one.length
  placed index inside known := by
    rw [← List.singleton_append, List.filterMap_append, List.mem_append] at known
    apply rest.placed index (one.length ▸ inside)
    cases known with
    | inl known =>
        cases known with
        | inl here => exact .inr (one.placed index inside (.inl here))
        | inr later => exact .inl later
    | inr already => exact .inr (one.placed index inside (.inr already))

theorem counted {change : Stats → Stats} (none : action.new? = none)
    (updated : (change pass.stats).updated = pass.stats.updated + [action].countP Action.updates)
    (created : (change pass.stats).created = pass.stats.created + [action].countP Action.creates)
    (removed : (change pass.stats).removed = pass.stats.removed + [action].countP Action.removes)
    (moved : (change pass.stats).moved = pass.stats.moved) : Ledger pass (pass.count change) [action] where
  updated := updated
  created := created
  removed := removed
  moved := Nat.le_add_right_of_le (Nat.le_of_eq moved)
  length := rfl
  placed index _ known := known.resolve_left (by simp [none])

theorem place {change : Stats → Stats} (part : NodePart) (settles : action.new? = some index)
    (updated : (change pass.stats).updated = pass.stats.updated + [action].countP Action.updates)
    (created : (change pass.stats).created = pass.stats.created + [action].countP Action.creates)
    (removed : (change pass.stats).removed = pass.stats.removed + [action].countP Action.removes)
    (moved : (change pass.stats).moved ≤ pass.stats.moved + [action].countP Action.brings) :
    Ledger pass ((pass.place index part).count change) [action] where
  updated := updated
  created := created
  removed := removed
  moved := moved
  length := by simp [Pass.count, Pass.place]
  placed other inside known := by
    by_cases same : index = other
    · subst same
      exact ⟨part, by simp [Pass.count, Pass.place, inside]⟩
    · have already := known.resolve_left (by simpa [settles] using Ne.symm same)
      simpa [Pass.count, Pass.place, List.getElem?_set_ne same] using already

end Ledger

namespace Setting

variable {setting : Setting σ} {pass : Pass}

theorem perform_counts {action : Action} (covers : setting.Covers action) (pass : Pass) (scene : Scene σ) :
    (setting.perform pass action).Leads scene (fun next _ => Ledger pass next [action]) fun _ _ => True := by
  cases action with
  | keep rule old new =>
      obtain ⟨part, known⟩ : ∃ part, setting.old[old]? = some part :=
        ⟨_, List.getElem?_eq_getElem (covers.old old rfl)⟩
      obtain ⟨item, wanted⟩ : ∃ item, setting.items[new]? = some item :=
        ⟨_, List.getElem?_eq_getElem (covers.new new rfl)⟩
      simp only [perform, keep, known, wanted, leads_bind, leads_note, leads_pure]
      exact (leads_somehow _ _).imp fun part _ _ => Ledger.place part rfl rfl rfl rfl (Nat.le_refl _)
  | bring rule old new anchor =>
      obtain ⟨part, known⟩ : ∃ part, setting.old[old]? = some part :=
        ⟨_, List.getElem?_eq_getElem (covers.old old rfl)⟩
      obtain ⟨item, wanted⟩ : ∃ item, setting.items[new]? = some item :=
        ⟨_, List.getElem?_eq_getElem (covers.new new rfl)⟩
      simp only [perform, bring, known, wanted, leads_bind, leads_note, leads_pure]
      refine (leads_somehow _ _).imp fun part _ _ => ?_
      refine (leads_somehow _ _).imp fun moved _ _ => Ledger.place part rfl rfl rfl rfl ?_
      cases moved with
      | true => exact Nat.le_refl _
      | false => exact Nat.le_succ _
  | create rule new anchor =>
      obtain ⟨item, wanted⟩ : ∃ item, setting.items[new]? = some item :=
        ⟨_, List.getElem?_eq_getElem (covers.new new rfl)⟩
      simp only [perform, create, wanted, leads_bind, leads_note, leads_pure]
      refine (leads_somehow _ _).imp fun fresh _ _ => ?_
      exact (leads_somehow _ _).imp fun part _ _ => Ledger.place part rfl rfl rfl rfl (Nat.le_refl _)
  | remove rule old =>
      obtain ⟨part, known⟩ : ∃ part, setting.old[old]? = some part :=
        ⟨_, List.getElem?_eq_getElem (covers.old old rfl)⟩
      simp only [perform, remove, known, leads_bind, leads_note, leads_pure]
      exact (leads_somehow _ _).imp fun _ _ _ => Ledger.counted rfl rfl rfl rfl rfl
  | index new old duplicates =>
      have counted : Ledger pass pass [.index new old duplicates] :=
        (Ledger.counted rfl rfl rfl rfl rfl : Ledger pass (pass.count id) _)
      by_cases some : duplicates > 0
      · simpa only [perform, some, if_true, leads_bind, leads_note, leads_pure] using counted
      · simpa only [perform, some, if_false, leads_bind, leads_note, leads_pure] using counted

theorem performAll_counts {actions : List Action} (covers : ∀ action ∈ actions, setting.Covers action) (pass : Pass)
    (scene : Scene σ) :
    (setting.performAll pass actions).Leads scene (fun next _ => Ledger pass next actions) fun _ _ => True := by
  induction actions generalizing pass scene with
  | nil => exact .refl pass
  | cons action actions ih =>
      rw [List.forall_mem_cons] at covers
      rw [performAll, leads_bind]
      refine (perform_counts covers.1 pass scene).imp fun next scene one => ?_
      exact (ih covers.2 next scene).imp fun last _ rest => one.trans rest

theorem covers_plan {oldKeys newKeys : List Key} (olds : setting.old.length = oldKeys.length)
    (news : setting.items.length = newKeys.length) : ∀ action ∈ plan oldKeys newKeys, setting.Covers action := by
  intro action member
  constructor
  · intro place settles
    have among := (plan_olds oldKeys newKeys).subset (List.mem_filterMap.2 ⟨action, member, settles⟩)
    rw [olds]
    exact List.mem_range.1 among
  · intro place settles
    have among := (plan_news oldKeys newKeys).subset (List.mem_filterMap.2 ⟨action, member, settles⟩)
    rw [news]
    exact List.mem_range.1 among

end Setting

theorem Ledger.complete {pass : Pass} {oldKeys newKeys : List Key} {count : Nat}
    (ledger : Ledger (.start count) pass (plan oldKeys newKeys)) (length : newKeys.length = count) :
    pass.parts.length = count := by
  have places : pass.placed.length = count := by simpa [Pass.start] using ledger.length
  have filled : ∀ placed ∈ pass.placed, placed.isSome = true := by
    intro placed member
    obtain ⟨index, here⟩ := List.mem_iff_getElem?.1 member
    have inside : index < count := places ▸ (List.getElem?_eq_some_iff.1 here).1
    have settled := (plan_news oldKeys newKeys).symm.subset (List.mem_range.2 (length ▸ inside))
    obtain ⟨part, there⟩ := ledger.placed index (by simpa [Pass.start] using inside) (.inl settled)
    cases here.symm.trans there
    rfl
  rw [← places, Pass.parts, List.length_filterMap_eq_countP, List.countP_eq_length]
  exact filled

end Keyed

/-- A part that has one part for each of the keys, in a list by key or because there are none. -/
def NodePart.ListsKeys (part : NodePart) (keys : List Key) : Prop :=
  match part.content with
  | .keyed shown parts _ => shown = keys ∧ parts.length = keys.length
  | _ => keys = []

namespace Render

variable {client : Client σ} {items : List (Key × Rendering σ)} {part : NodePart} {oldKeys : List Key}

theorem keyedFrom_counts {old : List NodePart} (complete : old.length = oldKeys.length) (scene : Scene σ) :
    (keyedFrom client items part oldKeys old).Leads scene
      (fun content _ => ∃ pass, content = .keyed (items.map (·.1)) pass.parts pass.stats ∧
        Ledger (.start items.length) pass (plan oldKeys (items.map (·.1)))) fun _ _ => True := by
  have works : ∀ (container : NodeId) scene,
      ((⟨client, container, part.stop, old, items.map (·.2)⟩ : Setting σ).performAll (.start items.length)
        (plan oldKeys (items.map (·.1)))).Leads scene
        (fun pass _ => ∃ last, Content.keyed (items.map (·.1)) pass.parts pass.stats =
          .keyed (items.map (·.1)) last.parts last.stats ∧
          Ledger (.start items.length) last (plan oldKeys (items.map (·.1)))) fun _ _ => True := by
    intro container scene
    exact (Setting.performAll_counts (Setting.covers_plan complete (by simp)) _ scene).imp
      fun pass _ ledger => ⟨pass, rfl, ledger⟩
  rw [keyedFrom, leads_bind]
  refine (leads_somehow _ _).imp fun container scene _ => ?_
  by_cases some : (Window.ofKeys (items.map (·.1))).duplicates > 0
  · simpa only [some, if_true, leads_bind, leads_note, leads_pure] using works container _
  · simpa only [some, if_false, leads_bind, leads_note, leads_pure] using works container _

/-- Whatever a part showed, its list is made by the plan from the keys it had. -/
theorem keyed_counts (lists : part.ListsKeys oldKeys) (scene : Scene σ) :
    (Render.keyed client items part).Leads scene
      (fun content _ => ∃ pass, content = .keyed (items.map (·.1)) pass.parts pass.stats ∧
        Ledger (.start items.length) pass (plan oldKeys (items.map (·.1)))) fun _ _ => True := by
  unfold NodePart.ListsKeys at lists
  split at lists
  · rename_i keys parts stats content
    obtain ⟨rfl, complete⟩ := lists
    rw [keyed_of_keyed content]
    exact keyedFrom_counts complete scene
  · rename_i other
    subst lists
    rw [keyed_of_other other, leads_bind]
    exact (leads_somehow _ _).imp fun _ scene _ => keyedFrom_counts rfl scene

end Render

end DomParts
