import DomParts.Part.Keyed
import DomParts.Part.List
import DomParts.Proofs.Render.Values
import DomParts.Proofs.Renaming.Lockstep
import DomParts.Proofs.Renaming.Plan

/-! # Rendering other keys and texts

Rendering a value into a part, and the value with other keys and texts into the part that shows other keys and
texts, comes to the same but for keys and texts, if that goes for the values in it. Nothing that a part does asks
for more of a text than whether it is shown already, and nothing asks for more of a key than a plan does.
-/

namespace DomParts

open RenderM

variable {σ : Type} {r : Renaming} {count : Nat}

namespace NodePart

/-- Whatever is rendered into the part, the attributes of the first `count` nodes are left alone: the part shows
    nothing yet, or there are no such nodes. -/
def Free (count : Nat) (part : NodePart) : Prop := part.content = .empty ∨ count = 0

variable (part : NodePart)

theorem container_rename : ((part.rename r).container : RenderM σ NodeId) = part.container := by
  simp only [container, start_rename]

theorem removeContent_rename : ((part.rename r).removeContent : RenderM σ Unit) = part.removeContent := by
  simp only [removeContent, start_rename, stop_rename, container_rename]

theorem insertContent_rename (id : NodeId) :
    ((part.rename r).insertContent id : RenderM σ Unit) = part.insertContent id := by
  simp only [insertContent, stop_rename, container_rename]

theorem loneText?_rename : ((part.rename r).loneText? : RenderM σ (Option NodeId)) = part.loneText? := by
  simp only [loneText?, start_rename, stop_rename]

theorem moveBefore_rename (container before : NodeId) :
    ((part.rename r).moveBefore container before : RenderM σ Bool) = part.moveBefore container before := by
  simp only [moveBefore, start_rename, stop_rename]

theorem remove_rename (client : Client σ) (container : NodeId) :
    (part.rename r).remove client container = part.remove client container := by
  simp only [remove, start_rename, stop_rename]

theorem alike_container : (part.container : RenderM σ NodeId).Alike r count part.container Eq :=
  (alike_look fun _ _ renamed => renamed.parentOf_eq _).andThen fun _ => alike_require _ _

theorem alike_removeContent : (part.removeContent : RenderM σ Unit).Alike r count part.removeContent Eq :=
  (alike_look fun _ _ renamed => renamed.nextSibling_eq _).andThen fun _ => (alike_require _ _).andThen fun _ =>
    part.alike_container.andThen fun _ => (alike_removeRun _ _ _).andThen fun _ => alike_pure rfl

theorem alike_insertContent (id : NodeId) :
    (part.insertContent id : RenderM σ Unit).Alike r count (part.insertContent id) Eq :=
  part.alike_container.andThen fun _ => alike_insert _ _ _

theorem alike_insertInto (container : NodeId) (before : Option NodeId) :
    (insertInto container before : RenderM σ NodePart).Alike r count (insertInto container before)
      fun left right => right = left.rename r ∧ left.content = .empty := by
  refine alike_createMarker.andThen fun start => alike_createMarker.andThen fun stop => ?_
  refine (alike_insert _ _ _).andThen fun _ => (alike_insert _ _ _).andThen fun _ => alike_pure ⟨?_, rfl⟩
  rw [between, rename, Content.rename, Option.map_none]

theorem alike_moveBefore (container before : NodeId) :
    (part.moveBefore container before : RenderM σ Bool).Alike r count (part.moveBefore container before) Eq := by
  apply (alike_look fun _ _ renamed => renamed.nextSibling_eq _).andThen
  intro after
  split
  · exact alike_pure rfl
  · exact (alike_moveRun _ _ _ _).andThen fun _ => alike_pure rfl

end NodePart

namespace RenderM

section Asking

variable {hook : RemovalHook σ} (unseen : ∀ target container, r.Unseen (hook.ask target container))
include unseen

theorem alike_mayRemove (container id : NodeId) :
    (mayRemove hook container id).Alike r count (mayRemove hook container id) Eq := by
  apply (alike_look fun _ _ renamed => renamed.isMarker_eq _).andThen
  intro marker
  cases marker with
  | true => exact alike_pure rfl
  | false =>
      apply (alike_consult (unseen id container)).andThen
      intro answer
      cases answer with
      | proceed => exact alike_pure rfl
      | skip => exact (alike_note _).andThen fun _ => alike_pure rfl

theorem alike_removeAsking (container id : NodeId) :
    (removeAsking hook container id).Alike r count (removeAsking hook container id) Eq := by
  apply (alike_look fun _ _ renamed => renamed.parentOf_eq _).andThen
  intro parent
  split
  · exact (alike_note _).andThen fun _ => alike_throw _
  · apply (alike_mayRemove unseen container id).andThen
    intro may
    cases may with
    | true => exact (alike_edit (Tree.agree_removeChild container id)).andThen fun _ => alike_pure rfl
    | false => exact alike_pure rfl

theorem alike_overRunAsking (container : NodeId) (stop : Option NodeId) (fuel : Nat) (first : Option NodeId)
    (done : Nat) : (overRunAsking hook container stop fuel first done).Alike r count
      (overRunAsking hook container stop fuel first done) Eq := by
  induction fuel generalizing first done with
  | zero =>
      unfold overRunAsking
      cases first with
      | none => exact alike_pure rfl
      | some id =>
          by_cases ends : stop = some id
          · simp only [ends, if_true]
            exact alike_pure rfl
          · simp only [ends, if_false]
            exact alike_throw _
  | succ fuel ih =>
      unfold overRunAsking
      cases first with
      | none => exact alike_pure rfl
      | some id =>
          by_cases ends : stop = some id
          · simp only [ends, if_true]
            exact alike_pure rfl
          · simp only [ends, if_false]
            exact (alike_look fun _ _ renamed => renamed.nextSibling_eq _).andThen fun next =>
              (alike_removeAsking unseen container id).andThen fun went => ih next _

end Asking

theorem alike_removeRunFor {client : Client σ} (discreet : client.Discreet r) (container start : NodeId)
    (stop : Option NodeId) : (removeRunFor client container start stop).Alike r count
      (removeRunFor client container start stop) Eq := by
  unfold removeRunFor
  cases known : client.hook? with
  | none => exact alike_removeRun container start stop
  | some hook =>
      have size : ∀ tree other : Tree, tree.Renamed r other →
          other.size + hook.additions = tree.size + hook.additions := fun _ _ renamed => by rw [renamed.size]
      exact (alike_look size).andThen fun fuel =>
        (alike_overRunAsking (discreet.ask hook known) container stop fuel _ _).andThen fun _ =>
          (alike_note _).andThen fun _ => alike_pure rfl

end RenderM

theorem NodePart.alike_remove {client : Client σ} (discreet : client.Discreet r) (part : NodePart)
    (container : NodeId) : (part.remove client container).Alike r count (part.remove client container) Eq :=
  (alike_look fun _ _ renamed => renamed.nextSibling_eq _).andThen fun _ =>
    (alike_removeRunFor discreet _ _ _).andThen fun _ => alike_pure rfl

/-- Two renderers that come to the same but for keys and texts. -/
def Renderer.Renamed (r : Renaming) (one two : Renderer σ) : Prop :=
  ∀ count (part : NodePart), part.Free count → (one part).Alike r count (two (part.rename r))
    fun left right => right = left.rename r

/-- A value and the value with other keys and texts, with renderers that come to the same but for them. -/
structure Rendering.Renamed (r : Renaming) (one two : Rendering σ) : Prop where
  value : two.value = one.value.rename r
  render : Renderer.Renamed r one.render two.render

theorem Rendering.Renamed.renderWith {one two : Rendering σ} (renamed : one.Renamed r two) {part : NodePart}
    (free : part.Free count) : (part.renderWith one).Alike r count ((part.rename r).renderWith two)
      fun left right => right = left.rename r := by
  obtain ⟨start, stop, pending, content⟩ := part
  simp only [NodePart.renderWith, NodePart.rename, NodePart.stage, NodePart.commitWith, NodePart.isPoisoned,
    Content.isPoisoned_rename]
  by_cases poisoned : content.isPoisoned = true
  · simp only [poisoned, if_true]
    exact alike_throw Error.poisoned
  · have attended := (renamed.render count ⟨start, stop, none, content⟩ free).attend
    simp only [NodePart.rename, Option.map_none] at attended
    simp only [poisoned, Bool.false_eq_true, if_false, NodePart.settle, alike_orThrow_carry]
    refine attended.mono fun left right shown => ?_
    rw [NodePart.rename, shown, Option.map_none]

namespace Render

theorem renamed_nothing : Renderer.Renamed r (nothing : Renderer σ) nothing := by
  intro count part free
  simp only [nothing, part.removeContent_rename]
  exact part.alike_removeContent.andThen fun _ => alike_pure (by rw [Content.rename])

theorem renamed_node (id : NodeId) : Renderer.Renamed r (node id : Renderer σ) (node id) := by
  intro count part free
  have shown : (.node id : Content) = Content.rename r (.node id) := by rw [Content.rename]
  simp only [node, NodePart.content_rename, Content.node?_rename, part.removeContent_rename, part.insertContent_rename]
  split
  · exact alike_pure shown
  · exact part.alike_removeContent.andThen fun _ => (part.alike_insertContent id).andThen fun _ => alike_pure shown

/-- A text is shown already on neither side or on both, and a lone text node is a text on both. -/
theorem renamed_text (data : String) : Renderer.Renamed r (text data : Renderer σ) (text (r.text data)) := by
  intro count part free
  have shown : (.text (r.text data) : Content) = Content.rename r (.text data) := by rw [Content.rename]
  have known : (part.content.rename r).text? = some (r.text data) ↔ part.content.text? = some data := by
    rw [Content.text?_rename]
    cases part.content.text? with
    | none => simp
    | some old => simp [r.text_injective.eq_iff]
  simp only [text, NodePart.content_rename, known, part.loneText?_rename, part.removeContent_rename,
    part.insertContent_rename]
  by_cases shows : part.content.text? = some data
  · simp only [shows, if_true]
    exact alike_pure shown
  · simp only [shows, if_false]
    have look : (part.loneText? : RenderM σ (Option NodeId)).Alike r count part.loneText? Eq :=
      alike_look fun _ _ renamed => by simp only [renamed.nextSibling_eq, renamed.isText_eq]
    intro scene other paired inside
    have text : (part.loneText? : RenderM σ (Option NodeId)).Leads scene
        (fun lone after => ∀ id ∈ lone, after.tree.isText id = true) fun _ _ => False := by
      rw [NodePart.loneText?, leads_look]
      intro id lone
      obtain ⟨-, text⟩ := Option.filter_eq_some_iff.1 lone
      exact (Bool.and_eq_true_iff.1 text).1
    refine (look scene other paired inside).bind_leads (Nat.le_refl _) text (leads_somehow _ _) ?_
    rintro lone _ after last changes text - rfl
    have inside := Nat.le_trans inside changes.left.size_le
    cases lone with
    | none =>
        have made : (create (.text data) : RenderM σ NodeId).Alike r count (create (.text (r.text data))) Eq :=
          alike_create (.text (.renamed data)) List.nodup_nil
        refine (made.bind ?_) after last changes.paired inside
        rintro id _ rfl
        exact part.alike_removeContent.andThen fun _ => (part.alike_insertContent id).andThen fun _ => alike_pure shown
    | some id =>
        have noted : (note .textUpdated : RenderM σ Unit).Leads after (fun _ after => after.tree.isText id = true)
            fun _ _ => False := (leads_note _).2 (text id rfl)
        refine ((alike_note _) after last changes.paired inside).bind_leads (Nat.le_refl _) noted (leads_somehow _ _) ?_
        rintro _ _ after last changes text - -
        obtain ⟨tree, tree', done, done', edited⟩ :=
          Tree.changes_setText changes.paired.wellFormed changes.paired.renamed.tree text (.renamed data)
        simp only [Follows, leads_bind, leads_edit, leads_pure, done, done']
        exact ⟨changes.paired.withTrees edited, shown⟩

end Render

end DomParts
