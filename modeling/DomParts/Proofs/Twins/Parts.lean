import DomParts.Proofs.Layout.Commit
import DomParts.Proofs.Twins.Basic

/-! # Rendering into twins

Twins stand at the same place, so whatever is done to the nodes between their markers is the same for both. A
value and the value with positions for keys are rendered into twins in lockstep if that goes for the values in
them.
-/

namespace DomParts

open RenderM

variable {σ : Type} {part other : NodePart} {shown shown' : Content} {scene scene' : Scene σ}

/-- The same template is shown, by parts that look the same. -/
structure TemplateInstance.Twin (one two : TemplateInstance) : Prop where
  template : two.template = one.template
  parts : List.Forall₂ Part.Twin one.parts two.parts

namespace Content.Twin

theorem text?_eq (twin : shown.Twin shown') : shown'.text? = shown.text? := by
  cases twin <;> rfl

theorem node?_eq (twin : shown.Twin shown') : shown'.node? = shown.node? := by
  cases twin <;> rfl

theorem isPoisoned_eq (twin : shown.Twin shown') : shown'.isPoisoned = shown.isPoisoned := by
  cases twin <;> rfl

theorem instanceOf? (twin : shown.Twin shown') (shared : SharedTemplate) :
    Option.Rel TemplateInstance.Twin (shown.instanceOf? shared) (shown'.instanceOf? shared) := by
  cases twin with
  | template template parts =>
      simp only [Content.instanceOf?, template]
      split
      · exact .some ⟨template, parts⟩
      · exact .none
  | _ => exact .none

/-- Twins show lists of the same sort, a list by position and its list by key, or both no list. -/
theorem rows (twin : shown.Twin shown') :
    (∃ parts others stats, shown = .list parts ∧ shown' = .keyed (Keyed.positions 0 others.length) others stats ∧
      List.Forall₂ NodePart.Twin parts others) ∨
    (∃ keys parts others stats stats', shown = .keyed keys parts stats ∧ shown' = .keyed keys others stats' ∧
      (∀ key ∈ keys, ∀ position, key ≠ .index position) ∧ List.Forall₂ NodePart.Twin parts others) ∨
    ((∀ parts, shown ≠ .list parts) ∧ (∀ keys parts stats, shown ≠ .keyed keys parts stats) ∧
      ∀ keys parts stats, shown' ≠ .keyed keys parts stats) := by
  cases twin with
  | list each => exact .inl ⟨_, _, _, rfl, rfl, each⟩
  | keyed named each => exact .inr (.inl ⟨_, _, _, _, _, rfl, rfl, named, each⟩)
  | _ => exact .inr (.inr ⟨nofun, nofun, nofun⟩)

end Content.Twin

namespace NodePart

theorem Twin.of_empty (empty : part.content = .empty) : part.Twin part :=
  ⟨rfl, rfl, by rw [empty]; exact .empty⟩

namespace Twin

variable (twin : part.Twin other)
include twin

theorem start : other.start = part.start := by
  cases twin
  assumption

theorem stop : other.stop = part.stop := by
  cases twin
  assumption

theorem content : part.content.Twin other.content := by
  cases twin
  assumption

theorem isPoisoned_eq : other.isPoisoned = part.isPoisoned := twin.content.isPoisoned_eq

theorem container_eq : (other.container : RenderM σ NodeId) = part.container := by
  simp only [container, twin.start]

theorem removeContent_eq : (other.removeContent : RenderM σ Unit) = part.removeContent := by
  simp only [removeContent, twin.start, twin.stop, twin.container_eq]

theorem insertContent_eq (id : NodeId) : (other.insertContent id : RenderM σ Unit) = part.insertContent id := by
  simp only [insertContent, twin.stop, twin.container_eq]

theorem moveBefore_eq (container before : NodeId) :
    (other.moveBefore container before : RenderM σ Bool) = part.moveBefore container before := by
  simp only [moveBefore, twin.start, twin.stop]

theorem remove_eq (client : Client σ) (container : NodeId) :
    other.remove client container = part.remove client container := by
  simp only [remove, twin.start, twin.stop]

theorem text_eq (data : String) : (Render.text data other : RenderM σ Content) = Render.text data part := by
  simp only [Render.text, twin.content.text?_eq, loneText?, twin.start, twin.stop, twin.removeContent_eq,
    twin.insertContent_eq]

theorem node_eq (id : NodeId) : (Render.node id other : RenderM σ Content) = Render.node id part := by
  simp only [Render.node, twin.content.node?_eq, twin.removeContent_eq, twin.insertContent_eq]

end Twin

theorem blind_removeContent (part : NodePart) : (part.removeContent : RenderM σ Unit).Blind :=
  Habit.oblivious.removeContent.blind

theorem blind_insertContent (part : NodePart) (id : NodeId) : (part.insertContent id : RenderM σ Unit).Blind :=
  (Habit.oblivious.insertContent id).blind

theorem blind_insertInto (container : NodeId) (before : Option NodeId) :
    (insertInto container before : RenderM σ NodePart).Blind := (Habit.oblivious.insertInto container before).blind

theorem attend_mirrors {render render' : Renderer σ}
    (mirrors : (render part).Mirrors (render' other) scene scene' Content.Twin) :
    (part.attend render).Mirrors (other.attend render') scene scene' Content.Twin := by
  simp only [Mirrors, attend_leads]
  refine Leads.mono mirrors (fun _ _ done => done) fun error after failed => ?_
  exact Leads.mono failed (fun _ _ none => none) fun fault last both =>
    ⟨both.1.add _ _, both.2.imp_right fun misfit => misfit.add _⟩

end NodePart

namespace Layout.Realm

variable {realm : Realm σ} {leaves : List NodeId} {one two : Rendering σ}

/-- The part stands at its place and has its layout, and the guests in a value may be shown. -/
def Ready (realm : Realm σ) (scene : Scene σ) (part : NodePart) (leaves : List NodeId) : Prop :=
  ∃ kept container front rest plot slack, plot.part = part ∧ realm.Sound ⟨scene, kept⟩ ∧
    realm.Placed ⟨scene, kept⟩ slack container front rest plot ∧ realm.Admits scene.tree leaves

/-- Two renderers that go in lockstep and make twins of twins. -/
def Twins (realm : Realm σ) (leaves : List NodeId) (one two : Renderer σ) : Prop :=
  ∀ {scene scene' : Scene σ} {part other : NodePart}, realm.Ready scene part leaves → part.Twin other →
    scene.Same scene' → (one part).Mirrors (two other) scene scene' Content.Twin

/-- A value and the value with positions for keys, with renderers that go in lockstep. -/
structure Paired (realm : Realm σ) (one two : Rendering σ) : Prop where
  value : two.value = one.value.indexed
  honest : realm.Honest one.value.leaves one.render
  twins : realm.Twins one.value.leaves one.render two.render

theorem Ready.restage (ready : realm.Ready scene part leaves) (pending : Option Value) :
    realm.Ready scene { part with pending } leaves := by
  obtain ⟨kept, container, front, rest, plot, slack, rfl, sound, placed, admits⟩ := ready
  exact ⟨kept, container, front, rest, { plot with part := { plot.part with pending } }, slack, rfl, sound,
    placed.staging pending, admits⟩

theorem Ready.usable (ready : realm.Ready scene part leaves) : part.isPoisoned = false := by
  obtain ⟨kept, container, front, rest, plot, slack, rfl, sound, placed, admits⟩ := ready
  exact placed.shows.usable

theorem Paired.all_honest {values others : List (Rendering σ)} (paired : List.Forall₂ realm.Paired values others) :
    ∀ item ∈ values, realm.Honest item.value.leaves item.render := by
  induction paired with
  | nil => nofun
  | cons first _ ih => exact List.forall_mem_cons.2 ⟨first.honest, ih⟩

theorem Paired.renderWith (paired : realm.Paired one two) (ready : realm.Ready scene part one.value.leaves)
    (twin : part.Twin other) (same : scene.Same scene') :
    (part.renderWith one).Mirrors (other.renderWith two) scene scene' NodePart.Twin := by
  have usable : ({ part with pending := none } : NodePart).isPoisoned = false := ready.usable
  have usable' : ({ other with pending := none } : NodePart).isPoisoned = false := twin.isPoisoned_eq.trans ready.usable
  simp only [NodePart.renderWith, NodePart.commitWith, NodePart.stage, usable, usable', Bool.false_eq_true, if_false,
    NodePart.settle, mirrors_orThrow_carry]
  have twin' : ({ part with pending := none } : NodePart).Twin { other with pending := none } :=
    ⟨twin.start, twin.stop, twin.content⟩
  exact (NodePart.attend_mirrors (paired.twins (ready.restage none) twin' same)).mono
    fun content content' shown => ⟨twin.start, twin.stop, shown⟩

theorem twins_nothing : realm.Twins [] Render.nothing Render.nothing := by
  intro scene scene' part other _ twin same
  simp only [Render.nothing, twin.removeContent_eq]
  exact (part.blind_removeContent scene scene' same).andThen fun _ _ _ _ same _ => mirrors_pure same .empty

theorem twins_text (data : String) : realm.Twins [] (Render.text data) (Render.text data) := by
  intro scene scene' part other _ twin same
  rw [twin.text_eq, Render.text]
  have done : ∀ {after last : Scene σ}, after.Same last →
      (pure (.text data) : RenderM σ Content).Mirrors (pure (.text data)) after last Content.Twin := fun same =>
    mirrors_pure same (.text data)
  split
  · exact done same
  · refine (blind_look _ scene scene' same).andThen ?_
    rintro lone _ after last same rfl
    cases lone with
    | some id =>
        refine (blind_note _ after last same).andThen fun _ _ after last same _ => ?_
        exact (blind_edit _ after last same).andThen fun _ _ _ _ same _ => done same
    | none =>
        refine (blind_create _ after last same).andThen ?_
        rintro id _ after last same rfl
        refine (part.blind_removeContent after last same).andThen fun _ _ after last same _ => ?_
        exact (part.blind_insertContent id after last same).andThen fun _ _ _ _ same _ => done same

theorem twins_node (id : NodeId) : realm.Twins [id] (Render.node id) (Render.node id) := by
  intro scene scene' part other _ twin same
  rw [twin.node_eq, Render.node]
  split
  · exact mirrors_pure same (.node id)
  · refine (part.blind_removeContent scene scene' same).andThen fun _ _ after last same _ => ?_
    exact (part.blind_insertContent id after last same).andThen fun _ _ _ _ same _ => mirrors_pure same (.node id)

end Layout.Realm

end DomParts
