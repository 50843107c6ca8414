import DomParts.Proofs.Render.Oblivious

/-! # Computations in lockstep

Two computations go in lockstep if they begin and end on scenes that differ in nothing but what was
reported, and if both go well or both fail. They need not do the same: a run may be removed at once by the
one and bit by bit by the other.
-/

namespace DomParts

variable {σ α β γ δ : Type}

/-- An attribute part, which only takes texts, refuses a list. -/
def Event.refusesList : Event → Bool
  | .misfit what _ => what = (Value.list []).describe
  | _ => false

/-- A list was committed in an attribute part. -/
def Scene.Misfit (scene : Scene σ) : Prop := ∃ event ∈ scene.report.toList, event.refusesList = true

instance (scene : Scene σ) : Decidable scene.Misfit :=
  inferInstanceAs (Decidable (∃ event ∈ scene.report.toList, event.refusesList = true))

theorem Scene.Misfit.add {scene : Scene σ} (misfit : scene.Misfit) (event : Event) : (scene.add event).Misfit := by
  obtain ⟨reported, member, refuses⟩ := misfit
  exact ⟨reported, by simp [Scene.add, member], refuses⟩

namespace RenderM

/-- Both computations go well, with results that belong together, or both fail. The faults are the same, unless
    a list was committed in an attribute part: the fault names the sort of the value. -/
def Mirrors (one : RenderM σ α) (two : RenderM σ β) (scene other : Scene σ) (shows : α → β → Prop) : Prop :=
  one.Leads scene
    (fun left after => two.Leads other (fun right last => after.Same last ∧ shows left right) fun _ _ => False)
    fun error after => two.Leads other (fun _ _ => False)
      fun fault last => after.Same last ∧ (fault = error ∨ after.Misfit)

/-- A computation that does not depend on what was reported. -/
def Blind (act : RenderM σ α) : Prop := ∀ scene other : Scene σ, scene.Same other → act.Mirrors act scene other Eq

variable {one : RenderM σ α} {two : RenderM σ β} {next : α → RenderM σ γ} {next' : β → RenderM σ δ} {act : RenderM σ α}
  {scene other : Scene σ} {shows weaker : α → β → Prop} {further : γ → δ → Prop}

theorem Mirrors.mono (mirrors : one.Mirrors two scene other shows)
    (onward : ∀ left right, shows left right → weaker left right) : one.Mirrors two scene other weaker :=
  Leads.imp mirrors fun _ _ done => done.imp fun _ _ last => ⟨last.1, onward _ _ last.2⟩

theorem mirrors_pure {left : α} {right : β} (same : scene.Same other) (here : shows left right) :
    (pure left : RenderM σ α).Mirrors (pure right) scene other shows := ⟨same, here⟩

theorem Mirrors.ends (mirrors : one.Mirrors two scene other shows) :
    (∃ left after right last, one.runOn scene = (.ok left, after) ∧ two.runOn other = (.ok right, last) ∧
        after.Same last ∧ shows left right) ∨
      ∃ error after fault last, one.runOn scene = (.error error, after) ∧ two.runOn other = (.error fault, last) ∧
        after.Same last ∧ (fault = error ∨ after.Misfit) := by
  unfold Mirrors Leads at mirrors
  rcases ran : one.runOn scene with ⟨error | left, after⟩ <;> rw [ran] at mirrors <;>
    rcases ran' : two.runOn other with ⟨fault | right, last⟩ <;> rw [ran'] at mirrors
  · exact .inr ⟨error, after, fault, last, rfl, rfl, mirrors⟩
  · exact mirrors.elim
  · exact mirrors.elim
  · exact .inl ⟨left, after, right, last, rfl, rfl, mirrors⟩

/-- One computation after the other. What the first one leads to is known by then. -/
theorem Mirrors.bind {good : α → Scene σ → Prop} {bad : Error → Scene σ → Prop}
    (first : one.Mirrors two scene other shows) (leads : one.Leads scene good bad)
    (rest : ∀ left right after last, after.Same last → good left after → shows left right →
      (next left).Mirrors (next' right) after last further) :
    (one >>= next).Mirrors (two >>= next') scene other further := by
  unfold Mirrors
  rw [leads_bind]
  refine (Leads.both first leads).mono ?_ ?_
  · rintro left after ⟨mirrored, known⟩
    obtain ⟨right, last, ran, same, shown⟩ := mirrored.ran
    have onward := rest left right after last same known shown
    simpa only [Mirrors, leads_bind_of_ran ran] using onward
  · rintro error after ⟨mirrored, -⟩
    rw [leads_bind]
    exact mirrored.imp fun _ _ none => none.elim

theorem Mirrors.andThen (first : one.Mirrors two scene other shows)
    (rest : ∀ left right after last, after.Same last → shows left right →
      (next left).Mirrors (next' right) after last further) :
    (one >>= next).Mirrors (two >>= next') scene other further := by
  have leads : one.Leads scene (fun _ _ => True) fun _ _ => True :=
    leads_iff.2 ⟨fun _ _ _ => trivial, fun _ _ _ => trivial⟩
  exact first.bind leads fun left right after last same _ => rest left right after last same

theorem mirrors_left {good : α → Scene σ → Prop} (leads : one.Leads scene good fun _ _ => False) {two : RenderM σ δ}
    (rest : ∀ left after, good left after → (next left).Mirrors two after other further) :
    (one >>= next).Mirrors two scene other further := by
  unfold Mirrors
  rw [leads_bind]
  exact leads.mono rest fun _ _ none => none.elim

theorem mirrors_right {good : β → Scene σ → Prop} (leads : two.Leads other good fun _ _ => False) {one : RenderM σ γ}
    (rest : ∀ right last, good right last → one.Mirrors (next' right) scene last further) :
    one.Mirrors (two >>= next') scene other further := by
  obtain ⟨right, last, ran, done⟩ := leads.ran
  simpa only [Mirrors, leads_bind_of_ran ran] using rest right last done

theorem mirrors_of_leads {good : α → Scene σ → Prop} {good' : β → Scene σ → Prop}
    (first : one.Leads scene good fun _ _ => False) (second : two.Leads other good' fun _ _ => False)
    (both : ∀ left after right last, good left after → good' right last → after.Same last ∧ shows left right) :
    one.Mirrors two scene other shows :=
  first.mono (fun _ _ here => second.mono (fun _ _ there => both _ _ _ _ here there) fun _ _ none => none)
    fun _ _ none => none.elim

theorem mirrors_note_left (event : Event) {one : RenderM σ γ} {two : RenderM σ δ} :
    (do note event; one).Mirrors two scene other further ↔ one.Mirrors two (scene.add event) other further := by
  simp only [Mirrors, leads_bind, leads_note]

theorem mirrors_note_right (event : Event) {one : RenderM σ γ} {two : RenderM σ δ} :
    one.Mirrors (do note event; two) scene other further ↔ one.Mirrors two scene (other.add event) further := by
  simp only [Mirrors, leads_bind, leads_note]

theorem mirrors_congr_right {two' : RenderM σ β} {other' : Scene σ}
    (same : ∀ {good : β → Scene σ → Prop} {bad : Error → Scene σ → Prop},
      two.Leads other good bad ↔ two'.Leads other' good bad) :
    one.Mirrors two scene other shows ↔ one.Mirrors two' scene other' shows := by
  simp only [Mirrors, same]

theorem mirrors_congr_left {one' : RenderM σ α} {scene' : Scene σ}
    (same : ∀ {good : α → Scene σ → Prop} {bad : Error → Scene σ → Prop},
      one.Leads scene good bad ↔ one'.Leads scene' good bad) :
    one.Mirrors two scene other shows ↔ one'.Mirrors two scene' other shows := by
  simp only [Mirrors, same]

theorem mirrors_return_left (change : α → γ) {further : γ → β → Prop} :
    (do let left ← one; return change left).Mirrors two scene other further ↔
      one.Mirrors two scene other fun left right => further (change left) right := by
  simp only [Mirrors, leads_bind, leads_pure]

theorem mirrors_throw (same : scene.Same other) (error : Error) :
    (throw error : RenderM σ α).Mirrors (throw error : RenderM σ β) scene other shows := ⟨same, .inl rfl⟩

section Attempts

variable {first : Attempt σ α} {second : Attempt σ β}

@[simp] theorem mirrors_orThrow_map (change : α → γ) (change' : β → δ) :
    (first.map change).orThrow.Mirrors (second.map change').orThrow scene other further ↔
      first.orThrow.Mirrors second.orThrow scene other fun left right => further (change left) (change' right) := by
  simp only [Mirrors, leads_orThrow_map]

@[simp] theorem mirrors_orThrow_carry (kept : α → γ) (broken : γ) (kept' : β → δ) (broken' : δ) :
    (Attempt.carry one kept broken).orThrow.Mirrors (Attempt.carry two kept' broken').orThrow scene other further ↔
      one.Mirrors two scene other fun left right => further (kept left) (kept' right) := by
  simp only [Mirrors, leads_orThrow_carry]

end Attempts

section Blind

theorem Oblivious.blind (oblivious : act.Oblivious) : act.Blind := by
  intro scene other same
  obtain ⟨result, after⟩ := oblivious scene other same
  unfold Mirrors Leads
  rcases ran : act.runOn scene with ⟨error | value, between⟩ <;> rw [ran] at result after <;>
    rcases ran' : act.runOn other with ⟨error' | value', last⟩ <;> rw [ran'] at result after <;> cases result
  · exact ⟨after, .inl rfl⟩
  · exact ⟨after, rfl⟩

theorem Blind.bind (blind : act.Blind) (onward : ∀ value, (next value).Blind) : (act >>= next).Blind := by
  intro scene other same
  refine (blind scene other same).andThen ?_
  rintro left _ after last same rfl
  exact onward left after last same

theorem blind_pure (value : α) : (pure value : RenderM σ α).Blind := (Habit.oblivious.pure value).blind

theorem blind_note (event : Event) : (note event : RenderM σ Unit).Blind := (Habit.oblivious.note event).blind

theorem blind_look (view : Tree → α) : (look view : RenderM σ α).Blind := (Habit.oblivious.look view).blind

theorem blind_grow (change : Tree → NodeId × Tree) : (grow change : RenderM σ NodeId).Blind :=
  (Habit.oblivious.grow change).blind

theorem blind_create (kind : Kind) : (create kind : RenderM σ NodeId).Blind := blind_grow _

theorem blind_require (error : Error) (value : Option α) : (require error value : RenderM σ α).Blind :=
  (Habit.oblivious.require error value).blind

theorem blind_edit (change : Tree → Except HostFault Tree) : (edit change : RenderM σ Unit).Blind :=
  (Habit.oblivious.edit change).blind

theorem blind_insert (parent id : NodeId) (before : Option NodeId) : (insert parent id before : RenderM σ Unit).Blind :=
  blind_edit _

theorem blind_templateFor (client : Client σ) (kind : TemplateKind) (literal : Literal) :
    (templateFor client kind literal).Blind := Oblivious.blind (oblivious_templateFor client kind literal)

end Blind

end RenderM

end DomParts
