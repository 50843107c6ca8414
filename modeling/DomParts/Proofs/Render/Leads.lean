import DomParts.Part.Instance

/-! # What a computation leads to

A computation on a scene either gives a result or fails, and both leave a scene behind. `Leads` says
what is true of either ending; one rule for each way to build a computation takes it apart.
-/

namespace DomParts

variable {σ α β : Type}

/-- Two scenes that may only differ in what was reported. -/
structure Scene.Same (before after : Scene σ) : Prop where
  tree : after.tree = before.tree
  cache : after.cache = before.cache
  memory : after.memory = before.memory

namespace Scene.Same

variable {before between after : Scene σ}

theorem refl (scene : Scene σ) : scene.Same scene := ⟨rfl, rfl, rfl⟩

theorem trans (one : before.Same between) (two : between.Same after) : before.Same after :=
  ⟨two.tree.trans one.tree, two.cache.trans one.cache, two.memory.trans one.memory⟩

theorem eq (same : before.Same after) : after = { before with report := after.report } := by
  obtain ⟨tree, cache, memory⟩ := same
  rw [← tree, ← cache, ← memory]

end Scene.Same

namespace RenderM

variable {act : RenderM σ α} {scene : Scene σ} {good weaker : α → Scene σ → Prop}
  {bad worse : Error → Scene σ → Prop}

/-- How a computation ends on a scene: well, with a result, or badly, with an error. -/
def Leads (act : RenderM σ α) (scene : Scene σ) (good : α → Scene σ → Prop)
    (bad : Error → Scene σ → Prop) : Prop :=
  match act.runOn scene with
  | (.ok value, scene) => good value scene
  | (.error error, scene) => bad error scene

theorem Leads.mono (leads : act.Leads scene good bad)
    (well : ∀ value scene, good value scene → weaker value scene)
    (badly : ∀ error scene, bad error scene → worse error scene) : act.Leads scene weaker worse := by
  unfold Leads at leads ⊢
  split at leads
  · exact well _ _ leads
  · exact badly _ _ leads

theorem Leads.imp (leads : act.Leads scene good bad)
    (well : ∀ value scene, good value scene → weaker value scene) : act.Leads scene weaker bad :=
  leads.mono well fun _ _ broken => broken

theorem Leads.ok (leads : act.Leads scene good bad) {value : α} {after : Scene σ}
    (ran : act.runOn scene = (.ok value, after)) : good value after := by
  simpa only [Leads, ran] using leads

theorem Leads.error (leads : act.Leads scene good bad) {error : Error} {after : Scene σ}
    (ran : act.runOn scene = (.error error, after)) : bad error after := by
  simpa only [Leads, ran] using leads

theorem leads_iff : act.Leads scene good bad ↔
    (∀ value after, act.runOn scene = (.ok value, after) → good value after) ∧
      ∀ error after, act.runOn scene = (.error error, after) → bad error after := by
  constructor
  · intro leads
    exact ⟨fun _ _ ran => leads.ok ran, fun _ _ ran => leads.error ran⟩
  · rintro ⟨well, badly⟩
    unfold Leads
    split
    · exact well _ _ ‹_›
    · exact badly _ _ ‹_›

theorem eq_of_leads {one two : RenderM σ α} (same : ∀ scene (good : α → Scene σ → Prop) bad,
    two.Leads scene good bad → one.Leads scene good bad) : one = two := by
  funext scene
  have known := same scene (fun value after => two.runOn scene = (.ok value, after))
    (fun error after => two.runOn scene = (.error error, after)) (leads_iff.2 ⟨fun _ _ => id, fun _ _ => id⟩)
  unfold Leads at known
  split at known <;> exact ‹one.runOn scene = _›.trans known.symm

theorem Leads.ran (leads : act.Leads scene good fun _ _ => False) :
    ∃ value after, act.runOn scene = (.ok value, after) ∧ good value after := by
  unfold Leads at leads
  split at leads
  · exact ⟨_, _, ‹_›, leads⟩
  · exact leads.elim

theorem Leads.both {good' : α → Scene σ → Prop} {bad' : Error → Scene σ → Prop} (one : act.Leads scene good bad)
    (two : act.Leads scene good' bad') : act.Leads scene (fun value scene => good value scene ∧ good' value scene)
      fun error scene => bad error scene ∧ bad' error scene :=
  leads_iff.2 ⟨fun _ _ ran => ⟨one.ok ran, two.ok ran⟩, fun _ _ ran => ⟨one.error ran, two.error ran⟩⟩

theorem leads_trivially (all : ∀ value scene, good value scene) : act.Leads scene good fun _ _ => True :=
  leads_iff.2 ⟨fun _ _ _ => all _ _, fun _ _ _ => trivial⟩

theorem leads_somehow (act : RenderM σ α) (scene : Scene σ) : act.Leads scene (fun _ _ => True) fun _ _ => True :=
  leads_iff.2 ⟨fun _ _ _ => trivial, fun _ _ _ => trivial⟩

@[simp] theorem leads_pure (value : α) :
    (pure value : RenderM σ α).Leads scene good bad ↔ good value scene := Iff.rfl

@[simp] theorem leads_throw (error : Error) :
    (throw error : RenderM σ α).Leads scene good bad ↔ bad error scene := Iff.rfl

theorem runOn_bind (first : RenderM σ α) (next : α → RenderM σ β) (scene : Scene σ) :
    (first >>= next).runOn scene = match first.runOn scene with
      | (.ok value, scene) => (next value).runOn scene
      | (.error error, scene) => (.error error, scene) := by
  simp only [runOn, bind, ExceptT.bind, ExceptT.mk, StateT.bind, ExceptT.bindCont]
  split
  split <;> simp_all
  all_goals rfl

@[simp] theorem leads_bind (first : RenderM σ α) (next : α → RenderM σ β)
    {good : β → Scene σ → Prop} : (first >>= next).Leads scene good bad ↔
      first.Leads scene (fun value scene => (next value).Leads scene good bad) bad := by
  simp only [Leads, runOn_bind]
  cases first.runOn scene with
  | mk result scene => cases result <;> rfl

theorem leads_bind_of_ran {value : α} {after : Scene σ} (ran : act.runOn scene = (.ok value, after))
    (next : α → RenderM σ β) {good : β → Scene σ → Prop} :
    (act >>= next).Leads scene good bad ↔ (next value).Leads after good bad := by
  rw [leads_bind, Leads, ran]

@[simp] theorem leads_map (change : α → β) {good : β → Scene σ → Prop} :
    (change <$> act).Leads scene good bad ↔
      act.Leads scene (fun value scene => good (change value) scene) bad := by
  rw [map_eq_pure_bind, leads_bind]
  rfl

@[simp] theorem leads_get {good : Scene σ → Scene σ → Prop} :
    (get : RenderM σ (Scene σ)).Leads scene good bad ↔ good scene scene := Iff.rfl

@[simp] theorem leads_set (changed : Scene σ) {good : PUnit → Scene σ → Prop} :
    (set changed : RenderM σ PUnit).Leads scene good bad ↔ good ⟨⟩ changed := Iff.rfl

@[simp] theorem leads_modify (change : Scene σ → Scene σ) {good : PUnit → Scene σ → Prop} :
    (modify change : RenderM σ PUnit).Leads scene good bad ↔ good ⟨⟩ (change scene) := Iff.rfl

@[simp] theorem leads_note (event : Event) {good : Unit → Scene σ → Prop} :
    (note event : RenderM σ Unit).Leads scene good bad ↔ good () (scene.add event) := Iff.rfl

@[simp] theorem leads_look (view : Tree → α) :
    (look view : RenderM σ α).Leads scene good bad ↔ good (view scene.tree) scene := Iff.rfl

@[simp] theorem leads_require (error : Error) (value : Option α) :
    (require error value : RenderM σ α).Leads scene good bad ↔
      match value with
      | some value => good value scene
      | none => bad error scene := by
  cases value <;> rfl

@[simp] theorem leads_edit (change : Tree → Except HostFault Tree) {good : Unit → Scene σ → Prop} :
    (edit change : RenderM σ Unit).Leads scene good bad ↔
      match change scene.tree with
      | .ok tree => good () { scene with tree }
      | .error fault => bad (.host fault) scene := by
  simp only [edit, leads_bind, leads_get]
  cases change scene.tree <;> rfl

@[simp] theorem leads_grow (change : Tree → NodeId × Tree) {good : NodeId → Scene σ → Prop} :
    (grow change : RenderM σ NodeId).Leads scene good bad ↔
      good (change scene.tree).1 { scene with tree := (change scene.tree).2 } := Iff.rfl

@[simp] theorem leads_create (kind : Kind) {good : NodeId → Scene σ → Prop} :
    (create kind : RenderM σ NodeId).Leads scene good bad ↔
      good scene.tree.size { scene with tree := (scene.tree.create kind).2 } := Iff.rfl

@[simp] theorem leads_editInSteps (change : Tree → Except HostFault α × Tree) :
    (editInSteps change : RenderM σ α).Leads scene good bad ↔
      match change scene.tree with
      | (.ok value, tree) => good value { scene with tree }
      | (.error fault, tree) => bad (.host fault) { scene with tree } := by
  simp only [editInSteps, leads_bind, leads_get, leads_set]
  rcases change scene.tree with ⟨_ | _, _⟩ <;> rfl

@[simp] theorem leads_consult (act : StateM (σ × Tree) α) :
    (consult act : RenderM σ α).Leads scene good bad ↔
      good (act (scene.memory, scene.tree)).1
        { scene with
          memory := (act (scene.memory, scene.tree)).2.1
          tree := (act (scene.memory, scene.tree)).2.2 } := Iff.rfl

theorem runOn_tryCatch (act : RenderM σ α) (handler : Error → RenderM σ α) (scene : Scene σ) :
    (tryCatch act handler).runOn scene = match act.runOn scene with
      | (.ok value, scene) => (.ok value, scene)
      | (.error error, scene) => (handler error).runOn scene := by
  simp only [runOn, tryCatch, tryCatchThe, MonadExceptOf.tryCatch, ExceptT.tryCatch, ExceptT.mk, bind, StateT.bind]
  split
  split <;> simp_all
  all_goals rfl

@[simp] theorem leads_tryCatch (handler : Error → RenderM σ α) :
    (tryCatch act handler).Leads scene good bad ↔
      act.Leads scene good (fun error scene => (handler error).Leads scene good bad) := by
  simp only [Leads, runOn_tryCatch]
  cases act.runOn scene with
  | mk result scene => cases result <;> rfl

theorem leads_orThrow (attempt : Attempt σ α) :
    attempt.orThrow.Leads scene good bad ↔
      match attempt.runOn scene with
      | ((value, .ok ()), scene) => good value scene
      | ((_, .error error), scene) => bad error scene := by
  simp only [Leads, Attempt.orThrow, runOn]
  rcases attempt.runOn scene with ⟨⟨_, _ | _⟩, _⟩ <;> rfl

theorem Leads.attempted {attempt : Attempt σ α} (leads : attempt.orThrow.Leads scene good fun _ _ => False) :
    ∃ value after, attempt.runOn scene = ((value, .ok ()), after) ∧ good value after := by
  rw [leads_orThrow] at leads
  rcases ran : attempt.runOn scene with ⟨⟨value, error | _⟩, after⟩
  · rw [ran] at leads
    exact leads.elim
  · rw [ran] at leads
    exact ⟨value, after, rfl, leads⟩

theorem Leads.failed {attempt : Attempt σ α} (leads : attempt.orThrow.Leads scene (fun _ _ => False) bad) :
    ∃ value error after, attempt.runOn scene = ((value, .error error), after) ∧ bad error after := by
  rw [leads_orThrow] at leads
  rcases ran : attempt.runOn scene with ⟨⟨value, error | _⟩, after⟩
  · rw [ran] at leads
    exact ⟨value, error, after, rfl, leads⟩
  · rw [ran] at leads
    exact leads.elim

@[simp] theorem leads_orThrow_done (value : α) :
    (Attempt.done value).orThrow.Leads scene good bad ↔ good value scene := Iff.rfl

@[simp] theorem leads_orThrow_refused (value : α) (error : Error) :
    (Attempt.refused value error).orThrow.Leads scene good bad ↔ bad error scene := Iff.rfl

@[simp] theorem leads_orThrow_carry (act : RenderM σ β) (kept : β → α) (broken : α) :
    (Attempt.carry act kept broken).orThrow.Leads scene good bad ↔
      act.Leads scene (fun result scene => good (kept result) scene) bad := by
  rw [leads_orThrow]
  simp only [Leads, Attempt.runOn, Attempt.carry]
  rcases act.runOn scene with ⟨_ | _, _⟩ <;> rfl

@[simp] theorem leads_orThrow_map (change : α → β) (attempt : Attempt σ α) {good : β → Scene σ → Prop} :
    (attempt.map change).orThrow.Leads scene good bad ↔
      attempt.orThrow.Leads scene (fun value scene => good (change value) scene) bad := by
  rw [leads_orThrow, leads_orThrow]
  simp only [Attempt.runOn, Attempt.map]
  rcases attempt scene with ⟨⟨_, _ | _⟩, _⟩ <;> rfl

theorem leads_commitEach {part : Part} {render : Renderer σ} {rest : List (Part × Renderer σ)} {scene : Scene σ}
    {good : List Part → Scene σ → Prop} {bad : Error → Scene σ → Prop} :
    (Part.commitEach ((part, render) :: rest)).orThrow.Leads scene good bad ↔
      (part.commitWith render).orThrow.Leads scene
        (fun part scene => (Part.commitEach rest).orThrow.Leads scene
          (fun parts scene => good (part :: parts) scene) bad) bad := by
  simp only [leads_orThrow, Attempt.runOn, Part.commitEach]
  rcases part.commitWith render scene with ⟨⟨part, _ | _⟩, scene⟩
  · rfl
  · have others : ((Part.commitEach rest).map (part :: ·)).orThrow.Leads scene good bad ↔ _ :=
      leads_orThrow_map (part :: ·) (Part.commitEach rest)
    simpa only [leads_orThrow, Attempt.runOn] using others

end RenderM

theorem Part.orThrow_commitEach (part : Part) (render : Renderer σ) (rest : List (Part × Renderer σ)) :
    (Part.commitEach ((part, render) :: rest)).orThrow = (do
      let part ← (part.commitWith render).orThrow
      let parts ← (Part.commitEach rest).orThrow
      return part :: parts) := by
  refine RenderM.eq_of_leads fun scene good bad leads => ?_
  simpa only [RenderM.leads_commitEach, RenderM.leads_bind, RenderM.leads_pure] using leads

end DomParts
