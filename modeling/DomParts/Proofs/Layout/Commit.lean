import DomParts.Proofs.Layout.Inside

/-! # Committing and clearing

What becomes of a part with its place and its layout when a staged value is committed, whether this goes
well or not, and when the part is cleared.
-/

namespace DomParts

variable {σ α β : Type}

theorem Attempt.carry_ends {act : RenderM σ β} {scene : Scene σ} {good : β → Scene σ → Prop}
    {bad : Error → Scene σ → Prop} (leads : act.Leads scene good bad) (kept : β → α) (broken : α) :
    (∃ value after, (carry act kept broken).runOn scene = ((kept value, .ok ()), after) ∧ good value after) ∨
      ∃ error after, (carry act kept broken).runOn scene = ((broken, .error error), after) ∧ bad error after := by
  unfold RenderM.Leads at leads
  simp only [runOn, carry]
  rcases ran : act.runOn scene with ⟨error | value, after⟩
  · rw [ran] at leads
    exact .inr ⟨error, after, rfl, leads⟩
  · rw [ran] at leads
    exact .inl ⟨value, after, rfl, leads⟩

namespace NodePart

variable {client : Client σ} {part : NodePart} {value : Value}

theorem commit_of_none (idle : part.pending = none) : part.commit client = .done part := by
  simp only [commit, commitWith, idle]

theorem commitWith_of_poisoned {render : Renderer σ} (staged : part.pending = some value) (poisoned : part.isPoisoned = true) :
    part.commitWith render = .refused { part with pending := none } .poisoned := by
  have poisoned : ({ part with pending := none } : NodePart).isPoisoned = true := poisoned
  simp only [commitWith, staged, poisoned, if_true]

theorem commitWith_of_usable {render : Renderer σ} (staged : part.pending = some value) (usable : part.isPoisoned = false) :
    part.commitWith render = ({ part with pending := none } : NodePart).settle render := by
  have usable : ({ part with pending := none } : NodePart).isPoisoned = false := usable
  simp only [commitWith, staged, usable, Bool.false_eq_true, if_false]

theorem commit_of_poisoned (staged : part.pending = some value) (poisoned : part.isPoisoned = true) :
    part.commit client = .refused { part with pending := none } .poisoned :=
  commitWith_of_poisoned staged poisoned

theorem commit_of_usable (staged : part.pending = some value) (usable : part.isPoisoned = false) :
    part.commit client = ({ part with pending := none } : NodePart).settle (value.render client) := by
  rw [commit, commitWith_of_usable staged usable, staged, Option.getD_some]

theorem attend_leads {render : Renderer σ} {scene : Scene σ} {good : Content → Scene σ → Prop}
    {bad : Error → Scene σ → Prop} : (part.attend render).Leads scene good bad ↔
      (render part).Leads scene good fun error scene => bad error (scene.add (.commitFailed error)) := by
  simp only [attend, RenderM.leads_tryCatch, RenderM.leads_bind, RenderM.leads_note, RenderM.leads_throw]

theorem commitWith_ok {render : Renderer σ} {scene after : Scene σ} {good : Content → Scene σ → Prop}
    {bad : Error → Scene σ → Prop} {new : NodePart} (staged : part.pending = some value)
    (leads : (render { part with pending := none }).Leads scene good bad)
    (ran : (part.commitWith render).runOn scene = ((new, .ok ()), after)) : good new.content after := by
  cases poisoned : part.isPoisoned with
  | true =>
      rw [commitWith_of_poisoned staged poisoned] at ran
      cases ran
  | false =>
      have attended : (attend { part with pending := none } render).Leads scene good fun _ _ => True :=
        attend_leads.2 (leads.mono (fun _ _ => id) fun _ _ _ => trivial)
      rw [commitWith_of_usable staged poisoned] at ran
      rcases Attempt.carry_ends attended (fun content => ({ part with content, pending := none } : NodePart))
        { part with content := .poisoned, pending := none } with ⟨content, scene, done, here⟩ | ⟨error, scene, failed, -⟩
      · cases done.symm.trans ran
        exact here
      · cases failed.symm.trans ran

theorem commit_ok {scene after : Scene σ} {good : Content → Scene σ → Prop} {bad : Error → Scene σ → Prop}
    {new : NodePart} (staged : part.pending = some value)
    (leads : (value.render client { part with pending := none }).Leads scene good bad)
    (ran : (part.commit client).runOn scene = ((new, .ok ()), after)) : good new.content after := by
  rw [commit, staged, Option.getD_some] at ran
  exact commitWith_ok staged leads ran

theorem commit_error {scene after : Scene σ} {good : Content → Scene σ → Prop} {bad : Error → Scene σ → Prop}
    {new : NodePart} {error : Error} (staged : part.pending = some value) (usable : part.isPoisoned = false)
    (leads : (value.render client { part with pending := none }).Leads scene good bad)
    (ran : (part.commit client).runOn scene = ((new, .error error), after)) :
    new.isPoisoned = true ∧ ∃ before, bad error before ∧ after = before.add (.commitFailed error) := by
  have attended : (attend { part with pending := none } (value.render client)).Leads scene good
      fun error after => ∃ before, bad error before ∧ after = before.add (.commitFailed error) :=
    attend_leads.2 (leads.mono (fun _ _ => id) fun _ before here => ⟨before, here, rfl⟩)
  rw [commit_of_usable staged usable] at ran
  rcases Attempt.carry_ends attended (fun content => ({ part with content, pending := none } : NodePart))
    { part with content := .poisoned, pending := none } with ⟨content, scene, done, -⟩ | ⟨error, scene, failed, here⟩
  · cases done.symm.trans ran
  · cases failed.symm.trans ran
    exact ⟨rfl, here⟩

end NodePart

namespace Layout

theorem Shows.usable {premises : Premises} {tree : Tree} {content : Content} {inner owned : List NodeId}
    (shows : Shows premises tree content inner owned) : content.isPoisoned = false := by
  cases shows with
  | @row blocks content arranged => cases content <;> first | rfl | exact arranged.elim
  | _ => rfl

namespace Realm

variable {realm : Realm σ} {world after : World σ} {container : NodeId} {front rest : List NodeId}
  {plot new : Plot} {slack : Slack} {taken : List NodeId} {value : Value}

/-- What a commit leaves of a part that had its place and its layout. -/
structure Committed (realm : Realm σ) (before after : World σ) (container : NodeId) (front rest : List NodeId)
    (plot : Plot) (slack : Slack) (leaves taken : List NodeId) (new : Plot) (result : Except Error Unit) :
    Prop where
  outcome : realm.Outcome before after container front rest plot taken new
  among : ∀ id ∈ taken, id ∈ leaves
  pending : new.part.pending = none
  shows : result = .ok () → realm.Shows after (slack.after leaves) new.part.content new.inner new.owned
  texts : result = .ok () → plot.part.content.text?.isSome → new.part.content.text?.isSome → new.inner = plot.inner
  poisoned : ∀ error, result = .error error → new.part.content = .poisoned
  knows : realm.survey.Knows plot.part → realm.survey.Knows new.part

theorem Outcome.unstaged (part : NodePart) (start : part.start = plot.part.start) (stop : part.stop = plot.part.stop)
    (outcome : realm.Outcome world after container front rest { plot with part } taken new) :
    realm.Outcome world after container front rest plot taken new :=
  ⟨outcome.change, outcome.site, outcome.start.trans start, outcome.stop.trans stop, outcome.origin,
    outcome.container_kind, outcome.container_parent⟩

theorem Placed.commit (lawful : realm.Lawful) (sound : realm.Sound world)
    (placed : realm.Placed world slack container front rest plot) (staged : plot.part.pending = some value)
    (admits : realm.Admits world.tree value.leaves) :
    ∃ result scene kept taken new, (plot.part.commit realm.client).runOn world.scene = ((new.part, result), scene) ∧
      realm.Committed world ⟨scene, kept⟩ container front rest plot slack value.leaves taken new result := by
  have site : realm.Site world container front rest { plot with part := { plot.part with pending := none } } :=
    placed.site.relabel rfl rfl
  have leads := honest_value lawful value sound site placed.shows admits
  have attended : (NodePart.attend { plot.part with pending := none } (value.render realm.client)).Leads world.scene _
      fun _ scene => ∃ kept taken new, realm.Failed world ⟨scene, kept⟩ container front rest
        { plot with part := { plot.part with pending := none } } value.leaves taken new :=
    NodePart.attend_leads.2 (leads.mono (fun _ _ done => done)
      fun error scene ⟨kept, taken, new, failed⟩ => ⟨kept, _, new, failed.noted lawful sound nofun⟩)
  rw [NodePart.commit_of_usable staged placed.shows.usable]
  rcases Attempt.carry_ends attended (fun content => ({ plot.part with content, pending := none } : NodePart))
    { plot.part with content := .poisoned, pending := none } with
    ⟨content, scene, ran, kept, taken, inner, owned, done⟩ | ⟨error, scene, ran, kept, taken, new, failed⟩
  · have knows := done.knows sound
    refine ⟨.ok (), scene, kept, taken, ⟨{ plot.part with content, pending := none }, inner, owned⟩, ran,
      done.outcome.unstaged { plot.part with pending := none } rfl rfl, done.among, rfl,
      fun _ => done.shows, fun _ => done.texts, fun _ => nofun, knows⟩
  · have outcome := failed.outcome.unstaged { plot.part with pending := none } rfl rfl
    exact ⟨.error error, scene, kept, taken, { new with part := { plot.part with content := .poisoned, pending := none } }, ran,
      outcome.relabel _ outcome.start.symm outcome.stop.symm, failed.among, rfl, nofun, nofun, fun _ _ => rfl,
      fun _ => List.forall_mem_nil _⟩

/-- Clearing goes through wherever a part has its place, whatever became of its content. -/
theorem Site.clear (lawful : realm.Lawful) (sound : realm.Sound world)
    (site : realm.Site world container front rest plot) :
    ∃ scene, (plot.part.clear : Attempt σ NodePart).runOn world.scene =
        (({ plot.part with content := .empty }, .ok ()), scene) ∧
      realm.Outcome world ⟨scene, world.kept⟩ container front rest plot []
        ⟨{ plot.part with content := .empty }, [], []⟩ := by
  have site : realm.Site world container front rest { plot with part := { plot.part with content := .empty } } :=
    site.relabel rfl rfl
  rcases Attempt.carry_ends (site.removeContent_leads lawful sound)
    (fun () => ({ plot.part with content := .empty } : NodePart)) { plot.part with content := .empty } with
    ⟨-, scene, ran, -, outcome⟩ | ⟨-, -, -, none⟩
  · have outcome := outcome.unstaged { plot.part with content := .empty } rfl rfl
    exact ⟨scene, ran, outcome.forget rfl rfl rfl List.nodup_nil (by simp) (by simp)⟩
  · exact none.elim

end Realm

end Layout

end DomParts
