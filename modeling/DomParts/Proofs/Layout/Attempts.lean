import DomParts.Proofs.Layout.Below
import DomParts.Proofs.Render.Staged

/-! # How committing the parts of an instance ends

The parts of an instance are committed in order, and the first failure ends this. Given values without nodes
of the host, all parts get their values; or a node part fails and is poisoned; or an attribute part is given
what is neither text nor nothing. Then that part and those behind it have what they had.
-/

namespace DomParts

open RenderM

variable {σ : Type} {scene after : Scene σ}

namespace Layout

namespace Job

variable {job : Job σ} {now : World σ} {ahead behind : List Fitting} {fitting : Fitting}
  {before left : List (Rendering σ)} {item : Rendering σ}

/-- How committing parts one after the other may end if no value shows a node of the host. -/
inductive Ended (job : Job σ) (start : Tree) (ahead behind : List Fitting) (before left : List (Rendering σ))
    (after : Scene σ) : List Part → Except Error Unit → Prop
  /-- All parts were given their values. -/
  | finished {kept : NodeId → Prop} (filled : List Fitting)
      (mending : job.Mending ⟨after, kept⟩ (ahead ++ filled) [] job.values) :
      Ended job start ahead behind before left after (filled.map Fitting.part) (.ok ())
  /-- A node part failed. -/
  | poisoned {parts : List Part} {error : Error} {part : NodePart} (member : .node part ∈ parts)
      (poisoned : part.isPoisoned = true) : Ended job start ahead behind before left after parts (.error error)
  /-- An attribute part was given what is neither text nor nothing, and the parts behind it were not reached. -/
  | halted {kept : NodeId → Prop} (passed filled : List Fitting) (given : List (Rendering σ))
      {waiting : List Fitting} {part : AttributePart} {rest : List (Rendering σ)} {item : Rendering σ}
      (split : behind = passed ++ .label part :: waiting)
      (values : left = given ++ item :: rest) (count : given.length = passed.length)
      (misfit : item.value.label? = none)
      (mending : job.Mending ⟨after, kept⟩ (ahead ++ filled) (.label part :: waiting) (before ++ given))
      (still : ∀ plot, .node plot ∈ waiting → ∀ top ∈ plot.inner, after.tree.subtree top = start.subtree top) :
      Ended job start ahead behind before left after
        (filled.map Fitting.part ++ .attribute { part with pending := none } ::
          (waiting.map Fitting.part).zipWith (fun part item => part.stage item.value) rest)
        (.error (.usage item.value.describe))

theorem Ended.cons {kept : NodeId → Prop} {middle : Scene σ} {new : Fitting} {parts : List Part}
    {result : Except Error Unit} (mending : job.Mending now ahead (fitting :: behind) before)
    (worked : job.Worked now ⟨middle, kept⟩ fitting [] [])
    (next : job.Mending ⟨middle, kept⟩ (ahead ++ [new]) behind (before ++ [item]))
    (ended : job.Ended middle.tree (ahead ++ [new]) behind (before ++ [item]) left after parts result) :
    job.Ended now.tree ahead (fitting :: behind) before (item :: left) after (new.part :: parts) result := by
  cases ended with
  | finished filled mending =>
      exact .finished (new :: filled) (by simpa using mending)
  | poisoned member poisoned => exact .poisoned (List.mem_cons_of_mem _ member) poisoned
  | halted passed filled given split values count misfit halted still =>
      obtain ⟨touched, taken, headway, -⟩ := next.headway
      subst split values
      refine .halted (fitting :: passed) (new :: filled) (item :: given) rfl rfl
        (congrArg Nat.succ count) misfit (by simpa using halted) fun plot member top inner => ?_
      exact (still plot member top inner).trans (mending.still worked headway.change.sound.wellFormed
        (by simp [member]) inner)

namespace Mending

theorem noted (lawful : job.realm.Lawful) (mending : job.Mending now ahead behind before) {event : Event}
    (other : ∀ id, event ≠ .kept id) : job.Mending ⟨now.scene.add event, now.kept⟩ ahead behind before := by
  obtain ⟨touched, taken, headway, pending⟩ := mending.headway
  have idle : job.realm.Change now now (fun _ => False) [] := .refl headway.change.sound
  have change := idle.noted lawful event other
  have shows : ∀ {plot : Plot} {slack : Slack}, .node plot ∈ ahead ++ behind → job.Shown now slack plot →
      job.Shown ⟨now.scene.add event, now.kept⟩ slack plot := by
    intro plot slack member shows
    have outside : ∀ id ∈ plot.owned, now.tree.size > id ∧ ¬ False := fun id owned =>
      ⟨headway.bench.present id (Realm.Bench.claimed_of_owned member owned), not_false⟩
    simpa using change.shows slack shows outside ⟨fun _ => id, fun _ _ lost => lost.resolve_right List.not_mem_nil⟩
  exact ⟨mending.ready, ⟨touched, taken, headway.noted lawful other, pending⟩, mending.fit,
    fun plot member => shows (List.mem_append_left _ member) (mending.filled plot member),
    fun plot member => shows (List.mem_append_right _ member) (mending.waiting plot member)⟩

theorem commit_plain (lawful : job.realm.Lawful) (mending : job.Mending now ahead (fitting :: behind) before)
    (values : job.values = before ++ item :: left) (honest : job.realm.Honest item.value.leaves item.render)
    (plain : item.value.leaves = []) :
    ((fitting.part.stage item.value).commitWith item.render).orThrow.Leads now.scene
      (fun part scene => ∃ kept new, part = Fitting.part new ∧ job.Worked now ⟨scene, kept⟩ fitting [] [] ∧
        job.Mending ⟨scene, kept⟩ (ahead ++ [new]) behind (before ++ [item]))
      (fun _ scene => job.Broken scene) := by
  have admits : job.realm.Admits job.start.tree item.value.leaves := by
    rw [plain]
    exact List.forall_mem_nil _
  refine (mending.commit_next lawful values honest admits).imp ?_
  rintro part scene ⟨kept, taken, new, same, worked, mending⟩
  rw [plain] at worked
  obtain rfl := List.eq_nil_iff_forall_not_mem.2 fun id gone => List.not_mem_nil (worked.among id gone)
  exact ⟨kept, new, same, worked, by simpa using mending⟩

/-- The element of an attribute part is an element if the clone has one there. -/
theorem standing {part : AttributePart} (mending : job.Mending now ahead behind before)
    (elements : ∃ spot ∈ job.spots, spot.id = part.element ∧ ∃ tag attributes, spot.kind = .element tag attributes) :
    ∃ tag attributes, now.tree.kindOf part.element = some (.element tag attributes) := by
  obtain ⟨touched, taken, headway, -⟩ := mending.headway
  obtain ⟨spot, listed, same, tag, attributes, planned⟩ := elements
  obtain ⟨kind, found, accords⟩ := headway.kinds spot listed
  rw [planned] at accords
  obtain ⟨actual, rfl, -⟩ := accords
  exact ⟨tag, actual, same ▸ found⟩

theorem ends (lawful : job.realm.Lawful) (mending : job.Mending now ahead behind before)
    (values : job.values = before ++ left) (count : left.length = behind.length)
    (honest : ∀ item ∈ job.values, job.realm.Honest item.value.leaves item.render)
    (plain : ∀ item ∈ job.values, item.value.leaves = [])
    (elements : ∀ part, .label part ∈ behind → ∃ spot ∈ job.spots, spot.id = part.element ∧
      ∃ tag attributes, spot.kind = .element tag attributes) {parts : List Part} {result : Except Error Unit}
    (ran : (Part.commitEach ((behind.map Fitting.part).zipWith
      (fun part item => (part.stage item.value, item.render)) left)).runOn now.scene = ((parts, result), after)) :
    job.Ended now.tree ahead behind before left after parts result := by
  induction left generalizing now ahead behind before parts with
  | nil =>
      cases List.length_eq_zero_iff.1 count.symm
      cases ran
      rw [List.append_nil] at values
      have mending : job.Mending now (ahead ++ []) [] job.values := by simpa [values] using mending
      exact .finished [] mending
  | cons item left ih =>
      obtain ⟨fitting, behind, rfl⟩ := List.exists_cons_of_length_eq_add_one count.symm
      rw [List.map_cons, List.zipWith_cons_cons] at ran
      have among : item ∈ job.values := by simp [values]
      have leads := mending.commit_plain lawful values (honest item among) (plain item among)
      rcases began : ((fitting.part.stage item.value).commitWith item.render).runOn now.scene with
        ⟨⟨part, error | _⟩, middle⟩
      · rw [Part.commitEach_error _ began] at ran
        cases ran
        cases fitting with
        | node plot =>
            obtain ⟨left, rfl, poisoned⟩ := Part.poisoned_of_node began
            exact .poisoned (List.mem_cons_self ..) poisoned
        | label part =>
            obtain ⟨tag, attributes, standing⟩ := mending.standing (elements part (List.mem_cons_self ..))
            obtain ⟨misfit, rfl, rfl, rfl⟩ := Part.misfit_of_attribute standing began
            have other : ∀ id, Event.misfit item.value.describe part.name ≠ .kept id := fun _ => by simp
            have mending := mending.noted lawful other
            have others : (List.zipWith (fun part item => (Part.stage item.value part, item.render))
                (behind.map Fitting.part) left).map (·.1) =
                (behind.map Fitting.part).zipWith (fun part item => part.stage item.value) left := by
              rw [List.map_zipWith]
            rw [others]
            exact .halted [] [] [] (List.nil_append _).symm (List.nil_append _).symm rfl misfit (by simpa using mending)
              fun _ _ _ _ => rfl
      · rw [Part.commitEach_ok _ began] at ran
        obtain ⟨kept, new, rfl, worked, next⟩ := leads.ok (Attempt.orThrow_ok began)
        rcases onward : (Part.commitEach ((behind.map Fitting.part).zipWith
          (fun part item => (part.stage item.value, item.render)) left)).runOn middle with ⟨⟨others, outcome⟩, last⟩
        rw [onward] at ran
        cases ran
        have ended := ih next (by simp [values]) (by simpa using count)
          (fun part member => elements part (List.mem_cons_of_mem _ member)) onward
        exact ended.cons mending worked next

end Mending

end Job

end Layout

end DomParts
