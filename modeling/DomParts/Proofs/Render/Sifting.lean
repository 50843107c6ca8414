import DomParts.Proofs.Render.Heard
import DomParts.Proofs.Render.Mutations

/-! # Runs that are sifted

Removing a run with a hook in place takes out the markers and whatever the hook lets go, and leaves the rest
where it is. It does not matter to the hook whether it is overheard. If the hook lets everything go, nothing
is left to tell the removal from one that does not ask.
-/

namespace DomParts

open DomParts.Tree

variable {σ α β : Type}

def Scene.forget (scene : Scene (σ × List Question)) : Scene σ :=
  ⟨scene.tree, scene.cache, scene.memory.1, scene.report⟩

namespace RenderM

/-- A computation does what another one does whose hook is overheard. -/
def Shadows (plain : RenderM σ α) (heard : RenderM (σ × List Question) α) : Prop :=
  ∀ scene, plain.runOn scene.forget = ((heard.runOn scene).1, (heard.runOn scene).2.forget)

section Shadows

variable {plain : RenderM σ α} {heard : RenderM (σ × List Question) α} {next : α → RenderM σ β}
  {next' : α → RenderM (σ × List Question) β}

theorem shadows_pure (value : α) : (pure value : RenderM σ α).Shadows (pure value) := fun _ => rfl

theorem shadows_throw (error : Error) : (throw error : RenderM σ α).Shadows (throw error) := fun _ => rfl

theorem shadows_look (view : Tree → α) : (look view : RenderM σ α).Shadows (look view) := fun _ => rfl

theorem shadows_note (event : Event) : (note event : RenderM σ Unit).Shadows (note event) := fun _ => rfl

theorem shadows_ask (hook : RemovalHook σ) (id container : NodeId) :
    (consult (hook.ask id container)).Shadows (consult (hook.overheard.ask id container)) := fun _ => rfl

theorem shadows_edit (change : Tree → Except HostFault Tree) : (edit change : RenderM σ Unit).Shadows (edit change) := by
  intro scene
  rw [runOn_edit, runOn_edit, show scene.forget.tree = scene.tree from rfl]
  cases change scene.tree <;> rfl

theorem Shadows.bind (first : plain.Shadows heard) (rest : ∀ value, (next value).Shadows (next' value)) :
    (plain >>= next).Shadows (heard >>= next') := by
  intro scene
  rw [runOn_bind, runOn_bind, first scene]
  rcases heard.runOn scene with ⟨_ | value, after⟩
  · rfl
  · exact rest value after

end Shadows

section Overheard

variable {hook : RemovalHook σ} {container id : NodeId} {stop : Option NodeId}

theorem mayRemove_shadows : (mayRemove hook container id).Shadows (mayRemove hook.overheard container id) := by
  refine (shadows_look _).bind fun marker => ?_
  cases marker with
  | true => exact shadows_pure true
  | false =>
      refine (shadows_ask hook id container).bind fun answer => ?_
      cases answer with
      | proceed => exact shadows_pure true
      | skip => exact (shadows_note _).bind fun _ => shadows_pure false

theorem removeAsking_shadows : (removeAsking hook container id).Shadows (removeAsking hook.overheard container id) := by
  refine (shadows_look _).bind fun above => ?_
  by_cases here : above = some container
  · simp only [here, ne_eq, not_true, if_false]
    refine mayRemove_shadows.bind fun may => ?_
    cases may with
    | true => exact (shadows_edit _).bind fun _ => shadows_pure true
    | false => exact shadows_pure false
  · simp only [here, ne_eq, not_false_eq_true, if_true]
    exact (shadows_note _).bind fun _ => shadows_throw _

theorem overRunAsking_shadows (fuel : Nat) (current : Option NodeId) (count : Nat) :
    (overRunAsking hook container stop fuel current count).Shadows
      (overRunAsking hook.overheard container stop fuel current count) := by
  induction fuel generalizing current count with
  | zero =>
      cases current with
      | none => exact shadows_pure count
      | some id =>
          rw [overRunAsking, overRunAsking]
          split
          · exact shadows_pure count
          · exact shadows_throw _
  | succ fuel ih =>
      cases current with
      | none => exact shadows_pure count
      | some id =>
          rw [overRunAsking, overRunAsking]
          split
          · exact shadows_pure count
          · exact (shadows_look _).bind fun next => removeAsking_shadows.bind fun went => ih next _

theorem removeRunAsking_shadows (start : NodeId) : (removeRunAsking hook container start stop).Shadows
    (removeRunAsking hook.overheard container start stop) :=
  (shadows_look _).bind fun fuel => (overRunAsking_shadows fuel _ 0).bind fun count =>
    (shadows_note _).bind fun _ => shadows_pure count

end Overheard

variable {hook : RemovalHook σ} {container start : NodeId} {stop : Option NodeId}

theorem removeRunAsking_empty (scene : Scene σ) :
    (removeRunAsking hook container start (some start)).runOn scene = (.ok 0, scene.add (.removedAsking 0)) := by
  simp only [removeRunAsking, overRunAsking_stop]
  rfl

/-- A node that is not in the container stops the walk before anything is asked or removed. -/
theorem removeRunAsking_elsewhere {scene : Scene σ} (present : start < scene.tree.size) (onward : stop ≠ some start)
    (elsewhere : scene.tree.parentOf start ≠ some container) : (removeRunAsking hook container start stop).runOn scene =
      (.error (.illegalMutation .leftContainer), scene.add (.lostNode start)) := by
  have leads : (removeRunAsking hook container start stop).Leads scene (fun _ _ => False) fun error after =>
      error = .illegalMutation .leftContainer ∧ after = scene.add (.lostNode start) := by
    have positive : 0 < scene.tree.size := Nat.zero_lt_of_lt present
    obtain ⟨fuel, enough⟩ : ∃ less, scene.tree.size + hook.additions = less + 1 :=
      ⟨scene.tree.size + hook.additions - 1, by omega⟩
    simp only [removeRunAsking, leads_bind, leads_look, enough, leads_overRunAsking_step onward, removeAsking,
      elsewhere, ne_eq, not_false_eq_true, if_true, leads_note, leads_throw, and_self]
  rcases ran : (removeRunAsking hook container start stop).runOn scene with ⟨error | count, after⟩
  · obtain ⟨rfl, rfl⟩ := leads.error ran
    rfl
  · exact (leads.ok ran).elim

theorem removeRunAsking_sifted {scene : Scene (σ × List Question)}
    (thinks : ∀ target container memory (tree : Tree), (hook.ask target container (memory, tree)).2.2 = tree)
    (sound : scene.tree.WellFormed) (above : scene.tree.parentOf start = some container) (stop : Option NodeId) :
    ∃ asked gone after, (removeRunAsking hook.overheard container start stop).runOn scene = (.ok gone.length, after) ∧
      Sifted hook container (scene.tree.run start stop) scene after asked gone := by
  obtain ⟨front, split⟩ := sound.split_at above
  have room : (scene.tree.run start stop).length ≤ scene.tree.size + hook.overheard.additions :=
    Nat.le_add_right_of_le ((sound.run_sublist above stop).length_le.trans (sound.length_childrenOf_le container))
  have walked := overRunAsking_sifted thinks sound split stop room 0
  have leads : (removeRunAsking hook.overheard container start stop).Leads scene (fun count after => ∃ asked gone,
      Sifted hook container (scene.tree.run start stop) scene after asked gone ∧ count = gone.length)
      fun _ _ => False := by
    simp only [removeRunAsking, leads_bind, leads_look, leads_note, leads_pure]
    refine walked.mono ?_ fun _ _ none => none
    rintro total after ⟨asked, gone, sifted, counted⟩
    exact ⟨asked, gone, ⟨sifted.heard, sifted.said, sifted.tree, sifted.memory⟩, by omega⟩
  obtain ⟨_, after, ran, asked, gone, sifted, rfl⟩ := leads.ran
  exact ⟨asked, gone, after, ran, sifted⟩

/-- A hook that does not touch the tree is asked about each node of a run but the markers, once and in order. The
    markers go and so does every node that the hook lets go, with all that is below it; the others stay where they are.
    Those that went are counted. If the hook lets everything go, all ends as if nobody had been asked. An empty run is
    left alone either way. A run that is elsewhere is refused: then nobody is asked and nothing changes. A hook that is
    not overheard acts just the same. -/
theorem removeRunAsking_whole {scene : Scene (σ × List Question)}
    (thinks : ∀ target container memory (tree : Tree), (hook.ask target container (memory, tree)).2.2 = tree)
    (sound : scene.tree.WellFormed) (present : start < scene.tree.size) (container : NodeId) (stop : Option NodeId) :
    (removeRunAsking hook container start stop).Shadows (removeRunAsking hook.overheard container start stop) ∧
    (scene.tree.run start stop = [] →
      (removeRunAsking hook.overheard container start stop).runOn scene = (.ok 0, scene.add (.removedAsking 0)) ∧
      (removeRun container start stop).runOn scene = (.ok 0, scene.add (.removed 0))) ∧
    (scene.tree.run start stop ≠ [] → scene.tree.parentOf start = some container →
      ∃ asked gone after,
        (removeRunAsking hook.overheard container start stop).runOn scene = (.ok gone.length, after) ∧
        after.memory.2 = scene.memory.2 ++ questionsOf container asked ∧
        asked.map (·.1) = (scene.tree.run start stop).filter (!scene.tree.isMarker ·) ∧
        (∀ pair ∈ asked, ∃ state, (hook.ask pair.1 container state).1 = pair.2) ∧
        gone = (scene.tree.run start stop).filter (fun id => scene.tree.isMarker id || (id, .proceed) ∈ asked) ∧
        scene.tree.Plucked after.tree container gone ∧
        ((∀ target state, (hook.ask target container state).1 = .proceed) → ∃ plain,
          (removeRun container start stop).runOn scene = (.ok gone.length, plain) ∧ plain.tree = after.tree)) ∧
    (scene.tree.run start stop ≠ [] → scene.tree.parentOf start ≠ some container →
      (removeRunAsking hook.overheard container start stop).runOn scene =
        (.error (.illegalMutation .leftContainer), scene.add (.lostNode start))) := by
  refine ⟨removeRunAsking_shadows start, fun none => ?_, fun some above => ?_, fun some elsewhere => ?_⟩
  · rw [run_eq_nil_iff.1 none]
    exact ⟨removeRunAsking_empty scene, removeRun_empty container start scene⟩
  · obtain ⟨asked, gone, after, ran, sifted⟩ := removeRunAsking_sifted thinks sound above stop
    have distinct := (sound.nodup container).sublist (sound.run_sublist above stop)
    have own : ∀ id ∈ gone, id ∈ scene.tree.childrenOf container := fun id member =>
      sound.run_children above id (sifted.heard.gone_subset member)
    refine ⟨asked, gone, after, ran, sifted.memory, sifted.heard.targets, sifted.said, sifted.heard.gone_eq distinct,
      sifted.tree ▸ sound.plucked own, fun willing => ?_⟩
    have all := sifted.gone_of_willing distinct willing
    obtain ⟨front, split⟩ := sound.split_at above
    have removed := removeRun_upTo sound split (List.head?_cons ..) stop
    rw [runOn_removeRun, removed]
    exact ⟨_, by rw [all]; rfl, by rw [sifted.tree, all]; rfl⟩
  · exact removeRunAsking_elsewhere present (fun met => some (run_eq_nil_iff.2 met)) elsewhere

/-- A hook that keeps every other node that it is asked about. -/
def alternating : RemovalHook Nat where
  ask _ _ := fun (count, tree) => (if count % 2 = 0 then .skip else .proceed, count + 1, tree)

def marked : Tree := Tree.empty.perform
  [.createElement "ul", .createComment "", .createText "a", .createText "b", .createText "c", .appendChild 0 1,
    .appendChild 0 2, .appendChild 0 3, .appendChild 0 4]

theorem marked_wellFormed : marked.WellFormed := WellFormed.empty.perform _

/-- The marker 1 goes, and the first and the last text stay. From a text nothing is removed. -/
theorem removeRunAsking_whole_alternating :
    (∀ target container memory (tree : Tree), (alternating.ask target container (memory, tree)).2.2 = tree) ∧
    (Scene.onTree marked (0, ([] : List Question))).tree.WellFormed ∧ 1 < marked.size ∧
    (∃ after, (removeRunAsking alternating.overheard 0 1 none).runOn (Scene.onTree marked (0, [])) = (.ok 2, after) ∧
      after.memory.2 = questionsOf 0 [(2, .skip), (3, .proceed), (4, .skip)] ∧ after.tree.childrenOf 0 = [2, 4]) ∧
    (removeRunAsking alternating.overheard 2 1 none).runOn (Scene.onTree marked (0, [])) =
      (.error (.illegalMutation .leftContainer), (Scene.onTree marked (0, [])).add (.lostNode 1)) := by
  have thinks : ∀ target container memory (tree : Tree), (alternating.ask target container (memory, tree)).2.2 = tree :=
    fun _ _ _ _ => rfl
  have sound : (Scene.onTree marked (0, ([] : List Question))).tree.WellFormed := marked_wellFormed
  have present : 1 < (Scene.onTree marked (0, ([] : List Question))).tree.size := by decide
  obtain ⟨-, -, sifted, -⟩ := removeRunAsking_whole thinks sound present 0 none
  obtain ⟨-, -, -, refused⟩ := removeRunAsking_whole thinks sound present 2 none
  obtain ⟨asked, gone, after, ran, heard, -, -, went, plucked, -⟩ := sifted (by decide) (by decide)
  have record : after.memory.2 = questionsOf 0 [(2, .skip), (3, .proceed), (4, .skip)] :=
    congrArg (fun ended => ended.2.memory.2) ran.symm
  obtain rfl : asked = [(2, .skip), (3, .proceed), (4, .skip)] := questionsOf_injective 0 (heard.symm.trans record)
  obtain rfl : gone = [1, 3] := went.trans (by decide)
  exact ⟨thinks, sound, present, ⟨after, ran, record, plucked.kept.trans (by decide)⟩, refused (by decide) (by decide)⟩

end RenderM

end DomParts
