import DomParts.Proofs.Render.Mutations
import DomParts.Proofs.Render.Staged
import DomParts.Proofs.Tree.Retouched

/-! # Attribute parts in step with their elements

An attribute part goes by the text that it committed last, and spares the host a change that would change
nothing. That is right as long as the part goes by the value that the element has. It does so when it is bound,
and every commit leaves it so, whatever comes of it. Others may do to the tree what they like, as long as they
do not write the attribute.
-/

namespace DomParts

open RenderM

variable {σ : Type}

namespace AttributePart

variable {part : AttributePart} {scene : Scene σ}

/-- The part goes by the value that the element has. -/
def Bound (tree : Tree) (part : AttributePart) : Prop := part.committed = tree.attribute? part.element part.name

/-- A part that goes by the value that the element has commits a text as if the change were never spared. -/
theorem runOn_assign_text (bound : part.Bound scene.tree) (data : String) :
    (part.assign (.text data)).runOn scene = match scene.tree.setAttribute part.element part.name data with
      | .ok tree => (({ part with committed := some data }, .ok ()), { scene with tree })
      | .error fault => ((part, .error (.host fault)), scene) := by
  rw [assign]
  by_cases same : part.committed = some data
  · rw [if_pos same, Tree.setAttribute_self (bound.symm.trans same), ← same]
    rfl
  · rw [if_neg same, Attempt.runOn, Attempt.carry, runOn_edit]
    cases scene.tree.setAttribute part.element part.name data <;> rfl

/-- A part that goes by the value that the element has commits nothing as if the change were never spared, but does
    not mind if there is no element. -/
theorem runOn_assign_nothing (bound : part.Bound scene.tree) :
    (part.assign .nothing).runOn scene = match scene.tree.removeAttribute part.element part.name with
      | .ok tree => (({ part with committed := none }, .ok ()), { scene with tree })
      | .error _ => (({ part with committed := none }, .ok ()), scene) := by
  rw [assign]
  cases had : part.committed with
  | none =>
      cases removed : scene.tree.removeAttribute part.element part.name with
      | error fault => rfl
      | ok tree =>
          obtain rfl := Tree.removeAttribute_self removed (bound.symm.trans had)
          rfl
  | some data =>
      obtain ⟨tree, removed⟩ := Tree.removeAttribute_found (bound.symm.trans had)
      simp only [Option.isNone_some, Bool.false_eq_true, if_false, Attempt.runOn, Attempt.carry, runOn_edit, removed]

/-- A text is committed by a part that goes by the value that the element has, whether the change is spared or not. -/
theorem leads_assign_bound (bound : part.Bound scene.tree) (data : String) {good : AttributePart → Scene σ → Prop}
    {bad : Error → Scene σ → Prop} : (part.assign (.text data) : Attempt σ AttributePart).orThrow.Leads scene good bad ↔
      (edit (·.setAttribute part.element part.name data) : RenderM σ Unit).Leads scene
        (fun _ after => good { part with committed := some data } after) bad := by
  rw [leads_orThrow, runOn_assign_text bound, leads_edit]
  cases scene.tree.setAttribute part.element part.name data <;> rfl

/-- What a commit comes to if the part goes by the value that the element has. -/
inductive Committed (part : AttributePart) (scene : Scene σ) : AttributePart → Except Error Unit → Scene σ → Prop where
  | idle (unstaged : part.pending = none) : Committed part scene part (.ok ()) scene
  | written {data : String} {tree : Tree} (staged : part.pending = some (.text data))
      (done : scene.tree.setAttribute part.element part.name data = .ok tree) :
      Committed part scene { part with pending := none, committed := some data } (.ok ()) { scene with tree }
  | refused {data : String} {fault : HostFault} (staged : part.pending = some (.text data))
      (refused : scene.tree.setAttribute part.element part.name data = .error fault) :
      Committed part scene { part with pending := none } (.error (.host fault)) scene
  | removed {tree : Tree} (staged : part.pending = some .nothing)
      (done : scene.tree.removeAttribute part.element part.name = .ok tree) :
      Committed part scene { part with pending := none, committed := none } (.ok ()) { scene with tree }
  | spared {fault : HostFault} (staged : part.pending = some .nothing)
      (refused : scene.tree.removeAttribute part.element part.name = .error fault) :
      Committed part scene { part with pending := none, committed := none } (.ok ()) scene
  | misfit {value : Value} (staged : part.pending = some value) (unfit : value.label? = none) :
      Committed part scene { part with pending := none } (.error (.usage value.describe))
        (scene.add (.misfit value.describe part.name))

theorem commit_of_unstaged (unstaged : part.pending = none) : (part.commit : Attempt σ AttributePart) = .done part := by
  simp only [commit, unstaged]

theorem commit_of_pending {value : Value} (staged : part.pending = some value) :
    (part.commit : Attempt σ AttributePart) = ({ part with pending := none } : AttributePart).assign value := by
  simp only [commit, staged]

theorem commit_committed (bound : part.Bound scene.tree) :
    Committed part scene (part.commit.runOn scene).1.1 (part.commit.runOn scene).1.2 (part.commit.runOn scene).2 := by
  have bound : ({ part with pending := none } : AttributePart).Bound scene.tree := bound
  cases staged : part.pending with
  | none =>
      rw [commit_of_unstaged staged]
      exact .idle staged
  | some value =>
      rw [commit_of_pending staged]
      cases label : value.label? with
      | none =>
          rw [assign_misfit label]
          exact .misfit staged label
      | some text? =>
          cases value with
          | text data =>
              rw [runOn_assign_text bound]
              cases done : scene.tree.setAttribute part.element part.name data with
              | ok tree => exact .written staged done
              | error fault => exact .refused staged done
          | nothing =>
              rw [runOn_assign_nothing bound]
              cases done : scene.tree.removeAttribute part.element part.name with
              | ok tree => exact .removed staged done
              | error fault => exact .spared staged done
          | _ => cases label

/-- A part of an attribute that goes by the value of its element. -/
structure InStep (element : NodeId) (name : String) (part : AttributePart) (tree : Tree) : Prop where
  sound : tree.WellFormed
  present : element < tree.size
  element : part.element = element
  name : part.name = name
  bound : part.Bound tree

variable {element : NodeId} {name : String}

/-- A part goes on to go by the value of its element, and nothing else changes but that value. -/
theorem InStep.commit (inStep : InStep element name part scene.tree) :
    InStep element name (part.commit.runOn scene).1.1 (part.commit.runOn scene).2.tree ∧
      scene.tree.Retouched (part.commit.runOn scene).2.tree element name := by
  have committed := commit_committed inStep.bound
  obtain ⟨sound, present, rfl, rfl, bound⟩ := inStep
  generalize (part.commit.runOn scene).1.1 = new, (part.commit.runOn scene).1.2 = result,
    (part.commit.runOn scene).2 = after at committed
  cases committed with
  | idle unstaged => exact ⟨⟨sound, present, rfl, rfl, bound⟩, .refl _⟩
  | written staged done =>
      obtain ⟨retouched, value⟩ := Tree.retouched_setAttribute done
      exact ⟨⟨sound.changeAttributes done fun _ => Attributes.nodup_set, retouched.size ▸ present, rfl, rfl, value.symm⟩,
        retouched⟩
  | refused staged refused => exact ⟨⟨sound, present, rfl, rfl, bound⟩, .refl _⟩
  | removed staged done =>
      obtain ⟨retouched, value⟩ := Tree.retouched_removeAttribute done
      exact ⟨⟨sound.changeAttributes done fun _ => Attributes.nodup_erase, retouched.size ▸ present, rfl, rfl,
        value.symm⟩, retouched⟩
  | spared staged refused =>
      exact ⟨⟨sound, present, rfl, rfl, (Tree.attribute?_of_refused refused).symm⟩, .refl _⟩
  | misfit staged unfit => exact ⟨⟨sound, present, rfl, rfl, bound⟩, .refl _⟩

/-- Something that is done with an attribute part, or by others in the meantime. -/
inductive Deed where
  | stage (value : Value)
  | commit
  /-- Others do something to the tree. -/
  | meanwhile (operation : Tree.Operation)

namespace Deed

/-- Whether an attribute is left to its part. -/
def Avoids (element : NodeId) (name : String) : Deed → Prop
  | .meanwhile operation => operation.Avoids element name
  | _ => True

/-- Whether it is something that is done with the part. -/
def Own : Deed → Prop
  | .meanwhile _ => False
  | _ => True

def perform : Deed → AttributePart × Scene σ → AttributePart × Scene σ
  | .stage value, (part, scene) => (part.stage value, scene)
  | .commit, (part, scene) => ((part.commit.runOn scene).1.1, (part.commit.runOn scene).2)
  | .meanwhile operation, (part, scene) => (part, { scene with tree := scene.tree.perform [operation] })

end Deed

def performAll (deeds : List Deed) (state : AttributePart × Scene σ) : AttributePart × Scene σ :=
  deeds.foldl (fun state deed => deed.perform state) state

/-- How the commits among some deeds go, in order. -/
def results : List Deed → AttributePart × Scene σ → List (Except Error Unit)
  | [], _ => []
  | .commit :: rest, (part, scene) =>
      (part.commit.runOn scene).1.2 :: results rest (Deed.commit.perform (part, scene))
  | deed :: rest, state => results rest (deed.perform state)

theorem InStep.perform {state : AttributePart × Scene σ} (inStep : InStep element name state.1 state.2.tree) (deed : Deed)
    (avoids : deed.Avoids element name) :
    InStep element name (deed.perform state).1 (deed.perform state).2.tree := by
  obtain ⟨part, scene⟩ := state
  cases deed with
  | stage value =>
      obtain ⟨sound, present, element, name, bound⟩ := inStep
      exact ⟨sound, present, element, name, bound⟩
  | commit => exact inStep.commit.1
  | meanwhile operation =>
      obtain ⟨sound, present, rfl, rfl, bound⟩ := inStep
      simp only [Deed.perform, Tree.perform]
      cases done : operation.perform scene.tree with
      | error fault => exact ⟨sound, present, rfl, rfl, bound⟩
      | ok changed =>
          obtain ⟨present', same⟩ := sound.operation_avoids present avoids done
          exact ⟨sound.operation done, present', rfl, rfl, bound.trans same.symm⟩

theorem InStep.performAll {state : AttributePart × Scene σ} (inStep : InStep element name state.1 state.2.tree)
    {deeds : List Deed} (avoids : ∀ deed ∈ deeds, deed.Avoids element name) :
    InStep element name (performAll deeds state).1 (performAll deeds state).2.tree := by
  induction deeds generalizing state with
  | nil => exact inStep
  | cons deed deeds ih =>
      rw [List.forall_mem_cons] at avoids
      exact ih (inStep.perform deed avoids.1) avoids.2

theorem InStep.retouched {state : AttributePart × Scene σ} (inStep : InStep element name state.1 state.2.tree)
    {deeds : List Deed} (own : ∀ deed ∈ deeds, deed.Own) :
    state.2.tree.Retouched (AttributePart.performAll deeds state).2.tree element name := by
  induction deeds generalizing state with
  | nil => exact .refl _
  | cons deed deeds ih =>
      rw [List.forall_mem_cons] at own
      cases deed with
      | stage value => exact ih (inStep.perform (.stage value) trivial) own.2
      | commit => exact inStep.commit.2.trans (ih (inStep.perform .commit trivial) own.2)
      | meanwhile operation => exact own.1.elim

section Same

variable {other : Scene σ} (same : scene.Same other)
include same

theorem carry_edit_same (change : Tree → Except HostFault Tree) (kept : Unit → AttributePart) (broken : AttributePart) :
    ((Attempt.carry (edit change) kept broken).runOn other).1 = ((Attempt.carry (edit change) kept broken).runOn scene).1 ∧
      ((Attempt.carry (edit change) kept broken).runOn scene).2.Same
        ((Attempt.carry (edit change) kept broken).runOn other).2 := by
  simp only [Attempt.runOn, Attempt.carry, runOn_edit, same.tree]
  cases change scene.tree with
  | ok tree => exact ⟨rfl, rfl, same.cache, same.memory⟩
  | error fault => exact ⟨rfl, same⟩

theorem commit_same (part : AttributePart) : (part.commit.runOn other).1 = (part.commit.runOn scene).1 ∧
    (part.commit.runOn scene).2.Same (part.commit.runOn other).2 := by
  cases staged : part.pending with
  | none =>
      rw [commit_of_unstaged staged]
      exact ⟨rfl, same⟩
  | some value =>
      rw [commit_of_pending staged]
      cases label : value.label? with
      | none =>
          rw [assign_misfit label, assign_misfit label]
          exact ⟨rfl, same.tree, same.cache, same.memory⟩
      | some text? =>
          cases value with
          | text data =>
              simp only [assign]
              split
              · exact ⟨rfl, same⟩
              · exact carry_edit_same same _ _ _
          | nothing =>
              simp only [assign]
              split
              · exact ⟨rfl, same⟩
              · exact carry_edit_same same _ _ _
          | _ => cases label

theorem Deed.perform_same (deed : Deed) (part : AttributePart) :
    (deed.perform (part, other)).1 = (deed.perform (part, scene)).1 ∧
      (deed.perform (part, scene)).2.Same (deed.perform (part, other)).2 := by
  cases deed with
  | stage value => exact ⟨rfl, same⟩
  | commit =>
      obtain ⟨ended, same⟩ := commit_same same part
      exact ⟨congrArg (·.1) ended, same⟩
  | meanwhile operation =>
      exact ⟨rfl, congrArg (·.perform [operation]) same.tree, same.cache, same.memory⟩

theorem later_same (deeds : List Deed) (part : AttributePart) : results deeds (part, other) = results deeds (part, scene) ∧
    (performAll deeds (part, scene)).2.Same (performAll deeds (part, other)).2 := by
  induction deeds generalizing part scene other with
  | nil => exact ⟨rfl, same⟩
  | cons deed deeds ih =>
      obtain ⟨ended, after⟩ := deed.perform_same same part
      obtain ⟨results_same, last⟩ := ih after (deed.perform (part, scene)).1
      have rest : performAll deeds (deed.perform (part, other)) =
          performAll deeds ((deed.perform (part, scene)).1, (deed.perform (part, other)).2) := by rw [← ended]
      have rest_results : results deeds (deed.perform (part, other)) =
          results deeds ((deed.perform (part, scene)).1, (deed.perform (part, other)).2) := by rw [← ended]
      refine ⟨?_, rest ▸ last⟩
      cases deed with
      | stage value => exact rest_results.trans results_same
      | commit =>
          rw [results, results, rest_results, results_same, (commit_same same part).1]
      | meanwhile operation => exact rest_results.trans results_same

end Same

/-- What a commit does with whatever is staged. -/
structure Faithful (element : NodeId) (name : String) (part : AttributePart) (scene : Scene σ) : Prop where
  /-- Without a staged value nothing happens. -/
  idle : part.pending = none → part.commit.runOn scene = ((part, .ok ()), scene)
  /-- On an element the attribute is given the text. -/
  text : ∀ data tag attributes, part.pending = some (.text data) →
    scene.tree.kindOf element = some (.element tag attributes) → ∃ changed,
      part.commit.runOn scene = ((⟨element, name, none, some data⟩, .ok ()), { scene with tree := changed }) ∧
        changed.attribute? element name = some data
  /-- On any other node there is an error, and nothing happens. -/
  misplaced : ∀ data kind, part.pending = some (.text data) → scene.tree.kindOf element = some kind →
    (∀ tag attributes, kind ≠ .element tag attributes) → part.commit.runOn scene =
      (({ part with pending := none }, .error (.host (.expectedElement kind))), scene)
  /-- Nothing removes the attribute. -/
  nothing : part.pending = some .nothing → ∃ changed,
    part.commit.runOn scene = ((⟨element, name, none, none⟩, .ok ()), { scene with tree := changed }) ∧
      changed.attribute? element name = none
  /-- Any other value is reported and refused, and all goes on as if it had not been staged. -/
  misfit : ∀ value, part.pending = some value → (∀ data, value ≠ .text data) → value ≠ .nothing →
    part.commit.runOn scene =
      (({ part with pending := none }, .error (.usage value.describe)), scene.add (.misfit value.describe name)) ∧
    ∀ later, results later ({ part with pending := none }, scene.add (.misfit value.describe name)) =
        results later ({ part with pending := none }, scene) ∧
      (performAll later ({ part with pending := none }, scene.add (.misfit value.describe name))).2.tree =
        (performAll later ({ part with pending := none }, scene)).2.tree

theorem InStep.faithful (inStep : InStep element name part scene.tree) : Faithful element name part scene := by
  obtain ⟨sound, present, rfl, rfl, bound⟩ := inStep
  have unstaged : ({ part with pending := none } : AttributePart).Bound scene.tree := bound
  refine ⟨fun idle => ?_, fun data tag attributes staged standing => ?_, fun data kind staged standing solid => ?_,
    fun staged => ?_, fun value staged solid present => ?_⟩
  · rw [commit_of_unstaged idle]
    rfl
  · have done := Tree.changeAttributes_element standing (·.set part.name data)
    rw [commit_of_pending staged, runOn_assign_text unstaged]
    refine ⟨_, ?_, (Tree.retouched_setAttribute done).2⟩
    rw [Tree.setAttribute, done]
  · have refused := Tree.changeAttributes_misplaced standing solid (·.set part.name data)
    rw [commit_of_pending staged, runOn_assign_text unstaged, Tree.setAttribute, refused]
  · rw [commit_of_pending staged, runOn_assign_nothing unstaged]
    cases done : scene.tree.removeAttribute part.element part.name with
    | ok changed => exact ⟨changed, rfl, (Tree.retouched_removeAttribute done).2⟩
    | error fault => exact ⟨scene.tree, rfl, Tree.attribute?_of_refused done⟩
  · have unfit : value.label? = none := by
      cases value with
      | text data => exact absurd rfl (solid data)
      | nothing => exact absurd rfl present
      | _ => rfl
    rw [commit_of_pending staged, assign_misfit unfit]
    refine ⟨rfl, fun later => ?_⟩
    have same : scene.Same (scene.add (.misfit value.describe part.name)) := ⟨rfl, rfl, rfl⟩
    obtain ⟨results, last⟩ := later_same same later { part with pending := none }
    exact ⟨results, last.tree⟩

/-- An attribute part that is bound to a node stays in step with it, whatever is staged and committed and whatever
    others do without writing the attribute: every commit does what it is to do with the value that is staged, and
    nothing that is done with the part changes anything but its attribute. -/
theorem stays_in_step (sound : scene.tree.WellFormed) (present : element < scene.tree.size) (name : String)
    (deeds : List Deed) (avoids : ∀ deed ∈ deeds, deed.Avoids element name) :
    ∃ part, (bind element name).runOn scene = (.ok part, scene) ∧
      (performAll deeds (part, scene)).1.committed =
        (performAll deeds (part, scene)).2.tree.attribute? element name ∧
      Faithful element name (performAll deeds (part, scene)).1 (performAll deeds (part, scene)).2 ∧
      ∀ own : List Deed, (∀ deed ∈ own, deed.Own) → (performAll deeds (part, scene)).2.tree.Retouched
        (performAll own (performAll deeds (part, scene))).2.tree element name := by
  let begun : AttributePart × Scene σ := (⟨element, name, none, scene.tree.attribute? element name⟩, scene)
  have inStep : InStep element name begun.1 begun.2.tree := ⟨sound, present, rfl, rfl, rfl⟩
  have inStep := inStep.performAll avoids
  refine ⟨_, rfl, ?_, inStep.faithful, fun own mine => inStep.retouched mine⟩
  rw [inStep.bound, inStep.element, inStep.name]

def link : Tree := Tree.empty.perform
  [.createElement "a", .setAttribute 0 "href" "here", .setAttribute 0 "class" "plain", .createText "there"]

theorem link_wellFormed : link.WellFormed := Tree.WellFormed.empty.perform _

/-- The target is committed, others change the class, and the target is taken away. -/
def retargeted : List Deed :=
  [.stage (.text "there"), .commit, .meanwhile (.setAttribute 0 "class" "loud"), .stage .nothing, .commit,
    .stage (.text "here")]

/-- The part does not go by the target that the link had at first, which would keep the link without one. -/
theorem stays_in_step_link : (Scene.onTree link ()).tree.WellFormed ∧ 0 < (Scene.onTree link ()).tree.size ∧
    (∀ deed ∈ retargeted, deed.Avoids 0 "href") ∧
    ∃ part last changed, (bind 0 "href").runOn (Scene.onTree link ()) = (.ok part, Scene.onTree link ()) ∧
      (performAll retargeted (part, Scene.onTree link ())).2 = last ∧
      last.tree.kindOf 0 = some (.element "a" [("class", "loud")]) ∧
      (performAll retargeted (part, Scene.onTree link ())).1.commit.runOn last =
        ((⟨0, "href", none, some "here"⟩, .ok ()), { last with tree := changed }) ∧
      changed.attribute? 0 "href" = some "here" := by
  have sound : (Scene.onTree link ()).tree.WellFormed := link_wellFormed
  have present : 0 < (Scene.onTree link ()).tree.size := by decide
  have avoids : ∀ deed ∈ retargeted, deed.Avoids 0 "href" := by
    simp [retargeted, Deed.Avoids, Tree.Operation.Avoids]
  obtain ⟨part, bound, -, faithful, -⟩ := stays_in_step sound present "href" retargeted avoids
  cases bound
  have standing : (performAll retargeted (⟨0, "href", none, some "here"⟩, Scene.onTree link ())).2.tree.kindOf 0 =
      some (.element "a" [("class", "loud")]) := by decide
  obtain ⟨changed, done, value⟩ := faithful.text "here" "a" [("class", "loud")] rfl standing
  exact ⟨sound, present, avoids, _, _, changed, rfl, rfl, standing, done, value⟩

end AttributePart

end DomParts
