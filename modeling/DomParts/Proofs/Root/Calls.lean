import DomParts.Proofs.Root.Undisturbed
import DomParts.Proofs.Tree.Operations
import DomParts.Proofs.Twins.Values

/-! # Calls

A caller makes nodes, puts roots into containers, renders values into them and clears them. It makes no difference
to the caller whether its lists go by position or by keys that are the positions: call by call, both end the same
way and leave the same tree, even where rendering fails halfway.
-/

namespace DomParts

open Layout RenderM

variable {σ α β γ δ : Type} {client : Client σ} {stage other : Stage σ}

/-- What a caller does between renders, and what it asks of its roots. -/
inductive Call where
  /-- Makes nodes, and says which nodes values may show from now on. -/
  | make (change : Tree → Tree) (guest : NodeId → Prop)
  /-- Puts a root at the end of a container. -/
  | mount (container : NodeId)
  /-- Renders a value into one of the roots, which are numbered as they came. -/
  | render (position : Nat) (value : Value)
  /-- Clears one of the roots. -/
  | clear (position : Nat)

/-- The call with positions for keys in place of each list by position. -/
def Call.indexed : Call → Call
  | .render position value => .render position value.indexed
  | call => call

/-- What a call has to respect. A value may go by any keys but positions. -/
def Call.Proper (stage : Stage σ) : Call → Prop
  | .make change guest => (change stage.scene.tree).WellFormed ∧ stage.scene.tree.Extends (change stage.scene.tree) ∧
      Invited (change stage.scene.tree) guest ∧ ∀ id, stage.scene.tree.size > id → (guest id ↔ stage.guest id)
  | .mount container => stage.made container ∧ ¬ stage.guest container
  | .render _ value => stage.Allows value ∧ value.Named
  | .clear _ => True

namespace Stage

/-- A tree before anything was rendered, with the nodes that values may show. -/
def start (tree : Tree) (memory : σ) (guest : NodeId → Prop) : Stage σ :=
  ⟨.onTree tree memory, [], fun id => tree.size > id, guest⟩

/-- Asks something of one of the roots, if it is there. -/
def ask (stage : Stage σ) (position : Nat) (act : Root → Attempt σ Root) : Except Error Unit × Stage σ :=
  match stage.parts[position]? with
  | none => (.ok (), stage)
  | some part =>
      match (act ⟨part⟩).runOn stage.scene with
      | ((root, result), scene) => (result, { stage with scene, parts := stage.parts.set position root.part })

def perform (client : Client σ) (stage : Stage σ) : Call → Except Error Unit × Stage σ
  | .make change guest =>
      let tree := change stage.scene.tree
      (.ok (), ⟨{ stage.scene with tree }, stage.parts,
        fun id => stage.made id ∨ stage.scene.tree.size ≤ id ∧ tree.size > id, guest⟩)
  | .mount container =>
      match (Root.create container).runOn stage.scene with
      | (.ok root, scene) => (.ok (), { stage with scene, parts := stage.parts ++ [root.part] })
      | (.error error, scene) => (.error error, { stage with scene })
  | .render position value => stage.ask position (Root.render client value)
  | .clear position => stage.ask position Root.clear

/-- How the calls end, one after the other, and the stage after the last of them. -/
def run (client : Client σ) (stage : Stage σ) : List Call → List (Except Error Unit) × Stage σ
  | [] => ([], stage)
  | call :: calls =>
      let (result, next) := stage.perform client call
      let (results, last) := next.run client calls
      (result :: results, last)

/-- Each call respects what it has to when its turn comes, and none commits a list in an attribute part. -/
def Proper (client : Client σ) (stage : Stage σ) : List Call → Prop
  | [] => True
  | call :: calls => call.Proper stage ∧ ¬ (stage.perform client call).2.scene.Misfit ∧
      (stage.perform client call).2.Proper client calls

/-- Two stages with the same tree, templates and memory, and with parts that look the same. -/
structure Twin (stage other : Stage σ) : Prop where
  scene : stage.scene.Same other.scene
  parts : List.Forall₂ NodePart.Twin stage.parts other.parts

end Stage

/-- What is before one of the roots and what is behind it stays when the root is replaced. -/
theorem split_at {parts : List NodePart} {position : Nat} {part : NodePart} (found : parts[position]? = some part) :
    ∃ left right, parts = left ++ part :: right ∧ ∀ new, parts.set position new = left ++ new :: right := by
  obtain ⟨inside, rfl⟩ := List.getElem?_eq_some_iff.1 found
  refine ⟨parts.take position, parts.drop (position + 1), by simp, fun new => ?_⟩
  rw [List.set_eq_take_append_cons_drop, if_pos inside]

namespace Reached

section Ready

variable (regular : client.Regular) (reached : Reached client stage)
include regular reached

theorem create_ran {container : NodeId} (made : stage.made container) (own : ¬ stage.guest container) :
    ∃ root scene, (Root.create container).runOn stage.scene = (.ok root, scene) ∧ root.part.content = .empty := by
  obtain ⟨kept, lots, stands⟩ := reached.stands regular
  have leads : (Root.create container).Leads stage.scene (fun root _ => root.part.content = .empty)
      fun _ _ => False := by
    simp only [Root.create, leads_bind, leads_note, leads_pure]
    refine (stands.standing.append (regular_lawful regular _) made own noSlack).imp ?_
    rintro _ _ ⟨rfl, -⟩
    rfl
  exact leads.ran

theorem ready {part : NodePart} (member : part ∈ stage.parts) {value : Value} (allows : stage.Allows value) :
    part.isPoisoned = true ∨ (regularRealm client stage.guest).Ready stage.scene part value.leaves := by
  obtain ⟨kept, lots, stands⟩ := reached.stands regular
  obtain ⟨lot, listed, rfl⟩ := stands.lot member
  obtain ⟨front, rest, site⟩ := stands.standing.sites lot listed
  exact (stands.standing.shown lot listed).imp_right fun shows =>
    ⟨kept, lot.container, front, rest, lot.plot, lot.slack, rfl, stands.standing.sound, ⟨site, shows⟩, allows⟩

theorem perform {call : Call} (proper : call.Proper stage) : Reached client (stage.perform client call).2 := by
  cases call with
  | make change guest =>
      obtain ⟨wellFormed, extended, invited, old⟩ := proper
      exact reached.grown wellFormed extended invited old
  | mount container =>
      obtain ⟨made, own⟩ := proper
      obtain ⟨root, scene, ran, -⟩ := reached.create_ran regular made own
      simp only [Stage.perform, ran]
      exact reached.rooted made own ran
  | render position value =>
      simp only [Stage.perform, Stage.ask]
      cases found : stage.parts[position]? with
      | none => exact reached
      | some part =>
          obtain ⟨left, right, split, set⟩ := split_at found
          simp only [set]
          exact reached.rendered left right split proper.1
  | clear position =>
      simp only [Stage.perform, Stage.ask]
      cases found : stage.parts[position]? with
      | none => exact reached
      | some part =>
          obtain ⟨left, right, split, set⟩ := split_at found
          simp only [set]
          exact reached.cleared split

end Ready

end Reached

namespace Attempt

/-- Both attempts end the same way and leave things that belong together, unless a list was committed in an
    attribute part: then the faults may differ. -/
def Mirrors (one : Attempt σ α) (two : Attempt σ β) (scene scene' : Scene σ) (shows : α → β → Prop) : Prop :=
  (one.runOn scene).2.Same (two.runOn scene').2 ∧ shows (one.runOn scene).1.1 (two.runOn scene').1.1 ∧
    ((two.runOn scene').1.2 = (one.runOn scene).1.2 ∨ (one.runOn scene).2.Misfit)

variable {scene scene' : Scene σ} {shows : α → β → Prop} {further : γ → δ → Prop}

theorem carry_mirrors {act : RenderM σ α} {act' : RenderM σ β} (mirrors : act.Mirrors act' scene scene' shows)
    {kept : α → γ} {kept' : β → δ} {broken : γ} {broken' : δ}
    (onward : ∀ left right, shows left right → further (kept left) (kept' right)) (fallback : further broken broken') :
    (carry act kept broken).Mirrors (carry act' kept' broken') scene scene' further := by
  rcases mirrors.ends with ⟨left, after, right, last, ran, ran', same, shown⟩ |
    ⟨error, after, fault, last, ran, ran', same, cause⟩
  · simp only [Mirrors, runOn, carry, ran, ran']
    exact ⟨same, onward _ _ shown, .inl trivial⟩
  · simp only [Mirrors, runOn, carry, ran, ran']
    exact ⟨same, fallback, cause.imp_left (congrArg Except.error)⟩

end Attempt

namespace NodePart

variable {part part' : NodePart} {scene scene' : Scene σ} {value : Value}

theorem clear_mirrors (twin : part.Twin part') (same : scene.Same scene') :
    part.clear.Mirrors part'.clear scene scene' Twin := by
  have emptied : ({ part with content := .empty } : NodePart).Twin { part' with content := .empty } :=
    ⟨twin.start, twin.stop, .empty⟩
  have removed := blind_removeContent { part with content := .empty } scene scene' same
  rw [clear, clear, emptied.removeContent_eq]
  exact Attempt.carry_mirrors removed (fun _ _ _ => emptied) emptied

/-- A poisoned part refuses a value, and so does its twin. -/
theorem commit_mirrors (regular : client.Regular) (bare : client.hook? = none) {guest : NodeId → Prop}
    (named : value.Named) (twin : part.Twin part') (same : scene.Same scene')
    (ready : part.isPoisoned = true ∨ (regularRealm client guest).Ready scene part value.leaves) :
    ((part.stage value).commit client).Mirrors ((part'.stage value.indexed).commit client) scene scene' Twin := by
  rcases ready with poisoned | ready
  · have poisoned' : (part'.stage value.indexed).isPoisoned = true := twin.isPoisoned_eq.trans poisoned
    have poisoned : (part.stage value).isPoisoned = true := poisoned
    rw [commit_of_poisoned rfl poisoned, commit_of_poisoned rfl poisoned']
    exact ⟨same, ⟨twin.start, twin.stop, twin.content⟩, .inl rfl⟩
  · have usable' : (part'.stage value.indexed).isPoisoned = false := twin.isPoisoned_eq.trans ready.usable
    have usable : (part.stage value).isPoisoned = false := ready.usable
    have twin' : ({ part with pending := none } : NodePart).Twin { part' with pending := none } :=
      ⟨twin.start, twin.stop, twin.content⟩
    rw [commit_of_usable rfl usable, commit_of_usable rfl usable']
    have rendered := Realm.twins_value (regular_lawful regular guest) bare value named (ready.restage none) twin' same
    exact Attempt.carry_mirrors (attend_mirrors rendered) (fun _ _ shown => ⟨twin.start, twin.stop, shown⟩)
      ⟨twin.start, twin.stop, .poisoned⟩

end NodePart

theorem Root.blind_create (container : NodeId) : (Root.create container : RenderM σ Root).Blind :=
  (NodePart.blind_insertInto container none).bind fun _ => (blind_note _).bind fun _ => blind_pure _

namespace Stage.Twin

variable (twin : stage.Twin other)
include twin

theorem ask {act act' : Root → Attempt σ Root} (position : Nat)
    (mirrors : ∀ part part', part ∈ stage.parts → part.Twin part' →
      (act ⟨part⟩).Mirrors (act' ⟨part'⟩) stage.scene other.scene fun root root' => root.part.Twin root'.part)
    (fits : ¬ (stage.ask position act).2.scene.Misfit) :
    (other.ask position act').1 = (stage.ask position act).1 ∧
      (stage.ask position act).2.Twin (other.ask position act').2 := by
  unfold Stage.ask at fits ⊢
  rcases same_place twin.parts position with ⟨none, none'⟩ | ⟨part, part', found, found', here⟩
  · simp only [none, none']
    exact ⟨trivial, twin⟩
  · simp only [found, found'] at fits ⊢
    obtain ⟨same, shown, ended⟩ := mirrors part part' (List.mem_of_getElem? found) here
    exact ⟨ended.resolve_right fits, same, forall₂_set twin.parts position shown⟩

theorem perform (regular : client.Regular) (bare : client.hook? = none) (reached : Reached client stage) {call : Call}
    (proper : call.Proper stage) (fits : ¬ (stage.perform client call).2.scene.Misfit) :
    (other.perform client call.indexed).1 = (stage.perform client call).1 ∧
      (stage.perform client call).2.Twin (other.perform client call.indexed).2 := by
  obtain ⟨same, parts⟩ := twin
  cases call with
  | make change guest =>
      exact ⟨rfl, ⟨congrArg change same.tree, same.cache, same.memory⟩, parts⟩
  | mount container =>
      obtain ⟨root, scene, created, empty⟩ := reached.create_ran regular proper.1 proper.2
      rcases (Root.blind_create container _ _ same).ends with ⟨left, after, right, last, ran, ran', same, rfl⟩ |
        ⟨error, after, fault, last, ran, ran', same, cause⟩
      · cases created.symm.trans ran
        simp only [Call.indexed, Stage.perform, ran, ran']
        exact ⟨trivial, same, List.rel_append parts (.cons (.of_empty empty) .nil)⟩
      · cases created.symm.trans ran
  | render position value =>
      exact ask ⟨same, parts⟩ position (fun part part' member here =>
        NodePart.commit_mirrors regular bare proper.2 here same (reached.ready regular member proper.1)) fits
  | clear position =>
      exact ask ⟨same, parts⟩ position (fun part part' _ here => NodePart.clear_mirrors here same) fits

theorem run (regular : client.Regular) (bare : client.hook? = none) (reached : Reached client stage) {calls : List Call}
    (proper : stage.Proper client calls) :
    (other.run client (calls.map Call.indexed)).1 = (stage.run client calls).1 ∧
      (stage.run client calls).2.Twin (other.run client (calls.map Call.indexed)).2 := by
  induction calls generalizing stage other with
  | nil => exact ⟨rfl, twin⟩
  | cons call calls ih =>
      obtain ⟨here, fits, later⟩ := proper
      obtain ⟨result, next⟩ := twin.perform regular bare reached here fits
      obtain ⟨results, last⟩ := ih next (reached.perform regular here) later
      simp only [List.map_cons, Stage.run, result, results]
      exact ⟨trivial, last⟩

end Stage.Twin

/-- Without a removal hook, it makes no difference to any call whether lists go by position or by keys that are the
    positions: each ends the same way and leaves the same tree, templates and memory, and the roots look the same. -/
theorem Stage.run_indexed (regular : client.Regular) (bare : client.hook? = none) {tree : Tree} (memory : σ)
    {guest : NodeId → Prop} (wellFormed : tree.WellFormed) (invited : Invited tree guest) {calls : List Call}
    (proper : (start tree memory guest).Proper client calls) :
    ((start tree memory guest).run client (calls.map Call.indexed)).1 = ((start tree memory guest).run client calls).1 ∧
      ((start tree memory guest).run client calls).2.Twin
        ((start tree memory guest).run client (calls.map Call.indexed)).2 :=
  Twin.run ⟨.refl _, .nil⟩ regular bare (.fresh wellFormed invited) proper

namespace Root.Example

/-- A body, and a fragment with a paragraph and a marker in it. -/
def sheet : Tree := .perform .empty [.createElement "body", .createFragment, .createElement "p", .createComment "",
  .appendChild 1 2, .appendChild 1 3]

/-- A client that knows one template: the class of the paragraph, and content after it. -/
def patterned : Client Unit := ⟨fun _ _ => pure (.ok ⟨1, [.attribute 0 "class", .node 1]⟩), none⟩

def blank : Stage Unit := .start sheet () fun _ => False

def paragraph (values : List Value) : Value := .template .html ⟨0, ["<p class=", ">", ""]⟩ values

/-- A list grows, and fails halfway for want of a value. The root refuses another value until it is cleared, and then
    shows lists in a list, fewer of them, and no list. -/
def lists : List Call :=
  [.mount 0, .render 0 (.list [.text "a"]),
    .render 0 (.list [.text "b", paragraph [.text "c", .list [.text "d", .nothing]], paragraph [.text "e"], .text "f"]),
    .render 0 .nothing, .clear 0,
    .render 0 (.list [paragraph [.text "g", .list [.text "h"]], .keyed [(.int 1, .list [.text "i", .text "j"])]]),
    .render 0 (.list [paragraph [.nothing, .text "k"]]), .render 0 (.text "l")]

theorem patterned_regular : patterned.Regular where
  grows _ _ _ tree wellFormed := ⟨wellFormed, .refl tree⟩
  separate := by
    rintro _ _ _ _ ⟨⟩
    decide
  thinks _ := nofun

theorem lists_proper : blank.Proper patterned lists := by
  have allowed : ∀ (stage : Stage Unit) {value : Value}, value.leaves = [] → stage.Allows value :=
    fun stage value none id leaf => by
      rw [none] at leaf
      cases leaf
  have named : ∀ {value : Value}, value.keys = [] → value.Named := fun none key member => by
    rw [none] at member
    cases member
  refine ⟨⟨show 0 < sheet.size by decide, not_false⟩, by decide +kernel, ⟨allowed _ rfl, named rfl⟩, by decide +kernel,
    ⟨allowed _ rfl, named rfl⟩, by decide +kernel, ⟨allowed _ rfl, named rfl⟩, by decide +kernel, trivial,
    by decide +kernel, ⟨allowed _ rfl, ?_⟩, by decide +kernel, ⟨allowed _ rfl, named rfl⟩, by decide +kernel,
    ⟨allowed _ rfl, named rfl⟩, by decide +kernel, trivial⟩
  rintro key member position rfl
  cases List.mem_singleton.1 member

end Root.Example

open Root.Example in
/-- The third of the calls fails in the middle of a list, and the next one is refused. -/
theorem Stage.run_indexed_lists : patterned.Regular ∧ patterned.hook? = none ∧ sheet.WellFormed ∧
    Invited sheet (fun _ => False) ∧ blank.Proper patterned lists ∧
    (blank.run patterned lists).1 = [.ok (), .ok (), .error (.template (.valueCount 2 1)), .error .poisoned,
      .ok (), .ok (), .ok (), .ok ()] ∧
    (blank.run patterned (lists.map Call.indexed)).1 = (blank.run patterned lists).1 ∧
    (blank.run patterned lists).2.Twin (blank.run patterned (lists.map Call.indexed)).2 := by
  have wellFormed : sheet.WellFormed := Tree.WellFormed.empty.perform _
  have invited : Invited sheet (fun _ => False) := ⟨fun _ none => none.elim, fun _ _ none => none.elim⟩
  exact ⟨patterned_regular, rfl, wellFormed, invited, lists_proper, by decide +kernel,
    Stage.run_indexed patterned_regular rfl () wellFormed invited lists_proper⟩

end DomParts
