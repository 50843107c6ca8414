import DomParts.Proofs.Tree.Pair
import DomParts.Proofs.Watch.Aside

/-! # Work that is watched

Somebody watches that work keeps off the nodes set aside for templates, as long as there are not too many nodes. What
each step needs for that is known of the nodes that it works on; then it is known afterwards, too. So one step may
follow the other, and none of them fails because an attribute is misplaced.
-/

namespace DomParts

open Scene RenderM

variable {σ α β : Type}

theorem Error.misplaced_iff {error : Error} : error.Misplaced ↔ ∃ found, error = .host (.expectedElement found) := by
  unfold Misplaced
  grind

namespace Tree

variable {tree : Tree} {parent id : NodeId} {before : Option NodeId} {data : String} {found : Kind}

theorem insertBefore_placed : tree.insertBefore parent id before ≠ .error (.expectedElement found) := by
  intro refused
  unfold insertBefore at refused
  split at refused
  case h_1 known =>
    cases refused
    unfold insertFault? at known
    split at known
    case h_1 behind =>
      cases known
      obtain ⟨other, -, fault⟩ := Option.bind_eq_some_iff.1 behind
      unfold referenceFault? at fault
      grind
    case h_2 => grind
  case h_2 => cases refused

theorem removeChild_placed : tree.removeChild parent id ≠ .error (.expectedElement found) := by
  unfold removeChild
  grind

theorem setText_placed : tree.setText id data ≠ .error (.expectedElement found) := by
  unfold setText changeKind
  grind [Except.map]

theorem overRun_placed {visit : Tree → NodeId → Except HostFault Tree}
    (each : ∀ tree id, visit tree id ≠ .error (.expectedElement found)) {stop first : Option NodeId} {fuel count : Nat} :
    (tree.overRun visit stop fuel first count).1 ≠ .error (.expectedElement found) := by
  induction fuel generalizing tree first count with
  | zero =>
      unfold overRun
      grind
  | succ fuel ih =>
      unfold overRun
      split
      · simp
      · split
        · simp
        · dsimp only
          split
          case h_1 refused =>
            rintro ⟨⟩
            exact each _ _ refused
          case h_2 => exact ih

end Tree

/-- What is watched, how far, and which nodes may be shown on the way. -/
structure Watch (σ : Type) where
  client : Client σ
  shelf : σ → NodeId → Prop
  /-- Nothing is known of scenes with more nodes. -/
  limit : Nat
  guest : NodeId → Prop

namespace Watch

def Early (watch : Watch σ) (scene : Scene σ) : Prop := scene.tree.size ≤ watch.limit

def Outside (watch : Watch σ) (scene : Scene σ) (id : NodeId) : Prop := watch.Early scene → scene.Outside watch.shelf id

/-- Whether nothing is set aside there, where there need not be a node. -/
def Clear (watch : Watch σ) (scene : Scene σ) (id : NodeId) : Prop := watch.Early scene → ¬ Aside watch.shelf scene id

/-- Whether a part for an attribute is that of an element. -/
def Labels (watch : Watch σ) (scene : Scene σ) (part : AttributePart) : Prop :=
  watch.Outside scene part.element ∧ (watch.Early scene → scene.tree.IsElement part.element)

/-- A scene with nothing wrong as far as one can tell. A node to be shown is outside, or does not exist yet. -/
structure Guards (watch : Watch σ) (scene : Scene σ) : Prop where
  wellFormed : scene.tree.WellFormed
  guarded : watch.Early scene → scene.Guarded watch.client watch.shelf
  guests : ∀ id, watch.guest id → id < watch.limit → watch.Outside scene id

/-- What every step does. -/
structure Keeps (watch : Watch σ) (before after : Scene σ) : Prop where
  guards : watch.Guards after
  size_le : before.tree.size ≤ after.tree.size
  minds : watch.Early after → before.Minds watch.shelf after

/-- What a computation does, and what is true of its result. -/
def Heeds (watch : Watch σ) (act : RenderM σ α) (scene : Scene σ) (good : α → Scene σ → Prop) : Prop :=
  act.Leads scene (fun value after => watch.Keeps scene after ∧ good value after)
    fun error after => watch.Keeps scene after ∧ (watch.Early after → ¬ error.Misplaced)

variable {watch : Watch σ} {before between after scene : Scene σ} {id : NodeId}

theorem Outside.clear (outside : watch.Outside scene id) : watch.Clear scene id := fun early => (outside early).2

theorem Keeps.early (keeps : watch.Keeps before after) (early : watch.Early after) : watch.Early before :=
  Nat.le_trans keeps.size_le early

theorem Keeps.trans (one : watch.Keeps before between) (two : watch.Keeps between after) : watch.Keeps before after where
  guards := two.guards
  size_le := Nat.le_trans one.size_le two.size_le
  minds early := by
    have first := one.minds (two.early early)
    have second := two.minds early
    refine ⟨fun id old => ?_, fun id element => second.elements id (first.elements id element)⟩
    exact (second.aside id (Nat.lt_of_lt_of_le old one.size_le)).trans (first.aside id old)

theorem outside_kept (size_le : before.tree.size ≤ after.tree.size)
    (minds : watch.Early after → before.Minds watch.shelf after) (outside : watch.Outside before id) :
    watch.Outside after id := by
  intro early
  obtain ⟨present, off⟩ := outside (Nat.le_trans size_le early)
  exact ⟨Nat.lt_of_lt_of_le present size_le, fun aside => off (((minds early).aside id present).1 aside)⟩

theorem Keeps.outside (keeps : watch.Keeps before after) (outside : watch.Outside before id) : watch.Outside after id :=
  outside_kept keeps.size_le keeps.minds outside

theorem Keeps.labels (keeps : watch.Keeps before after) {part : AttributePart} (labels : watch.Labels before part) :
    watch.Labels after part :=
  ⟨keeps.outside labels.1, fun early => (keeps.minds early).elements _ (labels.2 (keeps.early early))⟩

namespace Guards

variable (guards : watch.Guards scene)
include guards

theorem keeps (wellFormed : after.tree.WellFormed) (size_le : scene.tree.size ≤ after.tree.size)
    (minds : watch.Early after → scene.Guarded watch.client watch.shelf →
      after.Guarded watch.client watch.shelf ∧ scene.Minds watch.shelf after) : watch.Keeps scene after := by
  have known : watch.Early after → after.Guarded watch.client watch.shelf ∧ scene.Minds watch.shelf after :=
    fun early => minds early (guards.guarded (Nat.le_trans size_le early))
  have minds : watch.Early after → scene.Minds watch.shelf after := fun early => (known early).2
  have guests : ∀ id, watch.guest id → id < watch.limit → watch.Outside after id :=
    fun id guest within => outside_kept size_le minds (guards.guests id guest within)
  exact ⟨⟨wellFormed, fun early => (known early).1, guests⟩, size_le, minds⟩

theorem skirted (wellFormed : after.tree.WellFormed) (size_le : scene.tree.size ≤ after.tree.size)
    (skirts : watch.Early scene → scene.Guarded watch.client watch.shelf → scene.Skirts watch.shelf after) :
    watch.Keeps scene after :=
  guards.keeps wellFormed size_le fun early guarded =>
    (guarded.skirted (skirts (Nat.le_trans size_le early) guarded)).imp_right And.left

theorem skirted_clear (size_le : scene.tree.size ≤ after.tree.size)
    (skirts : watch.Early scene → scene.Guarded watch.client watch.shelf → scene.Skirts watch.shelf after)
    (clear : watch.Clear scene id) : watch.Clear after id := by
  intro early aside
  have early : watch.Early scene := Nat.le_trans size_le early
  have guarded := guards.guarded early
  exact clear early (((guarded.skirted (skirts early guarded)).2.2 id).1 aside)

theorem same (tree : after.tree = scene.tree) (cache : after.cache = scene.cache) (memory : after.memory = scene.memory) :
    watch.Keeps scene after :=
  guards.skirted (tree ▸ guards.wellFormed) (Nat.le_of_eq (congrArg Tree.size tree.symm)) fun _ _ =>
    ⟨by rw [tree]; exact .refl guards.wellFormed, cache, fun _ => memory ▸ Iff.rfl⟩

theorem refl : watch.Keeps scene scene := guards.same rfl rfl rfl

/-- Whatever a fence leaves alone leaves what is set aside alone, since it is fenced in. -/
theorem worked {tree : Tree} (works : ∀ fence : NodeId → Prop, scene.tree.Fenced fence →
      (∀ id, watch.Clear scene id → ¬ fence id) → scene.tree.Skirts fence tree) :
    watch.Keeps scene { scene with tree } ∧ ∀ id, watch.Clear scene id → watch.Clear { scene with tree } id := by
  have anyway := works (fun _ => False) (.nowhere guards.wellFormed) fun _ _ => id
  have skirts : watch.Early scene → scene.Guarded watch.client watch.shelf → scene.Skirts watch.shelf { scene with tree } :=
    fun early guarded => ⟨works _ guarded.aside fun _ clear => clear early, rfl, fun _ => Iff.rfl⟩
  exact ⟨guards.skirted anyway.wellFormed anyway.size_le skirts, fun _ => guards.skirted_clear anyway.size_le skirts⟩

theorem clear (guest : watch.guest id) : watch.Clear scene id := by
  intro early aside
  have present := (guards.guarded early).orderly.aside_exists aside
  exact (guards.guests id guest (Nat.lt_of_lt_of_le present early) early).2 aside

theorem outside_parent {parent : NodeId} (outside : watch.Outside scene id) (above : scene.tree.parentOf id = some parent) :
    watch.Outside scene parent := fun early => (guards.guarded early).aside.outside_parent (outside early).2 above

theorem outside_sibling {other : NodeId} (outside : watch.Outside scene id)
    (follows : scene.tree.nextSibling id = some other) : watch.Outside scene other :=
  fun early => (guards.guarded early).aside.outside_sibling (outside early).2 follows

end Guards

namespace Heeds

variable {act : RenderM σ α} {next : α → RenderM σ β} {good weaker : α → Scene σ → Prop} {further : β → Scene σ → Prop}

theorem mono (heeds : watch.Heeds act scene good)
    (onward : ∀ value after, watch.Keeps scene after → good value after → weaker value after) :
    watch.Heeds act scene weaker :=
  Leads.imp heeds fun value after done => ⟨done.1, onward value after done.1 done.2⟩

theorem done (heeds : watch.Heeds act scene good) : watch.Heeds act scene fun _ _ => True :=
  heeds.mono fun _ _ _ _ => trivial

theorem bind (first : watch.Heeds act scene good)
    (rest : ∀ value after, watch.Keeps scene after → good value after → watch.Heeds (next value) after further) :
    watch.Heeds (act >>= next) scene further := by
  unfold Heeds
  rw [leads_bind]
  apply Leads.imp first
  rintro value between ⟨keeps, here⟩
  exact Leads.mono (rest value between keeps here) (fun _ _ done => ⟨keeps.trans done.1, done.2⟩)
    fun _ _ done => ⟨keeps.trans done.1, done.2⟩

/-- Nothing more is done when the result is put together. -/
theorem map (heeds : watch.Heeds act scene good) {result : α → β}
    (onward : ∀ value after, watch.Keeps scene after → good value after → further (result value) after) :
    watch.Heeds (act >>= fun value => pure (result value)) scene further :=
  heeds.bind fun value after keeps here => ⟨keeps.guards.refl, onward value after keeps here⟩

end Heeds

section Steps

variable {good : α → Scene σ → Prop} (guards : watch.Guards scene)
include guards

theorem heeds_pure {value : α} (here : good value scene) : watch.Heeds (pure value) scene good := ⟨guards.refl, here⟩

theorem heeds_throw {error : Error} (placed : ¬ error.Misplaced) : watch.Heeds (throw error) scene good :=
  ⟨guards.refl, fun _ => placed⟩

theorem heeds_note (event : Event) : watch.Heeds (note event) scene fun _ after => after.tree = scene.tree :=
  ⟨guards.same rfl rfl rfl, rfl⟩

theorem heeds_look (view : Tree → α) :
    watch.Heeds (look view) scene fun value after => value = view scene.tree ∧ scene = after :=
  ⟨guards.refl, rfl, rfl⟩

theorem heeds_require {error : Error} (placed : ¬ error.Misplaced) (found : Option α) :
    watch.Heeds (require error found) scene fun value after => found = some value ∧ scene = after := by
  unfold Heeds
  rw [leads_require]
  cases found with
  | none => exact ⟨guards.refl, fun _ => placed⟩
  | some value => exact ⟨guards.refl, rfl, rfl⟩

theorem heeds_edit {change : Tree → Except HostFault Tree} (placed : watch.Early scene → ∀ found,
      change scene.tree ≠ .error (.expectedElement found))
    (works : ∀ {tree}, change scene.tree = .ok tree → ∀ fence : NodeId → Prop, scene.tree.Fenced fence →
      (∀ id, watch.Clear scene id → ¬ fence id) → scene.tree.Skirts fence tree) :
    watch.Heeds (edit change) scene fun _ after => ∀ id, watch.Clear scene id → watch.Clear after id := by
  unfold Heeds
  rw [leads_edit]
  cases done : change scene.tree with
  | error fault =>
      refine ⟨guards.refl, fun early misplaced => ?_⟩
      obtain ⟨found, ⟨⟩⟩ := Error.misplaced_iff.1 misplaced
      exact placed early found done
  | ok tree => exact guards.worked (works done)

theorem heeds_editInSteps {change : Tree → Except HostFault α × Tree}
    (placed : ∀ found, (change scene.tree).1 ≠ .error (.expectedElement found))
    (works : ∀ fence : NodeId → Prop, scene.tree.Fenced fence → (∀ id, watch.Clear scene id → ¬ fence id) →
      scene.tree.Skirts fence (change scene.tree).2) : watch.Heeds (editInSteps change) scene fun _ _ => True := by
  have keeps := (guards.worked works).1
  unfold Heeds
  rw [leads_editInSteps]
  rcases ran : change scene.tree with ⟨fault | value, tree⟩ <;> rw [ran] at keeps placed
  · refine ⟨keeps, fun _ misplaced => ?_⟩
    obtain ⟨found, ⟨⟩⟩ := Error.misplaced_iff.1 misplaced
    exact placed found rfl
  · exact ⟨keeps, trivial⟩

theorem heeds_insert {parent : NodeId} (before : Option NodeId) (into : watch.Clear scene parent)
    (clear : watch.Clear scene id) : watch.Heeds (insert parent id before) scene
      fun _ after => ∀ other, watch.Clear scene other → watch.Clear after other := by
  refine heeds_edit guards (fun _ _ => Tree.insertBefore_placed) fun done fence fenced off => ?_
  exact fenced.insertBefore (off parent into) (off id clear) done

theorem heeds_removeChild {parent : NodeId} (off : watch.Clear scene parent) :
    watch.Heeds (edit (·.removeChild parent id)) scene fun _ _ => True := by
  refine (heeds_edit guards (fun _ _ => Tree.removeChild_placed) fun done fence fenced clear => ?_).done
  exact fenced.removeChild (clear parent off) done

theorem heeds_setText {data : String} (clear : watch.Clear scene id) :
    watch.Heeds (edit (·.setText id data)) scene fun _ _ => True := by
  refine (heeds_edit guards (fun _ _ => Tree.setText_placed) fun done fence fenced off => ?_).done
  exact fenced.setText (off id clear) done

theorem heeds_changeAttributes {part : AttributePart} {change : Attributes → Attributes} (labels : watch.Labels scene part)
    (named : ∀ attributes : Attributes, (attributes.map (·.1)).Nodup → ((change attributes).map (·.1)).Nodup) :
    watch.Heeds (edit (·.changeAttributes part.element change)) scene fun _ _ => True := by
  refine (heeds_edit guards (fun early found refused => ?_) fun done fence fenced off => ?_).done
  · obtain ⟨tree, done⟩ := (labels.2 early).changeAttributes change
    cases refused.symm.trans done
  · exact fenced.changeAttributes (off _ labels.1.clear) named done

theorem heeds_moveRun {container start : NodeId} (stop before : Option NodeId) (into : watch.Clear scene container)
    (here : watch.Clear scene start) : watch.Heeds (moveRun container start stop before) scene fun _ _ => True := by
  have moves : watch.Heeds (editInSteps (·.moveRun container start stop before)) scene fun _ _ => True := by
    refine heeds_editInSteps guards (fun _ => Tree.overRun_placed fun _ _ => Tree.insertBefore_placed)
      fun fence fenced off => ?_
    exact fenced.moveRun (off _ into) (off _ here)
  exact moves.bind fun _ _ keeps _ => (heeds_note keeps.guards _).map fun _ _ _ _ => trivial

theorem heeds_removeRun {container start : NodeId} (stop : Option NodeId) (off : watch.Clear scene container)
    (here : watch.Clear scene start) : watch.Heeds (removeRun container start stop) scene fun _ _ => True := by
  have removes : watch.Heeds (editInSteps (·.removeRun container start stop)) scene fun _ _ => True := by
    refine heeds_editInSteps guards (fun _ => Tree.overRun_placed fun _ _ => Tree.removeChild_placed)
      fun fence fenced clear => ?_
    exact fenced.removeRun (clear _ off) (clear _ here)
  exact removes.bind fun _ _ keeps _ => (heeds_note keeps.guards _).map fun _ _ _ _ => trivial

theorem clear_new (new : scene.tree.size ≤ id) : watch.Clear scene id := fun early aside =>
  Nat.not_lt.2 new ((guards.guarded early).orderly.aside_exists aside)

theorem grown (wellFormed : after.tree.WellFormed) (extended : scene.tree.Extends after.tree)
    (cache : after.cache = scene.cache) (memory : after.memory = scene.memory) :
    watch.Keeps scene after ∧ ∀ id, watch.Clear scene id → watch.Clear after id := by
  have skirts : watch.Early scene → scene.Guarded watch.client watch.shelf → scene.Skirts watch.shelf after :=
    fun _ guarded => ⟨guarded.aside.extended wellFormed extended, cache, fun _ => memory ▸ Iff.rfl⟩
  exact ⟨guards.skirted wellFormed extended.size_le skirts, fun _ => guards.skirted_clear extended.size_le skirts⟩

theorem heeds_create {kind : Kind} (named : kind.attributeNames.Nodup) :
    watch.Heeds (create kind) scene fun id after =>
      watch.Outside after id ∧ ∀ other, watch.Clear scene other → watch.Clear after other := by
  let after : Scene σ := { scene with tree := (scene.tree.create kind).2 }
  obtain ⟨keeps, clear⟩ : watch.Keeps scene after ∧ ∀ id, watch.Clear scene id → watch.Clear after id :=
    grown guards (guards.wellFormed.create named) (scene.tree.extends_create kind) rfl rfl
  have present : (scene.tree.create kind).2.size > scene.tree.size := by simp
  exact ⟨keeps, fun early => ⟨present, clear _ (clear_new guards (Nat.le_refl _)) early⟩, clear⟩

end Steps

end Watch

end DomParts
