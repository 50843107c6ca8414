import DomParts.Proofs.Picture.Reading
import DomParts.Proofs.Renaming.Edit
import DomParts.Proofs.Render.Concern
import DomParts.Proofs.Render.Templates

/-! # Computations on scenes with other texts

Two computations on scenes that are the same but for texts, where the second one is given other keys and texts.
They follow each other if they end the same way, with the same error if they fail, and leave scenes that are the
same but for texts. One computation followed by another is dealt with step by step.
-/

namespace DomParts

open RenderM

variable {σ α β γ δ : Type} {r : Renaming} {count : Nat} {scene other : Scene σ}

/-- An attribute was to be changed on what is no element, where no template should have a slot for one. -/
def Error.Misplaced : Error → Prop
  | .host (.expectedElement _) => True
  | _ => False

instance : DecidablePred Error.Misplaced := fun error => by
  unfold Error.Misplaced
  split <;> infer_instance

/-- No attribute of an element has two slots of the template. -/
def Template.Tidy (template : Template) : Prop := (template.slots.filterMap Slot.attribute?).Nodup

/-- Scenes that are the same but for texts in the tree. -/
structure Scene.Renamed (r : Renaming) (scene other : Scene σ) : Prop where
  tree : scene.tree.Renamed r other.tree
  cache : other.cache = scene.cache
  memory : other.memory = scene.memory
  report : other.report = scene.report

/-- Two such scenes in good order. -/
structure Scene.Paired (r : Renaming) (scene other : Scene σ) : Prop where
  renamed : scene.Renamed r other
  wellFormed : scene.tree.WellFormed
  templates : scene.cache.All fun shared => shared.template.Tidy

/-- What two computations on such scenes come to. -/
structure Scene.Changes (r : Renaming) (count : Nat) (scene other after last : Scene σ) : Prop where
  paired : after.Paired r last
  left : scene.tree.Spares count after.tree
  right : other.tree.Spares count last.tree

namespace Scene

variable {after last next next' : Scene σ}

namespace Paired

variable (paired : scene.Paired r other)
include paired

theorem refl : Changes r count scene other scene other := ⟨paired, .refl _, .refl _⟩

theorem size_eq : other.tree.size = scene.tree.size := paired.renamed.tree.size

theorem other_wellFormed : other.tree.WellFormed := paired.renamed.tree.wellFormed paired.wellFormed

theorem add (event : Event) : Changes r count scene other (scene.add event) (other.add event) := by
  obtain ⟨⟨tree, cache, memory, report⟩, wellFormed, templates⟩ := paired
  exact ⟨⟨⟨tree, cache, memory, by rw [Scene.add, Scene.add, report]⟩, wellFormed, templates⟩, .refl _, .refl _⟩

theorem withTrees {tree tree' : Tree} (changes : Tree.Changes r count scene.tree other.tree tree tree') :
    Changes r count scene other { scene with tree } { other with tree := tree' } := by
  obtain ⟨⟨-, cache, memory, report⟩, -, templates⟩ := paired
  exact ⟨⟨⟨changes.renamed, cache, memory, report⟩, changes.wellFormed, templates⟩, changes.left, changes.right⟩

end Paired

theorem Changes.trans (one : Changes r count scene other after last) (two : Changes r count after last next next') :
    Changes r count scene other next next' := ⟨two.paired, one.left.trans two.left, one.right.trans two.right⟩

theorem Changes.mono {fewer : Nat} (changes : Changes r count scene other after last) (le : fewer ≤ count) :
    Changes r fewer scene other after last := ⟨changes.paired, changes.left.mono le, changes.right.mono le⟩

end Scene

namespace RenderM

/-- Both computations go well, with results that belong together, or both fail with the same error. Either way they
    leave scenes that are the same but for texts, and leave the attributes of the first `count` nodes alone. Nothing
    is said of an attribute that is misplaced. -/
def Follows (r : Renaming) (count : Nat) (one : RenderM σ α) (two : RenderM σ β) (scene other : Scene σ)
    (shows : α → β → Prop) : Prop :=
  one.Leads scene
    (fun left after => two.Leads other
      (fun right last => Scene.Changes r count scene other after last ∧ shows left right) fun _ _ => False)
    fun error after => ¬ error.Misplaced → two.Leads other (fun _ _ => False)
      fun fault last => Scene.Changes r count scene other after last ∧ fault = error

/-- The computations follow each other on all scenes that are the same but for texts. -/
def Alike (r : Renaming) (count : Nat) (one : RenderM σ α) (two : RenderM σ β) (shows : α → β → Prop) : Prop :=
  ∀ scene other : Scene σ, scene.Paired r other → count ≤ scene.tree.size → one.Follows r count two scene other shows

variable {one : RenderM σ α} {two : RenderM σ β} {next : α → RenderM σ γ} {next' : β → RenderM σ δ}
  {shows weaker : α → β → Prop} {further : γ → δ → Prop}

namespace Follows

theorem mono (follows : one.Follows r count two scene other shows)
    (onward : ∀ left right, shows left right → weaker left right) : one.Follows r count two scene other weaker :=
  Leads.imp follows fun _ _ done => done.imp fun _ _ last => ⟨last.1, onward _ _ last.2⟩

theorem after {before before' : Scene σ} (follows : one.Follows r count two scene other shows)
    (changes : Scene.Changes r count before before' scene other) :
    one.Leads scene
      (fun left after => two.Leads other
        (fun right last => Scene.Changes r count before before' after last ∧ shows left right) fun _ _ => False)
      fun error after => ¬ error.Misplaced → two.Leads other (fun _ _ => False)
        fun fault last => Scene.Changes r count before before' after last ∧ fault = error :=
  Leads.mono follows (fun _ _ done => done.imp fun _ _ last => ⟨changes.trans last.1, last.2⟩)
    fun _ _ done placed => (done placed).mono (fun _ _ => id) fun _ _ last => ⟨changes.trans last.1, last.2⟩

theorem ends (follows : one.Follows r count two scene other shows) :
    (∃ left after right last, one.runOn scene = (.ok left, after) ∧ two.runOn other = (.ok right, last) ∧
        Scene.Changes r count scene other after last ∧ shows left right) ∨
      ∃ error after, one.runOn scene = (.error error, after) ∧ (¬ error.Misplaced → ∃ last,
        two.runOn other = (.error error, last) ∧ Scene.Changes r count scene other after last) := by
  unfold Follows Leads at follows
  rcases ran : one.runOn scene with ⟨error | left, after⟩ <;> rw [ran] at follows <;>
    rcases ran' : two.runOn other with ⟨fault | right, last⟩ <;> rw [ran'] at follows
  · refine .inr ⟨error, after, rfl, fun placed => ?_⟩
    obtain ⟨changes, rfl⟩ := follows placed
    exact ⟨last, rfl, changes⟩
  · exact .inr ⟨error, after, rfl, fun placed => (follows placed).elim⟩
  · exact follows.elim
  · exact .inl ⟨left, after, right, last, rfl, rfl, follows⟩

/-- One computation after the other. What the first ones lead to is known by then, and they may leave the attributes of
    more nodes alone. -/
theorem bind_leads {more : Nat} {good : α → Scene σ → Prop} {bad : Error → Scene σ → Prop} {good' : β → Scene σ → Prop}
    {bad' : Error → Scene σ → Prop} (first : one.Follows r more two scene other shows) (le : count ≤ more)
    (leads : one.Leads scene good bad) (leads' : two.Leads other good' bad')
    (rest : ∀ left right after last, Scene.Changes r more scene other after last → good left after → good' right last →
      shows left right → (next left).Follows r count (next' right) after last further) :
    (one >>= next).Follows r count (two >>= next') scene other further := by
  unfold Follows
  rw [leads_bind]
  refine (Leads.both first leads).mono ?_ ?_
  · rintro left after ⟨followed, known⟩
    obtain ⟨right, last, ran, changes, shown⟩ := followed.ran
    have onward := (rest left right after last changes known (leads'.ok ran) shown).after (changes.mono le)
    simpa only [leads_bind_of_ran ran] using onward
  · rintro error after ⟨followed, -⟩ placed
    rw [leads_bind]
    exact (followed placed).mono (fun _ _ none => none.elim) fun _ _ ended => ⟨ended.1.mono le, ended.2⟩

theorem bind (first : one.Follows r count two scene other shows)
    (rest : ∀ left right after last, Scene.Changes r count scene other after last → shows left right →
      (next left).Follows r count (next' right) after last further) :
    (one >>= next).Follows r count (two >>= next') scene other further :=
  first.bind_leads (Nat.le_refl _) (leads_somehow one scene) (leads_somehow two other)
    fun left right after last changes _ _ => rest left right after last changes

end Follows

namespace Alike

theorem mono (alike : one.Alike r count two shows) (onward : ∀ left right, shows left right → weaker left right) :
    one.Alike r count two weaker := fun scene other paired inside => (alike scene other paired inside).mono onward

theorem bind (first : one.Alike r count two shows)
    (rest : ∀ left right, shows left right → (next left).Alike r count (next' right) further) :
    (one >>= next).Alike r count (two >>= next') further := by
  intro scene other paired inside
  apply (first scene other paired inside).bind
  intro left right after last changes shown
  exact rest left right shown after last changes.paired (Nat.le_trans inside changes.left.size_le)

/-- One computation after the other, where the first ones have the same result. -/
theorem andThen {two : RenderM σ α} {next' : α → RenderM σ δ} (first : one.Alike r count two Eq)
    (rest : ∀ value, (next value).Alike r count (next' value) further) :
    (one >>= next).Alike r count (two >>= next') further := by
  apply first.bind
  rintro value _ rfl
  exact rest value

end Alike

section Steps

theorem alike_pure {left : α} {right : β} (here : shows left right) :
    (pure left : RenderM σ α).Alike r count (pure right) shows :=
  fun _ _ paired _ => ⟨paired.refl, here⟩

theorem alike_throw (error : Error) : (throw error : RenderM σ α).Alike r count (throw error : RenderM σ β) shows :=
  fun _ _ paired _ _ => ⟨paired.refl, rfl⟩

theorem alike_note (event : Event) : (note event : RenderM σ Unit).Alike r count (note event) Eq :=
  fun _ _ paired _ => ⟨paired.add event, rfl⟩

theorem alike_look {view : Tree → α} (same : ∀ tree other : Tree, tree.Renamed r other → view other = view tree) :
    (look view : RenderM σ α).Alike r count (look view) Eq :=
  fun _ _ paired _ => ⟨paired.refl, (same _ _ paired.renamed.tree).symm⟩

theorem alike_require (error : Error) (value : Option α) :
    (require error value : RenderM σ α).Alike r count (require error value) Eq := by
  cases value with
  | none => exact alike_throw error
  | some value => exact alike_pure rfl

theorem alike_edit {change change' : Tree → Except HostFault Tree} (agree : Tree.Agree r count change change') :
    (edit change : RenderM σ Unit).Alike r count (edit change') Eq := by
  intro scene other paired inside
  rcases agree _ _ paired.wellFormed paired.renamed.tree inside with ⟨fault, refused, refused'⟩ |
    ⟨after, last, done, done', changes⟩
  · simp only [Follows, leads_edit, refused, refused']
    exact fun _ => ⟨paired.refl, trivial⟩
  · simp only [Follows, leads_edit, done, done']
    exact ⟨paired.withTrees changes, trivial⟩

theorem alike_insert (parent id : NodeId) (before : Option NodeId) :
    (insert parent id before : RenderM σ Unit).Alike r count (insert parent id before) Eq :=
  alike_edit (Tree.agree_insertBefore parent id before)

theorem alike_editInSteps {change change' : Tree → Except HostFault α × Tree}
    (agree : Tree.AgreeInSteps r count change change') :
    (editInSteps change : RenderM σ α).Alike r count (editInSteps change') Eq := by
  intro scene other paired inside
  obtain ⟨same, changes⟩ := agree _ _ paired.wellFormed paired.renamed.tree inside
  simp only [Follows, leads_editInSteps]
  rcases ran : change scene.tree with ⟨fault | value, after⟩ <;> rw [ran] at same changes <;>
    rcases ran' : change' other.tree with ⟨fault' | value', last⟩ <;> rw [ran'] at same changes <;> cases same
  · exact fun _ => ⟨paired.withTrees changes, rfl⟩
  · exact ⟨paired.withTrees changes, rfl⟩

theorem alike_moveRun (container start : NodeId) (stop before : Option NodeId) :
    (moveRun container start stop before : RenderM σ Nat).Alike r count (moveRun container start stop before) Eq :=
  (alike_editInSteps (Tree.agree_moveRun container start stop before)).andThen fun _ =>
    (alike_note _).andThen fun _ => alike_pure rfl

theorem alike_removeRun (container start : NodeId) (stop : Option NodeId) :
    (removeRun container start stop : RenderM σ Nat).Alike r count (removeRun container start stop) Eq :=
  (alike_editInSteps (Tree.agree_removeRun container start stop)).andThen fun _ =>
    (alike_note _).andThen fun _ => alike_pure rfl

theorem alike_create {kind kind' : Kind} (same : kind.Renamed r kind') (named : kind.attributeNames.Nodup) :
    (create kind : RenderM σ NodeId).Alike r count (create kind') Eq := by
  intro scene other paired inside
  simp only [Follows, leads_create]
  exact ⟨paired.withTrees (Tree.changes_create paired.wellFormed paired.renamed.tree inside same named),
    paired.size_eq.symm⟩

theorem alike_createMarker : (create .marker : RenderM σ NodeId).Alike r count (create .marker) Eq :=
  alike_create (.refl _) List.nodup_nil

theorem alike_cloneDeep (id : NodeId) :
    (grow (·.cloneDeep id) : RenderM σ NodeId).Alike r count (grow (·.cloneDeep id)) Eq := by
  intro scene other paired inside
  simp only [Follows, leads_grow]
  exact ⟨paired.withTrees (paired.renamed.tree.changes_cloneDeep paired.wellFormed inside id),
    (paired.renamed.tree.cloneDeep id).1.symm⟩

theorem Alike.attend {render render' : RenderM σ α} {shows : α → α → Prop}
    (alike : render.Alike r count render' shows) :
    (tryCatch render fun error => do note (.commitFailed error); throw error).Alike r count
      (tryCatch render' fun error => do note (.commitFailed error); throw error) shows := by
  intro scene other paired inside
  simp only [Follows, leads_tryCatch, leads_bind, leads_note, leads_throw]
  refine Leads.mono (alike scene other paired inside)
    (fun _ _ done => done.mono (fun _ _ => id) fun _ _ none => none.elim)
    fun error after done placed => (done placed).mono (fun _ _ => id) ?_
  rintro fault last ⟨changes, rfl⟩
  exact ⟨changes.trans (changes.paired.add _), rfl⟩

variable {first : Attempt σ α} {second : Attempt σ β}

@[simp] theorem alike_orThrow_map (change : α → γ) (change' : β → δ) :
    (first.map change).orThrow.Alike r count (second.map change').orThrow further ↔
      first.orThrow.Alike r count second.orThrow fun left right => further (change left) (change' right) := by
  simp only [Alike, Follows, leads_orThrow_map]

@[simp] theorem alike_orThrow_carry (kept : α → γ) (broken : γ) (kept' : β → δ) (broken' : δ) :
    (Attempt.carry one kept broken).orThrow.Alike r count (Attempt.carry two kept' broken').orThrow further ↔
      one.Alike r count two fun left right => further (kept left) (kept' right) := by
  simp only [Alike, Follows, leads_orThrow_carry]

end Steps

end RenderM

/-- Acts the same on trees that are the same but for texts, and leaves the attributes that it finds alone. -/
def Renaming.Unseen (r : Renaming) (act : StateM (σ × Tree) α) : Prop :=
  ∀ memory (tree other : Tree), tree.WellFormed → tree.Renamed r other →
    (act (memory, other)).1 = (act (memory, tree)).1 ∧ (act (memory, other)).2.1 = (act (memory, tree)).2.1 ∧
      Tree.Changes r tree.size tree other (act (memory, tree)).2.2 (act (memory, other)).2.2

/-- Neither whoever compiles templates nor the hook looks at texts that were rendered, and no attribute has two slots
    of a template. -/
structure Client.Discreet (r : Renaming) (client : Client σ) : Prop where
  compile : ∀ kind literal, r.Unseen (client.compile kind literal)
  distinct : ∀ kind literal state template, (client.compile kind literal state).1 = .ok template → template.Tidy
  ask : ∀ hook, client.hook? = some hook → ∀ target container, r.Unseen (hook.ask target container)

theorem Renaming.unseen_answer (answer : α) : r.Unseen (fun state : σ × Tree => (answer, state)) :=
  fun _ _ _ wellFormed renamed => ⟨rfl, rfl, .refl wellFormed renamed⟩

theorem Renaming.unseen_graft (original : NodeId) {kind : Kind} {children : List Subtree} (named : kind.attributeNames.Nodup)
    (proper : Subtree.Proper (Subtree.spotsOfAll children)) (slots : List Slot) :
    r.Unseen fun state : σ × Tree =>
      let grafted := state.2.graft (.branch original kind children)
      (Except.ok (ε := Error) (Template.mk grafted.1 slots), state.1, grafted.2) := by
  intro memory tree other wellFormed renamed
  have root : (other.graft (.branch original kind children)).1 = (tree.graft (.branch original kind children)).1 :=
    (renamed.graft _ _ (.refl _)).1
  exact ⟨congrArg (fun fragment => Except.ok (Template.mk fragment slots)) root, rfl,
    renamed.changes_graft wellFormed (Nat.le_refl _) original named proper⟩

theorem Client.Discreet.overheard {client : Client σ} (discreet : client.Discreet r) : client.overheard.Discreet r where
  compile kind literal := by
    rintro ⟨memory, questions⟩ tree other wellFormed renamed
    obtain ⟨answer, memory, changes⟩ := discreet.compile kind literal memory tree other wellFormed renamed
    refine ⟨answer, Prod.ext memory ?_, changes⟩
    exact congrArg (fun answer => questions ++ [.compile kind literal answer]) answer
  distinct kind literal state template done := discreet.distinct kind literal (state.1.1, state.2) template done
  ask hook known target container := by
    obtain ⟨silent, asked, rfl⟩ := Option.map_eq_some_iff.1 known
    rintro ⟨memory, questions⟩ tree other wellFormed renamed
    obtain ⟨answer, memory, changes⟩ := discreet.ask silent asked target container memory tree other wellFormed renamed
    refine ⟨answer, Prod.ext memory ?_, changes⟩
    exact congrArg (fun answer => questions ++ [.remove target container answer]) answer

namespace RenderM

theorem alike_consult {act : StateM (σ × Tree) α} (unseen : r.Unseen act) :
    (consult act : RenderM σ α).Alike r count (consult act) Eq := by
  rintro ⟨tree, _, _, _⟩ ⟨tree', cache, memory, report⟩ ⟨⟨renamed, rfl, rfl, rfl⟩, wellFormed, templates⟩ inside
  obtain ⟨answer, remembered, changes⟩ := unseen memory tree tree' wellFormed renamed
  simp only [Follows, leads_consult]
  exact ⟨⟨⟨⟨changes.renamed, rfl, remembered, rfl⟩, changes.wellFormed, templates⟩, changes.left.mono inside,
    changes.right.mono inside⟩, answer.symm⟩

theorem alike_templateFor {client : Client σ} (discreet : client.Discreet r) (kind : TemplateKind) (literal : Literal) :
    (templateFor client kind literal).Alike r count (templateFor client kind literal)
      fun left right => right = left ∧ left.template.Tidy := by
  rintro ⟨tree, _, _, _⟩ ⟨tree', cache, memory, report⟩ ⟨⟨renamed, rfl, rfl, rfl⟩, wellFormed, templates⟩ inside
  simp only [Follows, templateFor, leads_bind, leads_get]
  cases first : cache.findIdentity? kind literal with
  | some shared =>
      simp only [leads_bind, leads_note, leads_pure]
      exact ⟨⟨⟨⟨renamed, rfl, rfl, rfl⟩, wellFormed, templates⟩, .refl _, .refl _⟩, trivial, templates.identity first⟩
  | none =>
      simp only [contentTemplate, leads_bind, leads_get, leads_modify, leads_pure]
      cases second : cache.findContent? kind literal with
      | some shared =>
          simp only [leads_bind, leads_note, leads_pure]
          have distinct := templates.content second
          exact ⟨⟨⟨⟨renamed, rfl, rfl, rfl⟩, wellFormed, templates.recordIdentity distinct⟩, .refl _, .refl _⟩, trivial,
            distinct⟩
      | none =>
          obtain ⟨answer, remembered, changes⟩ := discreet.compile kind literal memory tree tree' wellFormed renamed
          simp only [compileNew, leads_bind, leads_consult, answer]
          cases done : (client.compile kind literal (memory, tree)).1 with
          | error error =>
              simp only [leads_throw]
              exact fun _ => ⟨⟨⟨⟨changes.renamed, rfl, remembered, rfl⟩, changes.wellFormed, templates⟩,
                changes.left.mono inside, changes.right.mono inside⟩, trivial⟩
          | ok template =>
              have distinct := discreet.distinct kind literal _ template done
              simp only [leads_bind, leads_note, leads_get, leads_set, leads_pure]
              exact ⟨⟨⟨⟨changes.renamed, rfl, remembered, rfl⟩, changes.wellFormed,
                (templates.recordContent distinct).recordIdentity distinct⟩, changes.left.mono inside,
                changes.right.mono inside⟩, rfl, distinct⟩

end RenderM

end DomParts
