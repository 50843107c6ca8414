import DomParts.Proofs.Render.Healthy
import Mathlib

/-! # Poison never hides

A root is healthy or poisoned, whatever was rendered and cleared before and whatever became of the tree in
between. A poisoned root holds nothing, and nothing inside a healthy one is poisoned.
-/

namespace DomParts.Root

open NodePart RenderM

variable {σ : Type} {client : Client σ} {root : Root} {scene : Scene σ}

/-- A root that renders and clears led to. Each of them found some scene, and nothing is said of what
    happened to the scene in between. -/
inductive Aged (client : Client σ) : Root → Prop where
  | created {container : NodeId} {root : Root} {scene after : Scene σ}
      (made : (Root.create container).runOn scene = (.ok root, after)) : Aged client root
  | rendered {root : Root} (aged : Aged client root) (value : Value) (scene : Scene σ) :
      Aged client ((root.render client value).runOn scene).1.1
  | cleared {root : Root} (aged : Aged client root) (scene : Scene σ) :
      Aged client (root.clear.runOn scene).1.1

/-- A root that is poisoned, or healthy. -/
def Sorted (root : Root) : Prop := root.part.isPoisoned = true ∨ root.part.Healthy

theorem render_eq_settle (usable : root.part.isPoisoned = false) (value : Value) :
    root.render client value = (({ root.part with pending := none } : NodePart).settle (value.render client)).map .mk := by
  have usable : ({ root.part with pending := none } : NodePart).isPoisoned = false := usable
  simp only [render, stage, commit, commitWith, Option.getD_some, usable, Bool.false_eq_true, if_false]

theorem create_sorted {container : NodeId} {after : Scene σ}
    (made : (Root.create container).runOn scene = (.ok root, after)) : root.Sorted := by
  have leads : (Root.create container).Leads scene (fun root _ => root.Sorted) fun _ _ => True := by
    simp only [Root.create, leads_bind]
    refine (insertInto_leads container none scene).mono (fun part scene sane => ?_) fun _ _ _ => trivial
    exact .inr sane
  exact leads.ok made

theorem render_sorted (frank : client.Frank) (sorted : root.Sorted) (value : Value) (scene : Scene σ) :
    ((root.render client value).runOn scene).1.1.Sorted ∧
      (root.part.isPoisoned = false → ((root.render client value).runOn scene).1.2 ≠ .error .poisoned) := by
  rcases sorted with poisoned | healthy
  · have refused : ({ root.part with pending := none } : NodePart).isPoisoned = true := poisoned
    simp only [render, stage, commit, commitWith, refused, if_true]
    exact ⟨.inl poisoned, fun usable => absurd (poisoned.symm.trans usable) (by simp)⟩
  · have usable := healthy.usable
    have sane : root.part.content.Healthy := healthy_iff.1 healthy
    rw [render_eq_settle usable]
    have leads := Value.wholesome frank value { root.part with pending := none } scene sane
    simp only [Attempt.runOn, Attempt.map, settle, Attempt.carry, attend]
    have attended : (tryCatch (value.render client { root.part with pending := none }) fun error => do
        note (.commitFailed error)
        throw error).Leads scene (fun content _ => content.Healthy) fun error _ => error ≠ .poisoned := by
      rw [leads_tryCatch]
      exact leads
    unfold Leads at attended
    split at attended
    · rename_i content after ran
      simp only [ran]
      exact ⟨.inr (healthy_iff.2 attended), by simp⟩
    · rename_i error after ran
      simp only [ran]
      exact ⟨.inl rfl, fun _ same => attended (Except.error.inj same)⟩

theorem clear_sorted (scene : Scene σ) : ((root.clear : Attempt σ Root).runOn scene).1.1.Sorted := by
  have healthy : ({ root.part with content := .empty } : NodePart).Healthy := healthy_iff.2 Content.healthy_empty
  simp only [clear, NodePart.clear, Attempt.runOn, Attempt.map, Attempt.carry]
  rcases (({ root.part with content := .empty } : NodePart).removeContent).runOn scene with ⟨_ | _, _⟩
  · exact .inr healthy
  · exact .inr healthy

theorem Aged.sorted (frank : client.Frank) (aged : Aged client root) : root.Sorted := by
  induction aged with
  | created made => exact create_sorted made
  | rendered _ value scene ih => exact (render_sorted frank ih value scene).1
  | cleared _ scene => exact clear_sorted scene

/-- Nothing inside a part that is not poisoned is poisoned, and a root that is not poisoned never refuses a
    value for being so. -/
theorem poison_never_hides (frank : client.Frank) (aged : Aged client root) :
    (∀ outer, Relation.ReflTransGen Holds root.part outer → outer.isPoisoned = false →
      ∀ inner, Relation.TransGen Holds outer inner → inner.isPoisoned = false) ∧
    (root.part.isPoisoned = false →
      ∀ value scene, ((root.render client value).runOn scene).1.2 ≠ .error .poisoned) := by
  have sorted := aged.sorted frank
  refine ⟨fun outer way usable inner further => ?_, fun usable value scene =>
    (render_sorted frank sorted value scene).2 usable⟩
  rcases sorted with poisoned | healthy
  · -- A poisoned root holds nothing, so the outer part is the root itself.
    have holdsNothing : ∀ part, ¬ root.part.Holds part := by
      intro part holds
      have content : root.part.content = .poisoned := by
        revert poisoned
        unfold isPoisoned Content.isPoisoned
        split <;> simp_all
      simp [Holds, content, Content.inside, Content.items] at holds
    rcases Relation.ReflTransGen.cases_head_iff.1 way with rfl | ⟨part, holds, -⟩
    · exact absurd (poisoned.symm.trans usable) (by simp)
    · exact absurd holds (holdsNothing part)
  · exact (healthy.descend (way.trans further.to_reflTransGen)).usable

namespace Example

/-- A client that compiles nothing and guards nothing. -/
def wordless : Client Unit := ⟨fun _ _ => pure (.error (.template (.stated "no templates"))), none⟩

def page : Scene Unit := .onTree (Tree.empty.create (.plain "body")).2 ()

def fresh : Root := ⟨.between 1 2⟩

def mounted : Scene Unit := ((Root.create 0).runOn page).2

def broken : (Root × Except Error Unit) × Scene Unit :=
  (fresh.render wordless (.list [.text "a", .template .html ⟨0, []⟩ []])).runOn mounted

def cleared : (Root × Except Error Unit) × Scene Unit := broken.1.1.clear.runOn broken.2

def shown : (Root × Except Error Unit) × Scene Unit :=
  (cleared.1.1.render wordless (.list [.text "b"])).runOn cleared.2

end Example

open Example in
/-- After a list failed halfway and the root was cleared, a list that goes well is healthy throughout. -/
theorem poison_never_hides_after_failure : wordless.Frank ∧ Aged wordless shown.1.1 ∧
    broken.1.1.part.isPoisoned = true ∧ shown.1.1.part.isPoisoned = false ∧
    (∀ outer, Relation.ReflTransGen Holds shown.1.1.part outer → outer.isPoisoned = false →
      ∀ inner, Relation.TransGen Holds outer inner → inner.isPoisoned = false) ∧
    ∀ value scene, ((shown.1.1.render wordless value).runOn scene).1.2 ≠ .error .poisoned := by
  have frank : wordless.Frank := fun kind literal state => nofun
  have created : (Root.create 0).runOn page = (.ok fresh, mounted) := by
    unfold mounted fresh
    cbv
  have first : Aged wordless broken.1.1 := by
    unfold broken
    exact (Aged.created created).rendered (.list [.text "a", .template .html ⟨0, []⟩ []]) mounted
  have second : Aged wordless cleared.1.1 := by
    unfold cleared
    exact first.cleared broken.2
  have aged : Aged wordless shown.1.1 := by
    unfold shown
    exact second.rendered (.list [.text "b"]) cleared.2
  have usable : shown.1.1.part.isPoisoned = false := by decide +kernel
  obtain ⟨hides, refuses⟩ := poison_never_hides frank aged
  exact ⟨frank, aged, by decide +kernel, usable, hides, refuses usable⟩

end DomParts.Root
