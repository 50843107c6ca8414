import DomParts.Proofs.Render.Leads

/-! # Finding templates

A template is found by its literal's place or by its content, or it is compiled. Whichever it is, the cache
knows it by its literal's place from then on, and what the cache knew before it still knows.
-/

namespace DomParts

variable {σ : Type}

/-- Every template in the cache meets a condition. -/
def TemplateCache.All (cache : TemplateCache) (good : SharedTemplate → Prop) : Prop :=
  (∀ entry ∈ cache.byIdentity, good entry.2) ∧ ∀ entry ∈ cache.byContent, good entry.2

/-- What is found by a literal's place is still found. -/
def TemplateCache.Keeps (cache more : TemplateCache) : Prop := ∀ kind literal shared,
  cache.findIdentity? kind literal = some shared → more.findIdentity? kind literal = some shared

namespace TemplateCache

variable {cache : TemplateCache} {good : SharedTemplate → Prop} {kind : TemplateKind} {literal : Literal}
  {shared : SharedTemplate}

theorem mem_of_lookup {α β : Type} [BEq α] [LawfulBEq α] {key : α} {value : β} {entries : List (α × β)}
    (found : entries.lookup key = some value) : (key, value) ∈ entries := by
  induction entries with
  | nil => cases found
  | cons entry entries ih =>
      rw [List.lookup_cons] at found
      split at found
      · rename_i same
        cases found
        rw [eq_of_beq same]
        exact List.mem_cons_self ..
      · exact List.mem_cons_of_mem _ (ih found)

theorem All.identity (all : cache.All good) (found : cache.findIdentity? kind literal = some shared) :
    good shared := all.1 _ (mem_of_lookup found)

theorem All.content (all : cache.All good) (found : cache.findContent? kind literal = some shared) :
    good shared := all.2 _ (mem_of_lookup found)

theorem All.recordIdentity (all : cache.All good) (here : good shared) :
    (cache.recordIdentity kind literal shared).All good :=
  ⟨List.forall_mem_cons.2 ⟨here, all.1⟩, all.2⟩

theorem All.recordContent (all : cache.All good) (here : good shared) :
    (cache.recordContent kind literal shared).All good :=
  ⟨all.1, List.forall_mem_cons.2 ⟨here, all.2⟩⟩

theorem all_empty : empty.All good := ⟨nofun, nofun⟩

namespace Keeps

variable {cache more most : TemplateCache} {kind : TemplateKind} {literal : Literal}

theorem refl (cache : TemplateCache) : cache.Keeps cache := fun _ _ _ => id

theorem trans (one : cache.Keeps more) (two : more.Keeps most) : cache.Keeps most :=
  fun kind literal shared found => two kind literal shared (one kind literal shared found)

theorem of_eq (same : more = cache) : cache.Keeps more := same ▸ refl cache

theorem recordContent (shared : SharedTemplate) : cache.Keeps (cache.recordContent kind literal shared) :=
  fun _ _ _ => id

/-- Only a template that was not found by its literal's place is recorded. -/
theorem recordIdentity (missed : cache.findIdentity? kind literal = none) (shared : SharedTemplate) :
    cache.Keeps (cache.recordIdentity kind literal shared) := by
  intro other place found known
  have different : ((other, place.id) == (kind, literal.id)) = false := by
    refine beq_false_of_ne fun same => ?_
    rw [Prod.mk.injEq] at same
    rw [findIdentity?, same.1, same.2] at known
    rw [findIdentity?, known] at missed
    cases missed
  rw [findIdentity?, TemplateCache.recordIdentity, List.lookup_cons, different]
  exact known

end Keeps

theorem findIdentity?_recordIdentity (cache : TemplateCache) (kind : TemplateKind) (literal : Literal)
    (shared : SharedTemplate) : (cache.recordIdentity kind literal shared).findIdentity? kind literal = some shared := by
  rw [findIdentity?, recordIdentity, List.lookup_cons, beq_self_eq_true]

end TemplateCache

namespace RenderM

variable {client : Client σ} {kind : TemplateKind} {literal : Literal} {scene : Scene σ}
  {good : SharedTemplate → Scene σ → Prop} {bad : Error → Scene σ → Prop}

/-- The scene once a template was found by its literal's place. -/
def knownScene (scene : Scene σ) : Scene σ := scene.add .foundByIdentity

/-- The scene once a template was found by its literal's content. -/
def sharedScene (kind : TemplateKind) (literal : Literal) (shared : SharedTemplate) (scene : Scene σ) : Scene σ :=
  let scene := scene.add .foundByContent
  { scene with cache := scene.cache.recordIdentity kind literal shared }

/-- The scene that compiling leaves, before its template is remembered. -/
def compiledScene (client : Client σ) (kind : TemplateKind) (literal : Literal) (scene : Scene σ) : Scene σ :=
  let after := (client.compile kind literal (scene.memory, scene.tree)).2
  { scene with memory := after.1, tree := after.2 }

def newScene (kind : TemplateKind) (literal : Literal) (shared : SharedTemplate) (scene : Scene σ) : Scene σ :=
  let scene := scene.add (.compiled shared.template.slots.length)
  { scene with cache := (scene.cache.recordContent kind literal shared).recordIdentity kind literal shared }

/-- A template is found by its literal's place, or else by its content, or else it is compiled. -/
theorem templateFor_cases
    (known : ∀ shared, scene.cache.findIdentity? kind literal = some shared → good shared (knownScene scene))
    (same : scene.cache.findIdentity? kind literal = none → ∀ shared,
      scene.cache.findContent? kind literal = some shared → good shared (sharedScene kind literal shared scene))
    (new : scene.cache.findIdentity? kind literal = none → scene.cache.findContent? kind literal = none →
      ∀ template, (client.compile kind literal (scene.memory, scene.tree)).1 = .ok template →
        good ⟨scene.cache.size, template⟩
          (newScene kind literal ⟨scene.cache.size, template⟩ (compiledScene client kind literal scene)))
    (failed : scene.cache.findIdentity? kind literal = none → scene.cache.findContent? kind literal = none →
      ∀ error, (client.compile kind literal (scene.memory, scene.tree)).1 = .error error →
        bad error (compiledScene client kind literal scene)) :
    (templateFor client kind literal).Leads scene good bad := by
  simp only [templateFor, leads_bind, leads_get]
  cases first : scene.cache.findIdentity? kind literal with
  | some shared => exact known shared first
  | none =>
      simp only [contentTemplate, leads_bind, leads_get, leads_modify, leads_pure]
      cases second : scene.cache.findContent? kind literal with
      | some shared => exact same first shared second
      | none =>
          simp only [compileNew, leads_bind, leads_consult]
          cases result : (client.compile kind literal (scene.memory, scene.tree)).1 with
          | ok template => exact new first second template result
          | error error => exact failed first second error result

theorem templateFor_leads
    (known : ∀ shared, scene.cache.findIdentity? kind literal = some shared → good shared (knownScene scene))
    (same : ∀ shared, scene.cache.findContent? kind literal = some shared →
      good shared (sharedScene kind literal shared scene))
    (new : ∀ template, (client.compile kind literal (scene.memory, scene.tree)).1 = .ok template →
      good ⟨scene.cache.size, template⟩
        (newScene kind literal ⟨scene.cache.size, template⟩ (compiledScene client kind literal scene)))
    (failed : ∀ error, (client.compile kind literal (scene.memory, scene.tree)).1 = .error error →
      bad error (compiledScene client kind literal scene)) :
    (templateFor client kind literal).Leads scene good bad :=
  templateFor_cases known (fun _ => same) (fun _ _ => new) fun _ _ => failed

/-- A template that was looked for is known by its literal's place, and nothing is forgotten. -/
theorem templateFor_keeps :
    (templateFor client kind literal).Leads scene
      (fun shared after => scene.cache.Keeps after.cache ∧ after.cache.findIdentity? kind literal = some shared)
      (fun _ after => scene.cache.Keeps after.cache) := by
  have records : scene.cache.findIdentity? kind literal = none → ∀ shared,
      scene.cache.Keeps (scene.cache.recordIdentity kind literal shared) := fun missed => .recordIdentity missed
  refine templateFor_cases (fun shared known => ⟨.refl _, known⟩) (fun missed shared _ => ?_)
    (fun missed _ template _ => ?_) fun _ _ _ _ => .refl _
  · exact ⟨records missed shared, TemplateCache.findIdentity?_recordIdentity ..⟩
  · have filed : scene.cache.Keeps (scene.cache.recordContent kind literal ⟨scene.cache.size, template⟩) :=
      .recordContent _
    exact ⟨filed.trans (.recordIdentity missed _), TemplateCache.findIdentity?_recordIdentity ..⟩

end RenderM

end DomParts
