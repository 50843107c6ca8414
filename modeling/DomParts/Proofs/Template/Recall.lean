import DomParts.Proofs.Render.Concern
import DomParts.Proofs.Template.Numbered
import Mathlib.Data.Finset.Card
import Mathlib.Data.Finset.Dedup

/-! # What a cache recalls

A cache is asked for one template after the other, each time with a client of its own to compile for it. The
client is asked for a literal until that goes well once, and never again for a literal of that kind with that
content, wherever it is stored; whoever asks for such a literal gets the same template. This supposes that what
is stored at a place does not change.
-/

namespace DomParts

/-- One request to a cache, and what came of it. -/
structure Fetch where
  before : TemplateCache
  kind : TemplateKind
  literal : Literal
  /-- What the client was asked meanwhile. -/
  questions : List Question
  result : Except Error SharedTemplate
  after : TemplateCache

namespace Fetch

def key (fetch : Fetch) : TemplateKind × String := (fetch.kind, fetch.literal.contentKey)

/-- What a new template is known by, if one was compiled. -/
def compiled? (fetch : Fetch) : Option (TemplateKind × String) :=
  match fetch.questions with
  | [.compile kind literal (.ok _)] => some (kind, literal.contentKey)
  | _ => none

/-- How a request is answered, given the requests before it. -/
structure Answered (earlier : List Fetch) (fetch : Fetch) : Prop where
  /-- The client is asked if and only if nobody got a template of that kind for that content before. -/
  asks : fetch.questions ≠ [] ↔ ∀ other ∈ earlier, other.key = fetch.key → ∀ shared, other.result ≠ .ok shared
  /-- The client is asked for this literal only and only once, and its answer is what is returned. -/
  returns : fetch.questions = [] ∨
    ∃ answer, fetch.questions = [.compile fetch.kind fetch.literal answer] ∧ fetch.result.map (·.template) = answer
  /-- A failure is the client's, and nothing is recorded then. -/
  fails : ∀ error, fetch.result = .error error →
    fetch.questions = [.compile fetch.kind fetch.literal (.error error)] ∧ fetch.after = fetch.before

end Fetch

/-- A cache after requests. The client and its memory and tree may be others in each of them. -/
inductive Fetched : TemplateCache → List Fetch → Prop where
  | fresh : Fetched .empty []
  | fetched {cache : TemplateCache} {fetches : List Fetch} (earlier : Fetched cache fetches) {σ : Type}
      (client : Client σ) (kind : TemplateKind) (literal : Literal) (memory : σ) (tree : Tree) (report : Array Event)
      {result : Except Error SharedTemplate} {after : Scene (σ × List Question)}
      (ran : (RenderM.templateFor client.overheard kind literal).runOn ⟨tree, cache, (memory, []), report⟩ =
        (result, after)) :
      Fetched after.cache (fetches ++ [⟨cache, kind, literal, after.memory.2, result, after.cache⟩])

/-- Whatever is stored at a place was stored there before. -/
def Stable (fetches : List Fetch) : Prop := ∀ one ∈ fetches, ∀ two ∈ fetches,
  one.literal.id = two.literal.id → one.literal.segments = two.literal.segments

/-- What a cache knows are the results of the requests that went well. -/
structure Recalls (cache : TemplateCache) (fetches : List Fetch) : Prop where
  numbered : cache.Numbered
  identities : ∀ kind id shared, ((kind, id), shared) ∈ cache.byIdentity →
    ∃ fetch ∈ fetches, fetch.result = .ok shared ∧ fetch.kind = kind ∧ fetch.literal.id = id
  contents : ∀ key shared, (key, shared) ∈ cache.byContent ↔
    ∃ fetch ∈ fetches, fetch.result = .ok shared ∧ fetch.key = key
  keys : cache.byContent.map (·.1) = (fetches.filterMap Fetch.compiled?).reverse
  distinct : (cache.byContent.map (·.1)).Nodup

namespace Recalls

variable {cache : TemplateCache} {fetches : List Fetch} {kind : TemplateKind} {literal : Literal}
  {shared other : SharedTemplate} {key : TemplateKind × String}

theorem fresh : Recalls .empty [] where
  numbered := ⟨fun _ _ _ member => absurd member List.not_mem_nil, List.nodup_nil, fun _ listed =>
    absurd listed TemplateCache.not_lists_empty⟩
  identities _ _ _ member := absurd member List.not_mem_nil
  contents _ _ := by simp [TemplateCache.empty]
  keys := rfl
  distinct := List.nodup_nil

variable (recalls : Recalls cache fetches)
include recalls

theorem unique (one : (key, shared) ∈ cache.byContent) (two : (key, other) ∈ cache.byContent) : shared = other :=
  congrArg Prod.snd (List.inj_on_of_nodup_map recalls.distinct one two rfl)

omit recalls in
theorem of_content (found : cache.findContent? kind literal = some shared) :
    ((kind, literal.contentKey), shared) ∈ cache.byContent := TemplateCache.mem_of_lookup found

/-- What was found by its literal's place has the content of the literal that is stored there. -/
theorem of_identity (same : ∀ one ∈ fetches, one.literal.id = literal.id → one.literal.segments = literal.segments)
    (found : cache.findIdentity? kind literal = some shared) :
    ((kind, literal.contentKey), shared) ∈ cache.byContent := by
  obtain ⟨fetch, member, result, rfl, place⟩ := recalls.identities _ _ _ (TemplateCache.mem_of_lookup found)
  refine (recalls.contents _ _).2 ⟨fetch, member, result, ?_⟩
  rw [Fetch.key, Literal.contentKey, Literal.contentKey, same fetch member place]

section Fetch

variable {before after : TemplateCache}

theorem identities_append (fetch : Fetch) (kind : TemplateKind) (id : LiteralId) (shared : SharedTemplate)
    (known : ((kind, id), shared) ∈ cache.byIdentity) :
    ∃ other ∈ fetches ++ [fetch], other.result = .ok shared ∧ other.kind = kind ∧ other.literal.id = id := by
  obtain ⟨other, here, rest⟩ := recalls.identities kind id shared known
  exact ⟨other, List.mem_append_left _ here, rest⟩

theorem results_append (fetch : Fetch) (key : TemplateKind × String) (shared : SharedTemplate) :
    (∃ other ∈ fetches ++ [fetch], other.result = .ok shared ∧ other.key = key) ↔
      (key, shared) ∈ cache.byContent ∨ fetch.result = .ok shared ∧ fetch.key = key := by
  rw [recalls.contents]
  simp [or_and_right, exists_or]

/-- A request that compiles nothing, for a template that is known already. -/
theorem again (known : ((kind, literal.contentKey), shared) ∈ cache.byContent) :
    Recalls cache (fetches ++ [⟨before, kind, literal, [], .ok shared, after⟩]) where
  numbered := recalls.numbered
  identities := recalls.identities_append _
  contents key shared := by
    rw [recalls.results_append]
    refine ⟨.inl, ?_⟩
    rintro (here | ⟨found, rfl⟩)
    · exact here
    · cases found
      exact known
  keys := by simp [recalls.keys, Fetch.compiled?]
  distinct := recalls.distinct

theorem failed {error : Error} :
    Recalls cache (fetches ++ [⟨before, kind, literal, [.compile kind literal (.error error)], .error error, after⟩]) where
  numbered := recalls.numbered
  identities := recalls.identities_append _
  contents key shared := by
    rw [recalls.results_append]
    exact ⟨.inl, fun here => here.resolve_right fun last => nomatch last.1⟩
  keys := by simp [recalls.keys, Fetch.compiled?]
  distinct := recalls.distinct

theorem compiled {template : Template} (new : (kind, literal.contentKey) ∉ cache.byContent.map (·.1)) :
    Recalls (cache.recordContent kind literal ⟨cache.size, template⟩)
      (fetches ++ [⟨before, kind, literal, [.compile kind literal (.ok template)], .ok ⟨cache.size, template⟩,
        after⟩]) where
  numbered := recalls.numbered.recordContent
  identities := recalls.identities_append _
  contents key shared := by
    rw [recalls.results_append, TemplateCache.recordContent, List.mem_cons, or_comm, Prod.mk.injEq, and_comm]
    exact or_congr_right (and_congr ⟨fun same => congrArg _ same.symm, fun same => (Except.ok.inj same).symm⟩ eq_comm)
  keys := by simp [TemplateCache.recordContent, recalls.keys, Fetch.compiled?]
  distinct := List.nodup_cons.2 ⟨new, recalls.distinct⟩

end Fetch

theorem placed {fetch : Fetch} (member : fetch ∈ fetches) (result : fetch.result = .ok shared) :
    Recalls (cache.recordIdentity fetch.kind fetch.literal shared) fetches where
  numbered := recalls.numbered.recordIdentity ((recalls.contents _ _).2 ⟨fetch, member, result, rfl⟩)
  identities kind id shared known := by
    rcases List.mem_cons.1 known with new | old
    · cases new
      exact ⟨fetch, member, result, rfl, rfl⟩
    · exact recalls.identities kind id shared old
  contents := recalls.contents
  keys := recalls.keys
  distinct := recalls.distinct

omit recalls in
theorem not_found (missed : cache.findContent? kind literal = none) :
    (kind, literal.contentKey) ∉ cache.byContent.map (·.1) := by
  intro member
  obtain ⟨⟨key, shared⟩, member, rfl⟩ := List.mem_map.1 member
  have := List.lookup_eq_none_iff.1 missed _ member
  simp at this

theorem answered_known {after : TemplateCache} (known : ((kind, literal.contentKey), shared) ∈ cache.byContent) :
    Fetch.Answered fetches ⟨cache, kind, literal, [], .ok shared, after⟩ where
  asks := by
    obtain ⟨other, member, result, key⟩ := (recalls.contents _ _).1 known
    exact ⟨fun none => absurd rfl none, fun never => absurd result (never other member key shared)⟩
  returns := .inl rfl
  fails _ := nofun

theorem answered_new {after : TemplateCache} (new : (kind, literal.contentKey) ∉ cache.byContent.map (·.1))
    {answer : Except Error Template} {result : Except Error SharedTemplate} (returns : result.map (·.template) = answer)
    (fails : ∀ error, result = .error error → after = cache) :
    Fetch.Answered fetches ⟨cache, kind, literal, [.compile kind literal answer], result, after⟩ where
  asks := by
    refine ⟨fun _ other member key shared found => new ?_, fun _ => List.cons_ne_nil _ _⟩
    exact List.mem_map.2 ⟨(_, shared), (recalls.contents _ _).2 ⟨other, member, found, key⟩, rfl⟩
  returns := .inr ⟨answer, rfl, returns⟩
  fails error failed := by
    subst returns failed
    exact ⟨rfl, fails error rfl⟩

theorem fetch {σ : Type} {client : Client σ} {scene : Scene (σ × List Question)} (here : scene.cache = cache)
    (unasked : scene.memory.2 = [])
    (same : ∀ one ∈ fetches, one.literal.id = literal.id → one.literal.segments = literal.segments) :
    (RenderM.templateFor client.overheard kind literal).Leads scene
      (fun shared after => Fetch.Answered fetches ⟨cache, kind, literal, after.memory.2, .ok shared, after.cache⟩ ∧
        Recalls after.cache (fetches ++ [⟨cache, kind, literal, after.memory.2, .ok shared, after.cache⟩]))
      (fun error after => Fetch.Answered fetches ⟨cache, kind, literal, after.memory.2, .error error, after.cache⟩ ∧
        Recalls after.cache (fetches ++ [⟨cache, kind, literal, after.memory.2, .error error, after.cache⟩])) := by
  subst here
  have last : ∀ {fetch : Fetch}, fetch ∈ fetches ++ [fetch] := by simp
  -- What the client answers is what was taken down.
  have asked : ∀ {answer}, (client.overheard.compile kind literal (scene.memory, scene.tree)).1 = answer →
      (RenderM.compiledScene client.overheard kind literal scene).memory.2 = [.compile kind literal answer] := by
    rintro _ rfl
    have taken : (RenderM.compiledScene client.overheard kind literal scene).memory.2 = scene.memory.2 ++
      [.compile kind literal (client.overheard.compile kind literal (scene.memory, scene.tree)).1] := rfl
    rw [taken, unasked, List.nil_append]
  refine RenderM.templateFor_cases (fun shared found => ?_) (fun _ shared found => ?_)
    (fun _ missed template done => ?_) fun _ missed error failed => ?_
  · simp only [RenderM.knownScene, Scene.add, unasked]
    have known := recalls.of_identity same found
    exact ⟨recalls.answered_known known, recalls.again known⟩
  · simp only [RenderM.sharedScene, Scene.add, unasked]
    have known := of_content found
    exact ⟨recalls.answered_known known, (recalls.again known).placed last rfl⟩
  · simp only [RenderM.newScene, Scene.add, asked done]
    have new := not_found missed
    have went : ∀ error, (.ok ⟨scene.cache.size, template⟩ : Except Error SharedTemplate) ≠ .error error := by
      rintro error ⟨⟩
    exact ⟨recalls.answered_new new rfl fun error failed => absurd failed (went error), (recalls.compiled new).placed last rfl⟩
  · rw [asked failed]
    exact ⟨recalls.answered_new (not_found missed) rfl fun _ _ => rfl, recalls.failed⟩

end Recalls

theorem Fetched.recalls {cache : TemplateCache} {fetches : List Fetch} (fetched : Fetched cache fetches)
    (stable : Stable fetches) : Recalls cache fetches ∧
      ∀ earlier fetch later, fetches = earlier ++ fetch :: later → fetch.Answered earlier := by
  induction fetched with
  | fresh => exact ⟨.fresh, fun earlier fetch later split => by simp at split⟩
  | @fetched cache fetches earlier σ client kind literal memory tree report result after ran ih =>
      obtain ⟨recalls, answered⟩ := ih fun one here two there => stable one (by simp [here]) two (by simp [there])
      have same : ∀ one ∈ fetches, one.literal.id = literal.id → one.literal.segments = literal.segments :=
        fun one here place => stable one (by simp [here]) _ (List.mem_append_right _ (List.mem_singleton.2 rfl)) place
      have leads := @Recalls.fetch _ _ kind literal recalls σ client ⟨tree, cache, (memory, []), report⟩ rfl rfl same
      have last : Fetch.Answered fetches ⟨cache, kind, literal, after.memory.2, result, after.cache⟩ ∧
          Recalls after.cache (fetches ++ [⟨cache, kind, literal, after.memory.2, result, after.cache⟩]) := by
        cases result with
        | ok shared => exact leads.ok ran
        | error error => exact leads.error ran
      refine ⟨last.2, fun before fetch later split => ?_⟩
      rcases List.eq_nil_or_concat' later with rfl | ⟨later, final, rfl⟩
      · obtain ⟨rfl, same⟩ := List.append_inj' split rfl
        cases same
        exact last.1
      · rw [← List.cons_append, ← List.append_assoc] at split
        exact answered before fetch later (List.append_inj' split rfl).1

/-- The client is asked for a literal if and only if nobody got a template of that kind for that content before,
    and a failure is the client's and leaves no trace. Two requests get the same template if and only if they are
    for the same kind and content. There are as many templates as kinds and contents were compiled. -/
theorem Fetched.one_template_per_content {cache : TemplateCache} {fetches : List Fetch} (fetched : Fetched cache fetches)
    (stable : Stable fetches) :
    (∀ earlier fetch later, fetches = earlier ++ fetch :: later → fetch.Answered earlier) ∧
    (∀ one ∈ fetches, ∀ two ∈ fetches, ∀ first second, one.result = .ok first → two.result = .ok second →
      (first.serial = second.serial ↔ one.key = two.key) ∧ (first = second ↔ one.key = two.key)) ∧
    cache.size = (fetches.filterMap Fetch.compiled?).toFinset.card := by
  obtain ⟨recalls, answered⟩ := fetched.recalls stable
  refine ⟨answered, fun one here two there first second found known => ?_, ?_⟩
  · have first_listed := (recalls.contents one.key first).2 ⟨one, here, found, rfl⟩
    have second_listed := (recalls.contents two.key second).2 ⟨two, there, known, rfl⟩
    have same : one.key = two.key → first = second := fun key => recalls.unique first_listed (key ▸ second_listed)
    have key : first.serial = second.serial → one.key = two.key := fun serial =>
      congrArg Prod.fst (List.inj_on_of_nodup_map recalls.numbered.serials first_listed second_listed serial)
    exact ⟨⟨key, fun equal => congrArg _ (same equal)⟩, ⟨fun equal => key (congrArg _ equal), same⟩⟩
  · have distinct := recalls.distinct
    rw [recalls.keys, List.nodup_reverse] at distinct
    rw [List.toFinset_card_of_nodup distinct, ← List.length_reverse, ← recalls.keys, List.length_map]
    rfl

namespace Fetched.Example

def reluctant : Client Unit := ⟨fun _ _ => pure (.error (.template (.stated "not yet"))), none⟩

/-- A client that makes everything a template without slots. -/
def willing : Client Unit := ⟨fun _ _ => pure (.ok ⟨0, []⟩), none⟩

def request (client : Client Unit) (kind : TemplateKind) (literal : Literal) (cache : TemplateCache) :
    Except Error SharedTemplate × Scene (Unit × List Question) :=
  (RenderM.templateFor client.overheard kind literal).runOn ⟨.empty, cache, ((), []), #[]⟩

def recalled (client : Client Unit) (kind : TemplateKind) (literal : Literal) (cache : TemplateCache) : Fetch :=
  ⟨cache, kind, literal, (request client kind literal cache).2.memory.2, (request client kind literal cache).1,
    (request client kind literal cache).2.cache⟩

def first : Fetch := recalled reluctant .html ⟨0, ["a", "b"]⟩ .empty

def second : Fetch := recalled willing .html ⟨0, ["a", "b"]⟩ first.after

def third : Fetch := recalled reluctant .html ⟨1, ["a", "b"]⟩ second.after

/-- The beginning of the first literal, at the same place. -/
def fourth : Fetch := recalled willing .html ⟨0, ["a"]⟩ third.after

def fifth : Fetch := recalled willing .svg ⟨1, ["a", "b"]⟩ fourth.after

theorem requests_fetched : Fetched fifth.after [first, second, third, fourth, fifth] :=
  ((((Fetched.fresh.fetched reluctant .html ⟨0, ["a", "b"]⟩ () .empty #[] rfl).fetched willing .html ⟨0, ["a", "b"]⟩ ()
    .empty #[] rfl).fetched reluctant .html ⟨1, ["a", "b"]⟩ () .empty #[] rfl).fetched willing .html ⟨0, ["a"]⟩ () .empty
      #[] rfl).fetched willing .svg ⟨1, ["a", "b"]⟩ () .empty #[] rfl

theorem requests_stable : Stable [first, second, third, fourth, fifth] := by
  simp [Stable, first, second, third, fourth, fifth, recalled, Literal.id]

end Fetched.Example

open Fetched.Example in
/-- Five requests, one of which fails and one of which is served without a client, leave three templates. -/
theorem Fetched.one_template_per_content_of_five : Fetched fifth.after [first, second, third, fourth, fifth] ∧
    Stable [first, second, third, fourth, fifth] ∧ third.Answered [first, second] ∧
    [first, second, third, fourth, fifth].map (fun fetch => fetch.result.toOption.map (·.serial)) =
      [none, some 0, some 0, some 1, some 2] ∧
    fifth.after.size = ([first, second, third, fourth, fifth].filterMap Fetch.compiled?).toFinset.card := by
  obtain ⟨answered, -, size⟩ := Fetched.one_template_per_content requests_fetched requests_stable
  exact ⟨requests_fetched, requests_stable, answered [first, second] third [fourth, fifth] rfl, by decide +kernel, size⟩

end DomParts
