import DomParts.Proofs.Keyed.Shortcuts
import DomParts.Proofs.Render.Depicts
import DomParts.Proofs.Tree.Runs

/-! # Rendering the same again

A part that shows what a value says has nothing to do when the value is rendered into it once more, provided
that the markers in it stand where they belong. Nobody is asked for anything then, and a list by key keeps
every item where it is, whether its keys are distinct or not.
-/

namespace DomParts

open Relation (ReflTransGen)

variable {σ α β : Type}

/-- What has to hold of a part in the tree so that it can be left as it is. -/
structure NodePart.Upright (tree : Tree) (part : NodePart) : Prop where
  held : ∃ container, tree.parentOf part.start = some container
  closed : part.content = .empty → tree.nextSibling part.start = some part.stop
  complete : ∀ keys parts stats, part.content = .keyed keys parts stats → keys.length = parts.length

/-- The part and all parts inside it can be left as they are. -/
def NodePart.Steady (tree : Tree) (part : NodePart) : Prop :=
  ∀ inner, ReflTransGen Holds part inner → inner.Upright tree

/-- The latest pass of each list by key, here or inside, kept all items where they were. -/
inductive NodePart.Rested : NodePart → Prop where
  | intro {part : NodePart}
      (counts : ∀ keys parts stats, part.content = .keyed keys parts stats → stats = { updated := parts.length })
      (inside : ∀ inner, part.Holds inner → inner.Rested) : part.Rested

/-- A content that makes a part rested. -/
structure Content.Rested (content : Content) : Prop where
  counts : ∀ keys parts stats, content = .keyed keys parts stats → stats = { updated := parts.length }
  inside : ∀ inner ∈ content.inside, inner.Rested

/-- A computation that does nothing but report. -/
def RenderM.Idles (act : RenderM σ α) (scene : Scene σ) (shows : α → Prop) : Prop :=
  act.Leads scene (fun result after => scene.Same after ∧ shows result) fun _ _ => False

/-- A renderer that has nothing to do where its value is shown already. -/
def Rendering.Idle (item : Rendering σ) : Prop := ∀ (part : NodePart) (scene : Scene σ),
  Depicts scene.cache item.value part.content → part.Steady scene.tree → (item.render part).Idles scene Content.Rested

namespace NodePart

variable {tree : Tree} {part inner outer : NodePart}

theorem Steady.upright (steady : part.Steady tree) : part.Upright tree := steady part .refl

theorem Steady.inside (steady : outer.Steady tree) (holds : outer.Holds inner) : inner.Steady tree :=
  fun deeper way => steady deeper (way.head holds)

theorem Steady.restage (steady : part.Steady tree) (pending : Option Value) :
    ({ part with pending } : NodePart).Steady tree := by
  intro inner way
  rcases ReflTransGen.cases_head_iff.1 way with rfl | ⟨next, holds, onward⟩
  · exact ⟨steady.upright.held, steady.upright.closed, steady.upright.complete⟩
  · exact steady inner (onward.head (show part.Holds next from holds))

theorem rested_iff : part.Rested ↔ part.content.Rested :=
  ⟨fun ⟨counts, inside⟩ => ⟨counts, inside⟩, fun ⟨counts, inside⟩ => ⟨counts, inside⟩⟩

theorem Rested.descend (rested : outer.Rested) (way : ReflTransGen Holds outer inner) : inner.Rested := by
  induction way with
  | refl => exact rested
  | tail _ holds ih => exact (rested_iff.1 ih).inside _ holds

end NodePart

namespace Content

variable {parts : List NodePart} {shown : TemplateInstance}

theorem rested_empty : Content.empty.Rested := ⟨nofun, by simp [inside, items]⟩

theorem rested_text (data : String) : (Content.text data).Rested := ⟨nofun, by simp [inside, items]⟩

theorem rested_node (id : NodeId) : (Content.node id).Rested := ⟨nofun, by simp [inside, items]⟩

theorem rested_list (rested : ∀ part ∈ parts, part.Rested) : (Content.list parts).Rested := ⟨nofun, rested⟩

theorem rested_keyed (keys : List Key) (rested : ∀ part ∈ parts, part.Rested) :
    (Content.keyed keys parts { updated := parts.length }).Rested :=
  ⟨fun _ _ _ same => by cases same; rfl, rested⟩

theorem rested_template (rested : ∀ part ∈ shown.parts, ∀ inner ∈ part.node?, inner.Rested) :
    (Content.template shown).Rested := by
  refine ⟨nofun, fun inner member => ?_⟩
  obtain ⟨part, listed, same⟩ := List.mem_filterMap.1 member
  exact rested part listed inner same

end Content

namespace RenderM

variable {act : RenderM σ α} {next : α → RenderM σ β} {scene : Scene σ} {shows good : α → Prop} {further : β → Prop}

theorem idles_pure {result : α} (here : shows result) : (pure result : RenderM σ α).Idles scene shows := ⟨.refl _, here⟩

theorem idles_note (event : Event) : (note event : RenderM σ Unit).Idles scene fun _ => True :=
  ⟨⟨rfl, rfl, rfl⟩, trivial⟩

theorem Idles.bind (first : act.Idles scene shows)
    (rest : ∀ result after, scene.Same after → shows result → (next result).Idles after further) :
    (act >>= next).Idles scene further := by
  unfold Idles
  rw [leads_bind]
  refine Leads.imp first fun result between done => ?_
  exact Leads.imp (rest result between done.1 done.2) fun _ _ last => ⟨done.1.trans last.1, last.2⟩

end RenderM

namespace NodePart

open RenderM

variable {item : Rendering σ} {part : NodePart} {scene : Scene σ}

theorem container_idles (upright : part.Upright scene.tree) :
    (part.container : RenderM σ NodeId).Idles scene fun _ => True := by
  obtain ⟨container, parent⟩ := upright.held
  unfold Idles
  simp only [NodePart.container, leads_bind, leads_look, leads_require, parent]
  exact ⟨.refl _, trivial⟩

theorem removeContent_idles (upright : part.Upright scene.tree) (content : part.content = .empty) :
    (part.removeContent : RenderM σ Unit).Idles scene fun _ => True := by
  obtain ⟨container, parent⟩ := upright.held
  unfold Idles
  simp only [removeContent, NodePart.container, leads_bind, leads_look, leads_require, upright.closed content, parent,
    removeRun, leads_editInSteps, Tree.removeRun, Tree.overRun_stop, leads_note, leads_pure]
  exact ⟨⟨rfl, rfl, rfl⟩, trivial⟩

theorem renderWith_idles (idle : item.Idle) (depicts : Depicts scene.cache item.value part.content)
    (steady : part.Steady scene.tree) : (part.renderWith item).Idles scene Rested := by
  have usable : ({ part with pending := none } : NodePart).isPoisoned = false := depicts.usable
  unfold Idles
  simp only [renderWith, commitWith, stage, usable, Bool.false_eq_true, if_false, settle, attend, leads_orThrow_carry,
    leads_tryCatch]
  exact Leads.mono (idle { part with pending := none } scene depicts (steady.restage none))
    (fun _ _ done => ⟨done.1, rested_iff.2 done.2⟩) fun _ _ => False.elim

end NodePart

namespace Part

open RenderM

variable {item : Rendering σ} {part : Part} {scene : Scene σ}

theorem commitWith_idles (idle : item.Idle) (depicts : DepictsPart scene.cache item.value part)
    (steady : ∀ inner ∈ part.node?, inner.Steady scene.tree) :
    ((part.stage item.value).commitWith item.render).orThrow.Idles scene
      fun part => ∀ inner ∈ part.node?, inner.Rested := by
  unfold Idles
  cases depicts with
  | node depicts =>
      simp only [Part.stage, Part.commitWith, leads_orThrow_map]
      refine Leads.imp (NodePart.renderWith_idles idle depicts (steady _ rfl)) fun _ _ done => ⟨done.1, ?_⟩
      rintro inner ⟨⟩
      exact done.2
  | @label _ part same =>
      simp only [Part.stage, Part.commitWith, leads_orThrow_map, AttributePart.commit, AttributePart.stage,
        AttributePart.assign]
      -- The text or its absence was committed before, so nothing is assigned.
      cases value : item.value with
      | text data =>
          rw [value] at same
          have committed : part.committed = some data := (Option.some.inj same).symm
          simp only [committed, if_true, leads_orThrow_done]
          exact ⟨.refl _, fun inner member => by cases member⟩
      | nothing =>
          rw [value] at same
          have committed : part.committed = none := (Option.some.inj same).symm
          simp only [committed, Option.isNone_none, if_true, leads_orThrow_done]
          exact ⟨.refl _, fun inner member => by cases member⟩
      | _ =>
          rw [value] at same
          cases same

theorem commitEach_idles {items : List (Rendering σ)} {parts : List Part} (idle : ∀ item ∈ items, item.Idle)
    (depicts : List.Forall₂ (fun item part => DepictsPart scene.cache item.value part) items parts)
    (steady : ∀ part ∈ parts, ∀ inner ∈ part.node?, inner.Steady scene.tree) :
    (commitEach (parts.zipWith (fun part item => (part.stage item.value, item.render)) items)).orThrow.Idles scene
      fun parts => ∀ part ∈ parts, ∀ inner ∈ part.node?, inner.Rested := by
  generalize known : scene.cache = cache at depicts
  induction depicts generalizing scene with
  | nil => exact ⟨.refl _, nofun⟩
  | @cons item part items parts here rest ih =>
      rw [List.forall_mem_cons] at idle steady
      unfold Idles
      rw [List.zipWith_cons_cons, leads_commitEach]
      refine Leads.imp (commitWith_idles idle.1 (known ▸ here) steady.1) fun part after one => ?_
      have others : (commitEach (parts.zipWith (fun part item => (part.stage item.value, item.render)) items)).orThrow.Idles
          after fun parts => ∀ part ∈ parts, ∀ inner ∈ part.node?, inner.Rested :=
        ih idle.2 (one.1.tree ▸ steady.2) (one.1.cache.trans known)
      exact Leads.imp others fun _ _ last => ⟨one.1.trans last.1, List.forall_mem_cons.2 ⟨one.2, last.2⟩⟩

end Part

namespace Render

open RenderM NodePart

variable {client : Client σ} {part : NodePart} {scene : Scene σ}

section List

variable {items : List (Rendering σ)} {parts : List NodePart} (idle : ∀ item ∈ items, item.Idle)
  (depicts : List.Forall₂ (fun item part => Depicts scene.cache item.value part.content) items parts)
  (steady : ∀ part ∈ parts, part.Steady scene.tree)
include idle depicts steady

theorem intoParts_idles (container stop : NodeId) :
    (intoParts container stop parts items).Idles scene fun parts => ∀ part ∈ parts, part.Rested := by
  generalize known : scene.cache = cache at depicts
  induction depicts generalizing scene with
  | nil =>
      rw [intoParts]
      exact idles_pure (List.forall_mem_nil _)
  | cons here _ ih =>
      rw [List.forall_mem_cons] at idle steady
      rw [intoParts]
      refine (renderWith_idles idle.1 (known ▸ here) steady.1).bind fun shown after same rested => ?_
      refine (ih idle.2 (same.tree ▸ steady.2) (same.cache.trans known)).bind fun others _ _ rest => ?_
      exact idles_pure (List.forall_mem_cons.2 ⟨rested, rest⟩)

theorem list_idles (upright : part.Upright scene.tree) (content : part.content = .list parts) :
    (list items part).Idles scene Content.Rested := by
  rw [list_of_parts content]
  refine (container_idles upright).bind fun container after same _ => ?_
  refine (intoParts_idles idle (same.cache ▸ depicts) (same.tree ▸ steady) container part.stop).bind
    fun shown last _ rested => ?_
  have length := depicts.length_eq
  rw [truncate, length, List.getElem?_eq_none (Nat.le_refl _), pure_bind]
  exact idles_pure (Content.rested_list rested)

end List

section Template

variable {kind : TemplateKind} {literal : Literal} {items : List (Rendering σ)} {shown : TemplateInstance}
  {shared : SharedTemplate}

theorem update_idles (idle : ∀ item ∈ items, item.Idle)
    (depicts : List.Forall₂ (fun item part => DepictsPart scene.cache item.value part) items shown.parts)
    (steady : ∀ part ∈ shown.parts, ∀ inner ∈ part.node?, inner.Steady scene.tree) :
    (shown.update items).orThrow.Idles scene fun shown => ∀ part ∈ shown.parts, ∀ inner ∈ part.node?, inner.Rested := by
  unfold Idles
  rw [TemplateInstance.update, if_pos depicts.length_eq, leads_orThrow_map]
  exact Part.commitEach_idles idle depicts steady

/-- The template is found by the place of its literal, and it is the one that is shown. -/
theorem template_idles (idle : ∀ item ∈ items, item.Idle) (content : part.content = .template shown)
    (known : scene.cache.findIdentity? kind literal = some shared) (serial : shown.template.serial = shared.serial)
    (depicts : List.Forall₂ (fun item part => DepictsPart scene.cache item.value part) items shown.parts)
    (steady : ∀ part ∈ shown.parts, ∀ inner ∈ part.node?, inner.Steady scene.tree) :
    (template client kind literal items part).Idles scene Content.Rested := by
  have found : (templateFor client kind literal).Idles scene fun found => found = shared :=
    templateFor_cases (fun other same => ⟨⟨rfl, rfl, rfl⟩, Option.some.inj (same.symm.trans known)⟩)
      (fun missed => absurd (missed.symm.trans known) nofun) (fun missed => absurd (missed.symm.trans known) nofun)
      fun missed => absurd (missed.symm.trans known) nofun
  have here : part.content.instanceOf? shared = some shown := by
    rw [content, Content.instanceOf?, if_pos serial]
  refine found.bind fun other after same is => ?_
  subst is
  simp only [here]
  refine (idles_note _).bind fun _ noted same' _ => ?_
  have same := same.trans same'
  refine (update_idles idle (same.cache ▸ depicts) (same.tree ▸ steady)).bind fun new _ _ rested => ?_
  exact idles_pure (Content.rested_template rested)

end Template

end Render

namespace Keyed.Setting

open RenderM NodePart

/-- The pass once the first items are in place and the others are not. -/
def settled (done : List NodePart) (count : Nat) : Pass :=
  ⟨done.map some ++ List.replicate count none, { updated := done.length }⟩

theorem performAll_idles {scene : Scene σ} {setting : Setting σ} {items before : List (Rendering σ)}
    {olds front done : List NodePart} {keys : List Key} (idle : ∀ item ∈ items, item.Idle)
    (depicts : List.Forall₂ (fun item part => Depicts scene.cache item.value part.content) items olds)
    (steady : ∀ part ∈ olds, part.Steady scene.tree) (old : setting.old = front ++ olds)
    (wanted : setting.items = before ++ items) (inFront : front.length = done.length)
    (earlier : before.length = done.length) (length : keys.length = olds.length) (rested : ∀ part ∈ done, part.Rested) :
    (setting.performAll (settled done olds.length) ((Window.numbered done.length keys).map fun entry =>
      .keep .headMatch entry.index entry.index)).Idles scene fun pass =>
        (∀ part ∈ pass.parts, part.Rested) ∧ pass.stats = { updated := pass.parts.length } := by
  generalize known : scene.cache = cache at depicts
  induction depicts generalizing scene front before done keys with
  | nil =>
      obtain rfl : keys = [] := List.eq_nil_of_length_eq_zero length
      refine idles_pure ?_
      simpa [settled, Pass.parts] using rested
  | @cons item part items olds here _ ih =>
      obtain ⟨key, keys, rfl⟩ := List.exists_cons_of_length_eq_add_one length
      rw [List.forall_mem_cons] at idle steady
      have hit : setting.old[done.length]? = some part := by simp [old, ← inFront]
      have asked : setting.items[done.length]? = some item := by simp [wanted, ← earlier]
      have kept : (setting.perform (settled done (part :: olds).length) (.keep .headMatch done.length done.length)).Idles
          scene fun pass => ∃ new : NodePart, new.Rested ∧ pass = settled (done ++ [new]) olds.length := by
        simp only [perform, keep, hit, asked]
        refine (idles_note _).bind fun _ noted same _ => ?_
        refine (renderWith_idles idle.1 ((same.cache.trans known).symm ▸ here) (same.tree ▸ steady.1)).bind
          fun new after _ rested => idles_pure ⟨new, rested, ?_⟩
        simp [settled, Pass.place, Pass.count, List.replicate_succ]
      refine kept.bind ?_
      rintro _ after same ⟨new, fresh, rfl⟩
      have split : setting.old = (front ++ [part]) ++ olds := by simpa using old
      have split' : setting.items = (before ++ [item]) ++ items := by simpa using wanted
      have onward : ∀ part ∈ done ++ [new], part.Rested :=
        List.forall_mem_append.2 ⟨rested, List.forall_mem_singleton.2 fresh⟩
      have count : (done ++ [new]).length = done.length + 1 := by simp
      rw [← count]
      exact ih idle.2 (same.tree ▸ steady.2) split split' (by simp [inFront]) (by simp [earlier])
        (Nat.succ.inj length) onward
        (same.cache.trans known)

end Keyed.Setting

namespace Render

open RenderM Keyed

variable {client : Client σ} {part : NodePart} {scene : Scene σ} {items : List (Key × Rendering σ)}
  {parts : List NodePart} {stats : Stats}

theorem keyed_idles (idle : ∀ item ∈ items, item.2.Idle)
    (depicts : List.Forall₂ (fun item part => Depicts scene.cache item.2.value part.content) items parts)
    (steady : ∀ part ∈ parts, part.Steady scene.tree) (upright : part.Upright scene.tree)
    (content : part.content = .keyed (items.map (·.1)) parts stats) :
    (keyed client items part).Idles scene Content.Rested := by
  have length := depicts.length_eq
  have begun : Pass.start items.length = Setting.settled [] parts.length := by
    rw [length]
    rfl
  have passes : ∀ {setting : Setting σ} {between : Scene σ}, setting.old = parts → setting.items = items.map (·.2) →
      scene.Same between → (do
        let pass ← setting.performAll (.start items.length) (plan (items.map (·.1)) (items.map (·.1)))
        note (.passDone pass.stats)
        return .keyed (items.map (·.1)) pass.parts pass.stats : RenderM σ Content).Idles between Content.Rested := by
    intro setting between old wanted same
    have each : List.Forall₂ (fun item part => Depicts between.cache item.value part.content) (items.map (·.2)) parts :=
      List.forall₂_map_left_iff.2 (same.cache ▸ depicts)
    rw [plan, planWindows_self, begun]
    refine (Setting.performAll_idles (List.forall_mem_map.2 idle) each (same.tree ▸ steady)
      (show setting.old = [] ++ parts from old) (show setting.items = [] ++ items.map (·.2) from wanted) rfl rfl
      (by simpa using length) (List.forall_mem_nil _)).bind ?_
    rintro pass after - ⟨rested, counted⟩
    refine (idles_note _).bind fun _ _ _ _ => idles_pure ?_
    rw [counted]
    exact Content.rested_keyed _ rested
  rw [keyed_of_keyed content, keyedFrom]
  refine (NodePart.container_idles upright).bind fun container after same _ => ?_
  by_cases some : (Window.ofKeys (items.map (·.1))).duplicates > 0
  · simp only [some, if_true]
    exact (idles_note _).bind fun _ noted same' _ => passes rfl rfl (same.trans same')
  · simp only [some, if_false]
    exact passes rfl rfl same

end Render

namespace Value

open RenderM

theorem idle (client : Client σ) (value : Value) : (value.rendering client).Idle := by
  induction value using Value.nested with
  | nothing =>
      intro part scene depicts steady
      generalize content : part.content = shown at depicts
      cases depicts
      exact (NodePart.removeContent_idles steady.upright content).bind fun _ _ _ _ => idles_pure Content.rested_empty
  | text data =>
      intro part scene depicts steady
      generalize content : part.content = shown at depicts
      cases depicts
      have same : part.content.text? = some data := by rw [content, Content.text?]
      simp only [rendering, render, Render.text, same, if_true]
      exact idles_pure (Content.rested_text data)
  | node id =>
      intro part scene depicts steady
      generalize content : part.content = shown at depicts
      cases depicts
      have same : part.content.node? = some id := by rw [content, Content.node?]
      simp only [rendering, render, Render.node, same, if_true]
      exact idles_pure (Content.rested_node id)
  | template kind literal values ih =>
      intro part scene depicts steady
      generalize content : part.content = shown at depicts
      cases depicts with
      | @template _ _ _ shown shared known serial parts =>
          simp only [rendering, render, renderings_eq_map]
          refine Render.template_idles (List.forall_mem_map.2 ih) content known serial (List.forall₂_map_left_iff.2 parts) ?_
          intro inner member node same
          have holds : part.Holds node := by
            rw [NodePart.Holds, content]
            exact List.mem_filterMap.2 ⟨inner, member, same⟩
          exact steady.inside holds
  | list items ih =>
      intro part scene depicts steady
      generalize content : part.content = shown at depicts
      cases depicts with
      | @list _ parts each =>
          simp only [rendering, render, renderings_eq_map]
          refine Render.list_idles (List.forall_mem_map.2 ih) (List.forall₂_map_left_iff.2 each) ?_ steady.upright content
          exact fun inner member => steady.inside (show inner ∈ part.content.inside from content ▸ member)
  | keyed items ih =>
      intro part scene depicts steady
      generalize content : part.content = shown at depicts
      cases depicts with
      | @keyed _ parts stats each =>
          have length : parts.length = items.length := by
            have := steady.upright.complete _ _ _ content
            simpa using this.symm
          simp only [rendering, render, keyedRenderings_eq_map]
          refine Render.keyed_idles (List.forall_mem_map.2 ih) (List.forall₂_map_left_iff.2 (each length)) ?_ steady.upright
            (by simpa [Function.comp_def] using content)
          exact fun inner member => steady.inside (show inner ∈ part.content.inside from content ▸ member)

end Value

end DomParts
