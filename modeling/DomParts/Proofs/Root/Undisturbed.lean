import DomParts.Proofs.Render.Clearing
import DomParts.Proofs.Root.History
import DomParts.Proofs.Root.Prepared

/-! # What roots show

As long as nobody else touches the tree, what a root shows once a value was rendered into it depends on the
value alone: on none of the values before, on none of the failures and on none of the other roots. What a
template is does not depend on them either.
-/

namespace DomParts

variable {σ : Type}

/-- Whether a value may be rendered into the root with this number: it shows elements that are at home in that
    root, each of them once. -/
structure Stage.Welcomes (home : NodeId → Nat) (stage : Stage σ) (number : Nat) (value : Value) : Prop where
  allowed : stage.Allows value
  once : value.leaves.Nodup
  own : ∀ id ∈ value.leaves, home id = number

/-- What creating, rendering and clearing roots leads to while nobody else touches the tree. The nodes on the
    shelf are for templates only; each node that a value may show is at home in one root. -/
inductive Undisturbed (client : Client σ) (shelf : σ → NodeId → Prop) (home : NodeId → Nat) : Stage σ → Prop
  /-- A tree before anything was rendered. -/
  | fresh {tree : Tree} {memory : σ} {guest : NodeId → Prop} (wellFormed : tree.WellFormed)
      (invited : Invited tree guest) (shelved : Shelved tree (shelf memory)) (apart : ∀ id, shelf memory id → ¬ guest id) :
      Undisturbed client shelf home
        ⟨.onTree tree memory, [], fun id => tree.size > id ∧ ¬ shelf memory id, guest⟩
  /-- The caller makes nodes. -/
  | grown {stage : Stage σ} (undisturbed : Undisturbed client shelf home stage) {tree : Tree} {guest : NodeId → Prop}
      (wellFormed : tree.WellFormed) (extended : stage.scene.tree.Extends tree) (invited : Invited tree guest)
      (old : ∀ id, stage.scene.tree.size > id → (guest id ↔ stage.guest id)) :
      Undisturbed client shelf home ⟨{ stage.scene with tree }, stage.parts,
        fun id => stage.made id ∨ stage.scene.tree.size ≤ id ∧ tree.size > id, guest⟩
  /-- A root is put at the end of a container. -/
  | rooted {stage : Stage σ} (undisturbed : Undisturbed client shelf home stage) {container : NodeId} {root : Root}
      {scene : Scene σ} (made : stage.made container) (own : ¬ stage.guest container)
      (ran : (Root.create container).runOn stage.scene = (.ok root, scene)) :
      Undisturbed client shelf home { stage with scene, parts := stage.parts ++ [root.part] }
  /-- A value is rendered into a root, whether this goes well or not. -/
  | rendered {stage : Stage σ} (undisturbed : Undisturbed client shelf home stage) {left right : List NodePart}
      {part : NodePart} (parts : stage.parts = left ++ part :: right) {value : Value}
      (welcomes : stage.Welcomes home left.length value) {root : Root} {result : Except Error Unit} {scene : Scene σ}
      (ran : ((Root.mk part).render client value).runOn stage.scene = ((root, result), scene)) :
      Undisturbed client shelf home { stage with scene, parts := left ++ root.part :: right }
  /-- A root is cleared, whether this goes well or not. -/
  | cleared {stage : Stage σ} (undisturbed : Undisturbed client shelf home stage) {left right : List NodePart}
      {part : NodePart} (parts : stage.parts = left ++ part :: right) {root : Root} {result : Except Error Unit}
      {scene : Scene σ} (ran : (Root.mk part).clear.runOn stage.scene = ((root, result), scene)) :
      Undisturbed client shelf home { stage with scene, parts := left ++ root.part :: right }

/-- What a root shows looks like this, given the nodes in it that the host put there. -/
def Root.Displays (sight : Sight) (tree : Tree) (root : Root) (hosts : List NodeId) (shown : List Picture) : Prop :=
  ∃ container front inner rest,
    tree.childrenOf container = front ++ root.part.start :: (inner ++ root.part.stop :: rest) ∧
      tree.pictures sight hosts inner = shown

namespace NodePart

variable {client : Client σ} {part new : NodePart} {value : Value} {scene after : Scene σ}

theorem commit_depicts (staged : part.pending = some value)
    (ran : (part.commit client).runOn scene = ((new, .ok ()), after)) : Depicts after.cache value new.content := by
  exact (commit_ok staged (value.faithful client _ scene) ran).2

theorem commit_markers (client : Client σ) (part : NodePart) (scene : Scene σ) :
    ((part.commit client).runOn scene).1.1.start = part.start ∧ ((part.commit client).runOn scene).1.1.stop = part.stop := by
  cases staged : part.pending with
  | none =>
      rw [commit_of_none staged]
      exact ⟨rfl, rfl⟩
  | some value =>
      by_cases poisoned : part.isPoisoned = true
      · rw [commit_of_poisoned staged poisoned]
        exact ⟨rfl, rfl⟩
      · rw [commit_of_usable staged (by simpa using poisoned)]
        simp only [settle, Attempt.runOn, Attempt.carry]
        split <;> exact ⟨rfl, rfl⟩

theorem commit_keeps (client : Client σ) (part : NodePart) (scene : Scene σ) :
    scene.cache.Keeps ((part.commit client).runOn scene).2.cache := by
  cases staged : part.pending with
  | none =>
      rw [commit_of_none staged]
      exact .refl _
  | some value =>
      by_cases poisoned : part.isPoisoned = true
      · rw [commit_of_poisoned staged poisoned]
        exact .refl _
      · have attended : (attend { part with pending := none } (value.render client)).Leads scene
            (fun _ after => scene.cache.Keeps after.cache) fun _ after => scene.cache.Keeps after.cache :=
          attend_leads.2 (RenderM.Leads.mono (value.faithful client { part with pending := none } scene)
            (fun _ _ done => done.1) fun _ _ keeps => keeps)
        rw [commit_of_usable staged (by simpa using poisoned)]
        rcases Attempt.carry_ends attended (fun content => ({ part with content, pending := none } : NodePart))
          { part with content := .poisoned, pending := none } with ⟨_, after, done, keeps⟩ | ⟨_, after, failed, keeps⟩
        · exact congrArg (fun ended => scene.cache.Keeps ended.2.cache) done ▸ keeps
        · exact congrArg (fun ended => scene.cache.Keeps ended.2.cache) failed ▸ keeps

end NodePart

namespace Root

theorem part_ran {root : Root} {result : Except Error Unit} {scene after : Scene σ} {attempt : Attempt σ NodePart}
    (ran : (attempt.map Root.mk).runOn scene = ((root, result), after)) :
    attempt.runOn scene = ((root.part, result), after) := by
  have same : (attempt.map Root.mk).runOn scene =
    ((⟨(attempt.runOn scene).1.1⟩, (attempt.runOn scene).1.2), (attempt.runOn scene).2) := rfl
  rw [same] at ran
  cases ran
  rfl

end Root

namespace Layout

open Realm

variable {client : Client σ} {shelf : σ → NodeId → Prop} {home : NodeId → Nat} {stage : Stage σ} {kept : NodeId → Prop}
  {lots ahead behind : List Lot} {lot new : Lot} {taken : List NodeId}

/-- A root may only miss guests that are at home elsewhere. -/
def Owed (home : NodeId → Nat) (lots : List Lot) : Prop :=
  ∀ (number : Nat) (lot : Lot), lots[number]? = some lot → ∀ id, lot.slack.lost id → home id ≠ number

namespace Owed

theorem append (owed : Owed home lots) (none : ∀ id, ¬ lot.slack.lost id) : Owed home (lots ++ [lot]) := by
  intro number other listed id lost
  rw [List.getElem?_append] at listed
  split at listed
  · exact owed number other listed id lost
  · cases List.mem_singleton.1 (List.mem_of_getElem? listed)
    exact absurd lost (none id)

theorem worked (owed : Owed home (ahead ++ lot :: behind))
    (own : ∀ id, new.slack.lost id → lot.slack.lost id ∨ home id ≠ ahead.length)
    (taken_own : ∀ id ∈ taken, home id = ahead.length) :
    Owed home (ahead.map (Lot.without taken) ++ new :: behind.map (Lot.without taken)) := by
  have elsewhere : ∀ (number : Nat) old, number ≠ ahead.length → (ahead ++ lot :: behind)[number]? = some old →
      ∀ id, (old.without taken).slack.lost id → home id ≠ number := by
    intro number old other listed id lost
    rcases lost with lost | gone
    · exact owed number old listed id lost
    · exact fun same => other (same.symm.trans (taken_own id gone))
  intro number other listed id lost
  rcases Nat.lt_trichotomy number ahead.length with before | rfl | beyond
  · rw [List.getElem?_append_left (by simpa using before), List.getElem?_map, Option.map_eq_some_iff] at listed
    obtain ⟨old, listed, rfl⟩ := listed
    exact elsewhere number old (Nat.ne_of_lt before) (by rwa [List.getElem?_append_left before]) id lost
  · rw [List.getElem?_append_right (by simp), List.length_map, Nat.sub_self, List.getElem?_cons_zero] at listed
    cases listed
    rcases own id lost with lost | other
    · exact owed ahead.length lot (by simp) id lost
    · exact other
  · obtain ⟨distance, rfl⟩ := Nat.exists_eq_add_of_lt beyond
    have place : ahead.length + distance + 1 - ahead.length = distance + 1 := by omega
    rw [List.getElem?_append_right (by simp; omega), List.length_map, place, List.getElem?_cons_succ, List.getElem?_map,
      Option.map_eq_some_iff] at listed
    obtain ⟨old, listed, rfl⟩ := listed
    refine elsewhere _ old (Nat.ne_of_gt beyond) ?_ id lost
    rwa [List.getElem?_append_right (by omega), place, List.getElem?_cons_succ]

end Owed

/-- What stands of every stage that is reached undisturbed. -/
structure Tended (client : Client σ) (shelf : σ → NodeId → Prop) (home : NodeId → Nat) (stage : Stage σ)
    (kept : NodeId → Prop) (lots : List Lot) : Prop where
  standing : (preparedRealm client shelf stage.guest).Standing stage.made ⟨stage.scene, kept⟩ lots
  parts : lots.map (·.plot.part) = stage.parts
  owed : Owed home lots

namespace Tended

variable {value : Value}

theorem render (prepares : client.Prepares shelf) (tended : Tended client shelf home stage kept (ahead ++ lot :: behind))
    (welcomes : stage.Welcomes home ahead.length value) :
    ∃ result scene held taken new,
      ((lot.plot.part.stage value).commit client).runOn stage.scene = ((new.plot.part, result), scene) ∧
      Tended client shelf home
        { stage with
          scene
          parts := ahead.map (·.plot.part) ++ new.plot.part :: behind.map (·.plot.part) }
        held (ahead.map (Lot.without taken) ++ new :: behind.map (Lot.without taken)) ∧
      (preparedRealm client shelf stage.guest).Change ⟨stage.scene, kept⟩ ⟨scene, held⟩
        (fun id => id = lot.container ∨ id ∈ lot.plot.owned) taken := by
  have lawful := prepared_lawful prepares stage.guest
  have staged := tended.standing.relabel lawful (lot.plot.part.stage value) rfl rfl rfl
  simp only [lots_without_nil] at staged
  obtain ⟨result, scene, held, taken, new, ran, standing, -, among, change, lost⟩ :=
    staged.commit lawful fun other same => Option.some.inj same ▸ welcomes.allowed
  refine ⟨result, scene, held, taken, new, ran, ⟨standing, ?_, tended.owed.worked (fun id gone => ?_)
    fun id gone => ?_⟩, change⟩
  · simp only [List.map_append, List.map_cons, parts_without]
  · rcases lost id gone with gone | ⟨other, same, twice⟩
    · exact .inl gone
    · cases Option.some.inj same
      exact absurd (List.nodup_iff_count_le_one.1 welcomes.once id) (Nat.not_le.2 twice)
  · obtain ⟨other, same, leaf⟩ := among id gone
    cases Option.some.inj same
    exact welcomes.own id leaf

theorem clear (prepares : client.Prepares shelf) (tended : Tended client shelf home stage kept (ahead ++ lot :: behind)) :
    ∃ scene new, (lot.plot.part.clear : Attempt σ NodePart).runOn stage.scene = ((new.plot.part, .ok ()), scene) ∧
      Tended client shelf home
        { stage with
          scene
          parts := ahead.map (·.plot.part) ++ new.plot.part :: behind.map (·.plot.part) }
        kept (ahead ++ new :: behind) := by
  obtain ⟨scene, ran, standing, -⟩ := tended.standing.clear (prepared_lawful prepares stage.guest) noSlack
  rw [lots_without_nil, lots_without_nil] at standing
  refine ⟨scene, _, ran, standing, by simp only [List.map_append, List.map_cons], ?_⟩
  have worked : Owed home (ahead.map (Lot.without []) ++ ⟨lot.container,
      ⟨{ lot.plot.part with content := .empty }, [], []⟩, noSlack⟩ :: behind.map (Lot.without [])) :=
    tended.owed.worked (fun _ none => none.elim) (by simp)
  rwa [lots_without_nil, lots_without_nil] at worked

end Tended

end Layout

open Layout in
theorem Undisturbed.tended {client : Client σ} {shelf : σ → NodeId → Prop} {home : NodeId → Nat}
    (prepares : client.Prepares shelf) {stage : Stage σ} (undisturbed : Undisturbed client shelf home stage) :
    ∃ kept lots, Tended client shelf home stage kept lots := by
  induction undisturbed with
  | @fresh tree memory guest wellFormed invited shelved apart =>
      have orderly : Scene.Orderly client shelf (.onTree tree memory) := Scene.orderly_onTree shelved
      refine ⟨fun _ => False, [], ⟨?_, ?_, ?_, ?_, by simp, by simp, by simp, .nil, by simp, by simp⟩, rfl,
        by simp [Owed]⟩
      · exact ⟨wellFormed, Nat.zero_le _, orderly, invited.present, invited.below, fun _ => orderly.aside_exists,
          fun _ _ => orderly.aside_below, fun id stock => apart id (Scene.aside_onTree.1 stock),
          fun _ answered => absurd answered List.not_mem_nil, by simp, by simp⟩
      · exact fun id known => known.1
      · intro id parent known own link
        have child := wellFormed.mem_childrenOf link
        exact ⟨⟨wellFormed.lt_size_of_parent link, fun here => known.2 (shelved.below parent id here child)⟩,
          fun guest => own (invited.below parent id guest child)⟩
      · exact fun id known own => ⟨not_false, fun stock => known.2 (Scene.aside_onTree.1 stock)⟩
  | @grown stage undisturbed tree guest wellFormed extended invited old ih =>
      obtain ⟨kept, lots, tended⟩ := ih
      exact ⟨kept, lots, tended.standing.grown (prepared_lawful prepares _)
        ⟨wellFormed, extended, invited.present, invited.below, old⟩, tended.parts, tended.owed⟩
  | @rooted stage undisturbed container root scene made own ran ih =>
      obtain ⟨kept, lots, tended⟩ := ih
      have lawful := prepared_lawful prepares stage.guest
      have leads : (Root.create container).Leads stage.scene (fun root scene =>
          ∃ lots, Tended client shelf home { stage with scene, parts := stage.parts ++ [root.part] } kept lots)
          fun _ _ => False := by
        simp only [Root.create, RenderM.leads_bind, RenderM.leads_note, RenderM.leads_pure]
        refine (tended.standing.append lawful made own noSlack).mono ?_ fun _ _ none => none
        rintro _ scene ⟨rfl, standing, -⟩
        have noted := standing.noted lawful .rootCreated fun _ => by simp
        exact ⟨_, noted, by simp [tended.parts], tended.owed.append fun _ none => none⟩
      exact ⟨kept, leads.ok ran⟩
  | @rendered stage undisturbed left right part parts value welcomes root result scene ran ih =>
      obtain ⟨kept, lots, tended⟩ := ih
      obtain ⟨ahead, lot, behind, rfl, rfl, rfl, rfl⟩ := split_lots (tended.parts.trans parts)
      rw [List.length_map] at welcomes
      obtain ⟨_, _, held, taken, new, committed, tended, -⟩ := tended.render prepares welcomes
      have same := (Root.part_ran ran).symm.trans committed
      rw [Prod.mk.injEq, Prod.mk.injEq] at same
      obtain ⟨⟨here, -⟩, rfl⟩ := same
      rw [here]
      exact ⟨held, _, tended⟩
  | @cleared stage undisturbed left right part parts root result scene ran ih =>
      obtain ⟨kept, lots, tended⟩ := ih
      obtain ⟨ahead, lot, behind, rfl, rfl, rfl, rfl⟩ := split_lots (tended.parts.trans parts)
      obtain ⟨_, new, cleared, tended⟩ := tended.clear prepares
      have same := (Root.part_ran ran).symm.trans cleared
      rw [Prod.mk.injEq, Prod.mk.injEq] at same
      obtain ⟨⟨here, -⟩, rfl⟩ := same
      rw [here]
      exact ⟨kept, _, tended⟩

open Layout in
/-- Whatever a render comes to, the templates of literals stay what the client made of them; and if it goes well,
    the root shows what the value looks like, between the markers that it had. It does so down to the last node if no
    template is a single text with something below it, and otherwise as far as markup tells. -/
theorem Undisturbed.displays {client : Client σ} {shelf : σ → NodeId → Prop} {home : NodeId → Nat}
    (prepares : client.Prepares shelf) {stage : Stage σ} (undisturbed : Undisturbed client shelf home stage)
    {left right : List NodePart} {part : NodePart} (parts : stage.parts = left ++ part :: right) {value : Value}
    (welcomes : stage.Welcomes home left.length value) {root : Root} {result : Except Error Unit} {scene : Scene σ}
    (ran : ((Root.mk part).render client value).runOn stage.scene = ((root, result), scene)) :
    (∀ kind literal plan, stage.scene.blueprint? kind literal = some plan → scene.blueprint? kind literal = some plan) ∧
      (∀ kind literal plan, scene.blueprint? kind literal = some plan → client.Plans kind literal plan) ∧
      root.part.start = part.start ∧ root.part.stop = part.stop ∧
      ∀ sight, (sight = .whole → client.Leafy) → result = .ok () →
        ∃ shown, value.denote sight scene.blueprint? = some shown ∧
          root.Displays sight scene.tree value.leaves shown := by
  obtain ⟨kept, lots, tended⟩ := undisturbed.tended prepares
  obtain ⟨ahead, lot, behind, rfl, rfl, rfl, rfl⟩ := split_lots (tended.parts.trans parts)
  rw [List.length_map] at welcomes
  obtain ⟨_, _, held, taken, new, committed, after, change⟩ := tended.render prepares welcomes
  have ran := Root.part_ran ran
  have same := ran.symm.trans committed
  rw [Prod.mk.injEq, Prod.mk.injEq] at same
  obtain ⟨⟨here, rfl⟩, rfl⟩ := same
  have markers := (lot.plot.part.stage value).commit_markers client stage.scene
  have keeps := (lot.plot.part.stage value).commit_keeps client stage.scene
  rw [ran] at markers keeps
  refine ⟨fun kind literal plan known => blueprint?_kept tended.standing.sound change keeps known,
    fun kind literal plan known => blueprint?_planned after.standing.sound.holds after.standing.sound.wellFormed known,
    markers.1, markers.2, ?_⟩
  rintro sight leafy rfl
  have depicts := NodePart.commit_depicts rfl ran
  have listed : new ∈ ahead.map (Lot.without taken) ++ new :: behind.map (Lot.without taken) := by simp
  obtain ⟨front, rest, site⟩ := after.standing.sites new listed
  have shows := (after.standing.shown new listed).resolve_left (by simp [NodePart.isPoisoned, ← here, depicts.usable])
  have missing : ∀ id ∈ value.leaves, ¬ new.slack.lost id := fun id leaf lost =>
    after.owed ahead.length new (by simp) id lost (welcomes.own id leaf)
  have legible := prepared_legible after.standing.sound (fun id leaf => (welcomes.allowed id leaf).1) missing leafy
  refine ⟨_, shows.pictures legible (here ▸ depicts) fun _ leaf => leaf, new.container, front, new.plot.inner, rest, ?_,
    rfl⟩
  rw [here, site.listed, Plot.nodes]
  simp

namespace Root.Example

section Press

/-- A client that makes the same of every literal. -/
def press (children : List Subtree) (slots : List Slot) : Client Unit :=
  ⟨fun _ _ state =>
    let grafted := state.2.graft (.branch 0 .fragment children)
    (.ok ⟨grafted.1, slots⟩, (), grafted.2), none⟩

variable {children : List Subtree} {slots : List Slot} (proper : Subtree.Proper (Subtree.spotsOfAll children))
include proper

theorem press_prepares (distinct : Template.Distinct ⟨0, slots⟩) : (press children slots).Prepares fun _ _ => False where
  unguarded := rfl
  prepared kind literal memory tree wellFormed _ := by
    have grafted := Tree.graft_grafted wellFormed 0 .fragment children List.nodup_nil proper
    refine ⟨grafted.sound, grafted.extended, ⟨fun _ none => none.elim, fun _ _ none => none.elim⟩, fun _ _ => Iff.rfl,
      fun template made => ?_, fun template made => ?_, fun template made => ?_⟩
    all_goals cases made
    · exact (grafted.spelled ⟨tree.size, .fragment, _⟩ (List.mem_cons_self ..)).1
    · exact .inr (Nat.le_refl _)
    · exact ⟨distinct.markers, distinct.attributes⟩

theorem press_leafy (solid : ∀ first top data below,
    Subtree.renumberAll first children = [.branch top (.text data) below] → below = []) :
    (press children slots).Leafy := by
  rintro kind literal template fragment top data below ⟨memory, tree, wellFormed, made, original⟩
  have grafted := Tree.graft_grafted wellFormed 0 .fragment children List.nodup_nil proper
  cases made
  have same : (Subtree.branch 0 .fragment children).renumber tree.size = _ :=
    (grafted.sound.subtree_of_spells grafted.spelled).symm.trans original
  rw [Subtree.renumber, Subtree.branch.injEq] at same
  exact solid _ _ _ _ same.2.2

end Press

/-- A client that makes the same of every literal: a paragraph with a title, around some content. -/
def scribe : Client Unit := press [.branch 0 (.plain "p") [.branch 0 .marker []]] [.attribute 0 "title", .node 1]

theorem scribe_proper :
    Subtree.Proper (Subtree.spotsOfAll [.branch 0 (.plain "p") [.branch 0 .marker []]]) := by
  simp [Subtree.Proper, Subtree.spotsOfAll, Subtree.spots, Kind.attributeNames, Kind.plain, Kind.marker]

theorem scribe_prepares : scribe.Prepares fun _ _ => False :=
  press_prepares scribe_proper ⟨show [1].Nodup by decide, show [(0, "title")].Nodup by decide⟩

theorem scribe_leafy : scribe.Leafy :=
  press_leafy scribe_proper fun _ _ _ _ same => by simp [Subtree.renumberAll, Subtree.renumber, Kind.plain] at same

/-- A page with an element to put a root in and one for the root to show. -/
def desk : Scene Unit := .onTree ((Tree.empty.create (.plain "body")).2.create (.plain "em")).2 ()

def laid : Except Error Root × Scene Unit := (Root.create 0).runOn desk

def draft : Value :=
  .keyed [(.int 1, .template .html ⟨0, []⟩ [.text "one", .node 1]), (.int 2, .text "two")]

/-- The same in another order, with another text and without a title. -/
def revision : Value :=
  .keyed [(.int 2, .text "second"), (.int 1, .template .html ⟨0, []⟩ [.nothing, .node 1])]

def written : (Root × Except Error Unit) × Scene Unit :=
  ((Root.mk (.between 2 3)).render scribe draft).runOn laid.2

def rewritten : (Root × Except Error Unit) × Scene Unit :=
  (written.1.1.render scribe revision).runOn written.2

def writing : Stage Unit :=
  ⟨written.2, [] ++ written.1.1.part :: [], fun id => desk.tree.size > id ∧ ¬ False, fun id => id = 1⟩

theorem welcomes_of_leaves {stage : Stage Unit} {value : Value} (leaves : value.leaves = [1]) (guest : stage.guest 1)
    (found : stage.scene.tree.kindOf 1 = some (.plain "em")) : stage.Welcomes (fun _ => 0) 0 value := by
  refine ⟨fun id leaf => ?_, ?_, fun _ _ => rfl⟩
  · rw [leaves, List.mem_singleton] at leaf
    subst leaf
    exact ⟨guest, "em", [], found⟩
  · rw [leaves]
    exact List.nodup_singleton 1

def laying : Stage Unit :=
  ⟨laid.2, [] ++ .between 2 3 :: [], fun id => desk.tree.size > id ∧ ¬ False, fun id => id = 1⟩

theorem laying_undisturbed (client : Client Unit) : Undisturbed client (fun _ _ => False) (fun _ => 0) laying := by
  have wellFormed : desk.tree.WellFormed :=
    (Tree.WellFormed.empty.create (show (Kind.plain "body").attributeNames.Nodup from List.nodup_nil)).create
      (show (Kind.plain "em").attributeNames.Nodup from List.nodup_nil)
  have invited : Invited desk.tree fun id => id = 1 := by
    refine ⟨fun id own => own ▸ by decide, fun id child own member => ?_⟩
    have none : desk.tree.childrenOf 1 = [] := by decide
    rw [own, none] at member
    cases member
  have begun : Undisturbed client (fun _ _ => False) (fun _ => 0)
      ⟨desk, [], fun id => desk.tree.size > id ∧ ¬ False, fun id => id = 1⟩ :=
    .fresh wellFormed invited ⟨fun _ none => none.elim, fun _ _ none => none.elim⟩ fun _ none => none.elim
  have created : (Root.create 0).runOn desk = (.ok (Root.mk (.between 2 3)), laid.2) := by
    unfold laid
    cbv
  exact begun.rooted (show desk.tree.size > 0 ∧ ¬ False from ⟨by decide, not_false⟩) (by decide) created

theorem writing_undisturbed : Undisturbed scribe (fun _ _ => False) (fun _ => 0) writing :=
  have welcomes : laying.Welcomes (fun _ => 0) 0 draft := welcomes_of_leaves rfl rfl (by decide +kernel)
  (laying_undisturbed scribe).rendered rfl welcomes rfl

theorem rewritten_ok : rewritten.1.2 = .ok () := by decide +kernel

end Root.Example

open Root.Example in
/-- The paragraph that moves behind the text is the template with the element in it and nothing else. -/
theorem Undisturbed.displays_revision : scribe.Prepares (fun _ _ => False) ∧
    Undisturbed scribe (fun _ _ => False) (fun _ => 0) writing ∧ writing.parts = [] ++ written.1.1.part :: [] ∧
    writing.Welcomes (fun _ => 0) 0 revision ∧ rewritten.1.2 = .ok () ∧
    (∀ kind literal plan, writing.scene.blueprint? kind literal = some plan →
      rewritten.2.blueprint? kind literal = some plan) ∧
    (∀ kind literal plan, rewritten.2.blueprint? kind literal = some plan → scribe.Plans kind literal plan) ∧
    rewritten.1.1.part.start = written.1.1.part.start ∧ rewritten.1.1.part.stop = written.1.1.part.stop ∧
    scribe.Leafy ∧ ∃ shown, revision.denote .whole rewritten.2.blueprint? = some shown ∧
      rewritten.1.1.Displays .whole rewritten.2.tree revision.leaves shown := by
  have welcomes : writing.Welcomes (fun _ => 0) 0 revision := welcomes_of_leaves rfl rfl (by decide +kernel)
  have ran : rewritten = ((rewritten.1.1, .ok ()), rewritten.2) := Prod.ext (Prod.ext rfl rewritten_ok) rfl
  obtain ⟨kept, planned, start, stop, displays⟩ :=
    Undisturbed.displays scribe_prepares writing_undisturbed rfl welcomes ran
  exact ⟨scribe_prepares, writing_undisturbed, rfl, welcomes, rewritten_ok, kept, planned, start, stop, scribe_leafy,
    displays .whole (fun _ => scribe_leafy) rfl⟩

namespace Root.Example

/-- A client that makes the same of every literal: a text with a paragraph below it. -/
def blotter : Client Unit := press [.branch 0 (.text "x") [.branch 0 (.plain "p") []]] []

theorem blotter_prepares : blotter.Prepares fun _ _ => False :=
  press_prepares (by simp [Subtree.Proper, Subtree.spotsOfAll, Subtree.spots, Kind.attributeNames, Kind.plain])
    ⟨List.nodup_nil, List.nodup_nil⟩

def blotted : (Root × Except Error Unit) × Scene Unit :=
  ((Root.mk (.between 2 3)).render blotter (.template .html ⟨0, []⟩ [])).runOn laid.2

def blotting : Stage Unit :=
  ⟨blotted.2, [] ++ blotted.1.1.part :: [], fun id => desk.tree.size > id ∧ ¬ False, fun id => id = 1⟩

def overwritten : (Root × Except Error Unit) × Scene Unit := (blotted.1.1.render blotter (.text "y")).runOn blotted.2

theorem welcomes_of_bare {stage : Stage Unit} {value : Value} (bare : value.leaves = []) :
    stage.Welcomes (fun _ => 0) 0 value := by
  refine ⟨fun id leaf => ?_, bare ▸ List.nodup_nil, fun _ _ => rfl⟩
  rw [bare] at leaf
  cases leaf

theorem blotting_undisturbed : Undisturbed blotter (fun _ _ => False) (fun _ => 0) blotting :=
  have welcomes : laying.Welcomes (fun _ => 0) 0 (.template .html ⟨0, []⟩ []) := welcomes_of_bare rfl
  (laying_undisturbed blotter).rendered rfl welcomes rfl

theorem overwritten_wellFormed : overwritten.2.tree.WellFormed := by
  have welcomes : blotting.Welcomes (fun _ => 0) 0 (.text "y") := welcomes_of_bare rfl
  have ran : ((Root.mk blotted.1.1.part).render blotter (.text "y")).runOn blotting.scene =
    ((overwritten.1.1, overwritten.1.2), overwritten.2) := rfl
  obtain ⟨kept, lots, tended⟩ := (blotting_undisturbed.rendered rfl welcomes ran).tended blotter_prepares
  exact tended.standing.sound.wellFormed

end Root.Example

open Root.Example in
/-- The text of the template becomes that of the part, and the paragraph below it stays. -/
theorem Undisturbed.not_displays_blotted : blotter.Prepares (fun _ _ => False) ∧
    Undisturbed blotter (fun _ _ => False) (fun _ => 0) blotting ∧ blotting.parts = [] ++ blotted.1.1.part :: [] ∧
    blotting.Welcomes (fun _ => 0) 0 (.text "y") ∧ overwritten.1.2 = .ok () ∧
    ¬ ∃ shown, (Value.text "y").denote .whole overwritten.2.blueprint? = some shown ∧
      overwritten.1.1.Displays .whole overwritten.2.tree (Value.text "y").leaves shown := by
  refine ⟨blotter_prepares, blotting_undisturbed, rfl, welcomes_of_bare rfl, by decide +kernel, ?_⟩
  rintro ⟨shown, denoted, container, front, inner, rest, listed, look⟩
  obtain rfl : [.text "y" []] = shown := Option.some.inj denoted
  have alone : overwritten.1.1.part.clears overwritten.2.tree = [8] := by decide +kernel
  have text : overwritten.2.tree.kindOf 8 = some (.text "y") := by decide +kernel
  have below : overwritten.2.tree.childrenOf 8 = [9] := by decide +kernel
  obtain rfl : [8] = inner := alone.symm.trans (NodePart.clears_between overwritten_wellFormed listed)
  have none : (Value.text "y").leaves = [] := rfl
  rw [none, Tree.pictures_cons, Tree.picture_own overwritten_wellFormed List.not_mem_nil text, below] at look
  simp [Kind.picture, Sight.below] at look

end DomParts
