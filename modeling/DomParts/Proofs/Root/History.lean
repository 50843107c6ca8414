import DomParts.Proofs.Layout.Growing
import DomParts.Proofs.Root.Health
import DomParts.Proofs.Root.Regular

/-! # Histories

What can be reached when parts are put into a tree, values are staged and committed in them, and parts are
cleared. The caller may make further nodes in between, and containers and the elements that values show are
nodes that the caller made. Nothing else happens to the tree.
-/

namespace DomParts

variable {σ : Type}

/-- What there is to know between two operations: the scene, the parts in it, the nodes that the caller
    made, and those of them that values may show, with everything below them. -/
structure Stage (σ : Type) where
  scene : Scene σ
  parts : List NodePart
  made : NodeId → Prop
  guest : NodeId → Prop

/-- Whether a value may be rendered: it shows elements only, and only such as values may show. -/
def Stage.Allows (stage : Stage σ) (value : Value) : Prop :=
  ∀ id ∈ value.leaves, stage.guest id ∧ ∃ name attributes, stage.scene.tree.kindOf id = some (.element name attributes)

/-- The nodes that values may show are in the tree, and so is what is below them. -/
structure Invited (tree : Tree) (guest : NodeId → Prop) : Prop where
  present : ∀ id, guest id → tree.size > id
  below : ∀ id child, guest id → child ∈ tree.childrenOf id → guest child

/-- What rendering for a client can lead to. -/
inductive Reached (client : Client σ) : Stage σ → Prop where
  /-- A tree before anything was rendered. -/
  | fresh {tree : Tree} {memory : σ} {guest : NodeId → Prop} (wellFormed : tree.WellFormed)
      (invited : Invited tree guest) : Reached client ⟨.onTree tree memory, [], fun id => tree.size > id, guest⟩
  /-- The caller makes nodes. -/
  | grown {stage : Stage σ} (reached : Reached client stage) {tree : Tree} {guest : NodeId → Prop}
      (wellFormed : tree.WellFormed) (extended : stage.scene.tree.Extends tree) (invited : Invited tree guest)
      (old : ∀ id, stage.scene.tree.size > id → (guest id ↔ stage.guest id)) :
      Reached client ⟨{ stage.scene with tree }, stage.parts,
        fun id => stage.made id ∨ stage.scene.tree.size ≤ id ∧ tree.size > id, guest⟩
  /-- A part is put at the end of a container. -/
  | appended {stage : Stage σ} (reached : Reached client stage) {container : NodeId} {part : NodePart} {scene : Scene σ}
      (made : stage.made container) (own : ¬ stage.guest container)
      (ran : (NodePart.insertInto container none).runOn stage.scene = (.ok part, scene)) :
      Reached client { stage with scene, parts := stage.parts ++ [part] }
  /-- A root is put at the end of a container. -/
  | rooted {stage : Stage σ} (reached : Reached client stage) {container : NodeId} {root : Root} {scene : Scene σ}
      (made : stage.made container) (own : ¬ stage.guest container)
      (ran : (Root.create container).runOn stage.scene = (.ok root, scene)) :
      Reached client { stage with scene, parts := stage.parts ++ [root.part] }
  /-- A value is staged in a part. -/
  | staged {stage : Stage σ} (reached : Reached client stage) {left right : List NodePart} {part : NodePart}
      (parts : stage.parts = left ++ part :: right) {value : Value} (allows : stage.Allows value) :
      Reached client { stage with parts := left ++ part.stage value :: right }
  /-- A part is committed. -/
  | committed {stage : Stage σ} (reached : Reached client stage) {left right : List NodePart} {part : NodePart}
      (parts : stage.parts = left ++ part :: right) :
      Reached client
        { stage with
          scene := ((part.commit client).runOn stage.scene).2
          parts := left ++ ((part.commit client).runOn stage.scene).1.1 :: right }
  /-- A part is cleared. -/
  | cleared {stage : Stage σ} (reached : Reached client stage) {left right : List NodePart} {part : NodePart}
      (parts : stage.parts = left ++ part :: right) :
      Reached client
        { stage with
          scene := (part.clear.runOn stage.scene).2
          parts := left ++ (part.clear.runOn stage.scene).1.1 :: right }

theorem Reached.rendered {client : Client σ} {stage : Stage σ} (reached : Reached client stage)
    (left right : List NodePart) {part : NodePart} (parts : stage.parts = left ++ part :: right) {value : Value}
    (allows : stage.Allows value) :
    Reached client
      { stage with
        scene := (((part.stage value).commit client).runOn stage.scene).2
        parts := left ++ (((part.stage value).commit client).runOn stage.scene).1.1 :: right } :=
  (reached.staged parts allows).committed rfl

/-- One of these operations. -/
inductive Stage.Step (client : Client σ) (stage : Stage σ) : Stage σ → Prop where
  | grown {tree : Tree} {guest : NodeId → Prop} (wellFormed : tree.WellFormed)
      (extended : stage.scene.tree.Extends tree) (invited : Invited tree guest)
      (old : ∀ id, stage.scene.tree.size > id → (guest id ↔ stage.guest id)) :
      Step client stage ⟨{ stage.scene with tree }, stage.parts,
        fun id => stage.made id ∨ stage.scene.tree.size ≤ id ∧ tree.size > id, guest⟩
  | appended {container : NodeId} {part : NodePart} {scene : Scene σ} (made : stage.made container)
      (own : ¬ stage.guest container)
      (ran : (NodePart.insertInto container none).runOn stage.scene = (.ok part, scene)) :
      Step client stage { stage with scene, parts := stage.parts ++ [part] }
  | rooted {container : NodeId} {root : Root} {scene : Scene σ} (made : stage.made container)
      (own : ¬ stage.guest container) (ran : (Root.create container).runOn stage.scene = (.ok root, scene)) :
      Step client stage { stage with scene, parts := stage.parts ++ [root.part] }
  | staged {left right : List NodePart} {part : NodePart} (parts : stage.parts = left ++ part :: right)
      {value : Value} (allows : stage.Allows value) :
      Step client stage { stage with parts := left ++ part.stage value :: right }
  | committed {left right : List NodePart} {part : NodePart} (parts : stage.parts = left ++ part :: right) :
      Step client stage
        { stage with
          scene := ((part.commit client).runOn stage.scene).2
          parts := left ++ ((part.commit client).runOn stage.scene).1.1 :: right }
  | cleared {left right : List NodePart} {part : NodePart} (parts : stage.parts = left ++ part :: right) :
      Step client stage
        { stage with
          scene := (part.clear.runOn stage.scene).2
          parts := left ++ (part.clear.runOn stage.scene).1.1 :: right }

theorem Reached.step {client : Client σ} {stage next : Stage σ} (reached : Reached client stage)
    (step : stage.Step client next) : Reached client next := by
  cases step with
  | grown wellFormed extended invited old => exact reached.grown wellFormed extended invited old
  | appended made own ran => exact reached.appended made own ran
  | rooted made own ran => exact reached.rooted made own ran
  | staged parts allows => exact reached.staged parts allows
  | committed parts => exact reached.committed parts
  | cleared parts => exact reached.cleared parts

/-- What holds of a tree before anything was rendered, and goes on to hold with every operation, holds always. -/
theorem Reached.along {client : Client σ} {motive : Stage σ → Prop}
    (fresh : ∀ {tree : Tree} {memory : σ} {guest : NodeId → Prop}, tree.WellFormed → Invited tree guest →
      motive ⟨.onTree tree memory, [], fun id => tree.size > id, guest⟩)
    (step : ∀ {stage next : Stage σ}, stage.Step client next → motive stage → motive next) {stage : Stage σ}
    (reached : Reached client stage) : motive stage := by
  induction reached with
  | fresh wellFormed invited => exact fresh wellFormed invited
  | grown _ wellFormed extended invited old ih => exact step (.grown wellFormed extended invited old) ih
  | appended _ made own ran ih => exact step (.appended made own ran) ih
  | rooted _ made own ran ih => exact step (.rooted made own ran) ih
  | staged _ parts allows ih => exact step (.staged parts allows) ih
  | committed _ parts ih => exact step (.committed parts) ih
  | cleared _ parts ih => exact step (.cleared parts) ih

namespace Layout

open Realm

variable {client : Client σ} {survey : Survey} {lots : List Lot}

/-- The slack of a root that shows nothing. -/
def noSlack : Slack := ⟨fun _ => False, fun _ => False⟩

/-- What stands of every stage that is reached, given what is known of nodes. -/
structure Stands (client : Client σ) (survey : Survey) (stage : Stage σ) (kept : NodeId → Prop) (lots : List Lot) :
    Prop where
  standing : (surveyedRealm client stage.guest survey).Standing stage.made ⟨stage.scene, kept⟩ lots
  parts : lots.map (·.plot.part) = stage.parts
  staged : ∀ lot ∈ lots, ∀ value, lot.plot.part.pending = some value → stage.Allows value

namespace Stands

variable {stage : Stage σ} {kept : NodeId → Prop} {left right : List NodePart} {part : NodePart}

theorem allows_after {after : Scene σ} {held touched : NodeId → Prop} {taken : List NodeId} {value : Value}
    (change : (surveyedRealm client stage.guest survey).Change ⟨stage.scene, kept⟩ ⟨after, held⟩ touched taken)
    (allows : stage.Allows value) : Stage.Allows { stage with scene := after } value :=
  have admits : (surveyedRealm client stage.guest survey).Admits stage.scene.tree value.leaves := allows
  change.admits admits

theorem worked (stands : Stands client survey stage kept lots) {ahead behind : List Lot} {lot new : Lot} {after : Scene σ}
    {held touched : NodeId → Prop} {taken : List NodeId} (split : lots = ahead ++ lot :: behind)
    (standing : (surveyedRealm client stage.guest survey).Standing stage.made ⟨after, held⟩
      (ahead.map (Lot.without taken) ++ new :: behind.map (Lot.without taken)))
    (change : (surveyedRealm client stage.guest survey).Change ⟨stage.scene, kept⟩ ⟨after, held⟩ touched taken)
    (pending : ∀ value, new.plot.part.pending = some value → stage.Allows value) :
    Stands client survey
      { stage with
        scene := after
        parts := ahead.map (·.plot.part) ++ new.plot.part :: behind.map (·.plot.part) }
      held (ahead.map (Lot.without taken) ++ new :: behind.map (Lot.without taken)) := by
  subst split
  refine ⟨standing, by simp only [List.map_append, List.map_cons, parts_without], fun other member value staged => ?_⟩
  refine allows_after change ?_
  simp only [List.mem_append, List.mem_cons, List.mem_map] at member
  rcases member with ⟨old, member, rfl⟩ | rfl | ⟨old, member, rfl⟩
  · exact stands.staged old (by simp [member]) value staged
  · exact pending value staged
  · exact stands.staged old (by simp [member]) value staged

theorem joined (stands : Stands client survey stage kept lots) {after : Scene σ} {touched : NodeId → Prop} {lot : Lot}
    (standing : (surveyedRealm client stage.guest survey).Standing stage.made ⟨after, kept⟩ (lots ++ [lot]))
    (change : (surveyedRealm client stage.guest survey).Change ⟨stage.scene, kept⟩ ⟨after, kept⟩ touched [])
    (pending : lot.plot.part.pending = none) :
    Stands client survey { stage with scene := after, parts := stage.parts ++ [lot.plot.part] } kept (lots ++ [lot]) := by
  refine ⟨standing, by simp [stands.parts], fun other member value staged => ?_⟩
  rcases List.mem_append.1 member with member | last
  · exact allows_after change (stands.staged other member value staged)
  · rw [List.mem_singleton.1 last, pending] at staged
    cases staged

theorem lot (stands : Stands client survey stage kept lots) (member : part ∈ stage.parts) :
    ∃ lot ∈ lots, lot.plot.part = part := by
  rw [← stands.parts, List.mem_map] at member
  exact member

end Stands

end Layout

namespace Layout.Stands

variable {client : Client σ} {survey : Survey} {stage next : Stage σ} {kept : NodeId → Prop} {lots : List Lot}

theorem fresh {tree : Tree} {memory : σ} {guest : NodeId → Prop} (wellFormed : tree.WellFormed)
    (invited : Invited tree guest) :
    Stands client .blank ⟨.onTree tree memory, [], fun id => tree.size > id, guest⟩ (fun _ => False) [] := by
  refine ⟨⟨?_, ?_, ?_, ?_, by simp, by simp, by simp, .nil, by simp, by simp⟩, rfl, by simp⟩
  · exact ⟨wellFormed, Nat.zero_le _, TemplateCache.all_empty, invited.present, invited.below,
      fun _ none => False.elim none, fun _ _ none => False.elim none,
      fun _ none => False.elim none, fun _ answered => absurd answered List.not_mem_nil, by simp, by simp⟩
  · exact fun id known => known
  · intro id parent _ own link
    exact ⟨wellFormed.lt_size_of_parent link, fun guest => own (invited.below parent id guest (wellFormed.mem_childrenOf link))⟩
  · exact fun _ _ _ => ⟨not_false, not_false⟩

/-- Something stands after every operation, and the operation is a change of what there was. -/
theorem step (regular : client.Regular) (stands : Stands client survey stage kept lots)
    (step : stage.Step client next) : ∃ held lots touched taken, Stands client survey next held lots ∧
      (surveyedRealm client stage.guest survey).Change ⟨stage.scene, kept⟩ ⟨next.scene, held⟩ touched taken := by
  have lawful := surveyed_lawful regular stage.guest survey
  cases step with
  | @grown tree guest wellFormed extended invited old =>
      have grown : (surveyedRealm client stage.guest survey).Grown ⟨stage.scene, kept⟩ tree guest :=
        ⟨wellFormed, extended, invited.present, invited.below, old⟩
      refine ⟨kept, lots, _, _, ⟨stands.standing.grown lawful grown, stands.parts, ?_⟩,
        grown.change lawful stands.standing.sound⟩
      intro lot member value staged id leaf
      obtain ⟨own, name, attributes, kind⟩ := stands.staged lot member value staged id leaf
      have inside := stands.standing.sound.guest_exists id own
      exact ⟨(old id inside).2 own, name, attributes, (extended.kindOf_eq inside).trans kind⟩
  | appended made own ran =>
      obtain ⟨rfl, standing, change⟩ := (stands.standing.append lawful made own noSlack).ok ran
      exact ⟨kept, _, _, _, stands.joined standing change rfl, change⟩
  | @rooted container root scene made own ran =>
      have leads : (Root.create container).Leads stage.scene (fun root scene => ∃ lots touched,
          Stands client survey { stage with scene, parts := stage.parts ++ [root.part] } kept lots ∧
            (surveyedRealm client stage.guest survey).Change ⟨stage.scene, kept⟩ ⟨scene, kept⟩ touched [])
          fun _ _ => False := by
        simp only [Root.create, RenderM.leads_bind, RenderM.leads_note, RenderM.leads_pure]
        refine (stands.standing.append lawful made own noSlack).mono ?_ fun _ _ none => none
        rintro _ scene ⟨rfl, standing, change⟩
        have joined := stands.joined standing change rfl
        have other : ∀ id, Event.rootCreated ≠ .kept id := fun _ => by simp
        have standing := joined.standing.noted lawful .rootCreated other
        refine ⟨_, _, ⟨standing, joined.parts, fun lot member value staged => ?_⟩, change.noted lawful .rootCreated other⟩
        exact joined.staged lot member value staged
      obtain ⟨lots, touched, stands, change⟩ := leads.ok ran
      exact ⟨kept, lots, touched, [], stands, change⟩
  | @staged left right part parts value allows =>
      obtain ⟨ahead, lot, behind, rfl, rfl, rfl, rfl⟩ := split_lots (stands.parts.trans parts)
      have standing := stands.standing.relabel lawful (lot.plot.part.stage value) rfl rfl rfl
      have idle : (surveyedRealm client stage.guest survey).Change ⟨stage.scene, kept⟩ ⟨stage.scene, kept⟩
        (fun _ => False) [] := .refl stands.standing.sound
      exact ⟨kept, _, _, _, stands.worked rfl standing idle fun other staged => Option.some.inj staged ▸ allows, idle⟩
  | @committed left right part parts =>
      obtain ⟨ahead, lot, behind, rfl, rfl, rfl, rfl⟩ := split_lots (stands.parts.trans parts)
      obtain ⟨result, scene, held, taken, new, ran, standing, pending, -, change, -⟩ :=
        stands.standing.commit lawful fun value => stands.staged lot (by simp) value
      have ran : (lot.plot.part.commit client).runOn stage.scene = ((new.plot.part, result), scene) := ran
      have unstaged : ∀ value, new.plot.part.pending = some value → stage.Allows value := fun value staged => by
        rw [pending] at staged
        cases staged
      rw [ran]
      exact ⟨held, _, _, _, stands.worked rfl standing change unstaged, change⟩
  | @cleared left right part parts =>
      obtain ⟨ahead, lot, behind, rfl, rfl, rfl, rfl⟩ := split_lots (stands.parts.trans parts)
      obtain ⟨scene, ran, standing, change⟩ := stands.standing.clear lawful noSlack
      rw [ran]
      exact ⟨kept, _, _, _, stands.worked rfl standing change fun value staged => stands.staged lot (by simp) value staged,
        change⟩

theorem placed (stands : Stands client survey stage kept lots) {root part : NodePart} (member : root ∈ stage.parts)
    (usable : root.isPoisoned = false) (inside : Relation.ReflTransGen NodePart.Holds root part) :
    ∃ slack container front rest plot, plot.part = part ∧
      (surveyedRealm client stage.guest survey).Placed ⟨stage.scene, kept⟩ slack container front rest plot := by
  obtain ⟨lot, listed, rfl⟩ := stands.lot member
  obtain ⟨front, rest, site⟩ := stands.standing.sites lot listed
  have shows := (stands.standing.shown lot listed).resolve_left (by simp [usable])
  obtain ⟨container, front, rest, plot, same, placed⟩ := Realm.Placed.descend stands.standing.sound ⟨site, shows⟩ inside
  exact ⟨lot.slack, container, front, rest, plot, same, placed⟩

end Layout.Stands

open Layout in
theorem Reached.stands {client : Client σ} (regular : client.Regular) {stage : Stage σ} (reached : Reached client stage) :
    ∃ kept lots, Stands client .blank stage kept lots := by
  refine reached.along (motive := fun stage => ∃ kept lots, Stands client .blank stage kept lots) ?_ ?_
  · exact fun wellFormed invited => ⟨_, _, .fresh wellFormed invited⟩
  · intro stage next step known
    obtain ⟨kept, lots, stands⟩ := known
    obtain ⟨held, lots, -, -, stands, -⟩ := stands.step regular step
    exact ⟨held, lots, stands⟩

open Layout in
theorem Reached.placed {client : Client σ} (regular : client.Regular) {stage : Stage σ} (reached : Reached client stage)
    {root part : NodePart} (member : root ∈ stage.parts) (usable : root.isPoisoned = false)
    (inside : Relation.ReflTransGen NodePart.Holds root part) :
    ∃ kept slack container front rest plot, plot.part = part ∧
      (regularRealm client stage.guest).Sound ⟨stage.scene, kept⟩ ∧
      (regularRealm client stage.guest).Placed ⟨stage.scene, kept⟩ slack container front rest plot := by
  obtain ⟨kept, lots, stands⟩ := reached.stands regular
  obtain ⟨slack, container, front, rest, plot, same, placed⟩ := stands.placed member usable inside
  exact ⟨kept, slack, container, front, rest, plot, same, stands.standing.sound, placed⟩

namespace Root.Example

theorem wordless_regular : wordless.Regular where
  grows _ _ _ tree wellFormed := ⟨wellFormed, .refl tree⟩
  separate _ _ _ _ := nofun
  thinks _ := nofun

/-- The page with the root on it, and nothing that values could show. -/
def opened : Stage Unit := ⟨mounted, [fresh.part], fun id => page.tree.size > id, fun _ => False⟩

theorem opened_reached (client : Client Unit) : Reached client opened := by
  have created : (Root.create 0).runOn page = (.ok fresh, mounted) := by
    unfold mounted fresh
    cbv
  have named : (Kind.plain "body").attributeNames.Nodup := List.nodup_nil
  have begun : Reached client ⟨page, [], fun id => page.tree.size > id, fun _ => False⟩ :=
    .fresh (Tree.WellFormed.empty.create named) ⟨fun _ none => none.elim, fun _ _ none => none.elim⟩
  exact begun.rooted (show 0 < page.tree.size by decide) not_false created

def listed : (NodePart × Except Error Unit) × Scene Unit :=
  ((fresh.part.stage (.list [.text "a", .text "b"])).commit wordless).runOn opened.scene

def item : NodePart := ⟨3, 4, none, .text "a"⟩

def listing : Stage Unit := { opened with scene := listed.2, parts := [] ++ listed.1.1 :: [] }

theorem listed_eq : listed.1.1 = ⟨1, 2, none, .list [item, ⟨6, 7, none, .text "b"⟩]⟩ := by
  unfold listed opened mounted item
  cbv

theorem listing_reached : Reached wordless listing := by
  have allowed : opened.Allows (.list [.text "a", .text "b"]) := by
    intro id leaf
    simp [Value.leaves, Value.leavesOfAll] at leaf
  unfold listing listed
  exact (opened_reached wordless).rendered [] [] rfl allowed

theorem listed_mem : listed.1.1 ∈ listing.parts := by
  unfold listing
  exact List.mem_singleton.2 rfl

theorem item_inside : Relation.ReflTransGen NodePart.Holds listed.1.1 item := by
  rw [listed_eq]
  exact .single (List.mem_cons_self ..)

end Root.Example

end DomParts
