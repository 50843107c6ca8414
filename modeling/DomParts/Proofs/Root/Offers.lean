import DomParts.Proofs.Layout.Resurvey
import DomParts.Proofs.Root.Dropping
import DomParts.Proofs.Root.Edits
import DomParts.Proofs.Root.Undisturbed

/-! # What a hook is offered

A hook that kept a node has it in its hands. As long as a part lists plain items only, no later pass of the part
comes by the node again, so that a pass asks about each node of the items that it drops, and about nodes that were
never kept before.
-/

namespace DomParts

open Relation (ReflTransGen TransGen reflTransGen_iff_eq_or_transGen)

variable {σ : Type} {client : Client σ}

theorem Client.Regular.overheard (regular : client.Regular) : client.overheard.Regular where
  grows kind literal memory := regular.grows kind literal memory.1
  separate kind literal state := regular.separate kind literal (state.1.1, state.2)
  thinks := by
    intro hook known target container memory tree
    obtain ⟨original, asks, rfl⟩ := Option.map_eq_some_iff.1 known
    exact regular.thinks original asks target container memory.1 tree

namespace NodePart

variable {part new : NodePart} {items : List (Key × Value)}

theorem keyed_plain {oldKeys : List Key} (lists : part.ListsKeys oldKeys) (plain : ∀ item ∈ items, item.2.Plain)
    {scene after : Scene σ} (ran : ((part.stage (.keyed items)).commit client).runOn scene = ((new, .ok ()), after)) :
    ∀ inner, new.Holds inner → inner.Plain := by
  have depicts : Depicts after.cache (.keyed items) new.content := commit_depicts rfl ran
  obtain ⟨pass, shown, ledger⟩ := keyed_counts lists ran
  have complete : pass.parts.length = items.length := ledger.complete (List.length_map ..)
  intro inner holds
  rw [shown] at depicts
  rw [Holds, shown] at holds
  cases depicts with
  | keyed each =>
      obtain ⟨item, listed, depicts⟩ := exists_left_of_forall₂ (each complete) holds
      exact (plain item listed).depicts depicts

end NodePart

theorem Stage.Step.respects {concern : Concern σ} {stage next : Stage σ} (compiles : client.Respects concern)
    (removes : ∀ (part : NodePart) container, (part.remove client container).Respects concern)
    (step : stage.Step client next) : concern.holds stage.scene next.scene := by
  have inserts : ∀ container, (NodePart.insertInto container none : RenderM σ NodePart).Respects concern :=
    fun container => NodePart.respects_insertInto container none
  cases step with
  | grown => exact concern.steady rfl (List.Subset.refl _)
  | appended made own ran => exact (inserts _ stage.scene).ok ran
  | @rooted container root scene made own ran =>
      have creates : (Root.create container).Respects concern :=
        (inserts container).bind fun _ => (RenderM.respects_note _).bind fun _ => RenderM.respects_pure _
      exact (creates stage.scene).ok ran
  | staged => exact concern.steady rfl (List.Subset.refl _)
  | committed => exact (NodePart.respects_commit compiles removes).runOn stage.scene
  | cleared => exact NodePart.respects_clear.runOn stage.scene

namespace Stage

variable {stage : Stage σ} {start : NodeId} {part : NodePart}

/-- Whether a part is anywhere inside one of the usable parts. -/
def Contains (stage : Stage σ) (part : NodePart) : Prop :=
  ∃ root ∈ stage.parts, root.isPoisoned = false ∧ ReflTransGen NodePart.Holds root part

/-- Whether the part that begins with `start` lists plain items only, if there is such a part. -/
def ListsPlainly (stage : Stage σ) (start : NodeId) : Prop :=
  ∀ part, stage.Contains part → part.start = start → ∀ item ∈ part.content.keyedItems, item.Plain

/-- Whether the part that begins with `start` lists an item that begins with `id`. -/
def Lists (stage : Stage σ) (start id : NodeId) : Prop :=
  ∃ part, stage.Contains part ∧ part.start = start ∧ ∃ item ∈ part.content.keyedItems, item.start = id

/-- What is known between two operations: nothing that the hook ever kept is in an item that the part lists. -/
def survey (stage : Stage σ) (start : NodeId) : Layout.Survey where
  base := stage.scene.tree.size
  fits first id := stage.scene.tree.size > first ∧
    (stage.Lists start first → .kept id ∉ stage.scene.report.toList)
  lists outer first := outer = start → stage.Lists start first

def Plain (stage : Stage σ) : Prop := ∀ root ∈ stage.parts, ∀ inner, root.Holds inner → inner.Plain

theorem Plain.lists (plain : stage.Plain) (start : NodeId) : stage.ListsPlainly start := by
  rintro part ⟨root, member, -, way⟩ - item listed
  rcases way.cases_head with rfl | ⟨inner, holds, way⟩
  · exact plain root member item (NodePart.holds_of_keyed listed)
  · rw [((plain root member inner holds).descend way).keyedItems] at listed
    cases listed

end Stage

namespace Layout.Stands

variable {survey : Survey} {stage : Stage σ} {kept : NodeId → Prop} {lots : List Lot} {part : NodePart}
  (stands : Stands client survey stage kept lots)
include stands

theorem contains_of_within (within : Within lots part) : stage.Contains part := by
  obtain ⟨lot, member, way⟩ := within
  obtain ⟨child, holds, -⟩ := TransGen.head'_iff.1 way
  exact ⟨lot.plot.part, stands.parts ▸ List.mem_map_of_mem member, usable_of_holds holds, way.to_reflTransGen⟩

theorem within_of_contains (contains : stage.Contains part) :
    (∃ lot ∈ lots, lot.plot.part = part) ∨ Within lots part := by
  obtain ⟨root, member, -, way⟩ := contains
  obtain ⟨lot, listed, rfl⟩ := stands.lot member
  rcases reflTransGen_iff_eq_or_transGen.1 way with rfl | way
  · exact .inl ⟨lot, listed, rfl⟩
  · exact .inr ⟨lot, listed, way⟩

end Layout.Stands

open Layout

theorem NodePart.WellPlaced.listsKeys {scene : Scene σ} {part : NodePart} {container : NodeId}
    {front between rest : List NodeId} (well : part.WellPlaced scene container front between rest) :
    ∃ keys, part.ListsKeys keys := by
  cases shown : part.content with
  | keyed keys parts stats => exact ⟨keys, by simp [ListsKeys, shown, (well.keyed keys parts stats shown).1]⟩
  | _ => exact ⟨[], by simp [ListsKeys, shown]⟩

/-- What was known before an operation is known after it, if the part that begins with `start` still lists plain
    items only. -/
theorem Layout.Stands.chart {stage next : Stage σ} {start : NodeId} {held : NodeId → Prop} {lots : List Lot}
    (stands : Stands client (stage.survey start) next held lots)
    (answered : ∀ id, .kept id ∈ stage.scene.report.toList → stage.scene.tree.size > id)
    (answers : ∀ id, .kept id ∈ next.scene.report.toList → .kept id ∈ stage.scene.report.toList ∨ held id)
    (plain : next.ListsPlainly start) : Stands client (next.survey start) next held lots := by
  have standing := stands.standing
  -- The items that the part lists are inside one of the parts that stand.
  have inside : ∀ {outer item : NodePart}, next.Contains outer → item ∈ outer.content.keyedItems →
      Within lots item := by
    intro outer item contains listed
    have holds := NodePart.holds_of_keyed listed
    rcases stands.within_of_contains contains with ⟨lot, member, rfl⟩ | ⟨lot, member, way⟩
    · exact ⟨lot, member, .single holds⟩
    · exact ⟨lot, member, way.tail holds⟩
  have knows : ∀ {outer : NodePart}, next.Contains outer → (stage.survey start).Knows outer := by
    intro outer contains
    rcases stands.within_of_contains contains with ⟨lot, member, rfl⟩ | within
    · exact standing.known lot member
    · exact standing.known_within within
  have lists : ∀ {outer : NodePart}, next.Contains outer → (next.survey start).Knows outer :=
    fun contains item listed => .inr fun begins => ⟨_, contains, begins, item, listed, rfl⟩
  have spared : ∀ (slack : Slack) (plot : Plot), Within lots plot.part →
      Charted (stage.survey start) next.guest held next.scene.tree plot →
      (surveyedRealm client next.guest (stage.survey start)).Shows ⟨next.scene, held⟩ slack plot.part.content
        plot.inner plot.owned →
      next.Lists start plot.part.start → ∀ id ∈ plot.owned, .kept id ∉ next.scene.report.toList := by
    intro slack plot within charted shows listed id owned reported
    obtain ⟨outer, contains, begins, item, among, same⟩ := listed
    obtain rfl : item = plot.part := standing.start_unique (inside contains among) within same
    obtain ⟨own, free⟩ := shows.of_plain (plain outer contains begins _ among) id owned
    have earlier := (answers id reported).resolve_right free
    rcases charted.surveyed id owned with new | guest | ⟨old, known⟩
    · exact absurd (answered id earlier) (Nat.not_lt.2 new)
    · exact own guest
    · rcases knows contains _ among with new | before
      · exact absurd old (Nat.not_lt.2 new)
      · exact known (before begins) earlier
  refine ⟨standing.resurvey (Nat.le_refl _) ?_ ?_ ?_, stands.parts, stands.staged⟩
  · intro lot member id _
    obtain ⟨front, rest, site⟩ := standing.sites lot member
    refine .inr (.inr ⟨Tree.lt_size_of_kindOf site.marked.start, fun listed => ?_⟩)
    obtain ⟨outer, contains, -, item, among, same⟩ := listed
    exact absurd same (standing.start_inner (inside contains among) member)
  · intro lot member item listed
    have usable := usable_of_holds (NodePart.holds_of_keyed listed)
    exact lists ⟨_, stands.parts ▸ List.mem_map_of_mem member, usable, .refl⟩ item listed
  · intro slack plot within charted shows
    refine ⟨⟨charted.toMarked, fun id owned => ?_⟩, lists (stands.contains_of_within within)⟩
    exact .inr (.inr ⟨Tree.lt_size_of_kindOf charted.start, fun listed =>
      spared slack plot within charted shows listed id owned⟩)

/-- What rendering for an overheard client can lead to while the part that begins with `start` lists plain items
    only. The record begins when the tree does. -/
inductive PlainlyReached (client : Client σ) (start : NodeId) : Stage (σ × List Question) → Prop where
  | fresh {tree : Tree} {memory : σ} {guest : NodeId → Prop} (wellFormed : tree.WellFormed)
      (invited : Invited tree guest) :
      PlainlyReached client start ⟨.onTree tree (memory, []), [], fun id => tree.size > id, guest⟩
  | next {stage next : Stage (σ × List Question)} (reached : PlainlyReached client start stage)
      (step : stage.Step client.overheard next) (plain : next.ListsPlainly start) : PlainlyReached client start next

namespace PlainlyReached

variable {start : NodeId} {stage : Stage (σ × List Question)} (reached : PlainlyReached client start stage)
include reached

theorem plain : stage.ListsPlainly start := by
  cases reached with
  | fresh => rintro part ⟨root, member, -⟩; cases member
  | next _ _ plain => exact plain

/-- Plain lists by key are rendered into parts that only such lists are rendered into. -/
theorem rendered (inside : stage.Plain) (left right : List NodePart) {part new : NodePart}
    (parts : stage.parts = left ++ part :: right) {oldKeys : List Key} (lists : part.ListsKeys oldKeys)
    {items : List (Key × Value)} (plain : ∀ item ∈ items, item.2.Plain) {after : Scene (σ × List Question)}
    (ran : ((part.stage (.keyed items)).commit client.overheard).runOn stage.scene = ((new, .ok ()), after)) :
    PlainlyReached client start { stage with scene := after, parts := left ++ new :: right } ∧
      Stage.Plain { stage with scene := after, parts := left ++ new :: right } := by
  have leaves : (Value.keyed items).leaves = [] := by
    rw [Value.leaves]
    exact Value.leavesOfItems_eq_nil fun item member => (plain item member).leaves
  have allows : stage.Allows (.keyed items) := by
    intro id leaf
    rw [leaves] at leaf
    cases leaf
  have others : ∀ root, root ∈ left ∨ root ∈ right → ∀ inner, root.Holds inner → inner.Plain := fun root member =>
    inside root (by rw [parts]; simpa using member.imp_right .inr)
  have staged : Stage.Plain { stage with parts := left ++ part.stage (.keyed items) :: right } := by
    intro root member
    simp only [List.mem_append, List.mem_cons] at member
    rcases member with member | rfl | member
    · exact others root (.inl member)
    · exact inside part (by simp [parts])
    · exact others root (.inr member)
  have shown : Stage.Plain { stage with scene := after, parts := left ++ new :: right } := by
    intro root member
    simp only [List.mem_append, List.mem_cons] at member
    rcases member with member | rfl | member
    · exact others root (.inl member)
    · exact NodePart.keyed_plain lists plain ran
    · exact others root (.inr member)
  have begun : PlainlyReached client start { stage with parts := left ++ part.stage (.keyed items) :: right } :=
    reached.next (.staged parts allows) (staged.lists start)
  have step : Stage.Step client.overheard { stage with parts := left ++ part.stage (.keyed items) :: right } _ :=
    .committed rfl
  simp only [ran] at step
  exact ⟨begun.next step (shown.lists start), shown⟩

theorem tells : stage.scene.Tells := by
  induction reached with
  | fresh => exact fun _ _ none => nomatch none
  | next _ step _ ih => exact step.respects client.overheard_told NodePart.remove_told ih

theorem stands (regular : client.Regular) :
    ∃ kept lots, Stands client.overheard (stage.survey start) stage kept lots := by
  induction reached with
  | @fresh tree memory guest wellFormed invited =>
      have begun : Stands client.overheard .blank ⟨.onTree tree (memory, []), [], fun id => tree.size > id, guest⟩
        _ _ := .fresh wellFormed invited
      refine ⟨_, [], begun.standing.resurvey (Nat.le_refl _) ?_ ?_ ?_, rfl, List.forall_mem_nil _⟩
      · exact List.forall_mem_nil _
      · exact List.forall_mem_nil _
      · rintro _ _ ⟨lot, member, -⟩
        cases member
  | next _ step plain ih =>
      obtain ⟨kept, lots, stands⟩ := ih
      obtain ⟨held, lots, touched, taken, after, change⟩ := stands.step regular.overheard step
      exact ⟨held, lots, after.chart stands.standing.sound.answered_exists change.answers plain⟩

end PlainlyReached

/-- A pass that goes well asks the hook about each node of the items that it drops but the markers, item by item and
    in order, and about nothing else. A node goes if the hook says so and stays where it is otherwise, markers go
    anyway, and nobody is asked about a node that the hook kept before. The part lists plain items again. -/
theorem PlainlyReached.pass_heard {hook : RemovalHook σ} {stage : Stage (σ × List Question)} {part new : NodePart}
    (regular : client.Regular) (asks : client.hook? = some hook) (reached : PlainlyReached client part.start stage)
    (contains : stage.Contains part) {items : List (Key × Value)} (plain : ∀ item ∈ items, item.2.Plain)
    {after : Scene (σ × List Question)}
    (ran : ((part.stage (.keyed items)).commit client.overheard).runOn stage.scene = ((new, .ok ()), after)) :
    ∃ container front between rest dropped asked, part.WellPlaced stage.scene container front between rest ∧
      DropsHeard stage.scene after container between part.content.keyedItems new.content.keyedItems dropped asked ∧
      (∀ pair ∈ asked, ∀ place, .remove pair.1 place .skip ∉ stage.scene.memory.2) ∧
      ∀ item ∈ new.content.keyedItems, item.Plain := by
  obtain ⟨kept, lots, stands⟩ := reached.stands regular
  have shown := reached.plain part contains rfl
  obtain ⟨root, member, usable, inside⟩ := id contains
  obtain ⟨slack, container, front, rest, plot, rfl, placed⟩ := stands.placed member usable inside
  have sound := stands.standing.sound
  have well := placed.wellPlaced sound
  -- The part with nothing staged stands where the part stands.
  have bare : (surveyedRealm client.overheard stage.guest (stage.survey plot.part.start)).Placed ⟨stage.scene, kept⟩
      slack container front rest { plot with part := { plot.part.stage (.keyed items) with pending := none } } :=
    placed.staging none
  have leads := bare.keyed_heard (surveyed_lawful regular.overheard stage.guest _) sound rfl asks
    (regular.thinks hook asks) shown plain
  have staged : (plot.part.stage (.keyed items)).pending = some (.keyed items) := rfl
  obtain ⟨dropped, asked, heard, known⟩ := NodePart.commit_ok staged leads ran
  have heard : DropsHeard stage.scene after container plot.inner plot.part.content.keyedItems new.content.keyedItems
      dropped asked := heard
  obtain ⟨oldKeys, lists⟩ := well.listsKeys
  refine ⟨container, front, plot.inner, rest, dropped, asked, well, heard, fun pair member place kept => ?_,
    fun item listed => NodePart.keyed_plain lists plain ran item (NodePart.holds_of_keyed listed)⟩
  have target := List.mem_map_of_mem (f := (·.1)) member
  rw [heard.targets] at target
  obtain ⟨drop, among, here⟩ := List.mem_flatMap.1 target
  have here := List.mem_of_mem_filter here
  have reported := reached.tells pair.1 place kept
  rcases known drop among pair.1 here with new | ⟨-, spared⟩
  · exact absurd (sound.answered_exists pair.1 reported) (Nat.not_lt.2 new)
  · have listed := List.mem_of_mem_filter (heard.items.subset (List.mem_map_of_mem among))
    exact spared ⟨plot.part, contains, rfl, drop.1, listed, rfl⟩ reported

namespace Root.Example

/-- A hook that keeps the text of the first number and lets everything else go. -/
def hoarder : RemovalHook Unit where
  ask target _ := pure (if target = 5 then .skip else .proceed)

/-- A client that compiles nothing and has that hook. -/
def hoarding : Client Unit := { wordless with hook? := some hoarder }

theorem hoarding_regular : hoarding.Regular where
  grows _ _ _ tree wellFormed := ⟨wellFormed, .refl tree⟩
  separate _ _ _ _ := nofun
  thinks hook known _ _ _ _ := by
    cases known
    rfl

/-- The page with the root on it and an empty record. -/
def recording : Stage (Unit × List Question) :=
  ⟨((Root.create 0).runOn (.onTree page.tree ((), []))).2, [fresh.part], fun id => page.tree.size > id, fun _ => False⟩

def paired : (NodePart × Except Error Unit) × Scene (Unit × List Question) :=
  ((fresh.part.stage (.keyed [(.int 1, .text "1"), (.int 2, .text "2")])).commit hoarding.overheard).runOn
    recording.scene

def pairing : Stage (Unit × List Question) := { recording with scene := paired.2, parts := [] ++ paired.1.1 :: [] }

def single : (NodePart × Except Error Unit) × Scene (Unit × List Question) :=
  ((paired.1.1.stage (.keyed [(.int 2, .text "2")])).commit hoarding.overheard).runOn pairing.scene

def singling : Stage (Unit × List Question) := { pairing with scene := single.2, parts := [] ++ single.1.1 :: [] }

/-- What comes of dropping the second number as well. -/
def emptied : (NodePart × Except Error Unit) × Scene (Unit × List Question) :=
  ((single.1.1.stage (.keyed [])).commit hoarding.overheard).runOn singling.scene

theorem paired_eq : paired.1 = (⟨1, 2, none, .keyed [.int 1, .int 2]
    [⟨3, 4, none, .text "1"⟩, ⟨6, 7, none, .text "2"⟩] ⟨2, 0, 0, 0⟩⟩, .ok ()) := by
  unfold paired recording
  cbv

theorem single_eq : single.1 = (⟨1, 2, none, .keyed [.int 2] [⟨6, 7, none, .text "2"⟩] ⟨0, 1, 0, 1⟩⟩, .ok ()) := by
  unfold single pairing paired recording
  cbv

theorem emptied_ok : emptied.1.2 = .ok () := by
  unfold emptied singling single pairing paired recording
  cbv

theorem singling_record : singling.scene.memory.2 = [.remove 5 0 .skip] := by
  unfold singling single pairing paired recording
  cbv

theorem recording_reached (start : NodeId) : PlainlyReached hoarding start recording ∧ recording.Plain := by
  have created : (Root.create 0).runOn (.onTree page.tree ((), [])) = (.ok fresh, recording.scene) := by
    unfold recording fresh
    cbv
  have named : (Kind.plain "body").attributeNames.Nodup := List.nodup_nil
  have begun : PlainlyReached hoarding start
      ⟨.onTree page.tree ((), []), [], fun id => page.tree.size > id, fun _ => False⟩ :=
    .fresh (Tree.WellFormed.empty.create named) ⟨fun _ none => none.elim, fun _ _ none => none.elim⟩
  have plain : recording.Plain := by
    intro root member inner holds
    cases List.mem_singleton.1 member
    cases holds
  exact ⟨begun.next (.rooted (show 0 < page.tree.size by decide) not_false created) (plain.lists start), plain⟩

theorem singling_reached (start : NodeId) : PlainlyReached hoarding start singling := by
  have texts : ∀ item ∈ [((.int 1 : Key), Value.text "1"), (.int 2, .text "2")], item.2.Plain :=
    List.forall_mem_cons.2 ⟨.text "1", List.forall_mem_singleton.2 (.text "2")⟩
  have ran : paired = ((paired.1.1, .ok ()), paired.2) := Prod.ext (Prod.ext rfl (by rw [paired_eq])) rfl
  have again : single = ((single.1.1, .ok ()), single.2) := Prod.ext (Prod.ext rfl (by rw [single_eq])) rfl
  have lists : paired.1.1.ListsKeys [.int 1, .int 2] := by
    rw [paired_eq]
    exact ⟨rfl, rfl⟩
  obtain ⟨begun, plain⟩ := recording_reached start
  have none : fresh.part.ListsKeys [] := rfl
  obtain ⟨shown, plain⟩ := begun.rendered plain [] [] rfl none texts ran
  exact (shown.rendered plain [] [] rfl lists (List.forall_mem_singleton.2 (.text "2")) again).1

end Root.Example

open Root.Example in
/-- The hook kept the text of the first number. It is not asked about it again when the second one is dropped. -/
theorem PlainlyReached.pass_heard_emptied : hoarding.Regular ∧ hoarding.hook? = some hoarder ∧
    PlainlyReached hoarding single.1.1.start singling ∧ singling.Contains single.1.1 ∧
    (∀ item ∈ ([] : List (Key × Value)), item.2.Plain) ∧ emptied.1.2 = .ok () ∧
    ∃ container front between rest dropped asked, single.1.1.WellPlaced singling.scene container front between rest ∧
      DropsHeard singling.scene emptied.2 container between single.1.1.content.keyedItems emptied.1.1.content.keyedItems
        dropped asked ∧
      (∀ pair ∈ asked, pair.1 ≠ 5) ∧ ∀ item ∈ emptied.1.1.content.keyedItems, item.Plain := by
  have usable : single.1.1.isPoisoned = false := by
    rw [single_eq]
    rfl
  have contains : singling.Contains single.1.1 := by
    refine ⟨single.1.1, ?_, usable, .refl⟩
    unfold singling
    exact List.mem_singleton.2 rfl
  have reached := singling_reached single.1.1.start
  have ran : emptied = ((emptied.1.1, .ok ()), emptied.2) := Prod.ext (Prod.ext rfl emptied_ok) rfl
  obtain ⟨container, front, between, rest, dropped, asked, well, heard, never, plain⟩ :=
    PlainlyReached.pass_heard hoarding_regular rfl reached contains (List.forall_mem_nil _) ran
  refine ⟨hoarding_regular, rfl, reached, contains, List.forall_mem_nil _, emptied_ok, container, front, between, rest,
    dropped, asked, well, heard, fun pair member same => ?_, plain⟩
  refine never pair member 0 ?_
  rw [singling_record, same]
  exact List.mem_singleton.2 rfl

end DomParts
