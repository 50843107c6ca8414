import DomParts.Proofs.Layout.Taken
import DomParts.Proofs.Render.Leads
import DomParts.Render.Compile

/-! # Changes

What rendering in one place may do to everything else. It works on the nodes that it owns; besides, it
may take guests from wherever they are, hand nodes over to the removal hook, and create nodes.
-/

namespace DomParts

/-- The marker that a slot counts, if it takes content. -/
def Slot.markerIndex? : Slot → Option Nat
  | .node index => some index
  | .attribute .. => none

end DomParts

namespace DomParts.Layout

variable {σ : Type}

/-- What happens to a tree when only some nodes are worked on and some guests are taken. -/
structure Edits (guest : NodeId → Prop) (tree changed : Tree) (touched : NodeId → Prop)
    (taken : List NodeId) : Prop where
  wellFormed : changed.WellFormed
  size_le : tree.size ≤ changed.size
  texts : ∀ id, tree.isText id = true → changed.isText id = true
  guests : ∀ id ∈ taken, guest id
  spared : ∀ id, tree.size > id → ¬ touched id → tree.Spared changed taken id
  guest_kind : ∀ id, guest id → changed.kindOf id = tree.kindOf id
  guest_children : ∀ id, guest id →
    changed.childrenOf id = (tree.childrenOf id).filter (· ∉ taken)

/-- A scene, and the nodes that are in the hands of the removal hook. -/
structure World (σ : Type) where
  scene : Scene σ
  kept : NodeId → Prop

namespace World

abbrev tree (world : World σ) : Tree := world.scene.tree

/-- The hook was asked about the node and kept it. -/
def Answered (world : World σ) (id : NodeId) : Prop := .kept id ∈ world.scene.report.toList

end World

/-- What stays the same while a client's values are rendered. -/
structure Realm (σ : Type) where
  client : Client σ
  survey : Survey
  /-- The nodes that someone else owns. -/
  guest : NodeId → Prop
  /-- The nodes set aside for templates. -/
  stock : Scene σ → NodeId → Prop
  /-- What is below the fragment of a template. -/
  shape : Scene σ → SharedTemplate → Subtree → Prop
  /-- What the cache and the client's memory keep to. -/
  holds : Scene σ → Prop
  /-- Whether there is no removal hook. -/
  bare : Prop
  /-- Whether no template is a single text with something below it. -/
  leafy : Prop

variable {realm : Realm σ} {world before between after : World σ} {touched first second : NodeId → Prop}
  {taken : List NodeId} {slack : Slack}

namespace Realm

def premises (realm : Realm σ) (world : World σ) (slack : Slack) : Premises where
  toSlack := slack
  survey := realm.survey
  guest := realm.guest
  kept := world.kept
  shape := realm.shape world.scene
  bare := realm.bare
  leafy := realm.leafy

/-- The layout of a content in a world. -/
abbrev Shows (realm : Realm σ) (world : World σ) (slack : Slack) :
    Content → List NodeId → List NodeId → Prop :=
  Layout.Shows (realm.premises world slack) world.tree

/-- What holds of every world that rendering leads to. -/
structure Sound (realm : Realm σ) (world : World σ) : Prop where
  wellFormed : world.tree.WellFormed
  surveyed : realm.survey.base ≤ world.tree.size
  holds : realm.holds world.scene
  guest_exists : ∀ id, realm.guest id → id < world.tree.size
  guest_below : ∀ id child, realm.guest id → child ∈ world.tree.childrenOf id → realm.guest child
  stock_exists : ∀ id, realm.stock world.scene id → id < world.tree.size
  stock_below : ∀ id child, realm.stock world.scene id → child ∈ world.tree.childrenOf id →
    realm.stock world.scene child
  stock_own : ∀ id, realm.stock world.scene id → ¬ realm.guest id
  answered_exists : ∀ id, world.Answered id → id < world.tree.size
  kept_exists : ∀ id, world.kept id → id < world.tree.size
  answered : ∀ id, world.kept id → world.Answered id

/-- How a world may change when only some nodes are worked on. -/
structure Change (realm : Realm σ) (before after : World σ) (touched : NodeId → Prop)
    (taken : List NodeId) : Prop extends Edits realm.guest before.tree after.tree touched taken where
  sound : realm.Sound after
  /-- The hook only comes by nodes that are worked on. -/
  handed : ∀ id, after.kept id → before.kept id ∨ touched id
  /-- The hook only loses texts, which are taken for the text of a part. -/
  keeps : ∀ id, before.kept id → after.kept id ∨ touched id ∧ before.tree.isText id = true ∧ ¬ realm.guest id
  /-- What the hook holds was there before, and is what it was. -/
  stable : ∀ id, after.kept id → before.tree.size > id ∧
    after.tree.kindOf id = before.tree.kindOf id
  lasting : ∀ id, before.Answered id → after.Answered id
  answers : ∀ id, after.Answered id → before.Answered id ∨ after.kept id
  shape : ∀ shared original, realm.shape before.scene shared original →
    realm.shape after.scene shared original
  stock : ∀ id, before.tree.size > id →
    (realm.stock after.scene id ↔ realm.stock before.scene id)

/-- What a realm has to ensure for rendering to go on in it. -/
structure Lawful (realm : Realm σ) : Prop where
  /-- Nothing happens to what is set aside for templates. -/
  steady : ∀ before after : Scene σ, realm.holds before → after.cache = before.cache →
    after.memory = before.memory → before.tree.size ≤ after.tree.size →
    (∀ id, realm.stock before id → after.tree.kindOf id = before.tree.kindOf id ∧
      after.tree.childrenOf id = before.tree.childrenOf id) →
    realm.holds after ∧ (∀ id, realm.stock after id ↔ realm.stock before id) ∧
      ∀ shared original, realm.shape before shared original → realm.shape after shared original
  /-- A template that is asked for is there or is compiled, by adding nodes if at all. -/
  compiled : ∀ (world : World σ) kind literal, realm.Sound world →
    (RenderM.templateFor realm.client kind literal).Leads world.scene
      (fun shared scene =>
        realm.Change world ⟨scene, world.kept⟩ (fun _ => False) [] ∧
        realm.shape scene shared (scene.tree.subtree shared.template.fragment))
      (fun _ scene =>
        realm.Change world ⟨scene, world.kept⟩ (fun _ => False) [])
  /-- No two node slots of a template are at the same marker. -/
  distinct : ∀ scene shared original, realm.shape scene shared original →
    (shared.template.slots.filterMap Slot.markerIndex?).Nodup
  unasked : realm.bare → realm.client.hook? = none
  /-- Where the texts of parts have to have nothing below them, no single text with something below it comes in. -/
  leaves : realm.leafy → realm.bare ∧
    ∀ scene shared original, realm.holds scene → realm.shape scene shared original → Leafy original
  /-- The removal hook only thinks. -/
  asked : ∀ hook, realm.client.hook? = some hook → ∀ (scene : Scene σ) target container,
    realm.holds scene →
    let answer := hook.ask target container (scene.memory, scene.tree)
    let after : Scene σ := { scene with memory := answer.2.1 }
    answer.2.2 = scene.tree ∧ realm.holds after ∧ (∀ id, realm.stock after id ↔ realm.stock scene id) ∧
      ∀ shared original, realm.shape scene shared original → realm.shape after shared original

end Realm

end DomParts.Layout

namespace DomParts.Tree.Spared

variable {tree changed next : Tree} {id : NodeId} {one two : List NodeId}

theorem same (kinds : changed.kindOf id = tree.kindOf id)
    (children : changed.childrenOf id = tree.childrenOf id)
    (parents : changed.parentOf id = tree.parentOf id) : tree.Spared changed [] id :=
  ⟨⟨kinds, by simpa using children⟩, fun _ => parents⟩

theorem trans (first : tree.Spared changed one id) (second : changed.Spared next two id) :
    tree.Spared next (one ++ two) id where
  kindOf := second.kindOf.trans first.kindOf
  childrenOf := by
    rw [second.childrenOf, first.childrenOf, List.filter_filter]
    congr 1
    funext child
    simp [Bool.and_comm]
  parentOf left := by
    simp only [List.mem_append, not_or] at left
    exact (second.parentOf left.2).trans (first.parentOf left.1)

end DomParts.Tree.Spared

namespace DomParts.Layout

variable {σ : Type} {realm : Realm σ} {world before between after : World σ}
  {touched first second guest : NodeId → Prop} {taken later inner owned : List NodeId}
  {slack more : Slack} {content : Content} {tree changed next : Tree}

namespace Edits

theorem refl (sound : tree.WellFormed) : Edits guest tree tree touched [] where
  wellFormed := sound
  size_le := Nat.le_refl _
  texts _ := id
  guests := by simp
  spared _ _ _ := .same rfl rfl rfl
  guest_kind _ _ := rfl
  guest_children _ _ := by simp

theorem trans (one : Edits guest tree changed first taken) (two : Edits guest changed next second later) :
    Edits guest tree next (fun id => first id ∨ second id) (taken ++ later) where
  wellFormed := two.wellFormed
  size_le := Nat.le_trans one.size_le two.size_le
  texts id text := two.texts id (one.texts id text)
  guests id member := (List.mem_append.1 member).elim (one.guests id) (two.guests id)
  spared id inside outside :=
    (one.spared id inside fun here => outside (.inl here)).trans
      (two.spared id (Nat.lt_of_lt_of_le inside one.size_le) fun here => outside (.inr here))
  guest_kind id own := (two.guest_kind id own).trans (one.guest_kind id own)
  guest_children id own := by
    rw [two.guest_children id own, one.guest_children id own, List.filter_filter]
    congr 1
    funext child
    simp [Bool.and_comm]

end Edits

namespace Realm

section Edits

variable (lawful : realm.Lawful) (sound : realm.Sound before)
  (edits : Edits realm.guest before.tree after.tree touched taken)
  (unstocked : ∀ id, touched id → ¬ realm.stock before.scene id)
include sound edits unstocked

theorem stock_children {id : NodeId} (stock : realm.stock before.scene id) :
    after.tree.kindOf id = before.tree.kindOf id ∧ after.tree.childrenOf id = before.tree.childrenOf id := by
  have spared := edits.spared id (sound.stock_exists id stock) fun here => unstocked id here stock
  refine ⟨spared.kindOf, ?_⟩
  rw [spared.childrenOf, List.filter_eq_self]
  intro child member
  have : child ∉ taken := fun gone =>
    sound.stock_own child (sound.stock_below id child stock member) (edits.guests child gone)
  simpa using this

variable (cache : after.scene.cache = before.scene.cache) (memory : after.scene.memory = before.scene.memory)
include lawful cache memory

theorem Lawful.settled : realm.holds after.scene ∧
    (∀ id, realm.stock after.scene id ↔ realm.stock before.scene id) ∧
    ∀ shared original, realm.shape before.scene shared original → realm.shape after.scene shared original :=
  lawful.steady before.scene after.scene sound.holds cache memory edits.size_le
    fun _ stock => stock_children sound edits unstocked stock

/-- An edit that has nothing to do with templates puts nothing new in stock. -/
theorem Lawful.new_unstocked {id : NodeId} (beyond : before.tree.size ≤ id) : ¬ realm.stock after.scene id := by
  intro stock
  obtain ⟨-, settled, -⟩ := lawful.settled sound edits unstocked cache memory
  exact Nat.not_lt.2 beyond (sound.stock_exists id ((settled id).1 stock))

/-- An edit that has nothing to do with templates is a change. The hook may lose texts. -/
theorem Lawful.change (report : ∀ id, after.Answered id ↔ before.Answered id)
    (held : ∀ id, after.kept id → before.kept id)
    (keeps : ∀ id, before.kept id → after.kept id ∨ touched id ∧ before.tree.isText id = true ∧ ¬ realm.guest id)
    (stable : ∀ id, after.kept id → touched id → after.tree.kindOf id = before.tree.kindOf id) :
    realm.Change before after touched taken := by
  obtain ⟨holds, stock, shape⟩ := lawful.settled sound edits unstocked cache memory
  have inside : ∀ id, after.kept id → before.tree.size > id := fun id kept =>
    sound.kept_exists id (held id kept)
  refine { edits with
    sound := ?_, handed := fun id kept => .inl (held id kept), keeps := keeps, stable := ?_,
    lasting := ?_, answers := ?_, shape := shape, stock := fun id _ => stock id }
  · refine ⟨edits.wellFormed, Nat.le_trans sound.surveyed edits.size_le, holds, ?guest_exists, ?guest_below,
      ?stock_exists, ?stock_below, ?stock_own, ?answered_exists, ?kept_exists, ?answered⟩
    case guest_exists => exact fun id own => Nat.lt_of_lt_of_le (sound.guest_exists id own) edits.size_le
    case guest_below =>
      intro id child own member
      rw [edits.guest_children id own] at member
      exact sound.guest_below id child own (List.mem_of_mem_filter member)
    case stock_exists =>
      exact fun id shelf => Nat.lt_of_lt_of_le (sound.stock_exists id ((stock id).1 shelf)) edits.size_le
    case stock_below =>
      intro id child shelf member
      rw [(stock_children sound edits unstocked ((stock id).1 shelf)).2] at member
      exact (stock child).2 (sound.stock_below id child ((stock id).1 shelf) member)
    case stock_own => exact fun id shelf => sound.stock_own id ((stock id).1 shelf)
    case answered_exists =>
      exact fun id answered => Nat.lt_of_lt_of_le (sound.answered_exists id ((report id).1 answered)) edits.size_le
    case kept_exists => exact fun id kept => Nat.lt_of_lt_of_le (inside id kept) edits.size_le
    case answered => exact fun id kept => (report id).2 (sound.answered id (held id kept))
  · refine fun id kept => ⟨inside id kept, ?_⟩
    by_cases here : touched id
    · exact stable id kept here
    · exact (edits.spared id (inside id kept) here).kindOf
  · exact fun id answered => (report id).2 answered
  · exact fun id answered => .inl ((report id).1 answered)

end Edits

namespace Change

theorem refl (sound : realm.Sound world) : realm.Change world world touched [] :=
  { Edits.refl sound.wellFormed with
    sound := sound
    handed := fun _ => .inl
    keeps := fun _ => .inl
    stable := fun id kept => ⟨sound.kept_exists id kept, rfl⟩
    lasting := fun _ => id
    answers := fun _ => .inl
    shape := fun _ _ => id
    stock := fun _ _ => Iff.rfl }

theorem widen (change : realm.Change before after first taken)
    (wider : ∀ id, before.tree.size > id → first id → second id) (sound : realm.Sound before) :
    realm.Change before after second taken := by
  refine { change with spared := ?_, handed := ?_, keeps := ?_ }
  · exact fun id inside outside => change.spared id inside fun here => outside (wider id inside here)
  · exact fun id kept => (change.handed id kept).imp_right (wider id (change.stable id kept).1)
  · intro id kept
    exact (change.keeps id kept).imp_right (And.imp_left (wider id (sound.kept_exists id kept)))

/-- One change after the other, if the hook is handed nothing that was worked on before and loses nothing that it
    was just handed. Guests that were taken by the first change need not be counted among the nodes that the second
    one works on. -/
theorem trans (one : realm.Change before between first taken)
    (two : realm.Change between after second later)
    (apart : ∀ id, after.kept id → ¬ between.kept id →
      before.tree.size > id ∧ ¬ first id ∧ id ∉ taken)
    (firm : ∀ id, between.kept id → before.Answered id ∨ after.kept id) :
    realm.Change before after (fun id => first id ∨ second id ∧ id ∉ taken) (taken ++ later) := by
  refine { one.toEdits.trans two.toEdits with
    sound := two.sound, spared := ?spared, handed := ?handed, keeps := ?keeps, stable := ?stable, lasting := ?lasting,
    answers := ?answers, shape := ?shape, stock := ?stock }
  case spared =>
    intro id inside outside
    by_cases gone : id ∈ taken
    · have guest := one.guests id gone
      have both := one.toEdits.trans two.toEdits
      exact ⟨⟨both.guest_kind id guest, both.guest_children id guest⟩,
        fun left => absurd (List.mem_append_left _ gone) left⟩
    · exact (one.toEdits.trans two.toEdits).spared id inside fun here =>
        outside (here.imp_right fun here => ⟨here, gone⟩)
  case handed =>
    intro id kept
    by_cases known : between.kept id
    · exact (one.handed id known).imp_right .inl
    · have here := (two.handed id kept).resolve_left known
      exact .inr (.inr ⟨here, (apart id kept known).2.2⟩)
  case keeps =>
    intro id kept
    rcases one.keeps id kept with kept | ⟨here, text⟩
    · refine (two.keeps id kept).imp_right fun here => ⟨.inr ⟨here.1, ?_⟩, ?_, here.2.2⟩
      · exact fun gone => here.2.2 (one.guests id gone)
      · exact (Tree.isText_eq (one.stable id kept).2).symm.trans here.2.1
    · exact .inr ⟨.inl here, text⟩
  case stable =>
    intro id kept
    have here := (two.stable id kept).2
    by_cases known : between.kept id
    · exact ⟨(one.stable id known).1, here.trans (one.stable id known).2⟩
    · obtain ⟨inside, outside, -⟩ := apart id kept known
      exact ⟨inside, here.trans (one.spared id inside outside).kindOf⟩
  case lasting => exact fun id answered => two.lasting id (one.lasting id answered)
  case answers =>
    intro id answered
    rcases two.answers id answered with answered | held
    · rcases one.answers id answered with answered | kept
      · exact .inl answered
      · exact firm id kept
    · exact .inr held
  case shape => exact fun shared original shape => two.shape _ _ (one.shape _ _ shape)
  case stock =>
    intro id inside
    exact (two.stock id (Nat.lt_of_lt_of_le inside one.size_le)).trans (one.stock id inside)

theorem held (change : realm.Change before after touched taken) {id : NodeId}
    (outside : ¬ touched id) : after.kept id ↔ before.kept id :=
  ⟨fun kept => (change.handed id kept).resolve_right outside,
    fun kept => (change.keeps id kept).resolve_right fun here => outside here.1⟩

theorem carries (change : realm.Change before after touched taken)
    (outside : ∀ id ∈ owned, before.tree.size > id ∧ ¬ touched id) (allows : slack.Allows taken more) :
    Carries (realm.premises before slack) (realm.premises after more) before.tree after.tree taken
      owned where
  guest _ := id
  own _ _ := id
  allows := allows
  shape := change.shape
  bare := id
  leafy := id
  survey := rfl
  guests := change.guests
  held id member := change.held (outside id member).2
  alike id member := (change.spared id (outside id member).1 (outside id member).2).toAlike

theorem shows (change : realm.Change before after touched taken) (more : Slack)
    (shows : realm.Shows before slack content inner owned)
    (outside : ∀ id ∈ owned, before.tree.size > id ∧ ¬ touched id) (allows : slack.Allows taken more) :
    realm.Shows after more content (inner.filter (· ∉ taken)) (owned.filter (· ∉ taken)) :=
  shows.carry (change.carries outside allows)

theorem leaf {id : NodeId} (change : realm.Change before after touched taken) (inside : before.tree.size > id)
    (outside : ¬ touched id) (leaf : before.tree.childrenOf id = []) : after.tree.childrenOf id = [] := by
  rw [(change.spared id inside outside).childrenOf, leaf, List.filter_nil]

theorem marked {first last : NodeId} (change : realm.Change before after touched taken)
    (marked : Marked realm.guest before.kept before.tree first last)
    (start : ¬ touched first) (stop : ¬ touched last) :
    Marked realm.guest after.kept after.tree first last where
  start := (change.spared _ (Tree.lt_size_of_kindOf marked.start) start).kindOf.trans marked.start
  stop := (change.spared _ (Tree.lt_size_of_kindOf marked.stop) stop).kindOf.trans marked.stop
  start_own := marked.start_own
  stop_own := marked.stop_own
  start_free kept := marked.start_free ((change.held start).1 kept)
  stop_free kept := marked.stop_free ((change.held stop).1 kept)
  stop_leaf := change.leaf (Tree.lt_size_of_kindOf marked.stop) stop marked.stop_leaf

theorem staked {plot fewer : Plot} (change : realm.Change before after touched taken)
    (staked : Staked realm.survey realm.guest before.kept before.tree plot)
    (start : ¬ touched plot.part.start) (stop : ¬ touched plot.part.stop) (part : fewer.part = plot.part)
    (among : ∀ id ∈ fewer.owned, id ∈ plot.owned) :
    Staked realm.survey realm.guest after.kept after.tree fewer where
  toMarked := part ▸ change.marked staked.toMarked start stop
  surveyed id member := part ▸ staked.surveyed id (among id member)

theorem charted {plot fewer : Plot} (change : realm.Change before after touched taken)
    (charted : Charted realm.survey realm.guest before.kept before.tree plot)
    (start : ¬ touched plot.part.start) (stop : ¬ touched plot.part.stop) (part : fewer.part = plot.part)
    (among : ∀ id ∈ fewer.owned, id ∈ plot.owned) :
    Charted realm.survey realm.guest after.kept after.tree fewer where
  toStaked := change.staked charted.toStaked start stop part among
  known := part ▸ charted.known

theorem lined {plot fewer : Plot} (change : realm.Change before after touched taken)
    (lined : Lined realm.survey realm.guest before.kept before.tree plot)
    (start : ¬ touched plot.part.start) (stop : ¬ touched plot.part.stop) (part : fewer.part = plot.part)
    (among : ∀ id ∈ fewer.owned, id ∈ plot.owned) :
    Lined realm.survey realm.guest after.kept after.tree fewer where
  toCharted := change.charted lined.toCharted start stop part among
  start_leaf := part ▸ change.leaf (Tree.lt_size_of_kindOf lined.start) start lined.start_leaf

end Change

end Realm

end DomParts.Layout
