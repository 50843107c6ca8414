import DomParts.Proofs.Layout.Steps

/-! # Honest renderers

A renderer is honest about a value if it works on its site only, takes no guests but those in the value,
and leaves the layout of what it says is shown. It may fail, but then it leaves a site, too.
-/

namespace DomParts

namespace Value

mutual

def leaves : Value → List NodeId
  | .nothing => []
  | .text _ => []
  | .node id => [id]
  | .template _ _ values => leavesOfAll values
  | .list items => leavesOfAll items
  | .keyed items => leavesOfItems items

/-- The nodes of the host in several values, in order. -/
def leavesOfAll : List Value → List NodeId
  | [] => []
  | first :: rest => first.leaves ++ leavesOfAll rest

/-- The nodes of the host in keyed values, in order. -/
def leavesOfItems : List (Key × Value) → List NodeId
  | [] => []
  | first :: rest => first.2.leaves ++ leavesOfItems rest

end

end Value

namespace Layout

variable {σ : Type}

/-- How far a layout may fall short once these guests were shown: only a guest that is shown twice can
    be missing that was not before. -/
def Slack.after (slack : Slack) (leaves : List NodeId) : Slack where
  wanted id := id ∈ leaves
  lost id := slack.lost id ∨ 2 ≤ leaves.count id

namespace Realm

/-- Whether guests can be shown: the host only hands out elements. -/
def Admits (realm : Realm σ) (tree : Tree) (leaves : List NodeId) : Prop :=
  ∀ id ∈ leaves, realm.guest id ∧ ∃ name attributes, tree.kindOf id = some (.element name attributes)

/-- What an honest renderer leaves when it goes well. -/
structure Done (realm : Realm σ) (before after : World σ) (container : NodeId) (front rest : List NodeId)
    (plot : Plot) (slack : Slack) (leaves : List NodeId) (content : Content) (taken : List NodeId)
    (inner owned : List NodeId) : Prop where
  outcome : realm.Outcome before after container front rest plot taken
    ⟨{ plot.part with content, pending := none }, inner, owned⟩
  among : ∀ id ∈ taken, id ∈ leaves
  shows : realm.Shows after (slack.after leaves) content inner owned
  /-- A text is replaced in place. -/
  texts : plot.part.content.text?.isSome → content.text?.isSome → inner = plot.inner
  /-- The items of a keyed list are new or were items of it. -/
  lists : ∀ item ∈ content.keyedItems, before.tree.size ≤ item.start ∨
    ∃ old ∈ plot.part.content.keyedItems, old.start = item.start

/-- What an honest renderer leaves when it fails. -/
structure Failed (realm : Realm σ) (before after : World σ) (container : NodeId)
    (front rest : List NodeId) (plot : Plot) (leaves taken : List NodeId)
    (new : Plot) : Prop where
  outcome : realm.Outcome before after container front rest plot taken new
  among : ∀ id ∈ taken, id ∈ leaves

/-- What an honest renderer does on a site that shows what its part says. -/
def Honest (realm : Realm σ) (leaves : List NodeId) (render : Renderer σ) : Prop :=
  ∀ {world : World σ} {container : NodeId} {front rest : List NodeId} {plot : Plot} {slack : Slack},
    realm.Sound world → realm.Site world container front rest plot →
    realm.Shows world slack plot.part.content plot.inner plot.owned → realm.Admits world.tree leaves →
    (render plot.part).Leads world.scene
      (fun content scene => ∃ kept taken inner owned,
        realm.Done world ⟨scene, kept⟩ container front rest plot slack leaves content taken inner owned)
      (fun _ scene => ∃ kept taken new,
        realm.Failed world ⟨scene, kept⟩ container front rest plot leaves taken new)

variable {realm : Realm σ} {world after : World σ} {container : NodeId} {front rest : List NodeId}
  {plot new : Plot} {slack : Slack} {leaves taken : List NodeId}

theorem Change.admits {touched : NodeId → Prop} (change : realm.Change world after touched taken)
    (admits : realm.Admits world.tree leaves) : realm.Admits after.tree leaves := by
  intro id member
  obtain ⟨guest, name, attributes, kind⟩ := admits id member
  exact ⟨guest, name, attributes, (change.guest_kind id guest).trans kind⟩

theorem Site.relabel {part : NodePart} (site : realm.Site world container front rest plot)
    (start : part.start = plot.part.start) (stop : part.stop = plot.part.stop) :
    realm.Site world container front rest { plot with part } := by
  obtain ⟨⟨first, last, pending, content⟩, inner, owned⟩ := plot
  obtain ⟨_, _, pending', content'⟩ := part
  cases start
  cases stop
  exact ⟨site.listed, ⟨site.marked.toMarked, site.marked.surveyed⟩, site.container_own,
    site.container_free, site.distinct, site.inside, site.present, site.unstocked, site.apart⟩

/-- A site may be said to be left with another part between the same markers. -/
theorem Outcome.relabel (part : NodePart)
    (outcome : realm.Outcome world after container front rest plot taken new)
    (start : part.start = new.part.start) (stop : part.stop = new.part.stop) :
    realm.Outcome world after container front rest plot taken { new with part } :=
  outcome.forget start stop rfl outcome.site.owned_nodup outcome.site.inside fun _ => id

/-- What was known of the items of a part is still known once something was rendered into it. -/
theorem Done.knows {content : Content} {inner owned : List NodeId} (sound : realm.Sound world)
    (done : realm.Done world after container front rest plot slack leaves content taken inner owned)
    (known : realm.survey.Knows plot.part) :
    realm.survey.Knows { plot.part with content, pending := none } := by
  intro item member
  rcases done.lists item member with new | ⟨old, listed, same⟩
  · exact .inl (Nat.le_trans sound.surveyed new)
  · exact same ▸ known old listed

theorem Failed.noted (lawful : realm.Lawful) (sound : realm.Sound world)
    (failed : realm.Failed world after container front rest plot leaves taken new) {event : Event}
    (other : ∀ id, event ≠ .kept id) :
    realm.Failed world ⟨after.scene.add event, after.kept⟩ container front rest plot leaves
      (taken ++ []) new := by
  have noted := failed.outcome.site.noted lawful failed.outcome.change.sound other
  refine ⟨failed.outcome.trans sound noted (fun id kept free => absurd kept free) fun _ => .inr, ?_⟩
  simpa using failed.among

theorem Honest.renderWith (lawful : realm.Lawful) {item : Rendering σ}
    (honest : realm.Honest item.value.leaves item.render) (sound : realm.Sound world)
    (site : realm.Site world container front rest plot)
    (shows : realm.Shows world slack plot.part.content plot.inner plot.owned)
    (admits : realm.Admits world.tree item.value.leaves) :
    (plot.part.renderWith item).Leads world.scene
      (fun part scene => ∃ content, part = { plot.part with content, pending := none } ∧
        ∃ kept taken inner owned, realm.Done world ⟨scene, kept⟩ container front rest plot slack
          item.value.leaves content taken inner owned)
      (fun _ scene => ∃ kept taken new,
        realm.Failed world ⟨scene, kept⟩ container front rest plot item.value.leaves taken new) := by
  simp only [NodePart.renderWith, NodePart.commitWith, NodePart.stage]
  by_cases poisoned : ({ plot.part with pending := none } : NodePart).isPoisoned = true
  · simp only [poisoned, if_true, RenderM.leads_orThrow_refused]
    exact ⟨world.kept, [], plot, site.idle lawful sound, by simp⟩
  · simp only [poisoned, if_false, Bool.false_eq_true, NodePart.settle, NodePart.attend,
      RenderM.leads_orThrow_carry, RenderM.leads_tryCatch, RenderM.leads_bind, RenderM.leads_note, RenderM.leads_throw]
    have relabelled : realm.Site world container front rest
        { plot with part := { plot.part with pending := none } } := site.relabel rfl rfl
    refine (honest sound relabelled shows admits).mono ?_ ?_
    · rintro content scene ⟨kept, taken, inner, owned, done⟩
      refine ⟨content, rfl, kept, taken, inner, owned, ?_, done.among, done.shows, done.texts, done.lists⟩
      have outcome := done.outcome
      exact ⟨outcome.change, outcome.site, outcome.start, outcome.stop, outcome.origin,
        outcome.container_kind, outcome.container_parent⟩
    · rintro error scene ⟨kept, taken, new, failed⟩
      have noted := failed.noted lawful sound fun id => (by simp : Event.commitFailed error ≠ .kept id)
      have outcome := noted.outcome
      exact ⟨kept, _, new, ⟨outcome.change, outcome.site, outcome.start, outcome.stop, outcome.origin,
        outcome.container_kind, outcome.container_parent⟩, noted.among⟩

end Realm

end Layout

end DomParts
