import DomParts.Proofs.Layout.Change
import DomParts.Proofs.Tree.Insert

/-! # Sites

Where a part stands: its container, what stands before and behind it there, and that its nodes are
nobody else's. An outcome is what a step of rendering may do to a site and what it leaves of it.
-/

namespace DomParts.Layout

variable {σ : Type}

namespace Realm

/-- Where a part stands. -/
structure Site (realm : Realm σ) (world : World σ) (container : NodeId) (front rest : List NodeId)
    (plot : Plot) : Prop where
  listed : world.tree.childrenOf container = front ++ (plot.nodes ++ rest)
  marked : Staked realm.survey realm.guest world.kept world.tree plot
  container_own : ¬ realm.guest container
  container_free : ¬ world.kept container
  distinct : (container :: plot.claimed).Nodup
  inside : ∀ id ∈ plot.inner, id ∈ plot.owned
  present : ∀ id ∈ plot.owned, world.tree.size > id
  unstocked : ∀ id ∈ container :: plot.claimed, ¬ realm.stock world.scene id
  /-- The part's own nodes and guests are nowhere above it. -/
  apart : ∃ upward, world.tree.Upward upward ∧ upward container ∧
    ∀ id, upward id → id ∉ plot.owned ∧ ¬ realm.guest id ∧ world.tree.size > id

/-- What a step leaves of a site. -/
structure Outcome (realm : Realm σ) (before after : World σ) (container : NodeId)
    (front rest : List NodeId) (plot : Plot) (taken : List NodeId)
    (new : Plot) : Prop where
  change : realm.Change before after (fun id => id = container ∨ id ∈ plot.owned) taken
  site : realm.Site after container (front.filter (· ∉ taken)) (rest.filter (· ∉ taken)) new
  start : new.part.start = plot.part.start
  stop : new.part.stop = plot.part.stop
  origin : ∀ id ∈ new.owned, id ∈ plot.owned ∨ before.tree.size ≤ id ∨ id ∈ taken
  container_kind : after.tree.kindOf container = before.tree.kindOf container
  container_parent : after.tree.parentOf container = before.tree.parentOf container

end Realm

variable {realm : Realm σ} {before between after : World σ} {container : NodeId}
  {front rest : List NodeId} {plot middle new : Plot} {taken later : List NodeId}

namespace Realm.Site

variable (site : realm.Site before container front rest plot)
include site

theorem start_mem : plot.part.start ∈ before.tree.childrenOf container := by
  simp [site.listed, Plot.nodes]

theorem stop_mem : plot.part.stop ∈ before.tree.childrenOf container := by
  simp [site.listed, Plot.nodes]

theorem container_exists (sound : realm.Sound before) : before.tree.size > container :=
  sound.wellFormed.lt_size_of_parent (sound.wellFormed.parentOf_of_mem site.start_mem)

theorem container_new : container ≠ plot.part.start ∧ container ≠ plot.part.stop ∧
    container ∉ plot.owned := by
  simpa [Plot.claimed, not_or] using (List.nodup_cons.1 site.distinct).1

theorem start_new : plot.part.start ≠ plot.part.stop ∧ plot.part.start ∉ plot.owned := by
  simpa [Plot.claimed, not_or] using (List.nodup_cons.1 (List.nodup_cons.1 site.distinct).2).1

theorem stop_new : plot.part.stop ∉ plot.owned := by
  have := (List.nodup_cons.1 (List.nodup_cons.1 site.distinct).2).2
  exact (List.nodup_cons.1 this).1

theorem owned_nodup : plot.owned.Nodup := by
  have := (List.nodup_cons.1 (List.nodup_cons.1 site.distinct).2).2
  exact (List.nodup_cons.1 this).2

theorem start_untouched : ¬ (plot.part.start = container ∨ plot.part.start ∈ plot.owned) := by
  rintro (same | member)
  · exact site.container_new.1 same.symm
  · exact site.start_new.2 member

theorem stop_untouched : ¬ (plot.part.stop = container ∨ plot.part.stop ∈ plot.owned) := by
  rintro (same | member)
  · exact site.container_new.2.1 same.symm
  · exact site.stop_new member

end Realm.Site

namespace Realm

theorem filter_filter_not_mem (ids : List NodeId) :
    (ids.filter (· ∉ taken)).filter (· ∉ later) = ids.filter (· ∉ taken ++ later) := by
  rw [List.filter_filter]
  congr 1
  funext id
  simp [Bool.and_comm]

theorem not_taken {id : NodeId} (guests : ∀ id ∈ taken, realm.guest id) (own : ¬ realm.guest id) :
    id ∉ taken := fun gone => own (guests id gone)

theorem Site.claimed_present (sound : realm.Sound before) (site : realm.Site before container front rest plot) :
    ∀ id ∈ container :: plot.claimed, before.tree.size > id := by
  simp only [Plot.claimed, List.mem_cons]
  rintro id (rfl | rfl | rfl | member)
  · exact site.container_exists sound
  · exact Tree.lt_size_of_kindOf site.marked.start
  · exact Tree.lt_size_of_kindOf site.marked.stop
  · exact site.present id member

section Left

variable (change : realm.Change before after (fun id => id = container ∨ id ∈ plot.owned) taken)
  (sound : realm.Sound before) (site : realm.Site before container front rest plot)
  (origin : ∀ id ∈ new.owned, id ∈ plot.owned ∨ before.tree.size ≤ id ∨ id ∈ taken)
include change origin

/-- A part does not come to own what is outside of its site, except guests. -/
theorem Change.foreign {id : NodeId} (inside : before.tree.size > id) (outside : id ∉ plot.owned)
    (own : ¬ realm.guest id) : id ∉ new.owned := by
  intro member
  rcases origin id member with member | beyond | gone
  · exact outside member
  · exact Nat.not_lt.2 beyond inside
  · exact own (change.guests id gone)

include site

theorem Change.above (container_parent : after.tree.parentOf container = before.tree.parentOf container) :
    ∃ upward, after.tree.Upward upward ∧ upward container ∧
      ∀ id, upward id → id ∉ new.owned ∧ ¬ realm.guest id ∧ after.tree.size > id := by
  obtain ⟨upward, closed, above, outside⟩ := site.apart
  refine ⟨upward, fun child parent up link => ?_, above, fun id up => ?_⟩
  · obtain ⟨notOwned, own, inside⟩ := outside child up
    by_cases here : child = container
    · exact closed child parent up (here ▸ container_parent ▸ here ▸ link)
    · have spared := change.spared child inside (by simp [here, notOwned])
      rw [spared.parentOf (not_taken change.guests own)] at link
      exact closed child parent up link
  · obtain ⟨notOwned, own, inside⟩ := outside id up
    exact ⟨change.foreign origin inside notOwned own, own, Nat.lt_of_lt_of_le inside change.size_le⟩

include sound

theorem Change.distinct_left (start : new.part.start = plot.part.start) (stop : new.part.stop = plot.part.stop)
    (distinct : new.owned.Nodup) : (container :: new.claimed).Nodup := by
  have present := site.claimed_present sound
  have notContainer := change.foreign origin (present _ (by simp)) site.container_new.2.2 site.container_own
  have notStart := change.foreign origin (present _ (by simp [Plot.claimed])) site.start_new.2 site.marked.start_own
  have notStop := change.foreign origin (present _ (by simp [Plot.claimed])) site.stop_new site.marked.stop_own
  simp only [Plot.claimed, start, stop, List.nodup_cons, List.mem_cons, not_or]
  exact ⟨⟨site.container_new.1, site.container_new.2.1, notContainer⟩, ⟨site.start_new.1, notStart⟩,
    notStop, distinct⟩

theorem Change.unstocked_left (start : new.part.start = plot.part.start) (stop : new.part.stop = plot.part.stop)
    (unstocked : ∀ id ∈ new.owned, before.tree.size ≤ id → ¬ realm.stock after.scene id) :
    ∀ id ∈ container :: new.claimed, ¬ realm.stock after.scene id := by
  have old : ∀ id ∈ container :: plot.claimed, ¬ realm.stock after.scene id := fun id member stock =>
    site.unstocked id member ((change.stock id (site.claimed_present sound id member)).1 stock)
  simp only [Plot.claimed, start, stop, List.mem_cons]
  rintro id (rfl | rfl | rfl | member)
  · exact old _ (by simp)
  · exact old _ (by simp [Plot.claimed])
  · exact old _ (by simp [Plot.claimed])
  · rcases origin id member with member | beyond | gone
    · exact old id (by simp [Plot.claimed, member])
    · exact unstocked id member beyond
    · exact fun stock => change.sound.stock_own id stock (change.guests id gone)

end Left

theorem Change.site
    (change : realm.Change before after (fun id => id = container ∨ id ∈ plot.owned) taken)
    (sound : realm.Sound before) (site : realm.Site before container front rest plot)
    (container_free : ¬ after.kept container)
    (container_parent : after.tree.parentOf container = before.tree.parentOf container)
    (start : new.part.start = plot.part.start) (stop : new.part.stop = plot.part.stop)
    (listed : after.tree.childrenOf container =
      front.filter (· ∉ taken) ++ (new.nodes ++ rest.filter (· ∉ taken)))
    (distinct : new.owned.Nodup) (inside : ∀ id ∈ new.inner, id ∈ new.owned)
    (present : ∀ id ∈ new.owned, after.tree.size > id)
    (unstocked : ∀ id ∈ new.owned, before.tree.size ≤ id → ¬ realm.stock after.scene id)
    (origin : ∀ id ∈ new.owned, id ∈ plot.owned ∨ before.tree.size ≤ id ∨ id ∈ taken) :
    realm.Site after container (front.filter (· ∉ taken)) (rest.filter (· ∉ taken)) new where
  listed := listed
  marked := by
    refine ⟨?_, fun id member => ?_⟩
    · rw [start, stop]
      exact change.marked site.marked.toMarked site.start_untouched site.stop_untouched
    · rw [start]
      rcases origin id member with member | beyond | gone
      · exact site.marked.surveyed id member
      · exact .inl (Nat.le_trans sound.surveyed beyond)
      · exact .inr (.inl (change.guests id gone))
  container_own := site.container_own
  container_free := container_free
  distinct := change.distinct_left sound site origin start stop distinct
  inside := inside
  present := present
  unstocked := change.unstocked_left sound site origin start stop unstocked
  apart := change.above site origin container_parent

/-- An edit of a site that has nothing to do with templates. The hook may lose texts of the site. -/
theorem Lawful.outcome (lawful : realm.Lawful) (sound : realm.Sound before)
    (site : realm.Site before container front rest plot)
    (edits : Edits realm.guest before.tree after.tree (fun id => id = container ∨ id ∈ plot.owned) taken)
    (cache : after.scene.cache = before.scene.cache) (memory : after.scene.memory = before.scene.memory)
    (report : ∀ id, after.Answered id ↔ before.Answered id)
    (held : ∀ id, after.kept id → before.kept id)
    (keeps : ∀ id, before.kept id → after.kept id ∨ id ∈ plot.owned ∧ before.tree.isText id = true ∧ ¬ realm.guest id)
    (stable : ∀ id, after.kept id → id ∈ plot.owned → after.tree.kindOf id = before.tree.kindOf id)
    (container_kind : after.tree.kindOf container = before.tree.kindOf container)
    (container_parent : after.tree.parentOf container = before.tree.parentOf container)
    (start : new.part.start = plot.part.start) (stop : new.part.stop = plot.part.stop)
    (listed : after.tree.childrenOf container =
      front.filter (· ∉ taken) ++ (new.nodes ++ rest.filter (· ∉ taken)))
    (distinct : new.owned.Nodup) (inside : ∀ id ∈ new.inner, id ∈ new.owned)
    (origin : ∀ id ∈ new.owned, id ∈ plot.owned ∨
      (before.tree.size ≤ id ∧ after.tree.size > id) ∨ id ∈ taken) :
    realm.Outcome before after container front rest plot taken new := by
  have unstocked : ∀ id, id = container ∨ id ∈ plot.owned → ¬ realm.stock before.scene id := by
    rintro id (rfl | member)
    · exact site.unstocked _ (List.mem_cons_self ..)
    · exact site.unstocked id (by simp [Plot.claimed, member])
  have change : realm.Change before after (fun id => id = container ∨ id ∈ plot.owned) taken := by
    refine lawful.change sound edits unstocked cache memory report held ?_ ?_
    · exact fun id kept => (keeps id kept).imp_right (And.imp_left Or.inr)
    · rintro id kept (rfl | member)
      · exact container_kind
      · exact stable id kept member
  have origins : ∀ id ∈ new.owned, id ∈ plot.owned ∨ before.tree.size ≤ id ∨ id ∈ taken :=
    fun id member => (origin id member).imp_right (Or.imp_left And.left)
  refine ⟨change, change.site sound site (fun kept => site.container_free (held _ kept)) container_parent
    start stop listed distinct inside ?_ ?_ origins, start, stop, origins, container_kind,
    container_parent⟩
  · intro id member
    rcases origin id member with member | fresh | gone
    · exact Nat.lt_of_lt_of_le (site.present id member) edits.size_le
    · exact fresh.2
    · exact Nat.lt_of_lt_of_le (sound.guest_exists id (edits.guests id gone)) edits.size_le
  · exact fun id _ beyond => lawful.new_unstocked sound edits unstocked cache memory beyond

namespace Outcome

/-- One step after the other, if the hook is handed nothing that was worked on before and loses nothing that it was
    just handed. -/
theorem trans (sound : realm.Sound before)
    (one : realm.Outcome before between container front rest plot taken middle)
    (two : realm.Outcome between after container (front.filter (· ∉ taken)) (rest.filter (· ∉ taken)) middle
      later new)
    (apart : ∀ id, after.kept id → ¬ between.kept id → before.tree.size > id ∧
      ¬ (id = container ∨ id ∈ plot.owned) ∧ id ∉ taken)
    (firm : ∀ id, between.kept id → before.Answered id ∨ after.kept id) :
    realm.Outcome before after container front rest plot (taken ++ later) new := by
  refine ⟨(one.change.trans two.change apart firm).widen ?_ sound, ?_,
    two.start.trans one.start,
    two.stop.trans one.stop, ?_, two.container_kind.trans one.container_kind,
    two.container_parent.trans one.container_parent⟩
  · rintro id inside (here | ⟨rfl | member, left⟩)
    · exact here
    · exact .inl rfl
    · rcases one.origin id member with member | beyond | gone
      · exact .inr member
      · exact absurd inside (Nat.not_lt.2 beyond)
      · exact absurd gone left
  · simpa only [filter_filter_not_mem] using two.site
  · intro id member
    rcases two.origin id member with member | beyond | gone
    · exact (one.origin id member).imp_right (Or.imp_right (List.mem_append_left _))
    · exact .inr (.inl (Nat.le_trans one.change.size_le beyond))
    · exact .inr (.inr (List.mem_append_right _ gone))

/-- A step is added to the work done before, if the part's own nodes were not worked on before. -/
theorem pursue {start : World σ} {touched : NodeId → Prop} (begun : realm.Sound start)
    (change : realm.Change start before touched taken) (free : ¬ before.kept container)
    (outcome : realm.Outcome before after container front rest plot later new)
    (pending : ∀ id ∈ plot.owned, start.tree.size > id ∧ ¬ touched id ∧ id ∉ taken) :
    realm.Change start after (fun id => touched id ∨ (id = container ∨ id ∈ plot.owned) ∧ id ∉ taken)
      (taken ++ later) := by
  refine change.trans outcome.change ?_ ?_
  · intro id kept fresh
    rcases (outcome.change.handed id kept).resolve_left fresh with rfl | owned
    · exact absurd kept outcome.site.container_free
    · exact pending id owned
  · intro id kept
    rcases change.handed id kept with known | touch
    · exact .inl (begun.answered id known)
    · refine .inr ((outcome.change.keeps id kept).resolve_right fun lost => ?_)
      rcases lost.1 with rfl | owned
      · exact free kept
      · exact (pending id owned).2.1 touch

theorem kindOf (outcome : realm.Outcome before after container front rest plot taken new) {id : NodeId}
    (inside : before.tree.size > id) (outside : id ∉ plot.owned) :
    after.tree.kindOf id = before.tree.kindOf id := by
  by_cases here : id = container
  · exact here ▸ outcome.container_kind
  · exact (outcome.change.spared id inside (by simp [here, outside])).kindOf

theorem free (outcome : realm.Outcome before after container front rest plot taken new) {id : NodeId}
    (outside : id ∉ plot.owned) (free : ¬ before.kept id) : ¬ after.kept id := by
  intro kept
  rcases (outcome.change.handed id kept).resolve_left free with rfl | owned
  · exact outcome.site.container_free kept
  · exact outside owned

end Outcome

end Realm

end DomParts.Layout
