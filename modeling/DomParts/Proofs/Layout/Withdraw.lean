import DomParts.Proofs.Layout.Asking
import DomParts.Proofs.Layout.Place

/-! # Leaving a list

Plots that wait for no item any more leave the row. Their markers go for good; other nodes of theirs
stay where they are if the removal hook keeps them.
-/

namespace DomParts.Layout

theorem Shows.inner_solid {premises : Premises} {tree : Tree} {content : Content} {inner owned : List NodeId}
    (shows : Shows premises tree content inner owned) :
    ∀ id ∈ inner, premises.guest id → tree.isText id = false := by
  induction shows with
  | empty => exact fun _ none => nomatch none
  | text kind own =>
      intro id member guest
      exact absurd (List.mem_singleton.1 member ▸ guest) own
  | guest guest wanted solid =>
      intro id member _
      exact List.mem_singleton.1 member ▸ solid
  | absent => exact fun _ none => nomatch none
  | @row blocks _ _ marked _ strays _ ih =>
      intro id member guest
      obtain ⟨block, listed, member⟩ := List.mem_flatMap.1 member
      cases block with
      | stray other =>
          obtain rfl := List.mem_singleton.1 member
          exact (strays _ listed).2 guest
      | plot plot =>
          simp only [Block.nodes, Plot.nodes, List.mem_cons, List.mem_append] at member
          rcases member with rfl | inside | rfl | none
          · exact absurd guest (marked plot listed).start_own
          · exact ih plot listed id inside guest
          · exact absurd guest (marked plot listed).stop_own
          · cases none
  | @template _ _ forest _ fittings _ _ _ _ _ own _ _ marked _ ih =>
      intro id member guest
      rcases mem_weave.1 member with top | ⟨above, -, here⟩
      · exact absurd guest (own id (mem_tops top)).1
      · obtain ⟨plot, listed, -, here⟩ := mem_behind.1 here
        rcases List.mem_append.1 here with inside | last
        · exact ih plot listed id inside guest
        · obtain rfl := List.mem_singleton.1 last
          exact absurd guest (marked plot listed).stop_own

/-- Nodes that stay behind. -/
def straysOf (ids : List NodeId) : List Block := ids.map Block.stray

section Strays

variable {ids : List NodeId} {id : NodeId} {plot : Plot}

@[simp] theorem nodesOf_straysOf : nodesOf (straysOf ids) = ids := by
  induction ids with
  | nil => rfl
  | cons id ids ih => exact congrArg (id :: ·) ih

@[simp] theorem claimedOf_straysOf : claimedOf (straysOf ids) = ids := by
  induction ids with
  | nil => rfl
  | cons id ids ih => exact congrArg (id :: ·) ih

@[simp] theorem plotsOf_straysOf : plotsOf (straysOf ids) = [] := by
  induction ids with
  | nil => rfl
  | cons id ids ih => exact ih

@[simp] theorem stray_mem_straysOf : .stray id ∈ straysOf ids ↔ id ∈ ids := by
  simp [straysOf]

@[simp] theorem plot_not_mem_straysOf : .plot plot ∉ straysOf ids := by
  simp [straysOf]

end Strays

namespace Realm.Row

variable {σ : Type} {realm : Realm σ} {world after : World σ} {container : NodeId}
  {front rest : List NodeId} {part : NodePart} {left middle right : List Block}
  {stays : NodeId → Bool} (row : realm.Row world container front rest part (left ++ (middle ++ right)))
include row

theorem middle_claimed : ∀ id ∈ nodesOf middle, id ∈ claimedOf middle :=
  flatMap_nodes_subset fun plot member => row.inside plot (by simp [member])

theorem middle_apart {id : NodeId} (other : id ∈ claimedOf left ∨ id ∈ claimedOf right) :
    id ∉ nodesOf middle := by
  have claims := row.site.owned_nodup
  simp only [claimedOf_append] at claims
  obtain ⟨-, later, first⟩ := List.nodup_append'.1 claims
  obtain ⟨-, -, last⟩ := List.nodup_append'.1 later
  intro here
  have claimed := row.middle_claimed id here
  rcases other with member | member
  · exact first member (List.mem_append_left _ claimed)
  · exact last claimed member

theorem container_apart : container ∉ nodesOf middle := by
  intro here
  refine row.site.container_new.2.2 ?_
  simp [row.middle_claimed _ here]

theorem middle_unstocked {id : NodeId} (here : id = container ∨ id ∈ nodesOf middle) :
    ¬ realm.stock world.scene id := by
  rcases here with rfl | here
  · exact row.site.unstocked _ (List.mem_cons_self ..)
  · refine row.site.unstocked id (List.mem_cons_of_mem _ ?_)
    simp [Plot.claimed, row.middle_claimed id here]

theorem middle_children : world.tree.childrenOf container = (front ++ part.start :: nodesOf left) ++
    (nodesOf middle ++ (nodesOf right ++ part.stop :: rest)) := by
  rw [row.site.listed]
  simp [Plot.nodes]

variable (asked : realm.Asked world after container (nodesOf middle) stays)
include asked

theorem marker_goes {plot : Plot} (member : .plot plot ∈ middle) {id : NodeId}
    (marker : id = plot.part.start ∨ id = plot.part.stop) : id ∈ nodesOf middle ∧ stays id = false := by
  have here : id ∈ nodesOf middle := by
    refine List.mem_flatMap.2 ⟨_, member, ?_⟩
    rcases marker with rfl | rfl <;> simp [Block.nodes, Plot.nodes]
  refine ⟨here, Bool.eq_false_iff.2 fun stay => ?_⟩
  have solid := asked.solid id here stay
  have marked := row.marked plot (by simp [member])
  rcases marker with rfl | rfl
  · simp [Tree.isMarker, marked.start, Kind.marker, Kind.isMarker] at solid
  · simp [Tree.isMarker, marked.stop, Kind.marker, Kind.isMarker] at solid

theorem staying {id : NodeId} (member : id ∈ nodesOf middle) (stay : stays id) :
    .stray id ∈ middle ∨ ∃ plot, .plot plot ∈ middle ∧ id ∈ plot.inner := by
  obtain ⟨block, listed, here⟩ := List.mem_flatMap.1 member
  cases block with
  | stray other => exact .inl (List.mem_singleton.1 here ▸ listed)
  | plot plot =>
      simp only [Block.nodes, Plot.nodes, List.mem_cons, List.mem_append] at here
      have goes : ¬ (id = plot.part.start ∨ id = plot.part.stop) := fun marker => by
        rw [(row.marker_goes asked listed marker).2] at stay
        cases stay
      rcases here with start | inside | stop | none
      · exact absurd (.inl start) goes
      · exact .inr ⟨plot, listed, inside⟩
      · exact absurd (.inr stop) goes
      · cases none

theorem container_parent : after.tree.parentOf container = world.tree.parentOf container := by
  rw [asked.tree, Tree.parentOf_detachAll,
    if_neg fun here => row.container_apart (List.mem_of_mem_filter here)]

theorem withdraw (sound : realm.Sound world)
    (shown : ∀ plot, .plot plot ∈ middle → ∀ id ∈ plot.inner, realm.guest id → world.tree.isText id = false)
    (loose : ∀ id, stays id → ¬ realm.bare) :
    realm.Row after container front rest part
      (left ++ (straysOf ((nodesOf middle).filter stays) ++ right)) := by
  have claims := row.site.owned_nodup
  simp only [claimedOf_append] at claims
  obtain ⟨first, later, apart⟩ := List.nodup_append'.1 claims
  have last := (List.nodup_append'.1 later).2.1
  have nodup : (nodesOf middle).Nodup := by
    have distinct := sound.wellFormed.nodup container
    rw [row.middle_children] at distinct
    exact (List.nodup_append.1 (List.nodup_append.1 distinct).2.1).1
  have text : ∀ id, after.tree.isText id = world.tree.isText id := by
    intro id
    simp only [Tree.isText, asked.tree, Tree.kindOf_detachAll]
  refine row.rearranged sound asked.change ?free (row.container_parent asked) ?among ?listed ?distinct ?origin
    ?plots ?strays
  case free =>
    intro held
    rcases (asked.kept _).1 held with held | ⟨here, -⟩
    · exact row.site.container_free held
    · exact row.container_apart here
  case among =>
    intro id here
    simp [row.middle_claimed id here]
  case listed =>
    rw [asked.listed sound row.middle_children]
    simp
  case distinct =>
    simp only [claimedOf_append, claimedOf_straysOf]
    refine List.nodup_append'.2 ⟨first, List.nodup_append'.2 ⟨nodup.filter _, last, ?_⟩, ?_⟩
    · exact fun id here member => row.middle_apart (.inr member) (List.mem_of_mem_filter here)
    · intro id member here
      rcases List.mem_append.1 here with here | here
      · exact row.middle_apart (.inl member) (List.mem_of_mem_filter here)
      · exact apart member (List.mem_append_right _ here)
  case origin =>
    intro id member
    simp only [claimedOf_append, claimedOf_straysOf, List.mem_append, List.mem_filter] at member ⊢
    exact .inl (member.imp_right (Or.imp_left fun here => row.middle_claimed id here.1))
  case plots =>
    intro plot member
    simp only [List.mem_append, plot_not_mem_straysOf, false_or] at member
    refine .inl ⟨by simpa using member.imp_right .inr, fun id claimed => row.middle_apart ?_⟩
    exact mem_claimedOf member claimed
  case strays =>
    intro id member
    simp only [List.mem_append, stray_mem_straysOf, List.mem_filter] at member
    have other : ∀ {side}, .stray id ∈ side → id ∈ claimedOf side := fun listed =>
      List.mem_flatMap.2 ⟨_, listed, List.mem_singleton.2 rfl⟩
    rcases member with member | ⟨here, stay⟩ | member
    · exact .inl ⟨by simp [member], row.middle_apart (.inl (other member))⟩
    · refine .inr ⟨(asked.kept id).2 (.inr ⟨here, stay⟩), fun guest => ?_, loose id stay⟩
      rw [text]
      rcases row.staying asked here stay with listed | ⟨plot, listed, inside⟩
      · exact (row.strays id (by simp [listed])).2 guest
      · exact shown plot listed id inside guest
    · exact .inl ⟨by simp [member], row.middle_apart (.inr (other member))⟩

end Realm.Row

section Fates

/-- What becomes of nodes if some of them stay. Nothing is said of guests, which may come back. -/
def fatesOf (guest : NodeId → Prop) [DecidablePred guest] (stays : NodeId → Bool) (ids : List NodeId) :
    List (NodeId × Removal) :=
  (ids.filter (¬ guest ·)).map fun id => (id, if stays id then .skip else .proceed)

@[simp] theorem mem_fatesOf {guest : NodeId → Prop} [DecidablePred guest] {stays : NodeId → Bool} {ids : List NodeId}
    {fate : NodeId × Removal} : fate ∈ fatesOf guest stays ids ↔
      fate.1 ∈ ids ∧ ¬ guest fate.1 ∧ fate.2 = if stays fate.1 then .skip else .proceed := by
  obtain ⟨id, verdict⟩ := fate
  simp only [fatesOf, List.mem_map, List.mem_filter, decide_eq_true_eq, Prod.mk.injEq]
  constructor
  · rintro ⟨other, ⟨among, own⟩, rfl, rfl⟩
    exact ⟨among, own, rfl⟩
  · rintro ⟨among, own, decided⟩
    exact ⟨id, ⟨among, own⟩, rfl, decided.symm⟩

/-- What became of the nodes of a plot that left a list. -/
structure Fates (guest : NodeId → Prop) (plot : Plot) (fates : List (NodeId × Removal)) : Prop where
  start : (plot.part.start, .proceed) ∈ fates
  stop : (plot.part.stop, .proceed) ∈ fates
  about : ∀ fate ∈ fates, fate.1 ∈ plot.nodes
  complete : ∀ id ∈ plot.nodes, ¬ guest id → ∃ verdict, (id, verdict) ∈ fates

end Fates

namespace Task.Filling

variable {σ : Type} {task : Task σ} {now after : World σ} {left middle right : List Block}
  {ahead waiting behind : List Cell} {gone : List (NodeId × Removal)} {stays : NodeId → Bool}

theorem fated_withdrawn {front rest : List NodeId} {part : NodePart} {id : NodeId}
    (row : task.realm.Row now task.container front rest part (left ++ (middle ++ right)))
    (asked : task.realm.Asked now after task.container (nodesOf middle) stays) (here : id ∈ nodesOf middle) :
    task.Fated after (left ++ (straysOf ((nodesOf middle).filter stays) ++ right))
      (id, if stays id then .skip else .proceed) := by
  cases stay : stays id with
  | true =>
      simp only [if_true, Fated, List.mem_append, stray_mem_straysOf, List.mem_filter]
      exact .inr (.inl ⟨here, stay⟩)
  | false =>
      simp only [Bool.false_eq_true, if_false]
      refine ⟨?_, ?_, fun same => row.container_apart (same ▸ here), fun claimed => ?_⟩
      · exact Nat.lt_of_lt_of_le (row.site.present id (by simp [row.middle_claimed id here])) asked.change.size_le
      · rw [asked.tree, Tree.parentOf_detachAll, if_pos (List.mem_filter.2 ⟨here, by simp [stay]⟩)]
      · simp only [claimedOf_append, claimedOf_straysOf, List.mem_append, List.mem_filter] at claimed
        rcases claimed with claimed | ⟨-, stays⟩ | claimed
        · exact row.middle_apart (.inl claimed) here
        · rw [stay] at stays
          cases stays
        · exact row.middle_apart (.inr claimed) here

/-- Plots that wait for an item leave the row, and some of their nodes stay. -/
theorem withdraw
    (filling : task.Filling now (left ++ (middle ++ right)) (ahead ++ (waiting ++ behind)) gone)
    (before : plotsOf left = ahead.map Cell.plot) (between : plotsOf middle = waiting.map Cell.plot)
    (beyond : plotsOf right = behind.map Cell.plot) (waits : ∀ cell ∈ waiting, cell.item = none)
    (asked : task.realm.Asked now after task.container (nodesOf middle) stays)
    (loose : ∀ id, stays id → task.tolerant ∧ ¬ task.realm.bare) {fates : List (NodeId × Removal)}
    (told : ∀ fate ∈ fates, (fate ∈ gone ∧ fate.1 ∉ nodesOf middle) ∨
      ¬ task.realm.guest fate.1 ∧ fate.1 ∈ nodesOf middle ∧ fate.2 = if stays fate.1 then .skip else .proceed) :
    ∃ blocks, task.Filling after blocks (ahead ++ behind) fates := by
  obtain ⟨touched, taken, progress, among, pending⟩ := filling.progress
  have sound := progress.change.sound
  have row := progress.row
  have cell_of : ∀ {plot}, .plot plot ∈ middle → ∃ cell ∈ waiting, cell.plot = plot := by
    intro plot member
    rw [← mem_plotsOf, between] at member
    exact List.mem_map.1 member
  have plot_of : ∀ {cell}, cell ∈ waiting → .plot cell.plot ∈ middle := by
    intro cell member
    rw [← mem_plotsOf, between]
    exact List.mem_map_of_mem member
  have remains := row.withdraw asked sound ?_ fun id stay => (loose id stay).2
  rotate_left
  · intro plot member
    obtain ⟨cell, here, rfl⟩ := cell_of member
    exact (filling.waiting cell (by simp [here]) (waits cell here)).inner_solid
  refine ⟨_, filling.rearranged progress among pending asked.change
    (fun id kept => (asked.kept id).2 (.inl kept)) remains ?claimed ?handed ?origin ?kind ?parent ?plots
    ?strays ⟨?seated, ?kept⟩ ?staying ?gone⟩
  case claimed =>
    intro id here
    simp [row.middle_claimed id here]
  case handed =>
    intro id held free here
    have stay := ((asked.kept id).1 held).resolve_left free
    rcases row.staying asked here stay.2 with listed | ⟨plot, listed, inside⟩
    · exact absurd (row.strays id (by simp [listed])).1 free
    · obtain ⟨cell, member, rfl⟩ := cell_of listed
      exact pending cell (by simp [member]) (waits cell member) id
        (row.inside _ (by simp [listed]) id inside)
  case origin =>
    intro id member
    simp only [claimedOf_append, claimedOf_straysOf, List.mem_append, List.mem_filter] at member ⊢
    exact .inl (member.imp_right (Or.imp_left fun here => row.middle_claimed id here.1))
  case kind => rw [asked.tree, Tree.kindOf_detachAll]
  case parent => exact row.container_parent asked
  case plots => simp [before, beyond]
  case strays =>
    intro id member
    simp only [List.mem_append, stray_mem_straysOf, List.mem_filter] at member
    rcases member with member | ⟨-, stay⟩ | member
    · exact filling.strays id (by simp [member])
    · exact (loose id stay).1
    · exact filling.strays id (by simp [member])
  case seated =>
    intro cell member
    refine .inl ⟨?_, fun id owned => row.middle_apart ?_⟩
    · rw [List.mem_append] at member ⊢
      exact member.imp_right (List.mem_append_right _)
    · exact Realm.Row.mem_claimedOf (plot_mem before beyond (List.mem_append.1 member))
        (List.mem_cons_of_mem _ (List.mem_cons_of_mem _ owned))
  case kept =>
    intro cell member filled
    simp only [List.mem_append] at member ⊢
    rcases member with member | member | member
    · exact .inl member
    · exact absurd (waits cell member) filled
    · exact .inr member
  case staying =>
    intro id member apart
    simp only [List.mem_append, stray_mem_straysOf] at member ⊢
    rcases member with member | member | member
    · exact .inl member
    · exact absurd (List.mem_flatMap.2 ⟨_, member, List.mem_singleton.2 rfl⟩) apart
    · exact .inr (.inr member)
  case gone =>
    rintro ⟨id, verdict⟩ member
    apply (told _ member).imp_right
    rintro ⟨own, here, decided⟩
    obtain rfl : verdict = if stays id then .skip else .proceed := decided
    exact ⟨own, fated_withdrawn row asked here⟩

theorem remove {blocks : List Block} {cell : Cell} (lawful : task.realm.Lawful)
    (filling : task.Filling now blocks (ahead ++ cell :: behind) gone) (waits : cell.item = none)
    (tolerant : task.tolerant) :
    (cell.plot.part.remove task.realm.client task.container).Leads now.scene
      (fun _ scene => ∃ fates, Fates task.realm.guest cell.plot fates ∧ ∃ kept blocks,
        task.Filling ⟨scene, kept⟩ blocks (ahead ++ behind) (gone ++ fates))
      (fun _ _ => False) := by
  obtain ⟨left, right, rfl, before, beyond⟩ := filling.split
  obtain ⟨touched, taken, progress, -, -⟩ := filling.progress
  have sound := progress.change.sound
  have row : task.realm.Row now task.container (task.front.filter (· ∉ taken))
    (task.rest.filter (· ∉ taken)) task.whole.part (left ++ ([.plot cell.plot] ++ right)) := progress.row
  simp only [NodePart.remove, RenderM.leads_bind, RenderM.leads_look, progress.row.siteOf.nextSibling_stop sound,
    RenderM.leads_pure]
  refine (Realm.removeRunFor_leads lawful sound row.middle_children row.site.container_own
    row.site.container_free (fun _ here => row.middle_unstocked here) (by simp [Plot.nodes])).mono ?_
    fun _ _ none => none
  rintro _ scene ⟨kept, stays, asked, bare⟩
  have split : task.Filling now (left ++ ([.plot cell.plot] ++ right)) (ahead ++ ([cell] ++ behind)) gone :=
    filling
  have loose : ∀ id, stays id → task.tolerant ∧ ¬ task.realm.bare := by
    intro id stay
    refine ⟨tolerant, fun known => ?_⟩
    rw [bare known id] at stay
    cases stay
  have nodes : nodesOf [.plot cell.plot] = cell.plot.nodes := List.flatMap_singleton _ _
  have marked := row.marked cell.plot (by simp)
  have goes : ∀ {id}, id = cell.plot.part.start ∨ id = cell.plot.part.stop →
      id ∈ nodesOf [.plot cell.plot] ∧ stays id = false := fun marker =>
    row.marker_goes asked (List.mem_singleton.2 rfl) marker
  classical
  refine ⟨fatesOf task.realm.guest stays cell.plot.nodes, ⟨?_, ?_, fun fate member => (mem_fatesOf.1 member).1,
    fun id member own => ⟨if stays id then .skip else .proceed, mem_fatesOf.2 ⟨member, own, rfl⟩⟩⟩, kept,
    split.withdraw before (by simp) beyond (by simpa using waits) asked loose fun fate member => ?_⟩
  · obtain ⟨here, goes⟩ := goes (.inl rfl)
    exact mem_fatesOf.2 ⟨nodes ▸ here, marked.start_own, by simp [goes]⟩
  · obtain ⟨here, goes⟩ := goes (.inr rfl)
    exact mem_fatesOf.2 ⟨nodes ▸ here, marked.stop_own, by simp [goes]⟩
  · rcases List.mem_append.1 member with old | new
    · refine .inl ⟨old, fun here => ?_⟩
      obtain ⟨-, fated⟩ := filling.gone fate old
      obtain ⟨id, verdict⟩ := fate
      cases verdict with
      | proceed => exact fated.2.2.2 (by simpa using .inr (.inl (by simpa using row.middle_claimed id here)))
      | skip =>
          have listed : .stray id ∈ left ++ Block.plot cell.plot :: right := fated
          simp only [List.mem_append, List.mem_cons, reduceCtorEq, false_or] at listed
          exact row.middle_apart (Realm.Row.mem_claimedOf listed (List.mem_singleton.2 rfl)) here
    · obtain ⟨among, own, decided⟩ := mem_fatesOf.1 new
      exact .inr ⟨own, nodes ▸ among, decided⟩

theorem truncate {blocks : List Block} {parts : List NodePart} {count : Nat} (lawful : task.realm.Lawful)
    (filling : task.Filling now blocks (ahead ++ waiting) gone) (waits : ∀ cell ∈ waiting, cell.item = none)
    (stale : parts.drop count = waiting.map (·.plot.part)) :
    (Render.truncate task.container task.whole.part.stop parts count).Leads now.scene
      (fun _ scene => ∃ kept blocks, task.Filling ⟨scene, kept⟩ blocks ahead [])
      (fun _ _ => False) := by
  cases waiting with
  | nil =>
      have none : parts[count]? = none := by
        rw [← List.head?_drop, stale]
        rfl
      simp only [Render.truncate, none, RenderM.leads_pure]
      exact ⟨now.kept, blocks, by simpa using filling.forget⟩
  | cons cell more =>
      have found : parts[count]? = some cell.plot.part := by
        rw [← List.head?_drop, stale]
        rfl
      simp only [Render.truncate, found, RenderM.leads_bind, RenderM.leads_note, RenderM.leads_pure]
      have filling := filling.noted lawful fun id => (by simp : Event.truncated parts.length count ≠ .kept id)
      obtain ⟨touched, taken, progress, -, -⟩ := filling.progress
      obtain ⟨left, middle, rfl, before, between, anchor⟩ := exists_cut filling.plots
      have sound := progress.change.sound
      have split : task.Filling ⟨now.scene.add (.truncated parts.length count), now.kept⟩
          (left ++ (middle ++ [])) (ahead ++ (cell :: more ++ [])) gone := by simpa using filling
      have row : task.realm.Row ⟨now.scene.add (.truncated parts.length count), now.kept⟩ task.container
          (task.front.filter (· ∉ taken)) (task.rest.filter (· ∉ taken)) task.whole.part
          (left ++ (middle ++ [])) := by simpa using progress.row
      refine (Realm.removeRun_leads lawful sound row.middle_children row.site.container_own
        (fun _ here => row.middle_unstocked here) (anchor _ _)).mono ?_ fun _ _ none => none
      intro _ scene asked
      obtain ⟨blocks, filling⟩ := split.withdraw before between rfl waits asked (by simp) (List.forall_mem_nil _)
      exact ⟨now.kept, blocks, by simpa using filling⟩

end Task.Filling

end DomParts.Layout
