import DomParts.Proofs.Layout.Anew
import DomParts.Proofs.Layout.Install

/-! # Where the host puts a clone

A clone stands alone until the host puts it somewhere. It goes there as a whole, and the parts that are bound
to it do not notice: nothing happens to their nodes, and what is above them now is none of them.
-/

namespace DomParts

theorem Tree.exists_splice (before : Option NodeId) (moved siblings : List NodeId) :
    ∃ front rest, Tree.splice before moved siblings = front ++ (moved ++ rest) := by
  cases before with
  | none => exact ⟨siblings, [], by simp [Tree.splice]⟩
  | some anchor => exact ⟨_, _, List.append_assoc ..⟩

namespace Subtree

theorem branches_subset (tree : Subtree) {spot : Spot} (listed : spot ∈ spotsOfAll tree.branches) :
    spot ∈ spotsOfAll tree.forest := by
  by_cases fragment : tree.kind = .fragment
  · rwa [forest, if_pos fragment]
  · rw [forest, if_neg fragment]
    simp [spotsOfAll, spots_eq, listed]

theorem branches_nodes (tree : Subtree) {id : NodeId} (member : id ∈ nodesOfAll tree.branches) :
    id ∈ nodesOfAll tree.forest := by
  obtain ⟨spot, listed, rfl⟩ := mem_nodesOfAll.1 member
  exact spot_mem (tree.branches_subset listed)

end Subtree

namespace Layout

open Subtree (nodesOfAll spotsOfAll mem_nodes mem_nodesOfAll spot_mem)

variable {σ : Type}

/-- A clone with everything in it that can be carried off in one piece. -/
structure Portable (tree : Tree) (copy : Subtree) (fittings : List Fitting) : Prop where
  payload : tree.payload copy.id = weave fittings (copy.forest.map Subtree.id)
  /-- What comes along has no parent but a fragment that does not come along. -/
  uprooted : ∀ id ∈ tree.payload copy.id, ∀ parent, tree.parentOf id = some parent →
    parent = copy.id ∧ copy.id ∉ nodesOfAll copy.forest
  nodes : ∀ id ∈ copy.nodes, tree.Ascends id copy.id
  claimed : ∀ id ∈ claimedBy fittings, tree.Ascends id copy.id

/-- A clone was put into a container that is not below it. -/
structure Carried (tree changed : Tree) (copy : Subtree) (fittings : List Fitting) (container : NodeId)
    (before : Option NodeId) : Prop where
  inserted : tree.Inserted changed container (weave fittings (copy.forest.map Subtree.id)) before
  outside : ¬ tree.Ascends container copy.id
  room : container < tree.size

namespace Job

variable {job : Job σ} {scene : Scene σ} {fittings : List Fitting} {copy : Subtree} {container : NodeId}
  {front rest : List NodeId} {before : Option NodeId} {tree : Tree}

/-- The work is on a clone that stands alone. -/
structure Alone (job : Job σ) (copy : Subtree) : Prop where
  home : job.home = copy.id
  kind : job.kind = some copy.kind
  parent : job.parent = none
  lines : job.lines = copy.spots.map Line.ofSpot
  spots : job.spots = spotsOfAll copy.forest
  reach : job.reach = nodesOfAll copy.branches
  nodup : copy.nodes.Nodup

theorem Alone.root_not_branch (alone : job.Alone copy) : copy.id ∉ nodesOfAll copy.branches := by
  have distinct := alone.nodup
  rw [Subtree.nodes_unfold, List.nodup_cons] at distinct
  exact distinct.1

/-- The same work once the clone is in a container. -/
def housed (job : Job σ) (copy : Subtree) (tree : Tree) (container : NodeId) (front rest : List NodeId) : Job σ :=
  { job with
    home := container
    kind := tree.kindOf container
    parent := tree.parentOf container
    lines := ⟨container, front, copy.forest.map Subtree.id, rest⟩ :: (spotsOfAll copy.forest).map Line.ofSpot }

section Portable

variable (alone : job.Alone copy) (rests : job.Rests scene fittings)
include alone rests

theorem Rests.bench : job.realm.Bench ⟨scene, fun _ => False⟩ (copy.spots.map Line.ofSpot) fittings := by
  obtain ⟨touched, taken, headway, -⟩ := (rests []).headway
  have none : taken = [] := by
    apply List.eq_nil_iff_forall_not_mem.2
    intro id gone
    cases headway.among id gone
  have bench := headway.bench
  rw [none, lines_without_nil] at bench
  rw [← alone.lines]
  exact bench

theorem Rests.root_foreign : copy.id ∉ claimedBy fittings := by
  have top : Line.ofSpot ⟨copy.id, copy.kind, copy.branches.map Subtree.id⟩ ∈ copy.spots.map Line.ofSpot := by
    rw [Subtree.spots_eq]
    exact List.mem_cons_self ..
  exact (rests.bench alone).foreign _ top

theorem Rests.root_alone : scene.tree.kindOf copy.id = some copy.kind ∧ scene.tree.parentOf copy.id = none := by
  obtain ⟨touched, taken, headway, -⟩ := (rests []).headway
  exact alone.home ▸ ⟨headway.kind.trans alone.kind, headway.parent.trans alone.parent⟩

theorem Rests.children_alone : ∀ spot ∈ copy.spots, scene.tree.childrenOf spot.id = weave fittings spot.children := by
  intro spot listed
  simpa [Line.ofSpot] using (rests.bench alone).listed _ (List.mem_map_of_mem listed)

theorem Rests.weave_root : weave fittings [copy.id] = [copy.id] := by
  have unbound : ∀ plot, .node plot ∈ fittings → plot.part.start ≠ copy.id := by
    intro plot member same
    apply alone.root_not_branch
    rw [← alone.reach, ← same]
    exact start_mem_reach (rests []).fit member
  rw [weave_cons, behind_eq_nil unbound]
  rfl

theorem Rests.nodes_below : ∀ id ∈ copy.nodes, scene.tree.Ascends id copy.id := by
  have sound : scene.tree.WellFormed := (rests []).ready.sound.wellFormed
  have children := rests.children_alone alone
  intro id member
  obtain ⟨top, here, way⟩ := clone_below sound (by simpa [spotsOfAll] using children) id
    (by simpa [nodesOfAll] using member : id ∈ nodesOfAll [copy])
  rw [List.map_singleton, rests.weave_root alone, List.mem_singleton] at here
  exact here ▸ way

theorem Rests.claimed_below : ∀ id ∈ claimedBy fittings, scene.tree.Ascends id copy.id := by
  have mending := rests []
  intro id member
  obtain ⟨fitting, listed, claimed⟩ := List.mem_flatMap.1 member
  cases fitting with
  | label part => cases claimed
  | node plot =>
      have waiting := mending.waiting plot listed
      obtain ⟨top, -, way, line, spotted, link⟩ := (rests.bench alone).claimed_below mending.ready.sound listed waiting claimed
      obtain ⟨spot, listed, rfl⟩ := List.mem_map.1 spotted
      exact way.trans (.head link (rests.nodes_below alone _ (mem_nodes.2 ⟨spot, listed, rfl⟩)))

theorem Rests.portable : Portable scene.tree copy fittings := by
  have sound : scene.tree.WellFormed := (rests []).ready.sound.wellFormed
  obtain ⟨kind, free⟩ := rests.root_alone alone
  have below : scene.tree.childrenOf copy.id = weave fittings (copy.branches.map Subtree.id) := by
    apply rests.children_alone alone ⟨copy.id, copy.kind, _⟩
    rw [Subtree.spots_eq]
    exact List.mem_cons_self ..
  refine ⟨?_, ?_, rests.nodes_below alone, rests.claimed_below alone⟩
  · by_cases fragment : copy.kind = .fragment
    · rw [Tree.payload_fragment (fragment ▸ kind), below, Subtree.forest, if_pos fragment]
    · rw [Tree.payload_single (by simp [kind, fragment]), Subtree.forest, if_neg fragment, List.map_singleton,
        rests.weave_root alone]
  · intro id member parent link
    by_cases fragment : copy.kind = .fragment
    · rw [Tree.payload_fragment (fragment ▸ kind)] at member
      rw [sound.parentOf_of_mem member] at link
      rw [Subtree.forest, if_pos fragment]
      exact ⟨(Option.some.inj link).symm, alone.root_not_branch⟩
    · rw [Tree.payload_single (by simp [kind, fragment]), List.mem_singleton] at member
      rw [member, free] at link
      cases link

end Portable

theorem Rests.carried (alone : job.Alone copy) (rests : job.Rests scene fittings)
    (done : scene.tree.insertBefore container copy.id before = .ok tree) :
    Carried scene.tree tree copy fittings container before := by
  have sound : scene.tree.WellFormed := (rests []).ready.sound.wellFormed
  have admits := sound.admits_of_insertBefore done
  obtain ⟨-, free⟩ := rests.root_alone alone
  have loose : before ≠ some copy.id := by
    intro same
    have link := sound.parentOf_of_mem (admits.anchored copy.id same)
    rw [free] at link
    cases link
  have inserted := Tree.place_inserted sound (sound.movable admits) before
  rw [(rests.portable alone).payload] at inserted
  refine ⟨?_, admits.apart, admits.room⟩
  simp only [Tree.insertBefore, sound.insertFault?_eq_none_iff.2 admits, if_neg loose, Except.ok.injEq,
    (rests.portable alone).payload] at done
  exact done ▸ inserted

section Housed

variable (alone : job.Alone copy) (rests : job.Rests scene fittings)
  (carried : Carried scene.tree tree copy fittings container before)
include alone rests carried

theorem Rests.container_foreign : container ∉ copy.nodes ∧ container ∉ claimedBy fittings := by
  have portable := rests.portable alone
  exact ⟨fun member => carried.outside (portable.nodes _ member), fun member => carried.outside (portable.claimed _ member)⟩

theorem Rests.alike_housed : ∀ id ∈ nodesOfAll copy.forest ++ claimedBy fittings, scene.tree.Alike tree [] id := by
  have portable := rests.portable alone
  have sound : scene.tree.WellFormed := (rests []).ready.sound.wellFormed
  obtain ⟨own, foreign⟩ := rests.container_foreign alone carried
  intro id member
  have elsewhere : id ≠ container := by
    rintro rfl
    exact (List.mem_append.1 member).elim (fun here => own (Subtree.forest_nodes here)) foreign
  refine ⟨carried.inserted.kindOf id, ?_⟩
  rw [carried.inserted.childrenOf, if_neg elsewhere, Edits.childrenOf_unmoved sound]
  · simp
  · intro child moved link
    obtain ⟨rfl, apart⟩ := portable.uprooted child (portable.payload ▸ moved) id link
    rcases List.mem_append.1 member with here | claimed
    · exact apart here
    · exact rests.root_foreign alone claimed

theorem Rests.settled_housed (lonely : ∀ id, ¬ job.realm.guest id) (unstocked : ¬ job.realm.stock scene container)
    (stock : ∀ id, job.realm.stock { scene with tree } id → job.realm.stock scene id) :
    ∃ front rest, job.realm.Settled ⟨{ scene with tree }, fun _ => False⟩ container front rest copy.forest fittings := by
  have sound : scene.tree.WellFormed := (rests []).ready.sound.wellFormed
  have bench := rests.bench alone
  have inserted := carried.inserted
  have portable := rests.portable alone
  obtain ⟨own, foreign⟩ := rests.container_foreign alone carried
  have line : ∀ {id}, id ∈ nodesOfAll copy.forest → ∃ line ∈ copy.spots.map Line.ofSpot, line.id = id := by
    intro id member
    obtain ⟨spot, listed, rfl⟩ := mem_nodes.1 (Subtree.forest_nodes member)
    exact ⟨_, List.mem_map_of_mem listed, rfl⟩
  obtain ⟨front, rest, split⟩ := Tree.exists_splice before (weave fittings (copy.forest.map Subtree.id))
    ((scene.tree.childrenOf container).filter (· ∉ weave fittings (copy.forest.map Subtree.id)))
  refine ⟨front, rest, ?_⟩
  constructor
  · rw [inserted.childrenOf, if_pos rfl, split]
  · intro spot listed
    have same := (rests.alike_housed alone carried spot.id (List.mem_append_left _ (spot_mem listed))).childrenOf
    have was := bench.listed _ (List.mem_map_of_mem (Subtree.forest_subset listed))
    rw [Line.ofSpot] at was
    simpa [was] using same
  · exact List.nodup_cons.2 ⟨fun here => own (Subtree.forest_nodes here), Subtree.nodup_forest alone.nodup⟩
  · refine List.forall_mem_cons.2 ⟨⟨lonely _, not_false, fun here => unstocked (stock _ here)⟩, fun id member => ?_⟩
    obtain ⟨line, spotted, rfl⟩ := line member
    exact ⟨lonely _, not_false, fun here => (bench.own line spotted).2.2 (stock _ here)⟩
  · intro id member
    obtain ⟨line, spotted, rfl⟩ := line member
    exact Nat.lt_of_lt_of_eq (bench.line_exists spotted) inserted.size.symm
  · exact fun plot member => (bench.marked plot member).remain
      (fun id marker => (inserted.kindOf id).trans marker) (fun _ => id)
      (by simpa using (rests.alike_housed alone carried _ (List.mem_append_right _ (Realm.Bench.stop_claimed member))).childrenOf)
  · exact bench.starts
  · exact fun plot member => copy.branches_nodes (alone.reach ▸ start_mem_reach (rests []).fit member)
  · exact bench.distinct
  · refine List.forall_mem_cons.2 ⟨foreign, fun id member => ?_⟩
    obtain ⟨line, spotted, rfl⟩ := line member
    exact bench.foreign line spotted
  · exact bench.inside
  · exact fun id member => Nat.lt_of_lt_of_eq (bench.present id member) inserted.size.symm
  · exact fun id member here => bench.unstocked id member (stock id here)
  · -- The way up from the container is what it was: the clone is put beside it, not above it.
    have free : ∀ id ∈ weave fittings (copy.forest.map Subtree.id), ¬ scene.tree.Ascends container id := by
      intro id member way
      apply carried.outside
      have among := weave_subset bench.inside (fun id top => Subtree.forest_nodes (mem_tops top)) id member
      exact way.trans ((List.mem_append.1 among).elim (portable.nodes id) (portable.claimed id))
    refine ⟨tree.Ascends container, fun child parent way link => way.tail link, .refl, fun id way => ?_⟩
    have way := (inserted.ascends_iff free).1 way
    refine ⟨fun claimed => carried.outside (way.trans (portable.claimed id claimed)), lonely _, ?_⟩
    rcases Tree.ascends_tail.1 way with rfl | ⟨child, -, link⟩
    · exact Nat.lt_of_lt_of_eq carried.room inserted.size.symm
    · exact Nat.lt_of_lt_of_eq (sound.lt_size_of_parent link) inserted.size.symm

/-- Carrying a clone off is a change that works on nothing but the clone and the container. -/
theorem Rests.change_housed (lawful : job.realm.Lawful) (lonely : ∀ id, ¬ job.realm.guest id)
    (unstocked : ¬ job.realm.stock scene container) :
    job.realm.Change ⟨scene, fun _ => False⟩ ⟨{ scene with tree }, fun _ => False⟩
      (fun id => id = container ∨ id ∈ copy.nodes ++ claimedBy fittings) [] := by
  have sound : job.realm.Sound ⟨scene, fun _ => False⟩ := (rests []).ready.sound
  have bench := rests.bench alone
  have portable := rests.portable alone
  have root : copy.id ∈ copy.nodes := by
    rw [Subtree.nodes_unfold]
    exact List.mem_cons_self ..
  have edits : Edits job.realm.guest scene.tree tree (fun id => id = container ∨ id ∈ copy.nodes ++ claimedBy fittings) [] := by
    apply Edits.inserted_own sound.wellFormed carried.inserted (.inl rfl) (lonely _)
    · exact fun id member => .inr (weave_subset bench.inside (fun id top => Subtree.forest_nodes (mem_tops top)) id member)
    · intro id member parent link
      obtain ⟨rfl, -⟩ := portable.uprooted id (portable.payload ▸ member) parent link
      exact ⟨.inr (List.mem_append_left _ root), lonely _⟩
  have free : ∀ id, id = container ∨ id ∈ copy.nodes ++ claimedBy fittings → ¬ job.realm.stock scene id := by
    rintro id (rfl | member)
    · exact unstocked
    · rcases List.mem_append.1 member with here | claimed
      · obtain ⟨spot, listed, rfl⟩ := mem_nodes.1 here
        exact (bench.own _ (List.mem_map_of_mem listed)).2.2
      · exact bench.unstocked id claimed
  exact lawful.change sound edits free rfl rfl (fun _ => Iff.rfl) (fun _ => id) (fun _ => .inl) fun _ => False.elim

theorem Rests.shows_housed (change : job.realm.Change ⟨scene, fun _ => False⟩ ⟨{ scene with tree }, fun _ => False⟩
    (fun id => id = container ∨ id ∈ copy.nodes ++ claimedBy fittings) []) {plot : Plot} (member : .node plot ∈ fittings) :
    job.realm.Shows ⟨{ scene with tree }, fun _ => False⟩ .whole plot.part.content plot.inner plot.owned := by
  have alike := rests.alike_housed alone carried
  have carries : Carries (job.realm.premises ⟨scene, fun _ => False⟩ .whole)
      (job.realm.premises ⟨{ scene with tree }, fun _ => False⟩ .whole) scene.tree tree [] plot.owned := {
    guest := fun _ => id
    own := fun _ _ => id
    allows := Slack.whole_allows fun _ => trivial
    shape := change.shape
    bare := id
    leafy := id
    survey := rfl
    guests := by simp
    held := fun _ _ => Iff.rfl
    alike := fun id owned => alike id (List.mem_append_right _ (Realm.Bench.claimed_of_owned member owned)) }
  simpa using (rests.shows member).carry carries

theorem Rests.housed (lawful : job.realm.Lawful) (lonely : ∀ id, ¬ job.realm.guest id)
    (unstocked : ¬ job.realm.stock scene container) :
    ∃ front rest, (job.housed copy tree container front rest).Rests { scene with tree } fittings := by
  have change := rests.change_housed alone carried lawful lonely unstocked
  obtain ⟨front, rest, settled⟩ := rests.settled_housed alone carried lonely unstocked fun id here =>
    (change.stock id (Nat.lt_of_lt_of_eq (change.sound.stock_exists id here) carried.inserted.size)).1 here
  obtain ⟨own, -⟩ := rests.container_foreign alone carried
  refine ⟨front, rest, fun values => ?_⟩
  have mending := rests values
  obtain ⟨touched, taken, headway, -⟩ := mending.headway
  have lines : (job.housed copy tree container front rest).lines = ⟨container, front, copy.forest.map Subtree.id, rest⟩ ::
    (spotsOfAll copy.forest).map Line.ofSpot := rfl
  have spotted : ∀ spot ∈ job.spots, ∃ line ∈ (job.housed copy tree container front rest).lines, line.id = spot.id := by
    rw [alone.spots, lines]
    exact fun spot listed => ⟨_, List.mem_cons_of_mem _ (List.mem_map_of_mem listed), rfl⟩
  refine ⟨⟨change.sound, ⟨_, List.mem_cons_self .., rfl⟩, fun _ _ _ => trivial, spotted⟩,
    ⟨fun _ => False, [], ⟨.refl change.sound, fun _ _ => False.elim, fun _ _ => .inl trivial, by simp, ?_, rfl, rfl,
      ?_, ?_⟩, ?_⟩, mending.fit, by simp, ?_⟩
  · rw [lines_without_nil]
    exact settled.bench change.sound.wellFormed
  · intro spot listed
    obtain ⟨kind, found, accords⟩ := headway.kinds spot listed
    exact ⟨kind, (carried.inserted.kindOf _).trans found, accords⟩
  · intro part member
    have reached := element_mem_reach mending.fit member
    have here : part.element ∈ nodesOfAll copy.forest := copy.branches_nodes (alone.reach ▸ reached)
    have away : part.element ≠ container := fun same => own (same ▸ Subtree.forest_nodes here)
    refine ⟨away, ?_⟩
    obtain ⟨spot, listed, same⟩ := mem_nodesOfAll.1 here
    exact ⟨_, List.mem_cons_of_mem _ (List.mem_map_of_mem listed), same⟩
  · exact fun plot member id owned =>
      ⟨settled.present id (Realm.Bench.claimed_of_owned member owned), not_false, by simp⟩
  · exact fun plot member =>
      (rests.shows_housed alone carried change member).weaken (Slack.whole_allows fun _ => trivial)

end Housed

end Job

end Layout

end DomParts
