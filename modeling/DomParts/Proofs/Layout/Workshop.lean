import DomParts.Proofs.Layout.Instance
import DomParts.Proofs.Tree.Walk

/-! # New template instances

A new instance is a copy of the template's fragment that stands alone. A part is bound to each slot, and
each node part brings its own end marker; then the parts are given their values.
-/

namespace DomParts

namespace Subtree

def kind : Subtree → Kind
  | .branch _ kind _ => kind

def branches : Subtree → List Subtree
  | .branch _ _ children => children

/-- What comes into a container when the subtree is inserted there. -/
def forest (tree : Subtree) : List Subtree := if tree.kind = .fragment then tree.branches else [tree]

theorem spots_eq (tree : Subtree) :
    tree.spots = ⟨tree.id, tree.kind, tree.branches.map Subtree.id⟩ :: spotsOfAll tree.branches := by
  cases tree
  rfl

theorem forest_subset {tree : Subtree} {spot : Spot} (listed : spot ∈ spotsOfAll tree.forest) :
    spot ∈ tree.spots := by
  by_cases fragment : tree.kind = .fragment
  · rw [forest, if_pos fragment] at listed
    rw [spots_eq]
    exact List.mem_cons_of_mem _ listed
  · rw [forest, if_neg fragment] at listed
    simpa [spotsOfAll] using listed

end Subtree

namespace Part

variable {σ : Type} {scene : Scene σ} {nodes : List NodeId} {index : Nat} {id parent : NodeId} {left right : List NodeId}

/-- A node slot at a marker is given an end marker, which comes right behind. -/
theorem bind_marker (sound : scene.tree.WellFormed) (found : nodes[index]? = some id)
    (marker : scene.tree.isMarker id = true) (listed : scene.tree.childrenOf parent = left ++ id :: right) :
    ∃ tree, (bind nodes (.node index)).runOn scene = (.ok (.node (.between id scene.tree.size)), { scene with tree }) ∧
      scene.tree.Joined tree .marker parent (left ++ [id]) right := by
  have above : scene.tree.parentOf id = some parent := sound.parentOf_of_mem (by simp [listed])
  have split : scene.tree.childrenOf parent = (left ++ [id]) ++ right := by simpa using listed
  have relisted : (scene.tree.create .marker).2.childrenOf parent = left ++ id :: right := by simpa using listed
  have created : (scene.tree.create .marker).2.WellFormed := sound.create List.nodup_nil
  have onward := created.nextSibling_eq relisted
  obtain ⟨tree, done, joined⟩ := Tree.marker_inserted sound (sound.lt_size_of_parent above) split
  have leads : (bind nodes (.node index)).Leads scene
      (fun part after => part = .node (.between id scene.tree.size) ∧ after = { scene with tree }) fun _ _ => False := by
    simp [bind, Slot.index, found, marker, above, RenderM.insert, onward, done]
  obtain ⟨_, _, ran, rfl, rfl⟩ := leads.ran
  exact ⟨tree, ran, joined⟩

theorem bind_unmarked (found : nodes[index]? = some id) (unmarked : ¬ scene.tree.isMarker id = true) :
    (bind nodes (.node index)).runOn scene = (.error (.template (.notMarker index)), scene) := by
  have leads : (bind nodes (.node index)).Leads scene (fun _ _ => False)
      fun error after => error = .template (.notMarker index) ∧ after = scene := by
    simp [bind, Slot.index, found, unmarked]
  rcases ran : (bind nodes (.node index)).runOn scene with ⟨error | part, after⟩
  · obtain ⟨rfl, rfl⟩ := leads.error ran
    rfl
  · exact (leads.ok ran).elim

end Part

namespace Layout

open Subtree (Spot nodesOfAll spotsOfAll nodesOfAll_eq_spots)

variable {σ : Type}

theorem planted_renumber (original : Subtree) (first : NodeId) :
    Planted original (original.renumber first).forest (nodesOfAll (original.renumber first).branches) := by
  obtain ⟨id, kind, children⟩ := original
  by_cases fragment : kind = .fragment
  · subst fragment
    have forest : ((Subtree.branch id .fragment children).renumber first).forest =
        Subtree.renumberAll (first + 1) children := rfl
    rw [forest]
    exact .loose (first + 1) id children
  · have forest : ((Subtree.branch id kind children).renumber first).forest =
        [(Subtree.branch id kind children).renumber first] := by
      rw [Subtree.forest]
      exact if_neg fragment
    rw [forest]
    exact .solid first id children fragment

@[simp] theorem weave_nil (ids : List NodeId) : weave [] ids = ids := by
  induction ids with
  | nil => rfl
  | cons id ids ih => rw [weave_cons, ih]; rfl

namespace Realm

/-- The work on a new instance. Nothing that was there before is worked on. -/
def workshop (realm : Realm σ) (world : World σ) (slack : Slack) (shared : SharedTemplate) (copy : Subtree)
    (values : List (Rendering σ)) : Job σ where
  realm := realm
  start := world
  home := copy.id
  kind := some copy.kind
  parent := none
  lines := copy.spots.map Line.ofSpot
  spots := spotsOfAll copy.forest
  reach := nodesOfAll copy.branches
  slots := shared.template.slots
  scope _ := False
  slack := slack
  values := values

/-- A fragment was copied. -/
structure Cloned (realm : Realm σ) (world : World σ) (tree : Tree) (original copy : Subtree) : Prop where
  sound : realm.Sound world
  renumbered : copy = original.renumber world.tree.size
  grafted : world.tree.Grafted tree copy

/-- The fragment of a template that the realm knows was copied. -/
structure Copied (realm : Realm σ) (world : World σ) (tree : Tree) (shared : SharedTemplate)
    (original copy : Subtree) : Prop extends Cloned realm world tree original copy where
  shape : realm.shape world.scene shared original

variable {realm : Realm σ} {world : World σ} {tree : Tree} {slack : Slack} {shared : SharedTemplate}
  {original copy : Subtree} {values : List (Rendering σ)}

namespace Cloned

variable (cloned : realm.Cloned world tree original copy)
include cloned

theorem fresh {id : NodeId} (member : id ∈ copy.nodes) : world.tree.size ≤ id ∧ tree.size > id := by
  have here := member
  rw [cloned.renumbered, Subtree.nodes_renumber, List.mem_range'_1] at here
  refine ⟨here.1, ?_⟩
  have size : tree.size = world.tree.size + original.size := by
    rw [cloned.grafted.size, cloned.renumbered, Subtree.size_renumber]
  exact size ▸ here.2

theorem nodup : copy.nodes.Nodup := by
  rw [cloned.renumbered, Subtree.nodes_renumber]
  exact List.nodup_range'

theorem spot_fresh {spot : Spot} (listed : spot ∈ copy.spots) :
    world.tree.size ≤ spot.id ∧ tree.size > spot.id :=
  cloned.fresh (Subtree.mem_nodes.2 ⟨spot, listed, rfl⟩)

theorem foreign {id : NodeId} (beyond : world.tree.size ≤ id) :
    ¬ realm.guest id ∧ ¬ world.kept id ∧ ¬ realm.stock world.scene id := by
  have sound := cloned.sound
  exact ⟨fun guest => Nat.not_lt.2 beyond (sound.guest_exists id guest),
    fun kept => Nat.not_lt.2 beyond (sound.kept_exists id kept),
    fun shelf => Nat.not_lt.2 beyond (sound.stock_exists id shelf)⟩

theorem ready : (realm.workshop world slack shared copy values).Ready where
  sound := cloned.sound
  homely := by
    refine ⟨_, List.mem_map_of_mem (by rw [Subtree.spots_eq]; exact List.mem_cons_self ..), rfl⟩
  covered := by
    refine List.forall_mem_map.2 ?_
    exact fun spot listed inside => Nat.not_lt.2 (cloned.spot_fresh listed).1 inside
  spotted spot listed := ⟨_, List.mem_map_of_mem (Subtree.forest_subset listed), rfl⟩

theorem change (lawful : realm.Lawful) :
    realm.Change world ⟨{ world.scene with tree }, world.kept⟩ (fun _ => False) [] :=
  lawful.extended cloned.sound cloned.grafted.sound cloned.grafted.extended

theorem bench (lawful : realm.Lawful) : realm.Bench ⟨{ world.scene with tree }, world.kept⟩
    (copy.spots.map Line.ofSpot) [] := by
  have holders : (copy.spots.map Line.ofSpot).map Line.id = copy.nodes := by
    rw [Subtree.nodes_eq_spots, List.map_map]
    rfl
  have unstocked : ∀ id, world.tree.size ≤ id → ¬ realm.stock { world.scene with tree } id := fun id beyond shelf =>
    (cloned.foreign beyond).2.2 <|
      lawful.stock_of_extended cloned.sound cloned.grafted.sound cloned.grafted.extended shelf
  constructor
  · refine List.forall_mem_map.2 fun spot listed => ?_
    have spelled := (cloned.grafted.spelled spot listed).2
    simpa [Line.ofSpot] using spelled
  · rw [holders]
    exact cloned.nodup
  · refine List.forall_mem_map.2 fun spot listed => ?_
    obtain ⟨own, free, -⟩ := cloned.foreign (cloned.spot_fresh listed).1
    exact ⟨own, free, unstocked _ (cloned.spot_fresh listed).1⟩
  · refine List.forall_mem_map.2 fun spot listed id child => ?_
    obtain ⟨other, here, same⟩ := Subtree.mem_nodes.1 (Subtree.child_mem_nodes listed child)
    exact ⟨_, List.mem_map_of_mem here, same⟩
  · simp
  · exact List.nodup_nil
  · simp
  · exact List.nodup_nil
  · simp
  · simp
  · simp
  · simp
  · refine ⟨fun id => id ∈ copy.nodes, ?_, ?_, ?_⟩
    · intro child parent here link
      have listed := (Subtree.listed_once copy).symm.subset here
      rcases List.mem_cons.1 listed with rfl | listed
      · rw [cloned.grafted.alone] at link
        cases link
      · obtain ⟨spot, listed, child⟩ := List.mem_flatMap.1 listed
        rw [← (cloned.grafted.spelled spot listed).2] at child
        rw [cloned.grafted.sound.parentOf_of_mem child] at link
        cases link
        exact Subtree.mem_nodes.2 ⟨spot, listed, rfl⟩
    · exact List.forall_mem_map.2 fun spot listed => Subtree.mem_nodes.2 ⟨spot, listed, rfl⟩
    · intro id here
      exact ⟨List.not_mem_nil, (cloned.foreign (cloned.fresh here).1).1, (cloned.fresh here).2⟩

omit cloned in
theorem accords_unbound {id : NodeId} (kind : Kind) : Accords [] id kind kind := by
  cases kind with
  | element name attributes => exact ⟨attributes, rfl, fun _ _ => rfl⟩
  | _ => rfl

theorem begin (lawful : realm.Lawful) : (realm.workshop world slack shared copy values).Headway
    ⟨{ world.scene with tree }, world.kept⟩ (fun _ => False) [] [] where
  change := cloned.change lawful
  within _ _ none := none
  origin _ none := absurd none List.not_mem_nil
  among _ none := absurd none List.not_mem_nil
  bench := by
    rw [lines_without_nil]
    exact cloned.bench lawful
  kind := by
    have root := cloned.grafted.spelled ⟨copy.id, copy.kind, copy.branches.map Subtree.id⟩ (by
      rw [Subtree.spots_eq]
      exact List.mem_cons_self ..)
    exact root.1
  parent := cloned.grafted.alone
  kinds spot listed :=
    ⟨spot.kind, (cloned.grafted.spelled spot (Subtree.forest_subset listed)).1, accords_unbound spot.kind⟩
  labels _ none := absurd none List.not_mem_nil

end Cloned

theorem Copied.clones (copied : realm.Copied world tree shared original copy) :
    (realm.workshop world slack shared copy values).Clones shared original
    copy.forest where
  shape := copied.shape
  planted := by
    have planted := planted_renumber original world.tree.size
    rw [← copied.renumbered] at planted
    exact planted
  slots := rfl
  spots := rfl
  lined spot listed := List.mem_map_of_mem (Subtree.forest_subset listed)

end Realm

namespace Job

variable {job : Job σ} {now : World σ} {bound : List Fitting} {known : List Slot} {slot : Slot} {limit : Nat}

/-- Parts are bound to the first slots of a new copy. -/
structure Binding (job : Job σ) (now : World σ) (bound : List Fitting) (known : List Slot) : Prop where
  headway : job.Headway now (fun _ => False) [] bound
  fit : List.Forall₂ (Fits job.reach) known bound
  empty : ∀ plot, .node plot ∈ bound → plot.part.content = .empty ∧ plot.inner = [] ∧ plot.owned = []

/-- A place where a job binds parts: nothing that was there before, nodes of the copy, and each only once. -/
structure Bindable (job : Job σ) : Prop where
  ready : job.Ready
  fresh : ∀ id, ¬ job.scope id
  nodup : job.reach.Nodup
  away : job.home ∉ job.reach
  lined : ∀ id ∈ job.reach, ∃ line ∈ job.lines, line.id = id
  child : ∀ id ∈ job.reach, ∃ line ∈ job.lines, id ∈ line.ids

theorem Binding.unbound (binding : job.Binding now bound known) (bindable : job.Bindable) {index : Nat}
    {id : NodeId} (here : job.reach[index]? = some id) (new : .node index ∉ known) :
    ∀ plot, .node plot ∈ bound → plot.part.start ≠ id := by
  rintro plot member rfl
  have fit := binding.fit
  clear binding
  induction fit with
  | nil => cases member
  | @cons slot fitting slots _ fits _ ih =>
      rw [List.mem_cons, not_or] at new
      rcases List.mem_cons.1 member with rfl | member
      · cases slot with
        | node other =>
            have same := (List.getElem?_inj (List.getElem?_eq_some_iff.1 fits).1 bindable.nodup).1 (fits.trans here.symm)
            exact new.1 (same ▸ rfl)
        | «attribute» other name => exact fits.elim
      · exact ih new.2 member

theorem Binding.broken (binding : job.Binding now bound known) : job.Broken now.scene :=
  ⟨now.kept, _, _, _, binding.headway⟩

/-- A part is bound to a marker of the copy, and its end marker is put behind it. -/
theorem Binding.join (lawful : job.realm.Lawful) (binding : job.Binding now bound known)
    (bindable : job.Bindable) {line : Line} {id : NodeId} {first later : List NodeId} {tree : Tree}
    {index : Nat} (member : line ∈ job.lines) (split : line.ids = first ++ id :: later)
    (here : job.reach[index]? = some id) (new : .node index ∉ known)
    (marker : now.tree.kindOf id = some .marker)
    (joined : now.tree.Joined tree .marker line.id (line.ahead ++ (weave bound first ++ [id]))
      (weave bound later ++ line.rest)) :
    job.Binding ⟨{ now.scene with tree }, now.kept⟩
      (bound ++ [.node ⟨.between id now.tree.size, [], []⟩]) (known ++ [.node index]) := by
  have headway := binding.headway
  have sound := headway.change.sound
  have bench := headway.bench
  rw [lines_without_nil] at bench
  have own := bench.own line member
  have inside : ∀ line ∈ job.lines, now.tree.size > line.id := fun line => bench.line_exists
  have edits : Edits job.realm.guest now.tree tree (fun id => id = line.id) [] :=
    Edits.joined joined sound.guest_exists rfl own.1
  have change : job.realm.Change now ⟨{ now.scene with tree }, now.kept⟩ (fun id => id = line.id)
      [] := by
    refine lawful.change sound edits (fun id same => same ▸ own.2.2) rfl rfl (fun _ => Iff.rfl)
      (fun _ kept => kept) (fun _ => .inl) fun id kept same => joined.kindOf id (same ▸ inside line member)
  have both := headway.change.trans change (fun id kept free => absurd kept free) fun _ => .inr
  have stock : ∀ id, job.realm.stock { now.scene with tree } id → job.realm.stock now.scene id := by
    have settled := lawful.steady now.scene { now.scene with tree } sound.holds rfl rfl edits.size_le fun id shelf =>
      have away : id ≠ line.id := fun same => own.2.2 (same ▸ shelf)
      ⟨joined.kindOf id (sound.stock_exists id shelf), joined.childrenOf id away⟩
    exact fun id => (settled.2.1 id).1
  have unbound := binding.unbound bindable here new
  refine ⟨⟨?change, ?within, ?origin, ?among, ?bench, ?kind, ?parent, ?kinds, ?labels⟩, ?fit, ?empty⟩
  case change =>
    have wide : job.realm.Change job.start ⟨{ now.scene with tree }, now.kept⟩ (fun _ => False)
        ([] ++ []) := by
      refine both.widen (fun id old touch => ?_) bindable.ready.sound
      rcases touch with none | ⟨rfl, -⟩
      · exact none
      · exact bindable.fresh _ (bindable.ready.covered line member old)
    exact wide
  case within => exact fun _ _ none => none.elim
  case origin =>
    intro id claimed
    simp only [claimedBy_append, List.mem_append] at claimed
    rcases claimed with claimed | claimed
    · exact headway.origin id claimed
    · have last : id = now.tree.size := by simpa [Fitting.claimed, NodePart.between] using claimed
      exact .inr (.inl (last ▸ headway.change.size_le))
  case among => simp
  case bench =>
    rw [lines_without_nil]
    exact bench.join sound member split unbound joined marker (fun _ kept => kept) stock
  case kind =>
    obtain ⟨home, spot, same⟩ := bindable.ready.homely
    exact (joined.kindOf _ (same ▸ inside home spot)).trans headway.kind
  case parent =>
    obtain ⟨home, spot, same⟩ := bindable.ready.homely
    exact (joined.parentOf _ (same ▸ inside home spot)).trans headway.parent
  case kinds =>
    intro spot listed
    obtain ⟨kind, found, accords⟩ := headway.kinds spot listed
    exact ⟨kind, (joined.kindOf _ (Tree.lt_size_of_kindOf found)).trans found, accords.joined⟩
  case labels =>
    intro part listed
    exact headway.labels part (by simpa using listed)
  case fit =>
    refine List.rel_append binding.fit (.cons ?_ .nil)
    exact here
  case empty =>
    intro plot listed
    rcases List.mem_append.1 listed with listed | last
    · exact binding.empty plot listed
    · cases List.mem_singleton.1 last
      exact ⟨rfl, rfl, rfl⟩

/-- What binding a part to a slot comes to. -/
def Bound (job : Job σ) (now : World σ) (bound : List Fitting) (known : List Slot) (slot : Slot) (part : Part)
    (scene : Scene σ) : Prop :=
  ∃ fitting, part = Fitting.part fitting ∧
    job.Binding ⟨scene, now.kept⟩ (bound ++ [fitting]) (known ++ [slot])

theorem reach_of_take {reach : List NodeId} {index : Nat} {id : NodeId}
    (found : (reach.take limit)[index]? = some id) : reach[index]? = some id := by
  rw [List.getElem?_take] at found
  split at found
  · exact found
  · cases found

theorem Binding.bind_node (lawful : job.realm.Lawful) (binding : job.Binding now bound known)
    (bindable : job.Bindable) {index : Nat} (new : .node index ∉ known) :
    (Part.bind (job.reach.take limit) (.node index)).Leads now.scene
      (job.Bound now bound known (.node index)) (fun _ scene => job.Broken scene) := by
  have bench := binding.headway.bench
  have sound := binding.headway.change.sound
  rw [lines_without_nil] at bench
  cases found : (job.reach.take limit)[index]? with
  | none =>
      simp only [Part.bind, RenderM.leads_bind, RenderM.leads_require, Slot.index, found]
      exact binding.broken
  | some id =>
      have here := reach_of_take found
      obtain ⟨line, member, child⟩ := bindable.child id (List.mem_of_getElem? here)
      obtain ⟨first, later, split⟩ := List.append_of_mem child
      have unbound := binding.unbound bindable here new
      have listed : now.scene.tree.childrenOf line.id =
          (line.ahead ++ weave bound first) ++ id :: (weave bound later ++ line.rest) := by
        have spelled := bench.listed line member
        rw [split, weave_append, weave_cons, behind_eq_nil unbound] at spelled
        simpa using spelled
      by_cases marker : now.scene.tree.isMarker id = true
      · obtain ⟨tree, ran, joined⟩ := Part.bind_marker sound.wellFormed found marker listed
        rw [List.append_assoc] at joined
        rw [RenderM.Leads, ran]
        exact ⟨.node ⟨.between id now.tree.size, [], []⟩, rfl,
          binding.join lawful bindable member split here new (Tree.isMarker_iff.1 marker) joined⟩
      · rw [RenderM.Leads, Part.bind_unmarked found marker]
        exact binding.broken

theorem Binding.bind_label (binding : job.Binding now bound known) (bindable : job.Bindable) {index : Nat}
    {name : String} : (Part.bind (job.reach.take limit) (.attribute index name)).Leads now.scene
      (job.Bound now bound known (.attribute index name)) (fun _ scene => job.Broken scene) := by
  simp only [Part.bind, RenderM.leads_bind, RenderM.leads_require, Slot.index]
  cases found : (job.reach.take limit)[index]? with
  | none => exact binding.broken
  | some id =>
      have here := reach_of_take found
      have among := List.mem_of_getElem? here
      have headway := binding.headway
      have away : id ≠ job.home := fun same => bindable.away (same ▸ among)
      have claims : ∀ part, claimedBy (bound ++ [.label part]) = claimedBy bound := by
        simp [Fitting.claimed]
      simp only [AttributePart.bind, RenderM.leads_bind, RenderM.leads_look, RenderM.leads_pure]
      refine ⟨.label ⟨id, name, none, now.tree.attribute? id name⟩, rfl,
        { headway with origin := claims _ ▸ headway.origin, bench := ?_, kinds := ?_, labels := ?_ }, ?_, ?_⟩
      · exact headway.bench.labelled
      · intro spot listed
        obtain ⟨kind, holds, accords⟩ := headway.kinds spot listed
        refine ⟨kind, holds, accords.bound ?_⟩
        rintro rfl
        simp only [Tree.attribute?, holds, Option.bind_some]
      · intro part listed
        rcases List.mem_append.1 listed with listed | last
        · exact headway.labels part listed
        · cases List.mem_singleton.1 last
          exact ⟨away, bindable.lined id among⟩
      · exact List.rel_append binding.fit (.cons ⟨here, rfl⟩ .nil)
      · intro plot listed
        exact binding.empty plot (by simpa using listed)

theorem Binding.bind (lawful : job.realm.Lawful) (binding : job.Binding now bound known)
    (bindable : job.Bindable) (new : ∀ index, slot = .node index → .node index ∉ known) :
    (Part.bind (job.reach.take limit) slot).Leads now.scene
      (job.Bound now bound known slot) (fun _ scene => job.Broken scene) := by
  cases slot with
  | node index => exact binding.bind_node lawful bindable (new index rfl)
  | «attribute» index name => exact binding.bind_label bindable

theorem Binding.bindAll (lawful : job.realm.Lawful) (bindable : job.Bindable) {slots : List Slot}
    (binding : job.Binding now bound known) (distinct : ((known ++ slots).filterMap Slot.markerIndex?).Nodup) :
    (slots.mapM (Part.bind (job.reach.take limit))).Leads now.scene
      (fun parts scene => ∃ others, parts = others.map Fitting.part ∧
        job.Binding ⟨scene, now.kept⟩ (bound ++ others) (known ++ slots))
      (fun _ scene => job.Broken scene) := by
  induction slots generalizing now bound known with
  | nil => exact ⟨[], rfl, by simpa using binding⟩
  | cons slot slots ih =>
      have new : ∀ index, slot = .node index → .node index ∉ known := by
        rintro index rfl member
        rw [List.filterMap_append, List.nodup_append'] at distinct
        exact distinct.2.2 (List.mem_filterMap.2 ⟨_, member, rfl⟩) (List.mem_filterMap.2 ⟨_, List.mem_cons_self .., rfl⟩)
      simp only [List.mapM_cons, RenderM.leads_bind, RenderM.leads_pure]
      refine (binding.bind lawful bindable new).imp ?_
      rintro _ scene ⟨fitting, rfl, binding⟩
      refine (ih binding (by simpa using distinct)).imp ?_
      rintro _ scene ⟨others, rfl, binding⟩
      exact ⟨fitting :: others, rfl, by simpa using binding⟩

theorem Binding.mending (lawful : job.realm.Lawful) (binding : job.Binding now bound job.slots)
    (ready : job.Ready) {event : Event} (other : ∀ id, event ≠ .kept id) :
    job.Mending ⟨now.scene.add event, now.kept⟩ [] bound [] := by
  refine ⟨ready, ⟨fun _ => False, [], binding.headway.noted lawful other, ?_⟩, binding.fit, by simp, ?_⟩
  · intro plot member id owned
    rw [(binding.empty plot member).2.2] at owned
    cases owned
  · intro plot member
    obtain ⟨content, inner, owned⟩ := binding.empty plot member
    rw [Shown, content, inner, owned]
    exact .empty

end Job

namespace Realm

variable {realm : Realm σ} {world : World σ} {tree : Tree} {slack : Slack} {shared : SharedTemplate}
  {original copy : Subtree} {values : List (Rendering σ)}

theorem Cloned.bindable (cloned : realm.Cloned world tree original copy) :
    (realm.workshop world slack shared copy values).Bindable := by
  have distinct := cloned.nodup
  have nodes : copy.nodes = copy.id :: nodesOfAll copy.branches := by
    cases copy
    rfl
  rw [nodes, List.nodup_cons] at distinct
  have listed : ∀ id ∈ nodesOfAll copy.branches, ∃ spot ∈ copy.spots, spot.id = id := by
    intro id member
    apply Subtree.mem_nodes.1
    rw [nodes]
    exact List.mem_cons_of_mem _ member
  refine ⟨cloned.ready, fun _ none => none, distinct.2, distinct.1, fun id member => ?_, fun id member => ?_⟩
  · obtain ⟨spot, listed, same⟩ := listed id member
    exact ⟨_, List.mem_map_of_mem listed, same⟩
  · have here : id ∈ copy.nodes := by rw [nodes]; exact List.mem_cons_of_mem _ member
    rcases List.mem_cons.1 ((Subtree.listed_once copy).symm.subset here) with rfl | child
    · exact absurd member distinct.1
    · obtain ⟨spot, listed, child⟩ := List.mem_flatMap.1 child
      exact ⟨_, List.mem_map_of_mem listed, child⟩

theorem cloned_clone (sound : realm.Sound world) (fragment : NodeId) :
    realm.Cloned world (world.tree.cloneDeep fragment).2 (world.tree.subtree fragment)
      ((world.tree.subtree fragment).renumber world.tree.size) :=
  ⟨sound, rfl, (Tree.cloneDeep_grafted sound.wellFormed fragment).2⟩

theorem copied_clone (sound : realm.Sound world)
    (shape : realm.shape world.scene shared (world.tree.subtree shared.template.fragment)) :
    realm.Copied world (world.tree.cloneDeep shared.template.fragment).2 shared
      (world.tree.subtree shared.template.fragment)
      ((world.tree.subtree shared.template.fragment).renumber world.tree.size) :=
  ⟨cloned_clone sound shared.template.fragment, shape⟩

variable (slack values) in
theorem create_leads (lawful : realm.Lawful) (sound : realm.Sound world)
    (distinct : (shared.template.slots.filterMap Slot.markerIndex?).Nodup) :
    let copy := (world.tree.subtree shared.template.fragment).renumber world.tree.size
    (TemplateInstance.create shared).Leads world.scene
      (fun made scene => ∃ fittings, made = (⟨shared, fittings.map Fitting.part⟩, copy.id) ∧
        (realm.workshop world slack shared copy values).Mending ⟨scene, world.kept⟩ [] fittings [])
      (fun _ scene => (realm.workshop world slack shared copy values).Broken scene) := by
  intro copy
  have root := (Tree.cloneDeep_grafted sound.wellFormed shared.template.fragment).1
  have cloned : realm.Cloned world (world.tree.cloneDeep shared.template.fragment).2
      (world.tree.subtree shared.template.fragment) copy := cloned_clone sound shared.template.fragment
  have grafted := cloned.grafted
  have same : (world.tree.cloneDeep shared.template.fragment).1 = copy.id := by
    rw [root, Subtree.id_renumber]
  have top : ⟨copy.id, copy.kind, copy.branches.map Subtree.id⟩ ∈ copy.spots := by
    rw [Subtree.spots_eq]
    exact List.mem_cons_self ..
  have walk : (world.scene.tree.cloneDeep shared.template.fragment).2.walk copy.id shared.template.reach = _ :=
    Tree.walk_eq grafted.sound (grafted.spelled _ top).2
      (fun spot listed => grafted.spelled spot (by
        rw [Subtree.spots_eq]
        exact List.mem_cons_of_mem _ listed)) shared.template.reach
  simp only [TemplateInstance.create, RenderM.leads_bind, RenderM.leads_grow, RenderM.leads_look,
    RenderM.leads_require, RenderM.leads_note, RenderM.leads_pure, same]
  have begun : (realm.workshop world slack shared copy values).Binding
      ⟨{ world.scene with tree := (world.tree.cloneDeep shared.template.fragment).2 }, world.kept⟩ [] [] :=
    ⟨cloned.begin lawful, .nil, fun _ none => absurd none List.not_mem_nil⟩
  have bound : (shared.template.slots.mapM (Part.bind ((nodesOfAll copy.branches).take shared.template.reach))).Leads
      _ _ _ := begun.bindAll lawful cloned.bindable distinct
  rw [walk]
  by_cases room : shared.template.reach < Tree.roomLimit
  case neg =>
    simp only [if_neg room]
    exact begun.broken
  simp only [if_pos room]
  refine bound.imp ?_
  rintro _ scene ⟨fittings, rfl, binding⟩
  exact ⟨fittings, rfl, binding.mending lawful cloned.ready fun _ => by simp⟩

end Realm

end Layout

end DomParts
