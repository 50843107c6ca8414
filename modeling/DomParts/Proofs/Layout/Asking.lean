import DomParts.Proofs.Layout.Steps
import DomParts.Proofs.Render.Heard

/-! # Removal that asks

A run is removed node by node. Markers go at once; of the others the hook keeps some, and these stay where
they are.
-/

namespace DomParts

open RenderM

variable {σ : Type}

namespace RenderM

variable {hook : RemovalHook σ} {container id : NodeId} {run rest : List NodeId} {scene : Scene σ} {fuel count : Nat}

theorem leads_overRunAsking_cons {front : List NodeId} {good : Nat → Scene σ → Prop} {bad : Error → Scene σ → Prop}
    (sound : scene.tree.WellFormed) (listed : scene.tree.childrenOf container = front ++ id :: (run ++ rest)) :
    (overRunAsking hook container rest.head? (fuel + 1) (some id) count).Leads scene good bad ↔
      (removeAsking hook container id).Leads scene
        (fun went scene => (overRunAsking hook container rest.head? fuel (run ++ rest).head?
          (if went then count + 1 else count)).Leads scene good bad) bad := by
  rw [leads_overRunAsking_step (sound.head?_ne_of_listed listed), sound.nextSibling_eq listed]

end RenderM

namespace Layout.Realm

variable {realm : Realm σ} {world : World σ} {container id : NodeId}
  {front run rest : List NodeId} {hook : RemovalHook σ}

/-- The hook thinks about a node. -/
def pondered (hook : RemovalHook σ) (container id : NodeId) (world : World σ) : World σ :=
  ⟨{ world.scene with memory := (hook.ask id container (world.scene.memory, world.tree)).2.1 }, world.kept⟩

/-- The hook keeps a node. -/
def withheld (id : NodeId) (world : World σ) : World σ :=
  ⟨world.scene.add (.kept id), fun other => world.kept other ∨ other = id⟩

/-- A child of the container goes. -/
def dismissed (id : NodeId) (world : World σ) : World σ :=
  ⟨{ world.scene with tree := world.tree.detach id }, world.kept⟩

theorem Lawful.pondered (lawful : realm.Lawful) (sound : realm.Sound world)
    (asks : realm.client.hook? = some hook) : realm.Change world (pondered hook container id world)
      (fun _ => False) [] := by
  obtain ⟨-, holds, stock, shape⟩ := lawful.asked hook asks world.scene id container sound.holds
  have change : realm.Change world world (fun _ => False) [] := .refl sound
  exact { change with
    sound := { sound with
      holds := holds
      stock_exists := fun other shelf => sound.stock_exists other ((stock other).1 shelf)
      stock_below := fun other child shelf member =>
        (stock child).2 (sound.stock_below other child ((stock other).1 shelf) member)
      stock_own := fun other shelf => sound.stock_own other ((stock other).1 shelf) }
    shape := shape
    stock := fun other _ => stock other }

theorem Lawful.withheld (lawful : realm.Lawful) (sound : realm.Sound world) (exist : world.tree.size > id) :
    realm.Change world (withheld id world) (fun other => other = container ∨ other = id) [] := by
  have settled := lawful.steady world.scene (world.scene.add (.kept id)) sound.holds rfl rfl (Nat.le_refl _)
    fun _ _ => ⟨rfl, rfl⟩
  have reports : ∀ other, (Realm.withheld id world).Answered other ↔ world.Answered other ∨ other = id := by
    intro other
    simp [World.Answered, Realm.withheld, Scene.add]
  refine { Edits.refl sound.wellFormed with
    sound := { sound with
      holds := settled.1
      stock_exists := fun other shelf => sound.stock_exists other ((settled.2.1 other).1 shelf)
      stock_below := fun other child shelf member =>
        (settled.2.1 child).2 (sound.stock_below other child ((settled.2.1 other).1 shelf) member)
      stock_own := fun other shelf => sound.stock_own other ((settled.2.1 other).1 shelf)
      answered_exists := ?_
      kept_exists := ?_
      answered := ?_ }
    handed := fun other kept => kept.imp_right .inr
    keeps := fun other kept => .inl (.inl kept)
    stable := ?_
    lasting := fun other answered => (reports other).2 (.inl answered)
    answers := fun other answered => ((reports other).1 answered).imp_right fun same => .inr same
    shape := settled.2.2
    stock := fun other _ => settled.2.1 other }
  · intro other answered
    rcases (reports other).1 answered with answered | rfl
    · exact sound.answered_exists other answered
    · exact exist
  · rintro other (kept | rfl)
    · exact sound.kept_exists other kept
    · exact exist
  · rintro other (kept | rfl)
    · exact (reports other).2 (.inl (sound.answered other kept))
    · exact (reports _).2 (.inr rfl)
  · rintro other (kept | rfl)
    · exact ⟨sound.kept_exists other kept, rfl⟩
    · exact ⟨exist, rfl⟩

theorem Lawful.dismissed (lawful : realm.Lawful) (sound : realm.Sound world)
    (member : id ∈ world.tree.childrenOf container) (own : ¬ realm.guest container)
    (unstocked : ∀ other, other = container ∨ other = id → ¬ realm.stock world.scene other) :
    realm.Change world (Realm.dismissed id world) (fun other => other = container ∨ other = id) [] := by
  have edits : Edits realm.guest world.tree (world.tree.detachAll [id])
      (fun other => other = container ∨ other = id) [] := by
    refine .detachAll sound.wellFormed (by simp) ?_
    intro other among parent above
    rw [List.mem_singleton.1 among, sound.wellFormed.parentOf_of_mem member] at above
    cases above
    exact ⟨.inl rfl, own⟩
  exact @Lawful.change _ _ _ (Realm.dismissed id world) _ _ lawful sound edits unstocked rfl rfl
    (fun _ => Iff.rfl) (fun _ kept => kept) (fun _ => .inl) fun _ _ _ => Tree.kindOf_detach

/-- What is left of a run after the hook was asked about its nodes. -/
structure Asked (realm : Realm σ) (before after : World σ) (container : NodeId) (run : List NodeId)
    (stays : NodeId → Bool) : Prop where
  change : realm.Change before after (fun id => id = container ∨ id ∈ run) []
  kept : ∀ id, after.kept id ↔ before.kept id ∨ id ∈ run ∧ stays id
  solid : ∀ id ∈ run, stays id → before.tree.isMarker id = false
  tree : after.tree = before.tree.detachAll (run.filter fun id => !stays id)

namespace Asked

variable {between after : World σ} {one two : NodeId → Bool}

theorem cons (first : realm.Asked world between container [id] one)
    (second : realm.Asked between after container run two) (sound : realm.Sound world)
    (distinct : (container :: id :: run).Nodup) (inside : ∀ id ∈ run, world.tree.size > id) :
    realm.Asked world after container (id :: run)
      fun other => if other = id then one other else two other := by
  simp only [List.nodup_cons, List.mem_cons, not_or] at distinct
  obtain ⟨⟨notContainer, outside⟩, fresh, -⟩ := distinct
  have other : ∀ {node}, node ∈ run → node ≠ id := fun member same => fresh (same ▸ member)
  have same_kind : ∀ node, between.tree.kindOf node = world.tree.kindOf node := by
    intro node
    rw [first.tree, Tree.kindOf_detachAll]
  refine ⟨?_, ?_, ?_, ?_⟩
  · have both := first.change.trans second.change (fun node kept unknown => by
      obtain ⟨member, -⟩ := ((second.kept node).1 kept).resolve_left unknown
      refine ⟨inside node member, ?_, by simp⟩
      rintro (rfl | same)
      · exact outside member
      · exact other member (List.mem_singleton.1 same)) fun node kept => .inr ((second.kept node).2 (.inl kept))
    refine both.widen (fun node _ here => ?_) sound
    simp only [List.mem_cons, List.not_mem_nil, or_false, not_false_eq_true, and_true] at here ⊢
    rcases here with (here | here) | here | here
    · exact .inl here
    · exact .inr (.inl here)
    · exact .inl here
    · exact .inr (.inr here)
  · intro node
    rw [second.kept, first.kept]
    by_cases same : node = id
    · subst same
      simp [fresh]
    · simp [same]
  · intro node member stays
    rcases List.mem_cons.1 member with rfl | member
    · exact first.solid _ (List.mem_singleton.2 rfl) (by simpa using stays)
    · have := second.solid node member (by simpa [other member] using stays)
      simpa only [Tree.isMarker, same_kind] using this
  · rw [second.tree, first.tree, ← Tree.detachAll_append]
    congr 1
    have rest : run.filter (fun node => !if node = id then one node else two node) =
        run.filter fun node => !two node :=
      List.filter_congr fun node member => by simp [other member]
    have split : id :: run = [id] ++ run := rfl
    rw [split, List.filter_append, rest]
    cases stays : one id <;> simp [stays]

theorem noted {stays : NodeId → Bool} (asked : realm.Asked world after container run stays)
    (lawful : realm.Lawful) {event : Event} (other : ∀ id, event ≠ .kept id) :
    realm.Asked world ⟨after.scene.add event, after.kept⟩ container run stays :=
  { asked with change := asked.change.noted lawful event other }

theorem listed {stays : NodeId → Bool} (asked : realm.Asked world after container run stays)
    (sound : realm.Sound world) (listed : world.tree.childrenOf container = front ++ (run ++ rest)) :
    after.tree.childrenOf container = front ++ (run.filter stays ++ rest) := by
  have distinct := sound.wellFormed.nodup container
  rw [listed] at distinct
  obtain ⟨-, behind, ahead⟩ := List.nodup_append'.1 distinct
  obtain ⟨-, -, last⟩ := List.nodup_append'.1 behind
  have whole : ∀ others : List NodeId, (∀ id ∈ others, id ∉ run) →
      others.filter (· ∉ run.filter fun id => !stays id) = others := by
    intro others apart
    rw [List.filter_eq_self]
    intro id member
    simp [apart id member]
  rw [asked.tree, Tree.childrenOf_detachAll sound.wellFormed, listed, List.filter_append,
    List.filter_append, whole front fun id member here => ahead member (List.mem_append_left _ here),
    whole rest fun id member here => last here member]
  congr 2
  exact List.filter_congr fun id member => by simp [member]

end Asked

theorem removeAsking_leads (lawful : realm.Lawful) (asks : realm.client.hook? = some hook)
    (sound : realm.Sound world) (member : id ∈ world.tree.childrenOf container) (own : ¬ realm.guest container)
    (unstocked : ∀ other, other = container ∨ other = id → ¬ realm.stock world.scene other) :
    (removeAsking hook container id).Leads world.scene
      (fun went scene => ∃ kept, realm.Asked world ⟨scene, kept⟩ container [id] fun _ => !went)
      (fun _ _ => False) := by
  have above := sound.wellFormed.parentOf_of_mem member
  have inside := sound.wellFormed.lt_size_of_mem member
  have removed := Tree.removeChild_eq sound.wellFormed member
  have gone : ∀ {before : World σ}, realm.Sound before → before.tree = world.tree →
      (∀ other, other = container ∨ other = id → ¬ realm.stock before.scene other) →
      realm.Change before (Realm.dismissed id before) (fun other => other = container ∨ other ∈ [id]) [] := by
    intro before sound same unstocked
    simpa using (lawful.dismissed sound (same ▸ member) own unstocked :
      realm.Change before (Realm.dismissed id before) (fun other => other = container ∨ other = id) [])
  simp only [removeAsking, mayRemove, leads_bind, leads_look, above, ne_eq, not_true, if_false]
  by_cases marker : world.tree.isMarker id = true
  · simp only [marker, if_true, leads_pure, leads_bind, leads_edit, removed]
    refine ⟨world.kept, gone sound rfl unstocked, by simp, by simp, ?_⟩
    simp
  · obtain ⟨same, -, stock, -⟩ := lawful.asked hook asks world.scene id container sound.holds
    have thought : realm.Change world (Realm.pondered hook container id world) (fun _ => False) [] :=
      lawful.pondered sound asks
    cases answer : (hook.ask id container (world.scene.memory, world.scene.tree)).1 with
    | proceed =>
        simp only [marker, Bool.false_eq_true, if_false, leads_bind, leads_consult, same, answer, leads_pure,
          if_true, leads_edit, removed]
        refine ⟨world.kept, ?_, by simp, by simp, by simp⟩
        have away := gone thought.sound rfl fun other here shelf => unstocked other here ((stock other).1 shelf)
        refine (thought.trans away (fun _ kept free => absurd kept free) fun _ => .inr).widen ?_ sound
        exact fun other _ here => here.elim False.elim And.left
    | skip =>
        simp only [marker, Bool.false_eq_true, if_false, leads_bind, leads_consult, same, answer, leads_pure,
          leads_note]
        refine ⟨fun other => world.kept other ∨ other = id, ?_, by simp, by simpa using marker, by simp [Scene.add]⟩
        have held : realm.Change _ (Realm.withheld id (Realm.pondered hook container id world))
            (fun other => other = container ∨ other = id) [] := lawful.withheld thought.sound inside
        refine (thought.trans held (fun other kept free => ?_) fun _ kept => .inr (.inl kept)).widen ?_ sound
        · obtain rfl := kept.resolve_left free
          exact ⟨inside, by simp⟩
        · simp

theorem overRunAsking_leads (lawful : realm.Lawful) (asks : realm.client.hook? = some hook)
    (sound : realm.Sound world) (fuel count : Nat)
    (listed : world.tree.childrenOf container = front ++ (run ++ rest)) (own : ¬ realm.guest container)
    (free : ¬ world.kept container)
    (unstocked : ∀ id, id = container ∨ id ∈ run → ¬ realm.stock world.scene id) (room : run.length ≤ fuel) :
    (overRunAsking hook container rest.head? fuel (run ++ rest).head? count).Leads world.scene
      (fun _ scene => ∃ kept stays, realm.Asked world ⟨scene, kept⟩ container run stays)
      (fun _ _ => False) := by
  induction run generalizing world front fuel count with
  | nil =>
      rw [List.nil_append, overRunAsking_stop, leads_pure]
      exact ⟨world.kept, fun _ => false, .refl sound, by simp, by simp, by simp⟩
  | cons id run ih =>
      have distinct := sound.wellFormed.nodup container
      have member : ∀ {node}, node ∈ id :: run → node ∈ world.tree.childrenOf container := by
        intro node among
        rw [listed, List.mem_append, List.mem_append]
        exact .inr (.inl among)
      have first := @member id (List.mem_cons_self ..)
      have notContainer : container ∉ id :: run := fun among => sound.wellFormed.not_mem_own (member among)
      rw [listed] at distinct
      have apart : (id :: run ++ rest).Nodup := (List.nodup_append.1 distinct).2.1
      obtain ⟨fuel, rfl⟩ : ∃ less, fuel = less + 1 := ⟨fuel - 1, by simp at room; omega⟩
      rw [List.cons_append, List.head?_cons, leads_overRunAsking_cons sound.wellFormed listed]
      have known : ∀ other, other = container ∨ other = id → ¬ realm.stock world.scene other := by
        rintro other (same | same)
        · exact unstocked other (.inl same)
        · exact unstocked other (.inr (same ▸ List.mem_cons_self ..))
      refine (removeAsking_leads lawful asks sound first own known).mono ?_ fun _ _ none => none
      rintro went scene ⟨kept, asked⟩
      have left : scene.tree.childrenOf container =
          (front ++ [id].filter fun _ => !went) ++ (run ++ rest) := by
        rw [List.append_assoc]
        exact asked.listed sound (by simpa using listed)
      have inside : ∀ node, node = container ∨ node ∈ run → world.tree.size > node := by
        rintro node (rfl | among)
        · exact sound.wellFormed.lt_size_of_parent (sound.wellFormed.parentOf_of_mem first)
        · exact sound.wellFormed.lt_size_of_mem (member (List.mem_cons_of_mem _ among))
      refine (ih asked.change.sound fuel _ left ?_ ?_ (by simpa using room)).mono ?_ fun _ _ none => none
      · intro held
        rcases (asked.kept container).1 held with held | ⟨here, -⟩
        · exact free held
        · exact notContainer (List.mem_singleton.1 here ▸ List.mem_cons_self ..)
      · intro node here shelf
        refine unstocked node (here.imp_right (List.mem_cons_of_mem _)) ?_
        exact (asked.change.stock node (inside node here)).1 shelf
      · rintro _ after ⟨kept', stays, more⟩
        refine ⟨kept', _, asked.cons more sound ?_ fun node among => inside node (.inr among)⟩
        exact List.nodup_cons.2 ⟨notContainer, (List.nodup_append.1 apart).1⟩

theorem removeRun_leads (lawful : realm.Lawful) (sound : realm.Sound world)
    {start : NodeId} (listed : world.tree.childrenOf container = front ++ (run ++ rest))
    (own : ¬ realm.guest container)
    (unstocked : ∀ id, id = container ∨ id ∈ run → ¬ realm.stock world.scene id)
    (begins : (run ++ rest).head? = some start) :
    (removeRun container start rest.head?).Leads world.scene
      (fun _ scene => realm.Asked world ⟨scene, world.kept⟩ container run fun _ => false)
      (fun _ _ => False) := by
  have split : world.tree.childrenOf container = front ++ run ++ rest := by rw [listed, List.append_assoc]
  have done := Tree.removeRun_eq sound.wellFormed split begins
  have edits : Edits realm.guest world.tree (world.tree.detachAll run)
      (fun id => id = container ∨ id ∈ run) [] := by
    refine .detachAll sound.wellFormed (fun _ => .inr) ?_
    intro id member parent above
    have here : id ∈ world.tree.childrenOf container := by simp [listed, member]
    rw [sound.wellFormed.parentOf_of_mem here] at above
    cases above
    exact ⟨.inl rfl, own⟩
  simp only [removeRun, leads_bind, leads_editInSteps, done, leads_note, leads_pure]
  refine ⟨?_, by simp, by simp, by simp [Scene.add]⟩
  exact lawful.change sound edits unstocked rfl rfl (fun _ => kept_mem_push (by simp)) (fun _ kept => kept)
    (fun _ => .inl) fun _ _ _ => Tree.kindOf_detachAll

theorem removeRunFor_leads (lawful : realm.Lawful) (sound : realm.Sound world)
    {start : NodeId} (listed : world.tree.childrenOf container = front ++ (run ++ rest))
    (own : ¬ realm.guest container) (free : ¬ world.kept container)
    (unstocked : ∀ id, id = container ∨ id ∈ run → ¬ realm.stock world.scene id)
    (begins : (run ++ rest).head? = some start) :
    (removeRunFor realm.client container start rest.head?).Leads world.scene
      (fun _ scene => ∃ kept stays, realm.Asked world ⟨scene, kept⟩ container run stays ∧
        (realm.bare → ∀ id, stays id = false))
      (fun _ _ => False) := by
  cases asks : realm.client.hook? with
  | none =>
      simp only [removeRunFor, asks]
      exact (removeRun_leads lawful sound listed own unstocked begins).mono
        (fun _ _ asked => ⟨_, _, asked, fun _ _ => rfl⟩) fun _ _ none => none
  | some hook =>
      have room : run.length ≤ world.tree.size + hook.additions :=
        Nat.le_add_right_of_le (sound.wellFormed.length_run_le (listed.trans (List.append_assoc ..).symm))
      simp only [removeRunFor, asks, removeRunAsking, leads_bind, leads_look, ← begins, leads_note, leads_pure]
      refine (overRunAsking_leads lawful asks sound _ 0 listed own free unstocked room).mono ?_
        fun _ _ none => none
      rintro count scene ⟨kept, stays, asked⟩
      refine ⟨kept, stays, asked.noted lawful fun id => by simp, fun bare => ?_⟩
      have := lawful.unasked bare
      rw [asks] at this
      cases this

end Layout.Realm

end DomParts
