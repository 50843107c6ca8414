import DomParts.Part.Node
import DomParts.Proofs.Layout.Site
import DomParts.Proofs.Tree.Pair
import DomParts.Proofs.Tree.Moving

/-! # The steps that rendering is made of

Clearing a part, putting nodes in front of its end marker, creating nodes: each goes through on a site
and leaves one.
-/

namespace DomParts.Layout

variable {guest touched : NodeId → Prop} {tree changed : Tree} {container id : NodeId}
  {moved ids : List NodeId} {before? : Option NodeId} {kind : Kind}

namespace Edits

theorem inserted_guest (inserted : tree.Inserted changed container [id] before?) (own : guest id)
    (here : touched container) (container_own : ¬ guest container) :
    Edits guest tree changed touched [id] where
  wellFormed := inserted.sound
  size_le := Nat.le_of_eq inserted.size.symm
  texts id text := (Tree.isText_eq (inserted.kindOf id)).trans text
  guests other member := List.mem_singleton.1 member ▸ own
  spared other _ outside := by
    have elsewhere : other ≠ container := fun same => outside (same ▸ here)
    exact ⟨⟨inserted.kindOf other, by rw [inserted.childrenOf, if_neg elsewhere]⟩,
      fun left => by rw [inserted.parentOf, if_neg left]⟩
  guest_kind other _ := inserted.kindOf other
  guest_children other own := by
    have elsewhere : other ≠ container := fun same => container_own (same ▸ own)
    rw [inserted.childrenOf, if_neg elsewhere]

theorem childrenOf_unmoved {other : NodeId} (sound : tree.WellFormed)
    (parents : ∀ id ∈ moved, tree.parentOf id ≠ some other) :
    (tree.childrenOf other).filter (· ∉ moved) = tree.childrenOf other := by
  rw [List.filter_eq_self]
  intro child member
  have : child ∉ moved := fun among => parents child among (sound.parentOf_of_mem member)
  simpa using this

theorem inserted_own (sound : tree.WellFormed) (inserted : tree.Inserted changed container moved before?)
    (here : touched container) (container_own : ¬ guest container)
    (members : ∀ id ∈ moved, touched id)
    (parents : ∀ id ∈ moved, ∀ parent, tree.parentOf id = some parent → touched parent ∧ ¬ guest parent) :
    Edits guest tree changed touched [] where
  wellFormed := inserted.sound
  size_le := Nat.le_of_eq inserted.size.symm
  texts id text := (Tree.isText_eq (inserted.kindOf id)).trans text
  guests := by simp
  spared other _ outside := by
    have elsewhere : other ≠ container := fun same => outside (same ▸ here)
    refine .same (inserted.kindOf other) ?_ ?_
    · rw [inserted.childrenOf, if_neg elsewhere, childrenOf_unmoved sound]
      exact fun id member above => outside (parents id member other above).1
    · rw [inserted.parentOf, if_neg fun member => outside (members other member)]
  guest_kind other _ := inserted.kindOf other
  guest_children other own := by
    have elsewhere : other ≠ container := fun same => container_own (same ▸ own)
    rw [inserted.childrenOf, if_neg elsewhere, childrenOf_unmoved sound]
    · simp
    · exact fun id member above => (parents id member other above).2 own

theorem detachAll (sound : tree.WellFormed) (members : ∀ id ∈ ids, touched id)
    (parents : ∀ id ∈ ids, ∀ parent, tree.parentOf id = some parent → touched parent ∧ ¬ guest parent) :
    Edits guest tree (tree.detachAll ids) touched [] where
  wellFormed := sound.detachAll ids
  size_le := by simp
  texts _ text := (Tree.isText_eq Tree.kindOf_detachAll).trans text
  guests := by simp
  spared other _ outside := by
    refine .same Tree.kindOf_detachAll ?_ ?_
    · rw [Tree.childrenOf_detachAll sound, childrenOf_unmoved sound]
      exact fun id member above => outside (parents id member other above).1
    · rw [Tree.parentOf_detachAll, if_neg fun member => outside (members other member)]
  guest_kind _ _ := Tree.kindOf_detachAll
  guest_children other own := by
    rw [Tree.childrenOf_detachAll sound, childrenOf_unmoved sound]
    · simp
    · exact fun id member above => (parents id member other above).2 own

theorem extended (sound : changed.WellFormed) (extended : tree.Extends changed)
    (exist : ∀ id, guest id → tree.size > id) : Edits guest tree changed touched [] where
  wellFormed := sound
  size_le := extended.size_le
  texts id text := (Tree.isText_eq (extended.kindOf_eq (Tree.lt_size_of_isText text))).trans text
  guests := by simp
  spared id inside _ :=
    .same (extended.kindOf_eq inside) (extended.childrenOf_eq inside) (extended.parentOf_eq inside)
  guest_kind id own := extended.kindOf_eq (exist id own)
  guest_children id own := by simpa using extended.childrenOf_eq (exist id own)

theorem setKind (sound : tree.WellFormed) (inside : tree.size > id) (here : touched id) (own : ¬ guest id)
    (named : kind.attributeNames.Nodup) (solid : kind ≠ .fragment) (text : tree.isText id = true → kind.isText = true) :
    Edits guest tree (tree.setKind id kind) touched [] where
  wellFormed := sound.setKind inside named solid
  size_le := by simp
  texts other was := by
    rw [Tree.isText, Tree.kindOf_setKind inside]
    split
    · rename_i same
      exact text (same ▸ was)
    · exact was
  guests := by simp
  spared other _ outside := by
    have elsewhere : other ≠ id := fun same => outside (same ▸ here)
    refine .same ?_ Tree.childrenOf_setKind Tree.parentOf_setKind
    rw [Tree.kindOf_setKind inside, if_neg elsewhere]
  guest_kind other guest := by
    have elsewhere : other ≠ id := fun same => own (same ▸ guest)
    rw [Tree.kindOf_setKind inside, if_neg elsewhere]
  guest_children other _ := by simp

/-- The children of a container that is worked on are put into another order. -/
theorem rearranged {children : List NodeId} (arranged : tree.Rearranged changed container children)
    (here : touched container) (own : ¬ guest container) : Edits guest tree changed touched [] where
  wellFormed := arranged.sound
  size_le := Nat.le_of_eq arranged.size.symm
  texts id text := (Tree.isText_eq (arranged.kindOf id)).trans text
  guests := by simp
  spared other _ outside := by
    have elsewhere : other ≠ container := fun same => outside (same ▸ here)
    refine .same (arranged.kindOf other) ?_ (arranged.parentOf other)
    rw [arranged.childrenOf, if_neg elsewhere]
  guest_kind other _ := arranged.kindOf other
  guest_children other guest := by
    have elsewhere : other ≠ container := fun same => own (same ▸ guest)
    rw [arranged.childrenOf, if_neg elsewhere]
    simp

theorem paired {left right : List NodeId} (paired : tree.Paired changed container left right)
    (exist : ∀ id, guest id → tree.size > id) (here : touched container) (own : ¬ guest container) :
    Edits guest tree changed touched [] where
  wellFormed := paired.sound
  size_le := Nat.le_of_lt (by rw [paired.size]; omega)
  texts id text := (Tree.isText_eq (paired.kindOf id (Tree.lt_size_of_isText text))).trans text
  guests := by simp
  spared id inside outside := by
    have elsewhere : id ≠ container := fun same => outside (same ▸ here)
    exact .same (paired.kindOf id inside) (paired.childrenOf id elsewhere) (paired.parentOf id inside)
  guest_kind id guest := paired.kindOf id (exist id guest)
  guest_children id guest := by
    have elsewhere : id ≠ container := fun same => own (same ▸ guest)
    rw [paired.childrenOf id elsewhere]
    simp

theorem joined {left right : List NodeId} {kind : Kind} (joined : tree.Joined changed kind container left right)
    (exist : ∀ id, guest id → tree.size > id) (here : touched container) (own : ¬ guest container) :
    Edits guest tree changed touched [] where
  wellFormed := joined.sound
  size_le := by rw [joined.size]; exact Nat.le_succ _
  texts id text := (Tree.isText_eq (joined.kindOf id (Tree.lt_size_of_isText text))).trans text
  guests := by simp
  spared id inside outside := by
    have elsewhere : id ≠ container := fun same => outside (same ▸ here)
    exact .same (joined.kindOf id inside) (joined.childrenOf id elsewhere) (joined.parentOf id inside)
  guest_kind id guest := joined.kindOf id (exist id guest)
  guest_children id guest := by
    have elsewhere : id ≠ container := fun same => own (same ▸ guest)
    rw [joined.childrenOf id elsewhere]
    simp

end Edits

namespace Realm

variable {σ : Type} {realm : Realm σ} {world : World σ} {container : NodeId} {front rest : List NodeId}
  {plot : Plot}

theorem kept_mem_push {report : Array Event} {event : Event} {id : NodeId} (other : event ≠ .kept id) :
    .kept id ∈ (report.push event).toList ↔ .kept id ∈ report.toList := by
  simp [other.symm]

theorem Change.noted {before now : World σ} {touched : NodeId → Prop} {taken : List NodeId} (lawful : realm.Lawful)
    (change : realm.Change before now touched taken) (event : Event) (other : ∀ id, event ≠ .kept id) :
    realm.Change before ⟨now.scene.add event, now.kept⟩ touched taken := by
  have silent : realm.Change now ⟨now.scene.add event, now.kept⟩ (fun _ => False) [] :=
    lawful.change change.sound (Edits.refl change.sound.wellFormed) (fun _ none => none.elim) rfl rfl
      (fun id => kept_mem_push (other id)) (fun _ kept => kept) (fun _ => .inl) fun _ _ none => none.elim
  have both := change.trans silent (fun _ kept free => absurd kept free) fun _ => .inr
  simpa using both

/-- Making nodes and storing templates is a change that works on nothing if none of the old nodes is put in stock. -/
theorem Change.ofExtended {after : Scene σ} (sound : realm.Sound world) (wellFormed : after.tree.WellFormed)
    (larger : world.tree.Extends after.tree) (holds : realm.holds after)
    (stock : ∀ id, world.tree.size > id → (realm.stock after id ↔ realm.stock world.scene id))
    (stock_exists : ∀ id, realm.stock after id → after.tree.size > id)
    (stock_below : ∀ id child, realm.stock after id → child ∈ after.tree.childrenOf id → realm.stock after child)
    (shape : ∀ shared original, realm.shape world.scene shared original → realm.shape after shared original)
    (report : ∀ id, .kept id ∈ after.report.toList ↔ .kept id ∈ world.scene.report.toList) :
    realm.Change world ⟨after, world.kept⟩ (fun _ => False) [] :=
  { Edits.extended wellFormed larger sound.guest_exists with
    sound :=
      { wellFormed, holds, stock_exists, stock_below
        surveyed := Nat.le_trans sound.surveyed larger.size_le
        answered_exists := fun id answered => Nat.lt_of_lt_of_le (sound.answered_exists id ((report id).1 answered)) larger.size_le
        guest_exists := fun id own => Nat.lt_of_lt_of_le (sound.guest_exists id own) larger.size_le
        guest_below := fun id child own member => by
          rw [larger.childrenOf_eq (sound.guest_exists id own)] at member
          exact sound.guest_below id child own member
        stock_own := fun id here own => sound.stock_own id ((stock id (sound.guest_exists id own)).1 here) own
        kept_exists := fun id kept => Nat.lt_of_lt_of_le (sound.kept_exists id kept) larger.size_le
        answered := fun id kept => (report id).2 (sound.answered id kept) }
    handed := fun _ => .inl
    keeps := fun _ => .inl
    stable := fun id kept => ⟨sound.kept_exists id kept, larger.kindOf_eq (sound.kept_exists id kept)⟩
    lasting := fun id => (report id).2
    answers := fun id answered => .inl ((report id).1 answered)
    shape
    stock }

section Extended

variable {tree : Tree} (lawful : realm.Lawful) (sound : realm.Sound world) (wellFormed : tree.WellFormed)
  (larger : world.tree.Extends tree)
include lawful sound wellFormed larger

theorem Lawful.extended : realm.Change world ⟨{ world.scene with tree }, world.kept⟩ (fun _ => False) [] :=
  lawful.change sound (Edits.extended wellFormed larger sound.guest_exists) (fun _ none => none.elim) rfl
    rfl (fun _ => Iff.rfl) (fun _ kept => kept) (fun _ => .inl) fun _ _ none => none.elim

theorem Lawful.stock_of_extended {id : NodeId} (stock : realm.stock { world.scene with tree } id) :
    realm.stock world.scene id := by
  have edits : Edits realm.guest world.tree tree (fun _ => False) [] := .extended wellFormed larger sound.guest_exists
  have settled := @Lawful.settled _ _ _ ⟨{ world.scene with tree }, world.kept⟩ _ _ lawful sound edits
    (fun _ none => none.elim) rfl rfl
  exact (settled.2.1 id).1 stock

end Extended

/-- A new part is put into a container. Its markers are the two next nodes, and nothing else is new. -/
theorem insertInto_leads {left right : List NodeId} (lawful : realm.Lawful) (sound : realm.Sound world)
    (listed : world.tree.childrenOf container = left ++ right) (room : world.tree.size > container)
    (own : ¬ realm.guest container) (unstocked : ¬ realm.stock world.scene container) :
    (NodePart.insertInto container right.head?).Leads world.scene
      (fun part scene => part = .between world.tree.size (world.tree.size + 1) ∧
        world.tree.Paired scene.tree container left right ∧
        realm.Change world ⟨scene, world.kept⟩ (fun id => id = container) [] ∧
        Marked realm.guest world.kept scene.tree world.tree.size (world.tree.size + 1) ∧
        scene.tree.childrenOf world.tree.size = [] ∧ ∀ id, world.tree.size ≤ id → ¬ realm.stock scene id)
      (fun _ _ => False) := by
  obtain ⟨middle, changed, one, two, paired⟩ := Tree.pair_inserted sound.wellFormed room listed
  simp only [NodePart.insertInto, RenderM.leads_bind, RenderM.leads_create, RenderM.insert,
    RenderM.leads_edit, RenderM.leads_pure, Tree.size_create, one, two]
  have edits : Edits realm.guest world.tree changed (fun id => id = container) [] :=
    .paired paired sound.guest_exists rfl own
  have shelved : ∀ id, id = container → ¬ realm.stock world.scene id := fun _ same => same ▸ unstocked
  have beyond : ∀ {id}, world.tree.size ≤ id → ¬ realm.guest id ∧ ¬ world.kept id := fun beyond =>
    ⟨fun guest => Nat.not_lt.2 beyond (sound.guest_exists _ guest),
      fun kept => Nat.not_lt.2 beyond (sound.kept_exists _ kept)⟩
  obtain ⟨start_own, start_free⟩ := beyond (Nat.le_refl _)
  obtain ⟨stop_own, stop_free⟩ := beyond (Nat.le_succ _)
  have leaf : ∀ {id}, world.tree.size ≤ id → changed.childrenOf id = [] := fun {id} new => by
    rw [paired.childrenOf id fun same => Nat.not_lt.2 new (same ▸ room), Tree.childrenOf_of_size_le new]
  refine ⟨trivial, paired, ?_, ⟨paired.start, paired.stop, start_own, stop_own, start_free, stop_free, leaf (Nat.le_succ _)⟩,
    leaf (Nat.le_refl _), ?_⟩
  · exact lawful.change sound edits shelved rfl rfl (fun _ => Iff.rfl) (fun _ kept => kept) (fun _ => .inl)
      fun id kept _ => paired.kindOf id (sound.kept_exists id kept)
  · exact fun id new => @Lawful.new_unstocked _ _ _ ⟨{ world.scene with tree := changed }, world.kept⟩ _ _ lawful
      sound edits shelved rfl rfl id new

namespace Site

variable (site : realm.Site world container front rest plot)
include site

theorem split : world.tree.childrenOf container =
    (front ++ [plot.part.start]) ++ plot.inner ++ (plot.part.stop :: rest) := by
  rw [site.listed]
  simp [Plot.nodes]

theorem nextSibling_start (sound : realm.Sound world) :
    world.tree.nextSibling plot.part.start = (plot.inner ++ [plot.part.stop]).head? := by
  have listed : world.tree.childrenOf container =
      front ++ plot.part.start :: (plot.inner ++ plot.part.stop :: rest) := by
    simp [site.split]
  rw [sound.wellFormed.nextSibling_eq listed]
  cases plot.inner <;> rfl

theorem nextSibling_stop (sound : realm.Sound world) :
    world.tree.nextSibling plot.part.stop = rest.head? := by
  have listed : world.tree.childrenOf container =
      (front ++ plot.part.start :: plot.inner) ++ plot.part.stop :: rest := by
    simp [site.split]
  exact sound.wellFormed.nextSibling_eq listed

theorem parentOf_inner (sound : realm.Sound world) {id : NodeId} (member : id ∈ plot.inner) :
    world.tree.parentOf id = some container := by
  refine sound.wellFormed.parentOf_of_mem ?_
  rw [site.split]
  simp [member]

theorem container_leads (sound : realm.Sound world) {good : NodeId → Scene σ → Prop}
    {bad : Error → Scene σ → Prop} :
    plot.part.container.Leads world.scene good bad ↔ good container world.scene := by
  simp only [NodePart.container, RenderM.leads_bind, RenderM.leads_look, RenderM.leads_require,
    sound.wellFormed.parentOf_of_mem site.start_mem]

theorem exists_first (sound : realm.Sound world) :
    ∃ first, world.tree.nextSibling plot.part.start = some first ∧
      (plot.inner ++ plot.part.stop :: rest).head? = some first := by
  rw [site.nextSibling_start sound]
  cases plot.inner <;> exact ⟨_, rfl, rfl⟩

theorem removeContent_leads (lawful : realm.Lawful) (sound : realm.Sound world) :
    plot.part.removeContent.Leads world.scene
      (fun _ scene => scene.tree = world.tree.detachAll plot.inner ∧
        realm.Outcome world ⟨scene, world.kept⟩ container front rest plot [] { plot with inner := [] })
      (fun _ _ => False) := by
  obtain ⟨first, next, onward⟩ := site.exists_first sound
  have removed : world.tree.removeRun container first (some plot.part.stop) =
      (.ok plot.inner.length, world.tree.detachAll plot.inner) :=
    Tree.removeRun_eq sound.wellFormed site.split onward
  simp only [NodePart.removeContent, RenderM.leads_bind, RenderM.leads_look, next,
    RenderM.leads_require, site.container_leads sound, RenderM.removeRun, RenderM.leads_editInSteps,
    removed, RenderM.leads_note, RenderM.leads_pure]
  refine ⟨rfl, ?_⟩
  refine lawful.outcome sound site (Edits.detachAll sound.wellFormed ?_ ?_) rfl rfl
    (fun id => kept_mem_push (by simp)) (fun _ => id) (fun _ => .inl) (fun _ _ _ => Tree.kindOf_detachAll)
    Tree.kindOf_detachAll ?_ rfl rfl ?_ site.owned_nodup (by simp)
    (fun _ => .inl)
  · exact fun id member => .inr (site.inside id member)
  · intro id member parent above
    rw [site.parentOf_inner sound member] at above
    cases above
    exact ⟨.inl rfl, site.container_own⟩
  · have outside : container ∉ plot.inner := fun member => site.container_new.2.2 (site.inside _ member)
    exact Tree.parentOf_detachAll.trans (if_neg outside)
  · have distinct := sound.wellFormed.nodup container
    rw [site.split] at distinct
    refine (Tree.childrenOf_detachAll sound.wellFormed).trans ?_
    rw [site.split, Tree.filter_run distinct]
    simp [Plot.nodes]

theorem anchors : world.tree.Anchors container (some plot.part.stop) := by
  intro id same
  cases same
  exact site.stop_mem

theorem stop_not_before (sound : realm.Sound world) :
    plot.part.stop ∉ front ++ [plot.part.start] ++ plot.inner := by
  have distinct := sound.wellFormed.nodup container
  rw [site.split] at distinct
  exact fun member => List.disjoint_of_nodup_append distinct member (List.mem_cons_self ..)

theorem inserted_own (lawful : realm.Lawful) (sound : realm.Sound world) {moved : List NodeId}
    {changed : Tree} (inserted : world.tree.Inserted changed container moved (some plot.part.stop))
    (own : ∀ id ∈ moved, id ∈ plot.owned)
    (parents : ∀ id ∈ moved, ∀ parent, world.tree.parentOf id = some parent →
      parent ∈ plot.owned ∧ ¬ realm.guest parent) :
    realm.Outcome world ⟨{ world.scene with tree := changed }, world.kept⟩ container front rest plot
      [] { plot with inner := plot.inner ++ moved } := by
  have elsewhere : ∀ id ∈ moved, world.tree.parentOf id ≠ some container := fun id member above =>
    site.container_new.2.2 (parents id member container above).1
  refine lawful.outcome sound site (Edits.inserted_own sound.wellFormed inserted (.inl rfl)
    site.container_own ?_ ?_) rfl rfl (fun _ => Iff.rfl) (fun _ => id) (fun _ => .inl)
    (fun _ _ _ => inserted.kindOf _) (inserted.kindOf _) ?_ rfl rfl ?_ site.owned_nodup ?_ (fun _ => .inl)
  · exact fun id member => .inr (own id member)
  · intro id member parent above
    exact ⟨.inr (parents id member parent above).1, (parents id member parent above).2⟩
  · exact (inserted.parentOf container).trans (if_neg fun member => site.container_new.2.2 (own _ member))
  · refine (inserted.childrenOf container).trans ?_
    rw [if_pos rfl, Edits.childrenOf_unmoved sound.wellFormed elsewhere, site.split,
      Tree.splice_some (site.stop_not_before sound)]
    simp [Plot.nodes]
  · intro id member
    exact (List.mem_append.1 member).elim (site.inside id) (own id)

/-- A guest is taken from wherever it is and put in front of the end marker. -/
theorem insertContent_guest (lawful : realm.Lawful) (sound : realm.Sound world) {id : NodeId}
    (guest : realm.guest id) (solid : world.tree.kindOf id ≠ some .fragment) :
    (plot.part.insertContent id).Leads world.scene
      (fun _ scene => realm.Outcome world ⟨scene, world.kept⟩ container front rest plot [id]
        { plot with
          inner := plot.inner.filter (· ∉ [id]) ++ [id]
          owned := plot.owned.filter (· ∉ [id]) ++ [id] })
      (fun _ _ => False) := by
  have other : some plot.part.stop ≠ some id := fun same =>
    site.marked.stop_own (Option.some.inj same ▸ guest)
  obtain ⟨upward, closed, above, outside⟩ := site.apart
  obtain ⟨changed, done, inserted⟩ := Tree.insertBefore_single sound.wellFormed
    (site.container_exists sound) (sound.guest_exists id guest) solid site.anchors other
    ⟨upward, closed, above, fun up => (outside id up).2.1 guest⟩
  simp only [NodePart.insertContent, RenderM.leads_bind, site.container_leads sound, RenderM.insert,
    RenderM.leads_edit, done]
  have left : ∀ {own : NodeId}, ¬ realm.guest own → own ∉ [id] := fun own member =>
    own (List.mem_singleton.1 member ▸ guest)
  refine lawful.outcome sound site (Edits.inserted_guest inserted guest (.inl rfl) site.container_own)
    rfl rfl (fun _ => Iff.rfl) (fun _ kept => kept) (fun _ => .inl) (fun _ _ _ => inserted.kindOf _)
    (inserted.kindOf _) ?_ rfl rfl ?_ ?_ ?_ ?_
  · exact (inserted.parentOf container).trans (if_neg (left site.container_own))
  · have distinct := site.stop_not_before sound
    refine (inserted.childrenOf container).trans ?_
    rw [if_pos rfl, site.split, List.filter_append,
      List.filter_cons_of_pos (by simpa using left site.marked.stop_own), Tree.splice_some]
    · have start := left site.marked.start_own
      simp only [List.filter_append, List.filter_cons, List.filter_nil, start, not_false_eq_true,
        decide_true, if_true]
      simp [Plot.nodes]
    · exact fun member => distinct (List.mem_of_mem_filter member)
  · refine (site.owned_nodup.filter _).append (by simp) ?_
    intro own member again
    simpa [List.mem_singleton.1 again] using List.of_mem_filter member
  · intro own member
    rcases List.mem_append.1 member with member | member
    · have := List.mem_filter.1 member
      exact List.mem_append_left _ (List.mem_filter.2 ⟨site.inside own this.1, this.2⟩)
    · exact List.mem_append_right _ member
  · intro own member
    rcases List.mem_append.1 member with member | member
    · exact .inl (List.mem_of_mem_filter member)
    · exact .inr (.inr member)

/-- A node of the part's own that stands alone is put in front of the end marker. -/
theorem insertContent_alone (lawful : realm.Lawful) (sound : realm.Sound world) {id : NodeId}
    (own : id ∈ plot.owned) (alone : world.tree.parentOf id = none)
    (solid : world.tree.kindOf id ≠ some .fragment) :
    (plot.part.insertContent id).Leads world.scene
      (fun _ scene => world.tree.Inserted scene.tree container [id] (some plot.part.stop) ∧
        realm.Outcome world ⟨scene, world.kept⟩ container front rest plot []
          { plot with inner := plot.inner ++ [id] })
      (fun _ _ => False) := by
  have other : some plot.part.stop ≠ some id := fun same =>
    site.stop_new (Option.some.inj same ▸ own)
  obtain ⟨upward, closed, above, outside⟩ := site.apart
  obtain ⟨changed, done, inserted⟩ := Tree.insertBefore_single sound.wellFormed
    (site.container_exists sound) (site.present id own) solid site.anchors other
    ⟨upward, closed, above, fun up => (outside id up).1 own⟩
  simp only [NodePart.insertContent, RenderM.leads_bind, site.container_leads sound, RenderM.insert,
    RenderM.leads_edit, done]
  refine ⟨inserted, site.inserted_own lawful sound inserted ?_ ?_⟩
  · exact fun other member => List.mem_singleton.1 member ▸ own
  · intro other member parent link
    rw [List.mem_singleton.1 member, alone] at link
    cases link

/-- The children of a fragment of the part's own are put in front of the end marker. -/
theorem insertContent_fragment (lawful : realm.Lawful) (sound : realm.Sound world) (id : NodeId)
    (own : id ∈ plot.owned) (foreign : ¬ realm.guest id)
    (fragment : world.tree.kindOf id = some .fragment)
    (below : ∀ child ∈ world.tree.childrenOf id, child ∈ plot.owned) :
    (plot.part.insertContent id).Leads world.scene
      (fun _ scene =>
        world.tree.Inserted scene.tree container (world.tree.childrenOf id) (some plot.part.stop) ∧
        realm.Outcome world ⟨scene, world.kept⟩ container front rest plot []
          { plot with inner := plot.inner ++ world.tree.childrenOf id })
      (fun _ _ => False) := by
  obtain ⟨upward, closed, above, outside⟩ := site.apart
  obtain ⟨changed, done, inserted⟩ := Tree.insertBefore_fragment sound.wellFormed
    (site.container_exists sound) fragment site.anchors
    ⟨upward, closed, above, fun up => (outside id up).1 own,
      fun child member up => (outside child up).1 (below child member)⟩
  simp only [NodePart.insertContent, RenderM.leads_bind, site.container_leads sound, RenderM.insert,
    RenderM.leads_edit, done]
  refine ⟨inserted, site.inserted_own lawful sound inserted below ?_⟩
  intro child member parent link
  rw [sound.wellFormed.parentOf_of_mem member] at link
  cases link
  exact ⟨own, foreign⟩

theorem extended (lawful : realm.Lawful) (sound : realm.Sound world) {changed : Tree}
    (wellFormed : changed.WellFormed) (extended : world.tree.Extends changed) {fresh : List NodeId}
    (distinct : fresh.Nodup) (new : ∀ id ∈ fresh, world.tree.size ≤ id ∧ changed.size > id) :
    realm.Outcome world ⟨{ world.scene with tree := changed }, world.kept⟩ container front rest plot
      [] { plot with owned := plot.owned ++ fresh } := by
  have inside := site.container_exists sound
  refine lawful.outcome sound site (Edits.extended wellFormed extended sound.guest_exists) rfl rfl
    (fun _ => Iff.rfl) (fun _ kept => kept) (fun _ => .inl)
    (fun id kept _ => extended.kindOf_eq (sound.kept_exists id kept)) (extended.kindOf_eq inside)
    (extended.parentOf_eq inside) rfl rfl ?_ ?_ ?_ ?_
  · refine (extended.childrenOf_eq inside).trans ?_
    simp [site.split, Plot.nodes]
  · refine site.owned_nodup.append distinct fun id member among => ?_
    exact Nat.not_lt.2 (new id among).1 (site.present id member)
  · exact fun id member => List.mem_append_left _ (site.inside id member)
  · exact fun id member => (List.mem_append.1 member).imp_right fun among => .inl (new id among)

theorem created (lawful : realm.Lawful) (sound : realm.Sound world) (kind : Kind)
    (named : kind.attributeNames.Nodup) :
    realm.Outcome world ⟨{ world.scene with tree := (world.tree.create kind).2 }, world.kept⟩ container
      front rest plot [] { plot with owned := plot.owned ++ [world.tree.size] } :=
  site.extended lawful sound (sound.wellFormed.create named) (Tree.extends_create kind) (by simp)
    (by simp)

theorem idle (lawful : realm.Lawful) (sound : realm.Sound world) :
    realm.Outcome world world container front rest plot [] plot := by
  refine lawful.outcome sound site (Edits.refl sound.wellFormed) rfl rfl (fun _ => Iff.rfl)
    (fun _ kept => kept) (fun _ => .inl) (fun _ _ _ => rfl) rfl rfl rfl rfl ?_ site.owned_nodup site.inside
    (fun _ => .inl)
  exact site.listed.trans (by simp)

theorem noted (lawful : realm.Lawful) (sound : realm.Sound world) {event : Event}
    (other : ∀ id, event ≠ .kept id) :
    realm.Outcome world ⟨world.scene.add event, world.kept⟩ container front rest plot [] plot := by
  refine lawful.outcome sound site (Edits.refl sound.wellFormed) rfl rfl
    (fun id => kept_mem_push (other id)) (fun _ kept => kept) (fun _ => .inl) (fun _ _ _ => rfl) rfl rfl
    rfl rfl ?_ site.owned_nodup site.inside (fun _ => .inl)
  exact site.listed.trans (by simp)

/-- A text of the part's own becomes another text. If the hook held it, that is over. -/
theorem altered (lawful : realm.Lawful) (sound : realm.Sound world) {id : NodeId} (data : String)
    (own : id ∈ plot.owned) (foreign : ¬ realm.guest id) (text : world.tree.isText id = true) :
    realm.Outcome world
      ⟨{ world.scene with tree := world.tree.setKind id (.text data) },
        fun other => world.kept other ∧ other ≠ id⟩
      container front rest plot [] plot := by
  have inside := site.present id own
  have different : container ≠ id := fun same => site.container_new.2.2 (same ▸ own)
  refine lawful.outcome sound site
    (Edits.setKind sound.wellFormed inside (.inr own) foreign List.nodup_nil (by simp) fun _ => rfl) rfl rfl
    (fun _ => Iff.rfl) (fun _ kept => kept.1) ?_ ?_ ?_ Tree.parentOf_setKind rfl rfl ?_ site.owned_nodup
    site.inside (fun _ => .inl)
  · intro other kept
    by_cases same : other = id
    · exact .inr ⟨same ▸ own, same ▸ text, same ▸ foreign⟩
    · exact .inl ⟨kept, same⟩
  · exact fun other kept _ => (Tree.kindOf_setKind inside).trans (if_neg kept.2)
  · exact (Tree.kindOf_setKind inside).trans (if_neg different)
  · exact Tree.childrenOf_setKind.trans (site.listed.trans (by simp))

theorem loneText_leads (sound : realm.Sound world) {good : Option NodeId → Scene σ → Prop}
    {bad : Error → Scene σ → Prop} : plot.part.loneText?.Leads world.scene good bad ↔
      good (match plot.inner with
        | [id] => if world.tree.isText id then some id else none
        | _ => none) world.scene := by
  have stop : world.tree.isText plot.part.stop = false := by
    simp [Tree.isText, site.marked.stop, Kind.marker, Kind.isText]
  simp only [NodePart.loneText?, RenderM.leads_look, site.nextSibling_start sound]
  cases shape : plot.inner with
  | nil => simp [Option.filter, stop]
  | cons first inner =>
      have listed : world.tree.childrenOf container =
          (front ++ [plot.part.start]) ++ first :: (inner ++ plot.part.stop :: rest) := by
        simp [site.split, shape]
      have onward : world.tree.nextSibling first = (inner ++ [plot.part.stop]).head? := by
        rw [sound.wellFormed.nextSibling_eq listed]
        cases inner <;> rfl
      cases inner with
      | nil => simp [onward, Option.filter]
      | cons second inner =>
          have : second ≠ plot.part.stop := fun same =>
            site.stop_new (same ▸ site.inside second (by simp [shape]))
          simp [onward, Option.filter, this]

end Site

/-- Fewer nodes may count as the part's own, and the part may be said to show something else. -/
theorem Outcome.forget {before after : World σ} {taken : List NodeId}
    {new less : Plot}
    (outcome : realm.Outcome before after container front rest plot taken new)
    (start : less.part.start = new.part.start) (stop : less.part.stop = new.part.stop)
    (inner : less.inner = new.inner) (distinct : less.owned.Nodup)
    (inside : ∀ id ∈ less.inner, id ∈ less.owned) (fewer : ∀ id ∈ less.owned, id ∈ new.owned) :
    realm.Outcome before after container front rest plot taken less := by
  have site := outcome.site
  refine { outcome with
    site := ?_, start := start.trans outcome.start, stop := stop.trans outcome.stop
    origin := fun id member => outcome.origin id (fewer id member) }
  have nodes : less.nodes = new.nodes := by simp only [Plot.nodes, start, stop, inner]
  have claimed : ∀ id ∈ less.claimed, id ∈ new.claimed := by
    simp only [Plot.claimed, start, stop, List.mem_cons]
    rintro id (rfl | rfl | member)
    · exact .inl rfl
    · exact .inr (.inl rfl)
    · exact .inr (.inr (fewer id member))
  refine { site with
    listed := nodes ▸ site.listed
    marked := ?_, distinct := ?_, inside := inside
    present := fun id member => site.present id (fewer id member)
    unstocked := ?_, apart := ?_ }
  · refine ⟨?_, fun id member => ?_⟩
    · rw [start, stop]
      exact site.marked.toMarked
    · rw [start]
      exact site.marked.surveyed id (fewer id member)
  · have here := site.container_new
    simp only [Plot.claimed, start, stop, List.nodup_cons, List.mem_cons, not_or]
    exact ⟨⟨here.1, here.2.1, fun member => here.2.2 (fewer _ member)⟩,
      ⟨site.start_new.1, fun member => site.start_new.2 (fewer _ member)⟩,
      fun member => site.stop_new (fewer _ member), distinct⟩
  · intro id member
    rcases List.mem_cons.1 member with rfl | member
    · exact site.unstocked _ (List.mem_cons_self ..)
    · exact site.unstocked id (List.mem_cons_of_mem _ (claimed id member))
  · obtain ⟨upward, closed, above, outside⟩ := site.apart
    exact ⟨upward, closed, above, fun id up =>
      ⟨fun member => (outside id up).1 (fewer id member), (outside id up).2⟩⟩

end Realm

end DomParts.Layout
