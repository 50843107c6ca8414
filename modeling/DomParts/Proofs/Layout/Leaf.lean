import DomParts.Proofs.Layout.Honest

/-! # Showing nothing, a text, or a guest -/

namespace DomParts.Layout

open RenderM

open Subtree (spotsOfAll)

variable {σ : Type} {realm : Realm σ}

theorem leaf_of_planted {tree : Tree} {original : Subtree} {forest : List Subtree} {reach : List NodeId}
    {fittings : List Fitting} {id : NodeId} (leafy : Leafy original) (planted : Planted original forest reach)
    (kinds : ∀ spot ∈ spotsOfAll forest, ∃ kind, tree.kindOf spot.id = some kind ∧ Accords fittings spot.id spot.kind kind)
    (children : ∀ spot ∈ spotsOfAll forest, tree.childrenOf spot.id = weave fittings spot.children)
    (only : weave fittings (forest.map Subtree.id) = [id]) (text : tree.isText id = true) : tree.childrenOf id = [] := by
  obtain ⟨kind, below, rfl⟩ : ∃ kind below, forest = [.branch id kind below] := by
    match forest, only with
    | [], only => cases only
    | [.branch top kind below], only =>
        obtain ⟨rfl, -⟩ : top = id ∧ _ := by simpa [weave] using only
        exact ⟨kind, below, rfl⟩
    | _ :: _ :: _, only => simp [weave] at only
  have spotted : ⟨id, kind, below.map Subtree.id⟩ ∈ spotsOfAll [.branch id kind below] := by
    simp [spotsOfAll, Subtree.spots]
  obtain ⟨actual, found, accords⟩ := kinds _ spotted
  have listed := children _ spotted
  cases kind with
  | text data =>
      obtain rfl := leafy _ _ planted _ _ _ rfl
      exact listed
  | element =>
      obtain ⟨attributes, rfl, -⟩ := accords
      simp [Tree.isText, found, Kind.isText] at text
  | _ =>
      obtain rfl : actual = _ := accords
      simp [Tree.isText, found, Kind.isText] at text

/-- Whatever is shown where there is nothing but one text node: it may become another text. -/
theorem Shows.lone {premises : Premises} {tree : Tree} {content : Content} {inner owned : List NodeId}
    {id : NodeId} (shows : Shows premises tree content inner owned) (only : inner = [id])
    (text : tree.isText id = true)
    (leaves : premises.leafy → premises.bare ∧ ∀ shared original, premises.shape shared original → Leafy original) :
    ¬ premises.guest id ∧ (premises.leafy → tree.childrenOf id = []) := by
  cases shows with
  | empty => cases only
  | text kind own free leaf =>
      cases only
      exact ⟨own, leaf⟩
  | guest guest wanted solid =>
      cases only
      rw [solid] at text
      cases text
  | absent => cases only
  | @row blocks _ arranged marked shown strays complete =>
      have alone : blocks = [.stray id] := by
        cases blocks with
        | nil => cases only
        | cons first blocks =>
            cases first with
            | plot plot => simp [Block.nodes, Plot.nodes] at only
            | stray other =>
                obtain ⟨rfl, none⟩ : other = id ∧ blocks.flatMap Block.nodes = [] := by
                  simpa [Block.nodes] using only
                cases blocks with
                | nil => rfl
                | cons second blocks => cases second <;> simp [Block.nodes, Plot.nodes] at none
      subst alone
      have member : Block.stray id ∈ [Block.stray id] := List.mem_cons_self ..
      refine ⟨fun guest => ?_, fun leafy => absurd member (complete (leaves leafy).1 id)⟩
      rw [(strays id member).2 guest] at text
      cases text
  | @template _ original forest _ fittings shape planted _ _ _ own kinds children =>
      have top : id ∈ forest.map Subtree.id := by
        cases tops : forest.map Subtree.id with
        | nil => simp [tops, weave] at only
        | cons first more =>
            obtain ⟨rfl, -⟩ : first = id ∧ _ := by simpa [tops, weave] using only
            exact List.mem_cons_self ..
      exact ⟨(own _ (mem_tops top)).1, fun leafy =>
        leaf_of_planted ((leaves leafy).2 _ _ shape) planted kinds children only text⟩

theorem setText_eq {tree : Tree} {id : NodeId} {data : String} (text : tree.isText id = true) :
    tree.setText id data = .ok (tree.setKind id (.text data)) := by
  simp only [Tree.isText] at text
  simp only [Tree.setText, Tree.changeKind]
  cases found : tree.kindOf id with
  | none => simp [found] at text
  | some kind =>
      cases kind with
      | text old => rfl
      | _ => simp [found, Kind.isText] at text

theorem Shows.of_node {premises : Premises} {tree : Tree} {content : Content} {inner owned : List NodeId}
    {id : NodeId} (shows : Shows premises tree content inner owned) (node : content.node? = some id) :
    (inner = [id] ∧ owned = [id] ∧ tree.isText id = false) ∨
      (inner = [] ∧ owned = [] ∧ premises.lost id) := by
  cases shows with
  | guest guest wanted solid =>
      cases node
      exact .inl ⟨rfl, rfl, solid⟩
  | absent guest wanted gone =>
      cases node
      exact .inr ⟨rfl, rfl, gone⟩
  | row arranged =>
      cases content with
      | node => exact arranged.elim
      | _ => cases node
  | _ => cases node

theorem Shows.of_text {premises : Premises} {tree : Tree} {content : Content} {inner owned : List NodeId}
    {data : String} (shows : Shows premises tree content inner owned) (text : content.text? = some data) :
    ∃ id, tree.kindOf id = some (.text data) ∧ ¬ premises.guest id ∧ ¬ premises.kept id ∧
      (premises.leafy → tree.childrenOf id = []) ∧ inner = [id] ∧ owned = [id] := by
  cases shows with
  | text kind own free leaf =>
      cases text
      exact ⟨_, kind, own, free, leaf, rfl, rfl⟩
  | row arranged =>
      cases content with
      | text => exact arranged.elim
      | _ => cases text
  | _ => cases text

namespace Realm

theorem honest_nothing (lawful : realm.Lawful) : realm.Honest [] Render.nothing := by
  intro world container front rest plot slack sound site shows admits
  simp only [Render.nothing, leads_bind, leads_pure]
  refine (site.removeContent_leads lawful sound).mono (fun _ scene cleared => ?_) (fun _ _ => False.elim)
  refine ⟨world.kept, [], [], [], cleared.2.forget rfl rfl rfl (by simp) (by simp) (by simp), by simp,
    .empty, by simp [Content.text?], List.forall_mem_nil _⟩

theorem Site.host_leads {world : World σ} {container : NodeId} {front rest : List NodeId} {plot : Plot} {id : NodeId}
    (site : realm.Site world container front rest plot) (lawful : realm.Lawful) (sound : realm.Sound world)
    (guest : realm.guest id) (solid : world.tree.kindOf id ≠ some .fragment) :
    (do
      plot.part.removeContent
      plot.part.insertContent id).Leads world.scene
      (fun _ scene => realm.Outcome world ⟨scene, world.kept⟩ container front rest plot [id] ⟨plot.part, [id], [id]⟩)
      (fun _ _ => False) := by
  simp only [leads_bind]
  refine (site.removeContent_leads lawful sound).mono (fun _ scene result => ?_) (fun _ _ => False.elim)
  obtain ⟨-, cleared⟩ := result
  have solid : scene.tree.kindOf id ≠ some .fragment := by
    rw [show scene.tree.kindOf id = _ from cleared.change.guest_kind id guest]
    exact solid
  refine (cleared.site.insertContent_guest lawful cleared.change.sound guest solid).mono
    (fun _ last inserted => ?_) (fun _ _ => False.elim)
  have outcome := cleared.trans sound inserted (fun _ kept free => absurd kept free) fun _ => .inr
  exact outcome.forget rfl rfl (by simp) (by simp) (by simp) (by simp)

theorem honest_node (lawful : realm.Lawful) (id : NodeId) : realm.Honest [id] (Render.node id) := by
  intro world container front rest plot slack sound site shows admits
  have wanted : id ∈ [id] := List.mem_singleton.2 rfl
  obtain ⟨guest, name, attributes, kind⟩ := admits id wanted
  unfold Render.node
  split
  · rename_i same
    have idle := site.idle lawful sound
    have keeps : ∀ inner owned, inner = plot.inner → owned = plot.owned →
        realm.Shows world (slack.after [id]) (.node id) inner owned →
        realm.Done world world container front rest plot slack [id] (.node id) [] inner owned := by
      rintro inner owned rfl rfl shows
      exact ⟨idle.forget rfl rfl rfl site.owned_nodup site.inside (fun _ member => member), by simp, shows,
        fun _ => nofun, nofun⟩
    simp only [leads_pure]
    refine ⟨world.kept, [], plot.inner, plot.owned, keeps _ _ rfl rfl ?_⟩
    rcases shows.of_node same with ⟨inner, owned, solid⟩ | ⟨inner, owned, gone⟩
    · rw [inner, owned]
      exact .guest guest wanted solid
    · rw [inner, owned]
      exact .absent guest wanted (.inl gone)
  · have hosted := site.host_leads lawful sound guest (by simp [kind])
    simp only [leads_bind, leads_pure] at hosted ⊢
    refine hosted.mono (fun _ scene rest => rest.mono (fun _ last outcome => ?_) fun _ _ none => none.elim)
      fun _ _ none => none.elim
    refine ⟨world.kept, [id], [id], [id], outcome.forget rfl rfl rfl (by simp) (by simp) (by simp),
      by simp, .guest guest wanted ?_, fun _ => nofun, nofun⟩
    simp only [Tree.isText, outcome.change.guest_kind id guest, kind]
    rfl

theorem honest_text (lawful : realm.Lawful) (data : String) : realm.Honest [] (Render.text data) := by
  intro world container front rest plot slack sound site shows admits
  unfold Render.text
  split
  · rename_i same
    obtain ⟨id, kind, own, free, leaf, inner, owned⟩ := shows.of_text same
    have idle := site.idle lawful sound
    simp only [leads_pure]
    refine ⟨world.kept, [], plot.inner, plot.owned, idle.forget rfl rfl rfl site.owned_nodup site.inside
      (fun _ member => member), by simp, ?_, fun _ _ => rfl, List.forall_mem_nil _⟩
    rw [inner, owned]
    exact .text kind own free leaf
  · simp only [leads_bind, site.loneText_leads sound]
    split
    · rename_i id lone
      obtain ⟨only, text⟩ : plot.inner = [id] ∧ world.tree.isText id = true := by
        split at lone
        · rename_i only
          split at lone
          · cases lone
            exact ⟨only, ‹_›⟩
          · cases lone
        · cases lone
      obtain ⟨own, leaf⟩ := shows.lone only text fun leafy =>
        ⟨(lawful.leaves leafy).1, fun _ _ => (lawful.leaves leafy).2 _ _ _ sound.holds⟩
      have noted := site.noted lawful sound fun id => (by simp : Event.textUpdated ≠ .kept id)
      have inside : id ∈ plot.owned := site.inside id (only ▸ List.mem_singleton.2 rfl)
      have altered := noted.site.altered lawful noted.change.sound data inside own text
      simp only [leads_bind, leads_note, leads_edit, leads_pure, Scene.add, setText_eq text]
      have outcome := noted.trans sound altered (fun id kept free => absurd kept.1 free) fun id kept => .inl (sound.answered id kept)
      refine ⟨_, _, [id], [id], outcome.forget rfl rfl only.symm (by simp) (by simp) (by simpa using inside),
        by simp, ?_, fun _ _ => only.symm, List.forall_mem_nil _⟩
      exact .text ((Tree.kindOf_setKind (site.present id inside)).trans (if_pos rfl)) own (fun kept => kept.2 rfl)
        fun leafy => (Tree.childrenOf_setKind ..).trans (leaf leafy)
    · rename_i lone
      simp only [leads_bind, leads_create, leads_pure]
      have created := site.created lawful sound (.text data)
        (by simp [Kind.attributeNames])
      refine (created.site.removeContent_leads lawful created.change.sound).mono
        (fun _ scene result => ?_) (fun _ _ => False.elim)
      obtain ⟨same, cleared⟩ := result
      have sofar := created.trans sound cleared (fun id kept free => absurd kept free) fun _ => .inr
      have outside : world.tree.size ∉ plot.inner := fun member =>
        Nat.lt_irrefl _ (site.present _ (site.inside _ member))
      have alone : scene.tree.parentOf world.tree.size = none := by
        rw [same, Tree.parentOf_detachAll, if_neg outside, Tree.parentOf_create]
        exact Tree.parentOf_of_size_le (Nat.le_refl _)
      have kind : scene.tree.kindOf world.tree.size = some (.text data) := by
        rw [same, Tree.kindOf_detachAll, Tree.kindOf_create, if_pos rfl]
      refine (sofar.site.insertContent_alone lawful sofar.change.sound (by simp) alone
        (by simp [kind])).mono (fun _ last result => ?_) (fun _ _ => False.elim)
      obtain ⟨inserted, placed⟩ := result
      have leaf : last.tree.childrenOf world.tree.size = [] := by
        have other : world.tree.size ≠ container := Nat.ne_of_gt (site.container_exists sound)
        have bare : scene.tree.childrenOf world.tree.size = [] := by
          rw [same, Tree.childrenOf_detachAll created.change.sound.wellFormed, Tree.childrenOf_create,
            Tree.childrenOf_of_size_le (Nat.le_refl _), List.filter_nil]
        rw [inserted.childrenOf, if_neg other]
        exact congrArg (List.filter _) bare
      have outcome := sofar.trans sound placed (fun id kept free => absurd kept free) fun _ => .inr
      refine ⟨world.kept, [], [world.tree.size], [world.tree.size], outcome.forget rfl rfl rfl (by simp)
        (by simp) (by simp), by simp, ?_, fun text _ => ?_, List.forall_mem_nil _⟩
      · exact .text ((inserted.kindOf _).trans kind)
          (fun guest => Nat.lt_irrefl _ (sound.guest_exists _ guest))
          (fun kept => Nat.lt_irrefl _ (sound.kept_exists _ kept)) fun _ => leaf
      · obtain ⟨old, text⟩ := Option.isSome_iff_exists.1 text
        obtain ⟨id, kind, -, -, -, inner, -⟩ := shows.of_text text
        simp [inner, Tree.isText, kind, Kind.isText] at lone

end Realm

end DomParts.Layout
