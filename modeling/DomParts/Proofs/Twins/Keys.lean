import DomParts.Proofs.Keyed.Listing
import DomParts.Proofs.Twins.Removal

/-! # Lists by key and their twins

Two lists by key go through the same plan, action by action, as long as the keys are the same.
-/

namespace DomParts

open Keyed Layout RenderM

variable {σ : Type} {scene scene' : Scene σ}

section Lists

variable {α β : Type} {related : α → β → Prop} {ones : List α} {twos : List β}

/-- What is at the same place of related lists is related, unless the place is behind their ends. -/
theorem same_place (each : List.Forall₂ related ones twos) (index : Nat) : (ones[index]? = none ∧ twos[index]? = none) ∨
    ∃ one two, ones[index]? = some one ∧ twos[index]? = some two ∧ related one two := by
  induction each generalizing index with
  | nil => exact .inl ⟨rfl, rfl⟩
  | cons first _ ih =>
      cases index with
      | zero => exact .inr ⟨_, _, rfl, rfl, first⟩
      | succ index => exact ih index

theorem exists_twin (each : List.Forall₂ related ones twos) {index : Nat} {one : α} (found : ones[index]? = some one) :
    ∃ two, twos[index]? = some two ∧ related one two := by
  rcases same_place each index with ⟨none, -⟩ | ⟨one', two, found', here, same⟩
  · cases none.symm.trans found
  · cases found'.symm.trans found
    exact ⟨two, here, same⟩

theorem forall₂_set (each : List.Forall₂ related ones twos) (index : Nat) {one : α} {two : β} (here : related one two) :
    List.Forall₂ related (ones.set index one) (twos.set index two) := by
  induction each generalizing index with
  | nil => exact .nil
  | cons first rest ih =>
      cases index with
      | zero => exact .cons here rest
      | succ index => exact .cons first (ih index)

end Lists

namespace Keyed.Pass

/-- What two passes have achieved looks the same. -/
def Twin (pass other : Pass) : Prop := List.Forall₂ (Option.Rel NodePart.Twin) pass.placed other.placed

variable {pass other : Pass} {part part' : NodePart}

theorem Twin.place (twin : pass.Twin other) (index : Nat) (here : part.Twin part') :
    (pass.place index part).Twin (other.place index part') := forall₂_set twin index (.some here)

theorem Twin.count (twin : pass.Twin other) (change change' : Stats → Stats) :
    (pass.count change).Twin (other.count change') := twin

theorem Twin.parts (twin : pass.Twin other) : List.Forall₂ NodePart.Twin pass.parts other.parts :=
  List.rel_filterMap (fun _ _ same => same) twin

theorem Twin.start (count : Nat) : (Pass.start count).Twin (.start count) := by
  unfold Twin Pass.start
  induction count with
  | zero => exact .nil
  | succ count ih => exact .cons .none ih

end Keyed.Pass

theorem NodePart.blind_moveBefore (part : NodePart) (container before : NodeId) :
    (part.moveBefore container before : RenderM σ Bool).Blind := (Habit.oblivious.moveBefore container before).blind

theorem NodePart.blind_remove (client : Client σ) (part : NodePart) (container : NodeId) :
    (part.remove client container).Blind := (NodePart.oblivious_remove client part container).blind

namespace Layout.Task

variable {task : Task σ} {olds : List Plot} {others : List NodePart} {items : List (Rendering σ)} {pass pass' : Pass}
  {o n : Nat} {anchor : Anchor}

section Actions

variable (twins : List.Forall₂ NodePart.Twin (olds.map Plot.part) others)
  (paired : List.Forall₂ task.realm.Paired task.items items) (twin : pass.Twin pass') (same : scene.Same scene')
include twins twin

theorem nodeAt_eq (anchor : Anchor) :
    (task.beside others items).nodeAt pass' anchor = (task.setting olds).nodeAt pass anchor := by
  cases anchor with
  | beforeOld index =>
      rcases same_place twins index with ⟨none, none'⟩ | ⟨part, part', found, found', same⟩
      · simp only [Setting.nodeAt, setting, none, none', Option.map_none]
      · simp only [Setting.nodeAt, setting, found, found', Option.map_some, same.start]
  | beforeNew index =>
      rcases same_place twin index with ⟨none, none'⟩ | ⟨slot, slot', found, found', same⟩
      · simp only [Setting.nodeAt, none, none', Option.join_none, Option.map_none, setting]
      · cases same with
        | none => simp only [Setting.nodeAt, found, found', Option.join_some, Option.map_none, setting]
        | some same => simp only [Setting.nodeAt, found, found', Option.join_some, Option.map_some, same.start, setting]
  | atEnd => rfl

include paired same

variable {plot : Plot} {item : Rendering σ}

theorem keep_mirrors (found : olds[o]? = some plot) (wanted : task.items[n]? = some item)
    (ready : task.realm.Ready scene plot.part item.value.leaves) :
    ((task.setting olds).keep pass o n).Mirrors ((task.beside others items).keep pass' o n) scene scene' Pass.Twin := by
  have here : (task.setting olds).old[o]? = some plot.part := by simp [setting, found]
  have asked : (task.setting olds).items[n]? = some item := wanted
  obtain ⟨part, here', like⟩ := exists_twin twins here
  obtain ⟨item', asked', pair⟩ := exists_twin paired wanted
  simp only [Setting.keep, here, asked, here', asked']
  refine (pair.renderWith ready like same).andThen fun _ _ _ _ same shown => mirrors_pure same ?_
  exact (twin.place n shown).count _ _

theorem bring_mirrors (anchor : Anchor) (found : olds[o]? = some plot) (wanted : task.items[n]? = some item)
    (ready : task.realm.Ready scene plot.part item.value.leaves) :
    ((task.setting olds).bring pass o n anchor).Mirrors ((task.beside others items).bring pass' o n anchor) scene scene'
      Pass.Twin := by
  have here : (task.setting olds).old[o]? = some plot.part := by simp [setting, found]
  have asked : (task.setting olds).items[n]? = some item := wanted
  obtain ⟨part, here', like⟩ := exists_twin twins here
  obtain ⟨item', asked', pair⟩ := exists_twin paired wanted
  simp only [Setting.bring, here, asked, here', asked', nodeAt_eq twins twin]
  refine (pair.renderWith ready like same).andThen fun shown shown' after last same like => ?_
  rw [like.moveBefore_eq]
  refine (NodePart.blind_moveBefore _ _ _ _ _ same).andThen fun _ _ _ _ same _ => mirrors_pure same ?_
  exact (twin.place n like).count _ _

theorem create_mirrors (anchor : Anchor) (wanted : task.items[n]? = some item)
    (made : (NodePart.insertInto task.container (some ((task.setting olds).nodeAt pass anchor))).Leads scene
      (fun part after => part.content = .empty ∧ task.realm.Ready after part item.value.leaves) fun _ _ => False) :
    ((task.setting olds).create pass n anchor).Mirrors ((task.beside others items).create pass' n anchor) scene scene'
      Pass.Twin := by
  have asked : (task.setting olds).items[n]? = some item := wanted
  obtain ⟨item', asked', pair⟩ := exists_twin paired wanted
  simp only [Setting.create, asked, asked', nodeAt_eq twins twin]
  refine (NodePart.blind_insertInto _ _ _ _ same).bind made ?_
  rintro part _ after last same ⟨empty, ready⟩ rfl
  refine (pair.renderWith ready (.of_empty empty) same).andThen fun _ _ _ _ same shown => mirrors_pure same ?_
  exact (twin.place n shown).count _ _

omit paired in
theorem remove_mirrors (found : olds[o]? = some plot) :
    ((task.setting olds).remove pass o).Mirrors ((task.beside others items).remove pass' o) scene scene' Pass.Twin := by
  have here : (task.setting olds).old[o]? = some plot.part := by simp [setting, found]
  obtain ⟨part, here', like⟩ := exists_twin twins here
  simp only [Setting.remove, here, here', like.remove_eq]
  exact (NodePart.blind_remove _ _ _ _ _ same).andThen fun _ _ _ _ same _ => mirrors_pure same (twin.count _ _)

end Actions

section Route

variable {oldKeys newKeys : List Key} {careful : Prop} {old new before after : Window} {first last entry : Entry}
  {actions : List Action} {gone : List (NodeId × Removal)} (lawful : task.realm.Lawful)
  (admits : task.realm.Admits task.start.tree (leavesIn task.items))
include lawful admits

/-- An old part that is not settled is ready for any item that is missing. -/
theorem Settles.ready (rule : Rule) (member : first ∈ new) (before : Window)
    (settles : task.Settles olds oldKeys newKeys careful (before ++ entry :: after) new pass gone scene) :
    ∃ plot item, olds[entry.index]? = some plot ∧ task.items[first.index]? = some item ∧
      task.realm.Ready (scene.add (.settling rule)) plot.part item.value.leaves := by
  obtain ⟨heads, waiting, tails, settling⟩ := settles
  have noted := settling.noted lawful fun id => (nofun : Event.settling rule ≠ .kept id)
  obtain ⟨left, plot, right, rfl, found, -, -⟩ := Settling.split before noted.waits
  obtain ⟨item, wanted⟩ := settling.exists_item member
  have board : task.Board (scene.add (.settling rule)) ((heads ++ left) ++ .ofPlot plot :: (right ++ tails)) gone := by
    simpa using noted.board
  exact ⟨plot, item, found, wanted, board.ready rfl (admits.of_mem item (List.mem_of_getElem? wanted))⟩

/-- So is a part that is made for the first missing item, in front of the old ones or at the end. -/
theorem Settles.made (rule : Rule) {anchor : Anchor}
    (place : (∃ entry rest, old = entry :: rest ∧ anchor = .beforeOld entry.index) ∨
      old = [] ∧ ∃ last, (first :: new).getLast? = some last ∧ anchor = .behind task.items.length last)
    (settles : task.Settles olds oldKeys newKeys careful old (first :: new) pass gone scene) :
    ∃ item, task.items[first.index]? = some item ∧
      (NodePart.insertInto task.container (some ((task.setting olds).nodeAt pass anchor))).Leads
        (scene.add (.settling rule))
        (fun part after => part.content = .empty ∧ task.realm.Ready after part item.value.leaves) fun _ _ => False := by
  obtain ⟨heads, waiting, tails, settling⟩ := settles
  have noted := settling.noted lawful fun id => (nofun : Event.settling rule ≠ .kept id)
  obtain ⟨item, wanted⟩ := settling.exists_item (List.mem_cons_self ..)
  have behind : (task.setting olds).nodeAt pass anchor = Card.anchorOf task.whole.part.stop (waiting ++ tails) := by
    rcases place with ⟨entry, rest, rfl, rfl⟩ | ⟨rfl, last, ends, rfl⟩
    · obtain ⟨left, plot, right, rfl, found, ahead, -⟩ := Settling.split [] noted.waits
      obtain rfl : left = [] := by simpa using ahead
      exact Settling.nodeAt_beforeOld found
    · obtain rfl : waiting = [] := by simpa using noted.waits
      exact noted.holds.behind (task.setting olds) ends
  refine ⟨item, wanted, ?_⟩
  rw [behind]
  refine (noted.board.insert lawful).mono ?_ fun _ _ none => none
  rintro part after ⟨rfl, board⟩
  exact ⟨rfl, board.ready rfl (admits.of_mem item (List.mem_of_getElem? wanted))⟩

omit lawful admits in
/-- The first of several actions is performed in lockstep, and so are the others whatever it leads to. -/
theorem performAll_cons_mirrors {action : Action} (others : List NodePart) (items : List (Rendering σ))
    (rest : ∀ {scene scene' : Scene σ} {pass pass' : Pass} {gone : List (NodeId × Removal)},
      task.Settles olds oldKeys newKeys careful old new pass gone scene → pass.Twin pass' → scene.Same scene' →
        ((task.setting olds).performAll pass actions).Mirrors ((task.beside others items).performAll pass' actions)
          scene scene' Pass.Twin)
    (mirrors : ((task.setting olds).perform pass action).Mirrors ((task.beside others items).perform pass' action)
      scene scene' Pass.Twin)
    (leads : ((task.setting olds).perform pass action).Leads scene
      (fun next scene => (∃ gone, task.Settles olds oldKeys newKeys careful old new next gone scene) ∧
        Advances pass next [action])
      (fun _ scene => task.Broken scene)) :
    ((task.setting olds).performAll pass (action :: actions)).Mirrors
      ((task.beside others items).performAll pass' (action :: actions)) scene scene' Pass.Twin :=
  mirrors.bind leads fun _ _ _ _ same settles twin => rest settles.1.choose_spec twin same

theorem route_mirrors (tolerant : task.tolerant)
    (twins : List.Forall₂ NodePart.Twin (olds.map Plot.part) others)
    (paired : List.Forall₂ task.realm.Paired task.items items) (route : Route careful task.items.length old new actions)
    (settles : task.Settles olds oldKeys newKeys careful old new pass gone scene) (twin : pass.Twin pass')
    (same : scene.Same scene') : ((task.setting olds).performAll pass actions).Mirrors
      ((task.beside others items).performAll pass' actions) scene scene' Pass.Twin := by
  have honest := Realm.Paired.all_honest paired
  have settled : ∀ {action : Action} {less fewer : Window} {scene : Scene σ} {pass : Pass}
      {gone : List (NodeId × Removal)}, ((task.setting olds).perform pass action).Leads scene
        (fun next scene => task.Settles olds oldKeys newKeys careful less fewer next gone scene ∧
          Advances pass next [action])
        (fun _ scene => task.Broken scene) →
      ((task.setting olds).perform pass action).Leads scene
        (fun next scene => (∃ gone, task.Settles olds oldKeys newKeys careful less fewer next gone scene) ∧
          Advances pass next [action])
        (fun _ scene => task.Broken scene) := by
    intro action less fewer scene pass gone leads
    exact leads.imp fun _ _ done => ⟨⟨gone, done.1⟩, done.2⟩
  induction route generalizing scene scene' pass pass' gone with
  | done => exact mirrors_pure same twin
  | keepFirst rule key _ ih =>
      obtain ⟨plot, item, found, wanted, ready⟩ := settles.ready lawful admits rule (List.mem_cons_self ..) []
      refine performAll_cons_mirrors others items ih ?_
        (settled (Settling.perform_keepFirst lawful honest admits rule key settles))
      simp only [Setting.perform, mirrors_note_left, mirrors_note_right]
      exact keep_mirrors twins paired twin (same.add _ _) found wanted ready
  | @keepLast _ _ old _ _ rule key _ ih =>
      obtain ⟨plot, item, found, wanted, ready⟩ := settles.ready lawful admits rule List.mem_concat_self old
      refine performAll_cons_mirrors others items ih ?_
        (settled (Settling.perform_keepLast lawful honest admits rule key settles))
      simp only [Setting.perform, mirrors_note_left, mirrors_note_right]
      exact keep_mirrors twins paired twin (same.add _ _) found wanted ready
  | bringLast rule key more _ ih =>
      obtain ⟨plot, item, found, wanted, ready⟩ := settles.ready lawful admits rule List.mem_concat_self []
      refine performAll_cons_mirrors others items ih ?_
        (settled (Settling.perform_bringLast lawful honest admits rule key more settles))
      simp only [Setting.perform, mirrors_note_left, mirrors_note_right]
      exact bring_mirrors twins paired twin (same.add _ _) _ found wanted ready
  | @bringFirst ahead _ _ before _ _ _ rule key _ ih =>
      obtain ⟨plot, item, found, wanted, ready⟩ :=
        settles.ready lawful admits rule (List.mem_cons_self ..) (ahead :: before)
      refine performAll_cons_mirrors others items ih ?_
        (settled (Settling.perform_bringFirst lawful honest admits rule key settles))
      simp only [Setting.perform, mirrors_note_left, mirrors_note_right]
      exact bring_mirrors twins paired twin (same.add _ _) _ found wanted ready
  | createFirst rule fresh _ ih =>
      obtain ⟨item, wanted, made⟩ := settles.made lawful admits rule (.inl ⟨_, _, rfl, rfl⟩)
      refine performAll_cons_mirrors others items ih ?_
        (settled (Settling.perform_createFirst lawful honest admits rule fresh settles))
      simp only [Setting.perform, mirrors_note_left, mirrors_note_right]
      exact create_mirrors twins paired twin (same.add _ _) _ wanted made
  | createLast rule ends _ ih =>
      obtain ⟨item, wanted, made⟩ := settles.made lawful admits rule (.inr ⟨rfl, _, ends, rfl⟩)
      refine performAll_cons_mirrors others items ih ?_
        (settled (Settling.perform_createLast lawful honest admits rule ends settles))
      simp only [Setting.perform, mirrors_note_left, mirrors_note_right]
      exact create_mirrors twins paired twin (same.add _ _) _ wanted made
  | @remove _ before _ _ _ rule unwanted _ ih =>
      have step := Settling.perform_remove lawful rule tolerant unwanted settles
      refine performAll_cons_mirrors others items ih ?_
        (step.imp fun _ _ done => ⟨⟨_, done.1.choose_spec.2⟩, done.2⟩)
      obtain ⟨heads, waiting, tails, settling⟩ := settles
      obtain ⟨left, plot, right, -, found, -, -⟩ := Settling.split before settling.waits
      simp only [Setting.perform, mirrors_note_left, mirrors_note_right]
      exact remove_mirrors twins twin (same.add _ _) found
  | index newCount oldCount duplicates _ ih =>
      refine performAll_cons_mirrors others items ih ?_
        (settled (Settling.perform_index lawful newCount oldCount duplicates settles))
      by_cases some : duplicates > 0
      · simp only [Setting.perform, some, if_true, mirrors_note_left, mirrors_note_right]
        exact mirrors_pure ((same.add _ _).add _ _) twin
      · simp only [Setting.perform, some, if_false, mirrors_note_left, mirrors_note_right]
        exact mirrors_pure (same.add _ _) twin

end Route

section Keyed

variable {keyed keyed' : List (Key × Rendering σ)} {other : NodePart} {oldKeys newKeys : List Key}
  {parts olds' : List NodePart} {stats stats' : Stats} (lawful : task.realm.Lawful) (tolerant : task.tolerant)
  (admits : task.realm.Admits task.start.tree (leavesIn task.items))
include lawful tolerant admits

theorem carries_mirrors (paired : List.Forall₂ task.realm.Paired task.items items)
    (board : task.Board scene (olds.map Card.ofPlot) []) (length : oldKeys.length = olds.length)
    (present : ∀ plot ∈ olds, task.start.tree.size > plot.part.start)
    (count : newKeys.length = task.items.length) (named : ∀ key ∈ newKeys, ∀ position, key ≠ .index position)
    (twins : List.Forall₂ NodePart.Twin (olds.map Plot.part) others)
    (placed : pass'.placed = List.replicate newKeys.length none) (same : scene.Same scene') :
    (Render.carryOut (task.setting olds) newKeys (plan oldKeys newKeys)).Mirrors (do
      let pass ← (task.beside others items).performAll pass' (plan oldKeys newKeys)
      note (.passDone pass.stats)
      return .keyed newKeys pass.parts pass.stats : RenderM σ Content) scene scene' Content.Twin := by
  have route := Route.plan oldKeys newKeys False.elim
  have settles : task.Settles olds oldKeys newKeys False _ _ _ _ scene := .begin length False.elim present count board
  have begun : (Pass.start task.items.length).Twin pass' := by
    rw [Pass.Twin, placed, count]
    exact Pass.Twin.start _
  rw [count] at route
  rw [Render.carryOut, count]
  refine (route_mirrors lawful admits tolerant twins paired route settles begun same).andThen ?_
  intro pass pass' after last same twin
  rw [mirrors_note_left, mirrors_note_right]
  exact mirrors_pure (same.add _ _) (.keyed named twin.parts)

variable (items_eq : task.items = keyed.map (·.2)) (keys_eq : keyed'.map (·.1) = keyed.map (·.1))
  (named : ∀ key ∈ keyed.map (·.1), ∀ position, key ≠ .index position)
  (paired : List.Forall₂ task.realm.Paired task.items (keyed'.map (·.2))) (twin : task.whole.part.Twin other)
include items_eq named paired

/-- The items of a list by key are shown in lockstep, given the plots shown before. -/
theorem keyedFrom_mirrors (board : task.Board scene (olds.map Card.ofPlot) [])
    (length : oldKeys.length = olds.length) (present : ∀ plot ∈ olds, task.start.tree.size > plot.part.start)
    (twins : List.Forall₂ NodePart.Twin (olds.map Plot.part) others)
    (placed : pass'.placed = List.replicate (keyed.map (·.1)).length none) (same : scene.Same scene') :
    (Render.keyedFrom task.realm.client keyed task.whole.part oldKeys (olds.map Plot.part)).Mirrors (do
      let pass ← (task.beside others (keyed'.map (·.2))).performAll pass' (plan oldKeys (keyed.map (·.1)))
      note (.passDone pass.stats)
      return .keyed (keyed.map (·.1)) pass.parts pass.stats : RenderM σ Content) scene scene' Content.Twin := by
  obtain ⟨noted, marked, leads⟩ := @Render.keyedFrom_leads _ scene task.realm.client keyed task.whole.part oldKeys
    (olds.map Plot.part) task.container board.parentOf_start
  have board : task.Board noted (olds.map Card.ofPlot) [] := by
    rcases marked with rfl | ⟨event, other, rfl⟩
    · exact board
    · exact board.noted lawful other
  have count : (keyed.map (·.1)).length = task.items.length := by rw [items_eq, List.length_map, List.length_map]
  rw [mirrors_congr_left leads, ← items_eq]
  exact carries_mirrors lawful tolerant admits paired board length present count named twins placed
    (marked.same.symm.trans same)

include keys_eq twin

theorem keyedFrom_twice (board : task.Board scene (olds.map Card.ofPlot) [])
    (length : oldKeys.length = olds.length) (present : ∀ plot ∈ olds, task.start.tree.size > plot.part.start)
    (twins : List.Forall₂ NodePart.Twin (olds.map Plot.part) others) (same : scene.Same scene') :
    (Render.keyedFrom task.realm.client keyed task.whole.part oldKeys (olds.map Plot.part)).Mirrors
      (Render.keyedFrom task.realm.client keyed' other oldKeys others) scene scene' Content.Twin := by
  obtain ⟨noted, marked, leads⟩ := @Render.keyedFrom_leads _ scene' task.realm.client keyed' other oldKeys others
    task.container (by rw [twin.start, same.tree, board.parentOf_start])
  have works := keyedFrom_mirrors lawful tolerant admits items_eq named paired board length present twins
    (by simp [Pass.start] : (Pass.start (keyed.map (·.1)).length).placed = _) (same.trans marked.same)
  rw [mirrors_congr_right leads, keys_eq, Render.carryOut, twin.stop]
  exact works

variable (sound : task.realm.Sound task.start)
  (site : task.realm.Site task.start task.container task.front task.rest task.whole)
  (same : task.start.scene.Same scene')
include sound site same

theorem keyed_over_keyed (shows : task.Shown task.start task.slack task.whole)
    (content : task.whole.part.content = .keyed oldKeys parts stats)
    (content' : other.content = .keyed oldKeys olds' stats') (each : List.Forall₂ NodePart.Twin parts olds') :
    (Render.keyed task.realm.client keyed task.whole.part).Mirrors (Render.keyed task.realm.client keyed' other)
      task.start.scene scene' Content.Twin := by
  obtain ⟨blocks, arranged, inner, owned, shown, strays, complete⟩ := shows.of_row (.inr ⟨_, _, _, content⟩)
  rw [content] at arranged
  obtain ⟨parts_eq, length⟩ := arranged
  rw [parts_eq_plotsOf] at parts_eq
  have board := Board.ofFilling (.ofRow sound site inner owned shown strays complete fun _ _ => tolerant)
  have count : oldKeys.length = (plotsOf blocks).length := by rw [length, ← parts_eq, List.length_map]
  rw [Render.keyed_of_keyed content, Render.keyed_of_keyed content', ← parts_eq]
  exact keyedFrom_twice lawful tolerant admits items_eq keys_eq named paired twin board count
    (fun plot member => Tree.lt_size_of_kindOf (shown plot (mem_plotsOf.1 member)).1.start) (parts_eq ▸ each) same

theorem keyed_over_other (notKeyed : ∀ keys parts stats, task.whole.part.content ≠ .keyed keys parts stats)
    (notKeyed' : ∀ keys parts stats, other.content ≠ .keyed keys parts stats) :
    (Render.keyed task.realm.client keyed task.whole.part).Mirrors (Render.keyed task.realm.client keyed' other)
      task.start.scene scene' Content.Twin := by
  rw [Render.keyed_of_other notKeyed, Render.keyed_of_other notKeyed', twin.removeContent_eq]
  refine (task.whole.part.blind_removeContent _ _ same).bind (removeContent_leads lawful sound site) ?_
  rintro _ _ after last same ⟨-, board⟩ -
  exact @keyedFrom_twice σ after last task [] [] _ _ _ [] lawful tolerant admits items_eq keys_eq named paired twin
    board rfl nofun .nil same

theorem keyed_over_list (bare : task.realm.bare) (shows : task.Shown task.start task.slack task.whole)
    (content : task.whole.part.content = .list parts)
    (content' : other.content = .keyed (positions 0 olds'.length) olds' stats')
    (each : List.Forall₂ NodePart.Twin parts olds') :
    (Render.keyed task.realm.client keyed task.whole.part).Mirrors (Render.keyed task.realm.client keyed' other)
      task.start.scene scene' Content.Twin := by
  rw [Render.keyed_of_other (by simp [content])]
  have each' : List.Forall₂ NodePart.Twin task.whole.part.content.items olds' := by rwa [content]
  refine replace_mirrors lawful bare sound site twin same shows (.inl ⟨_, content⟩) content' (by simp) each' ?_ ?_
  · rw [keys_eq]
    intro key member again
    obtain ⟨position, -, rfl⟩ := List.mem_map.1 member
    exact named _ again position rfl
  · intro pass after last board same placed
    rw [keys_eq] at placed ⊢
    have planned : plan [] (keyed.map (·.1)) =
        (List.range' 0 (keyed.map (·.1)).length).map fun index => .create .insert index .atEnd := by
      have creates := insertAll_numbered 0 (keyed.map (·.1))
      rw [Nat.zero_add] at creates
      rw [← creates]
      exact planWindows_nil_old
    rw [← planned]
    exact @keyedFrom_mirrors σ after last task [] [] pass _ _ [] lawful tolerant admits items_eq named paired board
      rfl nofun .nil placed same

end Keyed

end Layout.Task

/-- A list by key is shown in lockstep with the same list if its items are. -/
theorem Layout.Realm.twins_keyed {realm : Realm σ} {items others : List (Key × Rendering σ)} (lawful : realm.Lawful)
    (bare : realm.bare) (keys : others.map (·.1) = items.map (·.1))
    (named : ∀ key ∈ items.map (·.1), ∀ position, key ≠ .index position)
    (paired : List.Forall₂ realm.Paired (items.map (·.2)) (others.map (·.2))) :
    realm.Twins (leavesIn (items.map (·.2))) (Render.keyed realm.client items) (Render.keyed realm.client others) := by
  rintro scene scene' _ other ⟨kept, container, front, rest, plot, slack, rfl, sound, placed, admits⟩ twin same
  rcases twin.content.rows with ⟨parts, olds, stats, content, content', each⟩ |
    ⟨oldKeys, parts, olds, stats, stats', content, content', -, each⟩ | ⟨-, notKeyed, notKeyed'⟩
  · exact @Task.keyed_over_list σ _ ⟨realm, ⟨scene, kept⟩, container, front, rest, plot, slack, items.map (·.2), True⟩
      _ _ _ _ _ _ lawful trivial admits rfl keys named paired twin sound placed.site same bare placed.shows content
      content' each
  · exact @Task.keyed_over_keyed σ _ ⟨realm, ⟨scene, kept⟩, container, front, rest, plot, slack, items.map (·.2), True⟩
      _ _ _ _ _ _ _ _ lawful trivial admits rfl keys named paired twin sound placed.site same placed.shows content
      content' each
  · exact @Task.keyed_over_other σ _ ⟨realm, ⟨scene, kept⟩, container, front, rest, plot, slack, items.map (·.2), True⟩
      _ _ _ lawful trivial admits rfl keys named paired twin sound placed.site same notKeyed notKeyed'

end DomParts
