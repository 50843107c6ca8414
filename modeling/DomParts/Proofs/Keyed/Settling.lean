import DomParts.Proofs.Keyed.Pass
import DomParts.Proofs.Layout.Listing

/-! # Carrying out a plan

Every action of a route takes a pass from one state to the next: the first stretch and the last one grow,
and the old plots between them become fewer.
-/

namespace DomParts.Layout

open Keyed RenderM

variable {σ : Type}

namespace Task

def setting (task : Task σ) (olds : List Plot) : Setting σ :=
  ⟨task.realm.client, task.container, task.whole.part.stop, olds.map Plot.part, task.items⟩

/-- A keyed pass in the middle of its work. -/
structure Settling (task : Task σ) (olds : List Plot) (oldKeys newKeys : List Key) (careful : Prop)
    (scene : Scene σ) (old new : Window) (pass : Pass) (heads waiting tails : List Card)
    (gone : List (NodeId × Removal)) : Prop where
  board : task.Board scene (heads ++ (waiting ++ tails)) gone
  waits : waiting.map some = old.map fun entry => olds[entry.index]?.map Card.ofPlot
  holds : Holds task.items.length new pass heads tails
  traced : Traced task.start.tree.size olds oldKeys newKeys careful old heads tails gone
  balanced : Balanced newKeys careful old new
  present : ∀ plot ∈ olds, task.start.tree.size > plot.part.start
  moves : pass.stats.moved ≤ pass.stats.updated
  news : pass.stats.created = heads.countP fun card => task.start.tree.size ≤ card.was.part.start

/-- How many items were updated, moved, created and removed since. -/
structure Advances (pass next : Pass) (actions : List Action) : Prop where
  updated : next.stats.updated = pass.stats.updated + actions.countP Action.updates
  moved : next.stats.moved = pass.stats.moved + actions.countP Action.brings
  created : next.stats.created = pass.stats.created + actions.countP Action.creates
  removed : next.stats.removed = pass.stats.removed + actions.countP Action.removes

namespace Advances

variable {pass next last : Pass} {action : Action} {actions : List Action}

theorem refl (pass : Pass) : Advances pass pass [] := ⟨rfl, rfl, rfl, rfl⟩

theorem trans (one : Advances pass next [action]) (rest : Advances next last actions) :
    Advances pass last (action :: actions) where
  updated := by
    rw [rest.updated, one.updated, Nat.add_assoc, ← List.countP_append, List.singleton_append]
  moved := by
    rw [rest.moved, one.moved, Nat.add_assoc, ← List.countP_append, List.singleton_append]
  created := by
    rw [rest.created, one.created, Nat.add_assoc, ← List.countP_append, List.singleton_append]
  removed := by
    rw [rest.removed, one.removed, Nat.add_assoc, ← List.countP_append, List.singleton_append]

end Advances

/-- Some state of a pass with these windows, given what became of nodes. -/
def Settles (task : Task σ) (olds : List Plot) (oldKeys newKeys : List Key) (careful : Prop)
    (old new : Window) (pass : Pass) (gone : List (NodeId × Removal)) (scene : Scene σ) : Prop :=
  ∃ heads waiting tails,
    task.Settling olds oldKeys newKeys careful scene old new pass heads waiting tails gone

/-- What became of the nodes of an old plot that left the list. If no guests come, it left as it was. -/
def Leaves (task : Task σ) (olds : List Plot) (index : Nat) (fates : List (NodeId × Removal)) : Prop :=
  ∃ old plot, olds[index]? = some old ∧ plot.part = old.part ∧ (leavesIn task.items = [] → plot = old) ∧
    Fates task.realm.guest plot fates

/-- The actions settled all but these windows, and what goes along with them holds of what is gone. -/
def SettledAlong (task : Task σ) (olds : List Plot) (oldKeys newKeys : List Key) (careful : Prop)
    (along : List (NodeId × Removal) → Scene σ → Prop) (pass : Pass) (actions : List Action) (old new : Window)
    (next : Pass) (scene : Scene σ) : Prop :=
  (∃ gone, task.Settles olds oldKeys newKeys careful old new next gone scene ∧ along gone scene) ∧
    Advances pass next actions

namespace Settling

variable {task : Task σ} {olds : List Plot} {oldKeys newKeys : List Key} {careful : Prop} {scene : Scene σ}
  {old new before after : Window} {pass : Pass} {heads waiting tails : List Card} {gone : List (NodeId × Removal)}
  {o n first last : Entry}

theorem split (before : Window) (waits : waiting.map some =
      (before ++ o :: after).map fun entry => olds[entry.index]?.map Card.ofPlot) :
    ∃ left plot right, waiting = left ++ .ofPlot plot :: right ∧ olds[o.index]? = some plot ∧
      left.map some = (before.map fun entry => olds[entry.index]?.map Card.ofPlot) ∧
      right.map some = (after.map fun entry => olds[entry.index]?.map Card.ofPlot) := by
  rw [List.map_append, List.map_cons] at waits
  obtain ⟨left, more, rfl, ahead, rest⟩ := List.map_eq_append_iff.1 waits
  obtain ⟨card, right, rfl, here, behind⟩ := List.map_eq_cons_iff.1 rest
  obtain ⟨plot, found, rfl⟩ := Option.map_eq_some_iff.1 here.symm
  exact ⟨left, plot, right, rfl, found, ahead, behind⟩

theorem exists_item (settling : task.Settling olds oldKeys newKeys careful scene old new pass heads waiting tails gone)
    (member : n ∈ new) : ∃ item, task.items[n.index]? = some item :=
  ⟨_, List.getElem?_eq_getElem (settling.holds.inside member)⟩

theorem unshown (settling : task.Settling olds oldKeys newKeys careful scene old new pass heads waiting tails gone)
    (member : n ∈ new) : ∀ card ∈ heads ++ (waiting ++ tails), card.item ≠ some n.index := by
  have fresh := settling.holds.fresh member
  intro card here shown
  simp only [List.mem_append] at here
  rcases here with here | here | here
  · exact fresh.1 card here shown
  · have := List.mem_map_of_mem (f := some) here
    rw [settling.waits] at this
    obtain ⟨entry, -, same⟩ := List.mem_map.1 this
    obtain ⟨was, -, rfl⟩ := Option.map_eq_some_iff.1 same
    cases shown
  · exact fresh.2 card here shown

section

variable (lawful : task.realm.Lawful)
  (settling : task.Settling olds oldKeys newKeys careful scene old new pass heads waiting tails gone)
include lawful settling

theorem noted {event : Event} (other : ∀ id, event ≠ .kept id) :
    task.Settling olds oldKeys newKeys careful (scene.add event) old new pass heads waiting tails gone :=
  { settling with board := settling.board.noted lawful other }

end

section Windows

variable {scene' : Scene σ} {left right : List Card} {plot was : Plot} {part : NodePart} {change : Stats → Stats}

theorem kept_first (before : Window)
    (settling : task.Settling olds oldKeys newKeys careful scene (before ++ o :: after) (n :: new) pass heads
      (left ++ .ofPlot plot :: right) tails gone)
    (found : olds[o.index]? = some plot)
    (ahead : left.map some = before.map fun entry => olds[entry.index]?.map Card.ofPlot)
    (behind : right.map some = after.map fun entry => olds[entry.index]?.map Card.ofPlot)
    (same : o.key = n.key)
    (board : task.Board scene' (heads ++ ⟨part, plot, some n.index⟩ :: ((left ++ right) ++ tails)) gone)
    (moves : (change pass.stats).moved ≤ (change pass.stats).updated)
    (creates : (change pass.stats).created = pass.stats.created) :
    task.Settles olds oldKeys newKeys careful (before ++ after) new ((pass.place n.index part).count change) gone
      scene' := by
  have inside := settling.present plot (List.mem_of_getElem? found)
  have old : ¬ task.start.tree.size ≤ plot.part.start := Nat.not_le.2 inside
  refine ⟨heads ++ [⟨part, plot, some n.index⟩], left ++ right, tails, by simpa using board, ?_,
    settling.holds.first.counted change, ?_, ?_, settling.present, moves,
    creates.trans (settling.news.trans (by simp [old]))⟩
  · rw [List.map_append, List.map_append, ahead, behind]
  · refine settling.traced.settle part n.index ?fewer ?others found ?member ?same inside ?cards ?starts fun _ => .inr
    case fewer => exact fun other member => List.perm_middle.mem_iff.2 (List.mem_cons_of_mem _ member)
    case others => exact fun other member => List.mem_cons.1 (List.perm_middle.mem_iff.1 member)
    case member => simp
    case same =>
      rw [same]
      exact settling.balanced.new_keys n (List.mem_cons_self ..)
    case cards =>
      intro card
      simp only [List.mem_append, List.mem_singleton]
      exact ⟨fun here => by tauto, fun here => by tauto⟩
    case starts => simp [old]
  · exact settling.balanced.keep List.perm_middle (List.Perm.refl _) same

theorem kept_last (before : Window)
    (settling : task.Settling olds oldKeys newKeys careful scene (before ++ o :: after) (new ++ [n]) pass heads
      (left ++ .ofPlot plot :: right) tails gone)
    (found : olds[o.index]? = some plot)
    (ahead : left.map some = before.map fun entry => olds[entry.index]?.map Card.ofPlot)
    (behind : right.map some = after.map fun entry => olds[entry.index]?.map Card.ofPlot)
    (same : o.key = n.key)
    (board : task.Board scene' ((heads ++ (left ++ right)) ++ ⟨part, plot, some n.index⟩ :: tails) gone)
    (moves : (change pass.stats).moved ≤ (change pass.stats).updated)
    (creates : (change pass.stats).created = pass.stats.created) :
    task.Settles olds oldKeys newKeys careful (before ++ after) new ((pass.place n.index part).count change) gone
      scene' := by
  have inside := settling.present plot (List.mem_of_getElem? found)
  refine ⟨heads, left ++ right, ⟨part, plot, some n.index⟩ :: tails, by simpa using board, ?_,
    settling.holds.last.counted change, ?_, ?_, settling.present, moves, creates.trans settling.news⟩
  · rw [List.map_append, List.map_append, ahead, behind]
  · refine settling.traced.settle part n.index ?fewer ?others found ?member ?same inside ?cards rfl fun _ => List.mem_cons.1
    case fewer => exact fun other member => List.perm_middle.mem_iff.2 (List.mem_cons_of_mem _ member)
    case others => exact fun other member => List.mem_cons.1 (List.perm_middle.mem_iff.1 member)
    case member => simp
    case same =>
      rw [same]
      exact settling.balanced.new_keys n (by simp)
    case cards =>
      intro card
      simp only [List.mem_cons]
      exact ⟨fun here => by tauto, fun here => by tauto⟩
  · exact settling.balanced.keep List.perm_middle (List.perm_append_singleton _ _) same

theorem made
    (settling : task.Settling olds oldKeys newKeys careful scene old (n :: new) pass heads waiting tails gone)
    (fresh : careful → n.key ∉ old.map Entry.key)
    (between : was.part = .between scene.tree.size (scene.tree.size + 1))
    (board : task.Board scene' (heads ++ ⟨part, was, some n.index⟩ :: (waiting ++ tails)) gone)
    (moves : (change pass.stats).moved ≤ (change pass.stats).updated)
    (creates : (change pass.stats).created = pass.stats.created + 1) :
    task.Settles olds oldKeys newKeys careful old new ((pass.place n.index part).count change) gone scene' := by
  have grown := settling.board.grown
  have new : task.start.tree.size ≤ was.part.start := by
    rw [between]
    exact grown
  refine ⟨heads ++ [⟨part, was, some n.index⟩], waiting, tails, by simpa using board, settling.waits,
    settling.holds.first.counted change, ?_, settling.balanced.create fresh, settling.present, moves,
    creates.trans ((congrArg (· + 1) settling.news).trans (by simp [new]))⟩
  refine settling.traced.make new ?_ ?_
  · rw [between]
    exact Nat.le_succ_of_le grown
  · intro card member
    rw [between]
    exact settling.board.start_exists card (List.mem_append_left _ member)

theorem dropped (before : Window)
    (settling : task.Settling olds oldKeys newKeys careful scene (before ++ o :: after) new pass heads
      (left ++ .ofPlot plot :: right) tails gone)
    (found : olds[o.index]? = some plot)
    (ahead : left.map some = before.map fun entry => olds[entry.index]?.map Card.ofPlot)
    (behind : right.map some = after.map fun entry => olds[entry.index]?.map Card.ofPlot)
    (unwanted : careful → o.key ∉ new.map Entry.key) {fates : List (NodeId × Removal)}
    (start : (plot.part.start, .proceed) ∈ fates) (stop : (plot.part.stop, .proceed) ∈ fates)
    (board : task.Board scene' ((heads ++ left) ++ (right ++ tails)) (gone ++ fates))
    (moves : (change pass.stats).moved ≤ (change pass.stats).updated)
    (creates : (change pass.stats).created = pass.stats.created) :
    task.Settles olds oldKeys newKeys careful (before ++ after) new (pass.count change) (gone ++ fates) scene' := by
  have member : o ∈ before ++ o :: after := by simp
  refine ⟨heads, left ++ right, tails, by simpa using board, ?_, settling.holds.counted change, ?_,
    settling.balanced.remove, settling.present, moves, creates.trans settling.news⟩
  · rw [List.map_append, List.map_append, ahead, behind]
  · refine settling.traced.drop ?_ ?_ found ?_ member start stop
    · exact fun other member => List.perm_middle.mem_iff.2 (List.mem_cons_of_mem _ member)
    · exact fun other member => List.mem_cons.1 (List.perm_middle.mem_iff.1 member)
    · exact fun care known => unwanted care (settling.balanced.wanted care o member known)

end Windows

section Render

variable (lawful : task.realm.Lawful)
  (honest : ∀ item ∈ task.items, task.realm.Honest item.value.leaves item.render)
  (admits : task.realm.Admits task.start.tree (leavesIn task.items))
include lawful honest admits

theorem rendered {left right : List Card} {plot : Plot} {item : Rendering σ}
    (settling : task.Settling olds oldKeys newKeys careful scene old new pass heads
      (left ++ .ofPlot plot :: right) tails gone)
    (member : n ∈ new) (wanted : task.items[n.index]? = some item) :
    (plot.part.renderWith item).Leads scene
      (fun part scene => task.Board scene
        ((heads ++ left) ++ ⟨part, plot, some n.index⟩ :: (right ++ tails)) gone)
      (fun _ scene => task.Broken scene) := by
  have board : task.Board scene ((heads ++ left) ++ .ofPlot plot :: (right ++ tails)) gone := by
    simpa using settling.board
  have among := List.mem_of_getElem? wanted
  refine (board.render lawful rfl wanted (honest item among) (admits.of_mem item among) ?_).imp fun _ _ done => done.2
  intro other here
  refine settling.unshown member other ?_
  simp only [List.mem_append, List.mem_cons] at here ⊢
  rcases here with (here | here) | here | here
  · exact .inl here
  · exact .inr (.inl (.inl here))
  · exact .inr (.inl (.inr (.inr here)))
  · exact .inr (.inr here)

theorem keep {left right : List Card} {plot : Plot}
    (settling : task.Settling olds oldKeys newKeys careful scene old new pass heads
      (left ++ .ofPlot plot :: right) tails gone)
    (found : olds[o.index]? = some plot) (member : n ∈ new) :
    ((task.setting olds).keep pass o.index n.index).Leads scene
      (fun next scene => ∃ part,
        next = (pass.place n.index part).count (fun stats => { stats with updated := stats.updated + 1 }) ∧
        task.Board scene ((heads ++ left) ++ ⟨part, plot, some n.index⟩ :: (right ++ tails)) gone)
      (fun _ scene => task.Broken scene) := by
  obtain ⟨item, wanted⟩ := settling.exists_item member
  have part : (task.setting olds).old[o.index]? = some plot.part := by simp [setting, found]
  have here : (task.setting olds).items[n.index]? = some item := wanted
  simp only [Setting.keep, part, here, leads_bind, leads_pure]
  exact (settling.rendered lawful honest admits member wanted).imp fun part _ board => ⟨part, rfl, board⟩

theorem bring {left right front back : List Card} {plot : Plot} {anchor : Anchor}
    (settling : task.Settling olds oldKeys newKeys careful scene old new pass heads
      (left ++ .ofPlot plot :: right) tails gone)
    (found : olds[o.index]? = some plot) (member : n ∈ new)
    (places : (heads ++ left) ++ (right ++ tails) = front ++ back)
    (behind : (task.setting olds).nodeAt pass anchor = Card.anchorOf task.whole.part.stop back) :
    ((task.setting olds).bring pass o.index n.index anchor).Leads scene
      (fun next scene => ∃ part moved,
        next = (pass.place n.index part).count (fun stats =>
          { stats with
            updated := stats.updated + 1
            moved := if moved = true then stats.moved + 1 else stats.moved }) ∧
        ((heads ++ left).length ≠ front.length → moved = true) ∧
        task.Board scene (front ++ ⟨part, plot, some n.index⟩ :: back) gone)
      (fun _ scene => task.Broken scene) := by
  obtain ⟨item, wanted⟩ := settling.exists_item member
  have part : (task.setting olds).old[o.index]? = some plot.part := by simp [setting, found]
  have here : (task.setting olds).items[n.index]? = some item := wanted
  simp only [Setting.bring, part, here, leads_bind, leads_pure, behind]
  refine (settling.rendered lawful honest admits member wanted).imp fun part scene board => ?_
  exact (board.move lawful places).mono (fun moved _ done => ⟨part, moved, rfl, done⟩) fun _ _ none => none.elim

theorem create {front back : List Card} {anchor : Anchor}
    (settling : task.Settling olds oldKeys newKeys careful scene old new pass heads waiting tails gone)
    (member : n ∈ new) (places : heads ++ (waiting ++ tails) = front ++ back)
    (behind : (task.setting olds).nodeAt pass anchor = Card.anchorOf task.whole.part.stop back) :
    ((task.setting olds).create pass n.index anchor).Leads scene
      (fun next scene' => ∃ part, ∃ was : Plot,
        was.part = .between scene.tree.size (scene.tree.size + 1) ∧
        next = (pass.place n.index part).count (fun stats => { stats with created := stats.created + 1 }) ∧
        task.Board scene' (front ++ ⟨part, was, some n.index⟩ :: back) gone)
      (fun _ scene => task.Broken scene) := by
  obtain ⟨item, wanted⟩ := settling.exists_item member
  have here : (task.setting olds).items[n.index]? = some item := wanted
  have among := List.mem_of_getElem? wanted
  simp only [Setting.create, here, leads_bind, leads_pure, behind]
  refine ((places ▸ settling.board).insert lawful).mono ?_ fun _ _ none => none.elim
  rintro _ scene' ⟨rfl, board⟩
  refine (board.render lawful rfl wanted (honest item among) (admits.of_mem item among) ?_).imp ?_
  · intro other among shown
    have : other ∈ heads ++ (waiting ++ tails) := by
      rw [places, List.mem_append]
      exact among
    exact settling.unshown member other this shown
  · rintro part scene ⟨-, board⟩
    exact ⟨part, _, rfl, rfl, board⟩

section Actions

variable (rule : Rule)

omit lawful honest admits in
theorem nodeAt_beforeOld {index : Nat} {plot : Plot} (found : olds[index]? = some plot) :
    (task.setting olds).nodeAt pass (.beforeOld index) = plot.part.start := by
  simp [Setting.nodeAt, setting, found]

theorem perform_keepFirst (same : o.key = n.key)
    (settles : task.Settles olds oldKeys newKeys careful (o :: old) (n :: new) pass gone scene) :
    ((task.setting olds).perform pass (.keep rule o.index n.index)).Leads scene
      (fun next scene => task.Settles olds oldKeys newKeys careful old new next gone scene ∧
        Advances pass next [.keep rule o.index n.index])
      (fun _ scene => task.Broken scene) := by
  obtain ⟨heads, waiting, tails, settling⟩ := settles
  have noted := settling.noted lawful fun id => (nofun : Event.settling rule ≠ .kept id)
  obtain ⟨left, plot, right, rfl, found, ahead, behind⟩ := split [] noted.waits
  obtain rfl : left = [] := by simpa using ahead
  simp only [Setting.perform, leads_bind, leads_note]
  refine (noted.keep lawful honest admits found (List.mem_cons_self ..)).imp ?_
  rintro _ scene ⟨part, rfl, board⟩
  refine ⟨noted.kept_first [] found ahead behind same (by simpa using board) ?_ rfl, rfl, rfl, rfl, rfl⟩
  exact Nat.le_succ_of_le settling.moves

theorem perform_keepLast (same : o.key = n.key)
    (settles : task.Settles olds oldKeys newKeys careful (old ++ [o]) (new ++ [n]) pass gone scene) :
    ((task.setting olds).perform pass (.keep rule o.index n.index)).Leads scene
      (fun next scene => task.Settles olds oldKeys newKeys careful old new next gone scene ∧
        Advances pass next [.keep rule o.index n.index])
      (fun _ scene => task.Broken scene) := by
  obtain ⟨heads, waiting, tails, settling⟩ := settles
  have noted := settling.noted lawful fun id => (nofun : Event.settling rule ≠ .kept id)
  obtain ⟨left, plot, right, rfl, found, ahead, behind⟩ := split old noted.waits
  obtain rfl : right = [] := by simpa using behind
  simp only [Setting.perform, leads_bind, leads_note]
  refine (noted.keep lawful honest admits found (by simp)).imp ?_
  rintro _ scene ⟨part, rfl, board⟩
  rw [← List.append_nil old]
  refine ⟨noted.kept_last old found ahead behind same (by simpa using board) ?_ rfl, rfl, rfl, rfl, rfl⟩
  exact Nat.le_succ_of_le settling.moves

theorem perform_bringLast (same : o.key = n.key) (others : old ≠ [])
    (settles : task.Settles olds oldKeys newKeys careful (o :: old) (new ++ [n]) pass gone scene) :
    ((task.setting olds).perform pass (.bring rule o.index n.index (.behind task.items.length n))).Leads scene
      (fun next scene => task.Settles olds oldKeys newKeys careful old new next gone scene ∧
        Advances pass next [.bring rule o.index n.index (.behind task.items.length n)])
      (fun _ scene => task.Broken scene) := by
  obtain ⟨heads, waiting, tails, settling⟩ := settles
  have noted := settling.noted lawful fun id => (nofun : Event.settling rule ≠ .kept id)
  obtain ⟨left, plot, right, rfl, found, ahead, behind⟩ := split [] noted.waits
  obtain rfl : left = [] := by simpa using ahead
  have anchor := noted.holds.behind (task.setting olds) List.getLast?_concat
  have places : (heads ++ []) ++ (right ++ tails) = (heads ++ ([] ++ right)) ++ tails := by simp
  simp only [Setting.perform, leads_bind, leads_note]
  refine (noted.bring lawful honest admits found (by simp) places anchor).imp ?_
  rintro _ scene ⟨part, moved, made, elsewhere, board⟩
  subst made
  have filled : right ≠ [] := by
    intro none
    subst none
    exact others (by simpa using behind.symm)
  have moves : moved = true := elsewhere (by simpa using filled)
  subst moves
  refine ⟨noted.kept_last [] found ahead behind same board ?_ rfl, rfl, rfl, rfl, rfl⟩
  exact Nat.succ_le_succ settling.moves

theorem perform_bringFirst (same : o.key = n.key)
    (settles : task.Settles olds oldKeys newKeys careful (first :: (before ++ o :: after)) (n :: new) pass gone scene) :
    ((task.setting olds).perform pass (.bring rule o.index n.index (.beforeOld first.index))).Leads scene
      (fun next scene => task.Settles olds oldKeys newKeys careful (first :: (before ++ after)) new next gone scene ∧
        Advances pass next [.bring rule o.index n.index (.beforeOld first.index)])
      (fun _ scene => task.Broken scene) := by
  obtain ⟨heads, waiting, tails, settling⟩ := settles
  have noted := settling.noted lawful fun id => (nofun : Event.settling rule ≠ .kept id)
  obtain ⟨left, plot, right, rfl, found, ahead, behind⟩ := split (first :: before) noted.waits
  obtain ⟨front, more, rfl, here, -⟩ := List.map_eq_cons_iff.1 ahead
  obtain ⟨standing, stands, rfl⟩ := Option.map_eq_some_iff.1 here.symm
  have anchor : (task.setting olds).nodeAt pass (.beforeOld first.index) =
      Card.anchorOf task.whole.part.stop (((.ofPlot standing :: more) ++ right) ++ tails) :=
    nodeAt_beforeOld stands
  have places : (heads ++ (.ofPlot standing :: more)) ++ (right ++ tails) =
      heads ++ (((.ofPlot standing :: more) ++ right) ++ tails) := by simp
  simp only [Setting.perform, leads_bind, leads_note]
  refine (noted.bring lawful honest admits found (List.mem_cons_self ..) places anchor).imp ?_
  rintro _ scene ⟨part, moved, made, elsewhere, board⟩
  subst made
  have moves : moved = true := elsewhere (by simp)
  subst moves
  refine ⟨noted.kept_first (first :: before) found ahead behind same board ?_ rfl, rfl, rfl, rfl, rfl⟩
  exact Nat.succ_le_succ settling.moves

theorem perform_createFirst (fresh : careful → n.key ∉ (o :: old).map Entry.key)
    (settles : task.Settles olds oldKeys newKeys careful (o :: old) (n :: new) pass gone scene) :
    ((task.setting olds).perform pass (.create rule n.index (.beforeOld o.index))).Leads scene
      (fun next scene => task.Settles olds oldKeys newKeys careful (o :: old) new next gone scene ∧
        Advances pass next [.create rule n.index (.beforeOld o.index)])
      (fun _ scene => task.Broken scene) := by
  obtain ⟨heads, waiting, tails, settling⟩ := settles
  have noted := settling.noted lawful fun id => (nofun : Event.settling rule ≠ .kept id)
  obtain ⟨left, plot, right, rfl, found, ahead, behind⟩ := split [] noted.waits
  obtain rfl : left = [] := by simpa using ahead
  have anchor : (task.setting olds).nodeAt pass (.beforeOld o.index) =
      Card.anchorOf task.whole.part.stop (([] ++ .ofPlot plot :: right) ++ tails) := nodeAt_beforeOld found
  simp only [Setting.perform, leads_bind, leads_note]
  refine (noted.create lawful honest admits (List.mem_cons_self ..) rfl anchor).imp ?_
  rintro _ scene ⟨part, was, between, rfl, board⟩
  exact ⟨noted.made fresh between board settling.moves rfl, rfl, rfl, rfl, rfl⟩

/-- The first missing item is made at the end, since nothing old is left. -/
theorem perform_createLast (ends : (n :: new).getLast? = some last)
    (settles : task.Settles olds oldKeys newKeys careful [] (n :: new) pass gone scene) :
    ((task.setting olds).perform pass (.create rule n.index (.behind task.items.length last))).Leads scene
      (fun next scene => task.Settles olds oldKeys newKeys careful [] new next gone scene ∧
        Advances pass next [.create rule n.index (.behind task.items.length last)])
      (fun _ scene => task.Broken scene) := by
  obtain ⟨heads, waiting, tails, settling⟩ := settles
  have noted := settling.noted lawful fun id => (nofun : Event.settling rule ≠ .kept id)
  obtain rfl : waiting = [] := by simpa using noted.waits
  have anchor := noted.holds.behind (task.setting olds) ends
  simp only [Setting.perform, leads_bind, leads_note]
  refine (noted.create lawful honest admits (List.mem_cons_self ..) rfl anchor).imp ?_
  rintro _ scene ⟨part, was, between, rfl, board⟩
  exact ⟨noted.made (fun _ => by simp) between board settling.moves rfl, rfl, rfl, rfl, rfl⟩

omit honest admits in
theorem perform_remove (tolerant : task.tolerant) (unwanted : careful → o.key ∉ new.map Entry.key)
    (settles : task.Settles olds oldKeys newKeys careful (before ++ o :: after) new pass gone scene) :
    ((task.setting olds).perform pass (.remove rule o.index)).Leads scene
      (fun next scene => (∃ fates, task.Leaves olds o.index fates ∧
          task.Settles olds oldKeys newKeys careful (before ++ after) new next (gone ++ fates) scene) ∧
        Advances pass next [.remove rule o.index])
      (fun _ scene => task.Broken scene) := by
  obtain ⟨heads, waiting, tails, settling⟩ := settles
  have noted := settling.noted lawful fun id => (nofun : Event.settling rule ≠ .kept id)
  obtain ⟨left, plot, right, rfl, found, ahead, behind⟩ := split before noted.waits
  have part : (task.setting olds).old[o.index]? = some plot.part := by simp [setting, found]
  have board : task.Board (scene.add (.settling rule)) ((heads ++ left) ++ .ofPlot plot :: (right ++ tails))
      gone := by simpa using noted.board
  simp only [Setting.perform, Setting.remove, part, leads_bind, leads_note, leads_pure]
  refine (board.remove lawful rfl tolerant).mono ?_ fun _ _ none => none.elim
  rintro _ scene ⟨left, fates, same, still, told, board⟩
  have same : left.part = plot.part := same
  have start : (plot.part.start, .proceed) ∈ fates := same ▸ told.start
  have stop : (plot.part.stop, .proceed) ∈ fates := same ▸ told.stop
  exact ⟨⟨fates, ⟨plot, left, found, same, still, told⟩,
    noted.dropped before found ahead behind unwanted start stop board settling.moves rfl⟩, rfl, rfl, rfl, rfl⟩

omit honest admits in
theorem perform_index (newCount oldCount duplicates : Nat)
    (settles : task.Settles olds oldKeys newKeys careful old new pass gone scene) :
    ((task.setting olds).perform pass (.index newCount oldCount duplicates)).Leads scene
      (fun next scene => task.Settles olds oldKeys newKeys careful old new next gone scene ∧
        Advances pass next [.index newCount oldCount duplicates])
      (fun _ scene => task.Broken scene) := by
  obtain ⟨heads, waiting, tails, settling⟩ := settles
  have noted := settling.noted lawful fun id => (nofun : Event.indexing newCount oldCount ≠ .kept id)
  have again := noted.noted lawful fun id => (nofun : Event.ignoredDuplicates duplicates ≠ .kept id)
  simp only [Setting.perform, leads_bind, leads_note]
  by_cases some : duplicates > 0
  · simp only [some, if_true, leads_bind, leads_note, leads_pure]
    exact ⟨⟨_, _, _, again⟩, rfl, rfl, rfl, rfl⟩
  · simp only [some, if_false, leads_pure]
    exact ⟨⟨_, _, _, noted⟩, rfl, rfl, rfl, rfl⟩

end Actions

variable {actions : List Action}

section Along

variable {along : List (NodeId × Removal) → Scene σ → Prop} {less fewer : Window}

omit lawful honest admits in
theorem perform_along {action : Action} (stays : ((task.setting olds).perform pass action).Leads scene
      (fun _ => along gone) fun _ _ => True)
    (step : ((task.setting olds).perform pass action).Leads scene
      (fun next scene => task.Settles olds oldKeys newKeys careful less fewer next gone scene ∧
        Advances pass next [action])
      (fun _ scene => task.Broken scene)) :
    ((task.setting olds).perform pass action).Leads scene
      (task.SettledAlong olds oldKeys newKeys careful along pass [action] less fewer)
      (fun _ scene => task.Broken scene) := by
  refine (step.both stays).mono ?_ fun _ _ broken => broken.1
  rintro next scene ⟨⟨settles, one⟩, along⟩
  exact ⟨⟨gone, settles, along⟩, one⟩

omit lawful honest admits in
theorem performAll_cons_along {action : Action}
    (rest : ∀ {next gone scene}, task.Settles olds oldKeys newKeys careful less fewer next gone scene → along gone scene →
      ((task.setting olds).performAll next actions).Leads scene
        (task.SettledAlong olds oldKeys newKeys careful along next actions [] [])
        (fun _ scene => task.Broken scene))
    (step : ((task.setting olds).perform pass action).Leads scene
      (task.SettledAlong olds oldKeys newKeys careful along pass [action] less fewer)
      (fun _ scene => task.Broken scene)) :
    ((task.setting olds).performAll pass (action :: actions)).Leads scene
      (task.SettledAlong olds oldKeys newKeys careful along pass (action :: actions) [] [])
      (fun _ scene => task.Broken scene) := by
  simp only [Setting.performAll, leads_bind]
  refine step.imp ?_
  rintro next scene ⟨⟨gone, settles, along⟩, one⟩
  exact (rest settles along).imp fun _ _ done => ⟨done.1, one.trans done.2⟩

end Along

/-- A route is carried out from its first action to its last, and what goes along with every single action goes along
    with all of them. -/
theorem performAll_along (along : List (NodeId × Removal) → Scene σ → Prop) (tolerant : task.tolerant)
    (kept : ∀ {action pass gone scene}, action.removes = false → along gone scene →
      ((task.setting olds).perform pass action).Leads scene (fun _ => along gone) fun _ _ => True)
    (dropped : ∀ {rule o before after new pass gone scene},
      task.Settles olds oldKeys newKeys careful (before ++ o :: after) new pass gone scene → along gone scene →
      ((task.setting olds).perform pass (.remove rule o.index)).Leads scene
        (fun next scene => ∀ fates, task.Leaves olds o.index fates →
          task.Settles olds oldKeys newKeys careful (before ++ after) new next (gone ++ fates) scene →
          along (gone ++ fates) scene)
        fun _ _ => True)
    (route : Route careful task.items.length old new actions)
    (settles : task.Settles olds oldKeys newKeys careful old new pass gone scene) (begun : along gone scene) :
    ((task.setting olds).performAll pass actions).Leads scene
      (task.SettledAlong olds oldKeys newKeys careful along pass actions [] [])
      (fun _ scene => task.Broken scene) := by
  induction route generalizing scene pass gone with
  | done => exact ⟨⟨gone, settles, begun⟩, .refl pass⟩
  | keepFirst rule same _ ih =>
      exact performAll_cons_along ih (perform_along (kept rfl begun)
        (perform_keepFirst lawful honest admits rule same settles))
  | keepLast rule same _ ih =>
      exact performAll_cons_along ih (perform_along (kept rfl begun)
        (perform_keepLast lawful honest admits rule same settles))
  | bringLast rule same others _ ih =>
      exact performAll_cons_along ih (perform_along (kept rfl begun)
        (perform_bringLast lawful honest admits rule same others settles))
  | bringFirst rule same _ ih =>
      exact performAll_cons_along ih (perform_along (kept rfl begun)
        (perform_bringFirst lawful honest admits rule same settles))
  | createFirst rule fresh _ ih =>
      exact performAll_cons_along ih (perform_along (kept rfl begun)
        (perform_createFirst lawful honest admits rule fresh settles))
  | createLast rule ends _ ih =>
      exact performAll_cons_along ih (perform_along (kept rfl begun)
        (perform_createLast lawful honest admits rule ends settles))
  | remove rule unwanted _ ih =>
      have step := (perform_remove lawful rule tolerant unwanted settles).both (dropped settles begun)
      refine performAll_cons_along ih (step.mono ?_ fun _ _ broken => broken.1)
      rintro next scene ⟨⟨⟨fates, left, settles⟩, one⟩, along⟩
      exact ⟨⟨_, settles, along fates left settles⟩, one⟩
  | index _ _ _ _ ih =>
      exact performAll_cons_along ih (perform_along (kept rfl begun) (perform_index lawful _ _ _ settles))

end Render

end Settling

end Task

end DomParts.Layout
