import DomParts.Part.Keyed
import DomParts.Part.List
import DomParts.Proofs.Layout.Filling

/-! # Changing places in a list

New plots come into a list that is being filled, others are moved or removed. A place is given by the
cells in front of it and the cells behind it.
-/

namespace DomParts.Layout.Task

variable {σ : Type} {task : Task σ} {now : World σ} {blocks : List Block}
  {cells ahead behind : List Cell} {cell : Cell} {gone : List (NodeId × Removal)}

/-- The node behind a place: the first marker there, be it that of an item or that of the list. -/
def anchorOf (stop : NodeId) : List Cell → NodeId
  | [] => stop
  | cell :: _ => cell.plot.part.start

theorem exists_cut (plots : plotsOf blocks = (ahead ++ behind).map Cell.plot) :
    ∃ left right, blocks = left ++ right ∧ plotsOf left = ahead.map Cell.plot ∧
      plotsOf right = behind.map Cell.plot ∧ ∀ stop rest,
        (nodesOf right ++ stop :: rest).head? = some (anchorOf stop behind) := by
  cases behind with
  | nil => exact ⟨blocks, [], by simp, by simpa using plots, rfl, fun _ _ => rfl⟩
  | cons cell behind =>
      obtain ⟨left, right, rfl, before, beyond⟩ := exists_split (by simpa using plots)
      exact ⟨left, .plot cell.plot :: right, rfl, before, by simp [beyond], fun _ _ => rfl⟩

namespace Filling

section Joined

variable {after : World σ} {others : List Block} {cells' : List Cell} {taken : List NodeId} {touched : NodeId → Prop}
  (filling : task.Filling now blocks cells gone)
  (progress : task.realm.Progress task.start now task.container task.front task.rest task.whole touched
    taken blocks)
  (among : ∀ id ∈ taken, id ∈ leavesIn task.items)
  (pending : ∀ cell ∈ cells, cell.item = none → ∀ id ∈ cell.plot.owned,
    task.start.tree.size > id ∧ ¬ touched id ∧ id ∉ taken)
  (change : task.realm.Change now after (fun id => id = task.container) [])
  (held : ∀ id, after.kept id ↔ now.kept id)
  (kind : after.tree.kindOf task.container = now.tree.kindOf task.container)
  (parent : after.tree.parentOf task.container = now.tree.parentOf task.container)
  (listed : after.tree.childrenOf task.container = task.front.filter (· ∉ taken) ++
    task.whole.part.start :: (nodesOf others ++ task.whole.part.stop :: task.rest.filter (· ∉ taken)))
  (plots : plotsOf others = cells'.map Cell.plot)
include filling progress among pending change held kind parent listed plots

/-- Plots of the row changed places, and new ones joined them. Nothing was done to those that were there. -/
theorem joined (distinct : (claimedOf others).Nodup)
    (origin : ∀ id ∈ claimedOf others, id ∈ claimedOf blocks ∨
      now.tree.size ≤ id ∧ after.tree.size > id ∧ ¬ task.realm.stock after.scene id)
    (plots_from : ∀ plot, .plot plot ∈ others → .plot plot ∈ blocks ∨
      Lined task.realm.survey task.realm.guest after.kept after.tree plot ∧ ∀ id ∈ plot.inner, id ∈ plot.owned)
    (strays : ∀ id, .stray id ∈ others ↔ .stray id ∈ blocks)
    (reseated : Reseated cells cells' []) : task.Filling after others cells' gone := by
  have sound := progress.change.sound
  have idle : ∀ id ∈ ([] : List NodeId), id ∈ claimedOf blocks := by simp
  have change : task.realm.Change now after (fun id => id = task.container ∨ id ∈ []) [] :=
    change.widen (fun _ _ => .inl) sound
  have free : ¬ after.kept task.container := fun kept => progress.row.site.container_free ((held _).1 kept)
  have row := progress.row.rearranged sound change free parent idle listed distinct origin
    (fun plot member => (plots_from plot member).imp_left fun was => ⟨was, by simp⟩)
    fun id member => .inl ⟨(strays id).1 member, by simp⟩
  exact filling.rearranged progress among pending change (fun id => (held id).2) row idle (by simp)
    (fun id member => (origin id member).imp_right And.left) kind parent plots
    (fun id member => filling.strays id ((strays id).1 member))
    reseated (fun id member _ => (strays id).2 member)
    fun fate member => .inl ⟨member, by simp⟩

theorem permuted (perm : others.Perm blocks) (same : cells'.Perm cells) : task.Filling after others cells' gone := by
  have claims : (claimedOf others).Perm (claimedOf blocks) := perm.flatMap_right _
  exact joined filling progress among pending change held kind parent listed plots
    (claims.nodup_iff.2 progress.row.site.owned_nodup) (fun id member => .inl (claims.mem_iff.1 member))
    (fun plot member => .inl (perm.mem_iff.1 member)) (fun id => perm.mem_iff)
    ⟨fun cell member => .inl ⟨same.mem_iff.1 member, by simp⟩, fun cell member _ => same.mem_iff.2 member⟩

end Joined

theorem noted (lawful : task.realm.Lawful) (filling : task.Filling now blocks cells gone) {event : Event}
    (other : ∀ id, event ≠ .kept id) :
    task.Filling ⟨now.scene.add event, now.kept⟩ blocks cells gone := by
  obtain ⟨touched, taken, progress, among, pending⟩ := filling.progress
  have idle : task.realm.Change now now (fun id => id = task.container) [] := .refl progress.change.sound
  exact filling.permuted progress among pending (idle.noted lawful event other) (fun _ => Iff.rfl) rfl rfl
    (progress.row.site.listed.trans (by simp [Plot.nodes])) filling.plots (.refl _) (.refl _)

theorem insert (lawful : task.realm.Lawful) (filling : task.Filling now blocks (ahead ++ behind) gone) :
    (NodePart.insertInto task.container (some (anchorOf task.whole.part.stop behind))).Leads now.scene
      (fun part scene => part = .between now.tree.size (now.tree.size + 1) ∧
        ∃ blocks, task.Filling ⟨scene, now.kept⟩ blocks (ahead ++ vacant part :: behind) gone)
      (fun _ _ => False) := by
  obtain ⟨touched, taken, progress, among, pending⟩ := filling.progress
  obtain ⟨left, right, rfl, before, beyond, anchor⟩ := exists_cut filling.plots
  have sound := progress.change.sound
  have row := progress.row
  have listed : now.tree.childrenOf task.container =
      (task.front.filter (· ∉ taken) ++ task.whole.part.start :: nodesOf left) ++
        (nodesOf right ++ task.whole.part.stop :: task.rest.filter (· ∉ taken)) := by
    rw [row.site.listed]
    simp [Plot.nodes]
  have inside := row.site.container_exists sound
  have made := Realm.insertInto_leads lawful sound listed inside row.site.container_own row.container_unstocked
  rw [anchor] at made
  refine made.imp ?_
  rintro _ scene ⟨rfl, paired, narrow, marked, leaf, fresh⟩
  have beyond_all : ∀ id ∈ claimedOf left ++ claimedOf right, now.tree.size > id := by
    intro id member
    exact row.site.present id (by simpa using member)
  have claims : claimedOf (left ++ .plot (vacant (.between now.tree.size (now.tree.size + 1))).plot :: right) =
      claimedOf left ++ now.tree.size :: (now.tree.size + 1) :: claimedOf right := by
    simp [vacant, Plot.claimed, NodePart.between]
  refine ⟨rfl, left ++ .plot (vacant (.between now.tree.size (now.tree.size + 1))).plot :: right, ?_⟩
  refine filling.joined progress among pending narrow (fun _ => Iff.rfl) (paired.kindOf _ inside)
    (paired.parentOf _ inside) ?listed ?plots ?distinct ?origin ?lined ?strays ?reseated
  case listed =>
    rw [paired.children]
    simp [vacant, Plot.nodes, NodePart.between]
  case plots => simp [before, beyond]
  case distinct =>
    have old := row.site.owned_nodup
    simp only [claimedOf_append] at old
    rw [claims, List.nodup_middle, List.nodup_cons, List.nodup_middle, List.nodup_cons]
    refine ⟨fun member => ?_, fun member => ?_, old⟩
    · have := beyond_all now.tree.size (by simpa using member)
      exact Nat.lt_irrefl _ this
    · exact Nat.not_lt.2 (Nat.le_succ _) (beyond_all _ member)
  case origin =>
    intro id member
    rw [claims] at member
    simp only [List.mem_append, List.mem_cons] at member
    rw [paired.size]
    rcases member with member | rfl | rfl | member
    · exact .inl (by simp [member])
    · exact .inr ⟨Nat.le_refl _, by omega, fresh _ (Nat.le_refl _)⟩
    · exact .inr ⟨Nat.le_succ _, by omega, fresh _ (Nat.le_succ _)⟩
    · exact .inl (by simp [member])
  case lined =>
    intro plot member
    simp only [List.mem_append, List.mem_cons, Block.plot.injEq] at member
    rcases member with member | rfl | member
    · exact .inl (List.mem_append_left _ member)
    · exact .inr ⟨⟨⟨⟨marked, List.forall_mem_nil _⟩, List.forall_mem_nil _⟩, leaf⟩, List.forall_mem_nil _⟩
    · exact .inl (List.mem_append_right _ member)
  case strays => simp
  case reseated =>
    refine ⟨fun cell member => ?_, fun cell member _ => mem_beside (List.mem_append.1 member)⟩
    rcases here_or_beside member with rfl | beside
    · exact .inr ⟨_, rfl, rfl⟩
    · exact .inl ⟨List.mem_append.2 beside, by simp⟩

theorem cut_unique {left right one two : List Block} {stop anchor : NodeId} {rest : List NodeId}
    (same : left ++ right = one ++ two) (distinct : (nodesOf (left ++ right) ++ stop :: rest).Nodup)
    (first : (nodesOf right ++ stop :: rest).head? = some anchor)
    (second : (nodesOf two ++ stop :: rest).head? = some anchor) : left = one ∧ right = two := by
  have split : nodesOf left ++ (nodesOf right ++ stop :: rest) =
      nodesOf one ++ (nodesOf two ++ stop :: rest) := by
    rw [← List.append_assoc, ← nodesOf_append, same, nodesOf_append, List.append_assoc]
  rw [nodesOf_append, List.append_assoc] at distinct
  obtain ⟨more, behind⟩ := List.head?_eq_some_iff.1 first
  obtain ⟨others, beyond⟩ := List.head?_eq_some_iff.1 second
  have again := distinct
  rw [split, beyond] at again
  rw [behind] at distinct split
  rw [beyond] at split
  have left_absent : anchor ∉ nodesOf left := fun member =>
    List.disjoint_of_nodup_append distinct member (List.mem_cons_self ..)
  have one_absent : anchor ∉ nodesOf one := fun member =>
    List.disjoint_of_nodup_append again member (List.mem_cons_self ..)
  have nodes : nodesOf left = nodesOf one := by
    have takes : ∀ (ids more : List NodeId), anchor ∉ ids → (ids ++ anchor :: more).takeWhile (· ≠ anchor) = ids := by
      intro ids more absent
      rw [List.takeWhile_append_of_pos, List.takeWhile_cons_of_neg (by simp), List.append_nil]
      intro id member
      simpa using fun same : id = anchor => absent (same ▸ member)
    rw [← takes _ more left_absent, split, takes _ others one_absent]
  have positive : ∀ blocks, nodesOf blocks = [] → blocks = [] := by
    intro blocks none
    cases blocks with
    | nil => rfl
    | cons block blocks => cases block <;> simp [Plot.nodes] at none
  rcases List.append_eq_append_iff.1 same with ⟨between, rfl, rfl⟩ | ⟨between, rfl, rfl⟩
  · have := positive between (by simpa using nodes)
    simp [this]
  · have := positive between (by simpa using nodes)
    simp [this]

/-- A plot is moved to another place, and it is known to have moved if its place is another one. -/
theorem move (lawful : task.realm.Lawful) (filling : task.Filling now blocks (ahead ++ cell :: behind) gone)
    {first second : List Cell} (places : ahead ++ behind = first ++ second) :
    (cell.plot.part.moveBefore task.container (anchorOf task.whole.part.stop second)).Leads now.scene
      (fun moved scene => (ahead.length ≠ first.length → moved = true) ∧
        ∃ blocks, task.Filling ⟨scene, now.kept⟩ blocks (first ++ cell :: second) gone)
      (fun _ _ => False) := by
  obtain ⟨left, right, rfl, before, beyond⟩ := filling.split
  obtain ⟨touched, taken, progress, among, pending⟩ := filling.progress
  have others : plotsOf (left ++ right) = (first ++ second).map Cell.plot := by
    rw [plotsOf_append, before, beyond, ← List.map_append, places]
  obtain ⟨one, two, same, ahead_plots, behind_plots, anchor⟩ := exists_cut others
  have sound := progress.change.sound
  have row := progress.row
  have site := row.siteOf
  have onward := site.nextSibling_stop sound
  have apart : (nodesOf (left ++ right) ++ task.whole.part.stop :: task.rest.filter (· ∉ taken)).Nodup := by
    have distinct := sound.wellFormed.nodup task.container
    rw [site.listed] at distinct
    refine distinct.sublist ?_
    simp only [nodesOf_append, List.append_assoc, List.cons_append]
    have tail : (nodesOf left ++ (nodesOf right ++ task.whole.part.stop :: task.rest.filter (· ∉ taken))).Sublist
        (nodesOf left ++ (cell.plot.nodes ++
          (nodesOf right ++ task.whole.part.stop :: task.rest.filter (· ∉ taken)))) :=
      (List.sublist_append_right _ _).append_left _
    exact (tail.cons _).trans (List.sublist_append_right _ _)
  simp only [NodePart.moveBefore, RenderM.leads_bind, RenderM.leads_look, onward]
  split
  · rename_i next
    obtain ⟨rfl, rfl⟩ := cut_unique same apart next (anchor _ _)
    have lengths : ahead.length = first.length := by
      have := congrArg List.length (before.symm.trans ahead_plots)
      simpa using this
    obtain ⟨rfl, rfl⟩ := List.append_inj places lengths
    exact ⟨fun differ => absurd lengths differ, _, filling⟩
  · rename_i elsewhere
    obtain ⟨more, shape⟩ := List.head?_eq_some_iff.1
      (anchor task.whole.part.stop (task.rest.filter (· ∉ taken)))
    have begins : cell.plot.nodes.head? = some cell.plot.part.start := rfl
    have split : now.tree.childrenOf task.container =
        (task.front.filter (· ∉ taken) ++ task.whole.part.start :: nodesOf left) ++ cell.plot.nodes ++
          (nodesOf right ++ task.whole.part.stop :: task.rest.filter (· ∉ taken)) := by
      rw [site.listed]
      simp
    have rest : (task.front.filter (· ∉ taken) ++ task.whole.part.start :: nodesOf left) ++
        (nodesOf right ++ task.whole.part.stop :: task.rest.filter (· ∉ taken)) =
        (task.front.filter (· ∉ taken) ++ task.whole.part.start :: nodesOf one) ++
          anchorOf task.whole.part.stop second :: more := by
      rw [← shape]
      have := congrArg nodesOf same
      simp only [nodesOf_append] at this
      simp only [List.append_assoc, List.cons_append, ← List.append_assoc (nodesOf left), this]
    obtain ⟨changed, done, arranged⟩ := Tree.moveRun_eq sound.wellFormed split begins rest elsewhere
    simp only [RenderM.moveRun, RenderM.leads_bind, RenderM.leads_editInSteps, done, RenderM.leads_note,
      RenderM.leads_pure]
    have perm : (one ++ .plot cell.plot :: two).Perm (left ++ .plot cell.plot :: right) := by
      refine List.perm_middle.trans ((List.Perm.cons _ ?_).trans List.perm_middle.symm)
      rw [same]
    have cells : (first ++ cell :: second).Perm (ahead ++ cell :: behind) := by
      refine List.perm_middle.trans ((List.Perm.cons _ ?_).trans List.perm_middle.symm)
      rw [places]
    have edits : Edits task.realm.guest now.tree changed (fun id => id = task.container) [] :=
      .rearranged arranged rfl row.site.container_own
    have narrow : task.realm.Change now { now with scene.tree := changed } (fun id => id = task.container) [] :=
      lawful.change sound edits (fun _ same => same ▸ row.container_unstocked) rfl rfl (fun _ => Iff.rfl)
        (fun _ kept => kept) (fun _ => .inl) fun id _ _ => arranged.kindOf id
    refine ⟨fun _ => trivial, one ++ .plot cell.plot :: two, ?_⟩
    refine filling.permuted progress among pending (narrow.noted lawful (.moved cell.plot.nodes.length) (by simp))
      (fun _ => Iff.rfl) (arranged.kindOf _) (arranged.parentOf _) ?_ (by simp [ahead_plots, behind_plots]) perm cells
    refine (arranged.childrenOf _).trans ?_
    rw [if_pos rfl, ← shape]
    simp

end Filling

end DomParts.Layout.Task
