import DomParts.Proofs.Tree.Placing
import DomParts.Proofs.Tree.Siblings

/-! # Where a moved run goes

A run is moved node by node, and the next sibling is read before a node goes. So the walk meets the nodes
of the run and no others, unless a node that has been moved is the next sibling of one that has not. This
happens in one arrangement only: the run is to stay in its parent, right before the node that it ends
before. A run of at least two nodes then turns around forever.
-/

namespace DomParts.Tree

variable {tree changed next : Tree} {container source id start : NodeId} {before stop : Option NodeId}
  {front moved more run rest : List NodeId}

/-- What is put into a list does not come right behind a node that the place is not before, unless it goes before
    what stands behind that node. -/
theorem splice_around (distinct : (front ++ moved ++ id :: rest).Nodup)
    (anchored : ∀ anchor, before = some anchor → anchor ∈ front ++ moved ++ id :: rest)
    (fresh : ∀ child ∈ moved ++ [id], before ≠ some child) (ahead : before = rest.head? → moved = []) :
    ∃ first second, splice before moved (front ++ id :: rest) = first ++ id :: second ∧ second.head? = rest.head? := by
  by_cases inFront : ∃ anchor ∈ front, before = some anchor
  · obtain ⟨anchor, member, rfl⟩ := inFront
    obtain ⟨first, second, rfl⟩ := List.append_of_mem member
    rw [List.append_assoc, List.append_assoc, List.nodup_append'] at distinct
    have absent : anchor ∉ first := fun again => distinct.2.2 again (by simp)
    refine ⟨first ++ moved ++ anchor :: second, rest, ?_, rfl⟩
    rw [List.append_assoc, List.cons_append, splice_some absent]
    simp
  · have onward : ∀ child ∈ front ++ [id], before ≠ some child := by
      intro child member place
      rcases List.mem_append.1 member with among | same
      · exact inFront ⟨child, among, place⟩
      · exact fresh child (List.mem_append_right _ same) place
    refine ⟨front, splice before moved rest, ?_, ?_⟩
    · rw [List.append_cons, splice_append onward, ← List.append_cons]
    -- What went before the first node behind `id`, or behind all others while none is left, is nothing.
    · by_cases here : before = rest.head?
      · rw [ahead here]
        cases before <;> simp [splice]
      · cases rest with
        | cons first rest =>
            have other : before ≠ some first := here
            rw [splice_cons other, List.head?_cons, List.head?_cons]
        | nil =>
            cases before with
            | none => exact absurd rfl here
            | some anchor =>
                have listed := anchored anchor rfl
                rw [List.append_assoc, List.mem_append] at listed
                rcases listed with among | among
                · exact absurd ⟨anchor, among, rfl⟩ inFront
                · exact absurd rfl (fresh anchor among)

namespace Inserted

theorem none (sound : tree.WellFormed) (container : NodeId) (before : Option NodeId) :
    tree.Inserted tree container [] before where
  sound := sound
  size := rfl
  kindOf _ := rfl
  parentOf _ := by simp
  childrenOf other := by
    have all : (tree.childrenOf other).filter (· ∉ []) = tree.childrenOf other := by simp
    rw [all]
    cases before <;> simp [splice]

theorem append (first : tree.Inserted changed container moved before) (second : changed.Inserted next container more before)
    (earlier : ∀ id ∈ moved, before ≠ some id) (later : ∀ id ∈ more, before ≠ some id) (apart : List.Disjoint moved more) :
    tree.Inserted next container (moved ++ more) before where
  sound := second.sound
  size := second.size.trans first.size
  kindOf other := (second.kindOf other).trans (first.kindOf other)
  parentOf other := by
    rw [second.parentOf, first.parentOf]
    by_cases late : other ∈ more <;> simp [late]
  childrenOf other := by
    have left : ∀ ids : List NodeId, (ids.filter (· ∉ moved)).filter (· ∉ more) = ids.filter (· ∉ moved ++ more) := by
      intro ids
      rw [List.filter_filter]
      congr 1
      funext child
      simp [Bool.and_comm]
    have stays : ∀ anchor, before = some anchor → decide (anchor ∉ more) = true := by
      intro anchor place
      simpa using fun member => later anchor member place
    have kept : moved.filter (· ∉ more) = moved := by
      rw [List.filter_eq_self]
      intro child member
      simpa using fun again => apart member again
    rw [second.childrenOf, first.childrenOf]
    split
    · rw [filter_splice stays, kept, left, splice_splice earlier]
    · rw [left]

/-- What lies above the container is the same as before, as long as nothing of it is moved. -/
theorem ascends_iff (inserted : tree.Inserted changed container moved before)
    (free : ∀ id ∈ moved, ¬ tree.Ascends container id) : changed.Ascends container id ↔ tree.Ascends container id := by
  have same : ∀ id, tree.Ascends container id → changed.parentOf id = tree.parentOf id := by
    intro id way
    rw [inserted.parentOf, if_neg fun member => free id member way]
  constructor
  · intro way
    induction way with
    | refl => exact .refl
    | tail _ link ih => exact ih.tail ((same _ ih).symm.trans link)
  · intro way
    induction way with
    | refl => exact .refl
    | tail way link ih => exact ih.tail ((same _ way).trans link)

theorem anchored (inserted : tree.Inserted changed container moved before) (anchored : tree.Anchors container before)
    (fresh : ∀ id ∈ moved, before ≠ some id) : changed.Anchors container before := by
  intro anchor place
  have stays : anchor ∉ moved := fun member => fresh anchor member place
  rw [inserted.childrenOf, if_pos rfl, (splice_perm ..).mem_iff, List.mem_append, List.mem_filter]
  exact .inr ⟨anchored anchor place, by simpa using stays⟩

/-- Behind a node whose elder siblings of the run are gone stands what stood behind it before, unless they
    went right there. -/
theorem nextSibling_eq (inserted : tree.Inserted changed container moved before) (sound : tree.WellFormed)
    (split : tree.childrenOf source = front ++ moved ++ id :: rest) (anchored : tree.Anchors container before)
    (fresh : ∀ child ∈ moved ++ [id], before ≠ some child)
    (ahead : container = source → before = rest.head? → moved = []) : changed.nextSibling id = rest.head? := by
  have left : (tree.childrenOf source).filter (· ∉ moved) = front ++ id :: rest := by
    rw [split]
    exact filter_run (split ▸ sound.nodup source)
  by_cases elsewhere : source ≠ container
  · have children : changed.childrenOf source = front ++ id :: rest := by
      rw [inserted.childrenOf, if_neg elsewhere, left]
    exact inserted.sound.nextSibling_eq children
  · obtain rfl : source = container := not_not.1 elsewhere
    obtain ⟨first, second, parted, behind⟩ := splice_around (split ▸ sound.nodup source)
      (fun anchor place => split ▸ anchored anchor place) fresh (ahead rfl)
    have children : changed.childrenOf source = first ++ id :: second := by
      rw [inserted.childrenOf, if_pos rfl, left, parted]
    rw [inserted.sound.nextSibling_eq children, behind]

end Inserted

abbrev moving (container : NodeId) (before : Option NodeId) (tree : Tree) (id : NodeId) : Except HostFault Tree :=
  tree.insertBefore container id before

theorem moving_step (sound : tree.WellFormed) (split : tree.childrenOf source = front ++ moved ++ id :: rest)
    (inserted : tree.Inserted changed container moved before) (room : container < tree.size)
    (anchored : tree.Anchors container before) (fresh : ∀ child ∈ moved ++ [id], before ≠ some child)
    (free : ∀ child ∈ moved ++ [id], ¬ tree.Ascends container child) :
    ∃ next, moving container before changed id = .ok next ∧ tree.Inserted next container (moved ++ [id]) before := by
  have member : id ∈ tree.childrenOf source := by simp [split]
  have distinct := sound.nodup source
  rw [split, List.nodup_middle, List.nodup_cons] at distinct
  have new : id ∉ moved := fun again => distinct.1 (by simp [again])
  have earlier : ∀ child ∈ moved, before ≠ some child := fun child among => fresh child (List.mem_append_left _ among)
  have now : before ≠ some id := fresh id (by simp)
  have solid : changed.kindOf id ≠ some .fragment := by
    rw [inserted.kindOf]
    exact sound.solid_of_parent (sound.parentOf_of_mem member)
  have outside : ¬ changed.Ascends container id := by
    rw [inserted.ascends_iff fun child among => free child (List.mem_append_left _ among)]
    exact free id (by simp)
  obtain ⟨next, done, single⟩ := insertBefore_single inserted.sound (inserted.size ▸ room)
    (inserted.size ▸ sound.lt_size_of_mem member) solid (inserted.anchored anchored earlier) now
    ⟨changed.Ascends container, fun _ _ way link => way.tail link, .refl, outside⟩
  refine ⟨next, done, inserted.append single earlier ?_ ?_⟩
  · simpa using now
  · simpa using new

/-- The walk over a run: its nodes go one after the other, and then the walk stands before what follows the
    run. -/
theorem overRun_moving (moved run : List NodeId) (sound : tree.WellFormed)
    (split : tree.childrenOf source = front ++ moved ++ run ++ rest)
    (inserted : tree.Inserted changed container moved before) (room : container < tree.size)
    (anchored : tree.Anchors container before) (fresh : ∀ child ∈ moved ++ run, before ≠ some child)
    (free : ∀ child ∈ moved ++ run, ¬ tree.Ascends container child) (onward : ∀ child ∈ run, stop ≠ some child)
    (ahead : container = source → before = rest.head? → (moved ++ run).length ≤ 1) (fuel count : Nat) :
    ∃ last, tree.Inserted last container (moved ++ run) before ∧
      overRun (moving container before) stop (run.length + fuel) (run ++ rest).head? count changed =
        overRun (moving container before) stop fuel rest.head? (count + run.length) last := by
  induction run generalizing changed moved count with
  | nil => exact ⟨changed, by simpa using inserted, by simp⟩
  | cons id run ih =>
      have listed : tree.childrenOf source = front ++ moved ++ id :: (run ++ rest) := by simpa using split
      have some_fresh : ∀ child ∈ moved ++ [id], before ≠ some child := by
        intro child among
        apply fresh
        simp only [List.mem_append, List.mem_cons, List.not_mem_nil, or_false] at among ⊢
        tauto
      have some_free : ∀ child ∈ moved ++ [id], ¬ tree.Ascends container child := by
        intro child among
        apply free
        simp only [List.mem_append, List.mem_cons, List.not_mem_nil, or_false] at among ⊢
        tauto
      -- The place is before no node of the run, so moved nodes can only turn up behind the last one.
      have clear : container = source → before = (run ++ rest).head? → moved = [] := by
        intro home here
        cases run with
        | nil =>
            have short := ahead home here
            simp only [List.length_append, List.length_cons, List.length_nil] at short
            apply List.eq_nil_of_length_eq_zero
            omega
        | cons second run => exact absurd here (fresh second (by simp))
      obtain ⟨after, done, gone⟩ := moving_step sound listed inserted room anchored some_fresh some_free
      have joined : moved ++ [id] ++ run = moved ++ id :: run := by simp
      obtain ⟨last, arrived, walked⟩ := ih (moved ++ [id]) (by simpa using split) gone (by rwa [joined]) (by rwa [joined])
        (fun child among => onward child (List.mem_cons_of_mem _ among)) (by rwa [joined]) (count + 1)
      refine ⟨last, joined ▸ arrived, ?_⟩
      have longer : (id :: run).length + fuel = run.length + fuel + 1 := by
        rw [List.length_cons]
        omega
      rw [longer, List.cons_append, List.head?_cons, overRun_step (onward id (List.mem_cons_self ..)) done,
        inserted.nextSibling_eq sound listed anchored some_fresh clear, walked, List.length_cons]
      congr 1
      omega

theorem overRun_refused {fault : HostFault} {visit : Tree → NodeId → Except HostFault Tree} (onward : stop ≠ some id)
    (refused : visit tree id = .error fault) (fuel count : Nat) :
    overRun visit stop (fuel + 1) (some id) count tree = (.error fault, tree) := by
  rw [overRun.eq_def]
  simp [onward, refused]

theorem overRun_end {visit : Tree → NodeId → Except HostFault Tree} (ends : rest.head? = stop) (fuel count : Nat) :
    overRun visit stop fuel rest.head? count tree = (.ok count, tree) := by
  cases rest with
  | nil => exact overRun_none
  | cons first rest =>
      subst ends
      exact overRun_stop

/-- Moving a run from its parent `source` into a container, given where it starts and ends. -/
structure Moves (tree : Tree) (source container start : NodeId) (stop before : Option NodeId) : Prop where
  sound : tree.WellFormed
  above : tree.parentOf start = some source
  room : container < tree.size
  /-- The run ends with the last sibling or before a later one, if it is not empty. -/
  ends : ∀ id, stop = some id → id ∈ start :: tree.behind start
  /-- It is moved before a node that is not one of its own. -/
  known : ∀ anchor, before = some anchor → anchor < tree.size
  outside : ∀ id ∈ tree.run start stop, before ≠ some id

theorem moveRun_of_empty (none : tree.run start stop = []) : tree.moveRun container start stop before = (.ok 0, tree) := by
  rw [run_eq_nil_iff.1 none]
  exact overRun_stop

namespace Moves

variable (moves : tree.Moves source container start stop before)
include moves

theorem of_elsewhere (some : tree.run start stop ≠ []) {anchor : NodeId} (place : before = .some anchor)
    (elsewhere : anchor ∉ tree.childrenOf container) :
    tree.moveRun container start stop before = (.error (.notChild anchor container), tree) := by
  have onward : stop ≠ .some start := fun met => some (run_eq_nil_iff.2 met)
  have present := lt_size_of_parentOf moves.above
  obtain ⟨fuel, enough⟩ := Nat.exists_eq_succ_of_ne_zero (Nat.ne_zero_of_lt present)
  subst place
  have refused := moves.sound.insertBefore_elsewhere (moves.known anchor rfl) elsewhere start
  rw [moveRun, enough]
  exact overRun_refused onward refused fuel 0

theorem of_free (anchored : tree.Anchors container before) (free : ∀ id ∈ tree.run start stop, ¬ tree.Ascends container id)
    (ahead : container = source → before = stop → (tree.run start stop).length ≤ 1) :
    ∃ changed, tree.moveRun container start stop before = (.ok (tree.run start stop).length, changed) ∧
      tree.Inserted changed container (tree.run start stop) before := by
  obtain ⟨front, rest, split, ends, begins⟩ := moves.sound.run_split moves.above moves.ends
  have enough := moves.sound.length_run_le split
  obtain ⟨fuel, size⟩ := Nat.exists_eq_add_of_le enough
  obtain ⟨changed, arrived, walked⟩ := overRun_moving [] (tree.run start stop) moves.sound (by simpa using split)
    (.none moves.sound container before) moves.room anchored (by simpa using moves.outside) (by simpa using free)
    (fun child => ne_of_mem_run) (by simpa [ends] using ahead) fuel 0
  refine ⟨changed, ?_, by simpa using arrived⟩
  rw [moveRun, size, ← begins, walked, overRun_end ends, Nat.zero_add]

/-- The first node that the container lies below is refused. Those in front of it have gone by then. -/
theorem of_within (anchored : tree.Anchors container before) (parted : tree.run start stop = moved ++ id :: more)
    (free : ∀ child ∈ moved, ¬ tree.Ascends container child) (within : tree.Ascends container id) :
    ∃ changed, tree.moveRun container start stop before = (.error (.intoOwnSubtree id), changed) ∧
      tree.Inserted changed container moved before := by
  obtain ⟨front, rest, split, -, begins⟩ := moves.sound.run_split moves.above moves.ends
  have member : id ∈ tree.run start stop := by simp [parted]
  have listed : tree.childrenOf source = front ++ [] ++ moved ++ (id :: more ++ rest) := by simpa [parted] using split
  have away : container ≠ source := by
    intro home
    subst home
    exact moves.sound.not_ascends_child (by simp [listed]) within
  have enough := moves.sound.length_run_le split
  rw [parted, List.length_append, List.length_cons] at enough
  obtain ⟨fuel, size⟩ : ∃ fuel, tree.size = moved.length + (fuel + 1) := ⟨tree.size - moved.length - 1, by omega⟩
  have fresh : ∀ child ∈ moved, before ≠ some child := fun child among => moves.outside child (by simp [parted, among])
  have onward : ∀ child ∈ moved, stop ≠ some child := by
    intro child among
    have among : child ∈ tree.run start stop := by simp [parted, among]
    exact ne_of_mem_run among
  obtain ⟨changed, arrived, walked⟩ := overRun_moving [] moved moves.sound listed (.none moves.sound container before) moves.room
    anchored (by simpa using fresh) (by simpa using free) onward (fun home => absurd home away) (fuel + 1) 0
  rw [List.nil_append] at arrived
  have refused := arrived.sound.insertBefore_within (arrived.anchored anchored fresh) ((arrived.ascends_iff free).2 within)
  have here : (moved ++ (id :: more ++ rest)).head? = some start := by simpa [parted] using begins
  refine ⟨changed, ?_, arrived⟩
  rw [moveRun, size, ← here, walked, List.cons_append, List.head?_cons]
  exact overRun_refused (ne_of_mem_run member) refused fuel _

/-- What comes of moving a run, unless two or more of its nodes are to stay in their parent, right before the end
    of the run. The walk comes to its end; it fails if the place is not in the container or the container lies below a
    node of the run, and the nodes in front of that one have gone then. -/
theorem settled (ahead : container = source → before = stop → (tree.run start stop).length ≤ 1) :
    (tree.run start stop = [] → tree.moveRun container start stop before = (.ok 0, tree)) ∧
    (tree.run start stop ≠ [] → ∀ anchor, before = some anchor → anchor ∉ tree.childrenOf container →
      tree.moveRun container start stop before = (.error (.notChild anchor container), tree)) ∧
    (tree.Anchors container before → (∀ id ∈ tree.run start stop, ¬ tree.Ascends container id) →
      ∃ changed, tree.moveRun container start stop before = (.ok (tree.run start stop).length, changed) ∧
        tree.Inserted changed container (tree.run start stop) before) ∧
    ∀ moved id more, tree.Anchors container before → tree.run start stop = moved ++ id :: more →
      (∀ child ∈ moved, ¬ tree.Ascends container child) → tree.Ascends container id →
      ∃ changed, tree.moveRun container start stop before = (.error (.intoOwnSubtree id), changed) ∧
        tree.Inserted changed container moved before :=
  ⟨moveRun_of_empty, fun some _ place elsewhere => moves.of_elsewhere some place elsewhere,
    fun anchored free => moves.of_free anchored free ahead,
    fun _ _ _ anchored parted free within => moves.of_within anchored parted free within⟩

end Moves

/-- The children of one node in another order, and nothing else changed. -/
structure Rearranged (tree changed : Tree) (container : NodeId) (children : List NodeId) : Prop where
  sound : changed.WellFormed
  size : changed.size = tree.size
  kindOf : ∀ id, changed.kindOf id = tree.kindOf id
  parentOf : ∀ id, changed.parentOf id = tree.parentOf id
  childrenOf : ∀ id, changed.childrenOf id = if id = container then children else tree.childrenOf id

/-- Children that are moved within their parent leave everything else as it is. -/
theorem Inserted.rearranged {anchor : NodeId} {left right : List NodeId}
    (inserted : tree.Inserted changed container run (some anchor)) (sound : tree.WellFormed)
    (split : tree.childrenOf container = front ++ run ++ rest) (others : front ++ rest = left ++ anchor :: right) :
    tree.Rearranged changed container (left ++ run ++ anchor :: right) := by
  have distinct := sound.nodup container
  rw [split] at distinct
  have own : ∀ id ∈ run, tree.parentOf id = some container := by
    intro id member
    apply sound.parentOf_of_mem
    simp [split, member]
  refine ⟨inserted.sound, inserted.size, inserted.kindOf, fun id => ?_, fun id => ?_⟩
  · rw [inserted.parentOf]
    split
    · exact (own id ‹_›).symm
    · rfl
  · rw [inserted.childrenOf]
    split
    · have kept : (front ++ rest).Nodup := filter_run distinct ▸ distinct.filter _
      rw [others] at kept
      have absent : anchor ∉ left := fun among => List.disjoint_of_nodup_append kept among (List.mem_cons_self ..)
      subst id
      rw [split, filter_run distinct, others, splice_some absent]
    · apply List.filter_eq_self.2
      intro child among
      have away : child ∉ run := fun member =>
        ‹id ≠ container› (Option.some.inj ((sound.parentOf_of_mem among).symm.trans (own child member)))
      simpa using away

/-- Where a run goes when it is moved within its parent before `anchor`, given what stands around it. -/
theorem moveRun_eq {anchor : NodeId} {left right : List NodeId} (sound : tree.WellFormed)
    (split : tree.childrenOf container = front ++ run ++ rest) (begins : run.head? = some start)
    (others : front ++ rest = left ++ anchor :: right) (notNext : rest.head? ≠ some anchor) :
    ∃ changed, tree.moveRun container start rest.head? (some anchor) = (.ok run.length, changed) ∧
      tree.Rearranged changed container (left ++ run ++ anchor :: right) := by
  have distinct := sound.nodup container
  rw [split, List.append_assoc, List.nodup_append'] at distinct
  obtain ⟨-, parts, apart⟩ := distinct
  have anchored : tree.Anchors container (some anchor) := by
    intro other same
    have among : anchor ∈ front ++ rest := by simp [others]
    rw [← Option.some.inj same, split, List.append_assoc]
    rcases List.mem_append.1 among with here | there
    · exact List.mem_append_left _ here
    · exact List.mem_append_right _ (List.mem_append_right _ there)
  have fresh : ∀ child ∈ run, some anchor ≠ some child := by
    intro child member same
    have among : child ∈ front ++ rest := by simp [others, Option.some.inj same]
    rcases List.mem_append.1 among with here | there
    · exact apart here (List.mem_append_left _ member)
    · exact List.disjoint_of_nodup_append parts member there
  have free : ∀ child ∈ run, ¬ tree.Ascends container child := by
    intro child member
    apply sound.not_ascends_child
    simp [split, member]
  have onward : ∀ child ∈ run, rest.head? ≠ some child := fun child member same =>
    List.disjoint_of_nodup_append parts member (List.mem_of_head? same)
  have room : container < tree.size := by
    have member : start ∈ tree.childrenOf container := by simp [split, List.mem_of_head? begins]
    exact lt_size_of_mem_childrenOf member
  obtain ⟨fuel, size⟩ := Nat.exists_eq_add_of_le (sound.length_run_le split)
  obtain ⟨changed, arrived, walked⟩ := overRun_moving [] run sound (by simpa using split)
    (.none sound container (some anchor)) room anchored (by simpa using fresh) (by simpa using free) onward
    (fun _ here => absurd here.symm notNext) fuel 0
  rw [List.nil_append] at arrived
  have here : (run ++ rest).head? = some start := by simp [begins]
  refine ⟨changed, ?_, arrived.rearranged sound split others⟩
  rw [moveRun, size, ← here, walked, overRun_end rfl, Nat.zero_add]

/-- The first node of a run that is to stay where it is goes behind the last one. -/
theorem moving_turn {first : NodeId} (sound : tree.WellFormed)
    (split : tree.childrenOf source = front ++ first :: run ++ rest) :
    ∃ changed, moving source rest.head? tree first = .ok changed ∧ changed.WellFormed ∧
      changed.childrenOf source = front ++ (run ++ [first]) ++ rest := by
  have listed : tree.childrenOf source = front ++ [] ++ first :: (run ++ rest) := by simpa using split
  have member : first ∈ tree.childrenOf source := by simp [split]
  have onward := sound.head?_ne_of_listed (List.append_nil front ▸ listed)
  have anchored : tree.Anchors source rest.head? := by
    intro anchor place
    rw [split]
    exact List.mem_append_right _ (List.mem_of_head? place)
  have free : ¬ tree.Ascends source first := sound.not_ascends_child member
  obtain ⟨changed, done, inserted⟩ := moving_step sound listed (.none sound source rest.head?)
    (lt_size_of_mem_childrenOf member) anchored (by simpa using onward) (by simpa using free)
  refine ⟨changed, done, inserted.sound, ?_⟩
  have turning : tree.childrenOf source = front ++ [first] ++ (run ++ rest) := by simpa using split
  have distinct := sound.nodup source
  rw [turning] at distinct
  have apart : (front ++ run ++ rest).Nodup := by
    rw [List.append_assoc, ← filter_run distinct]
    exact distinct.filter _
  have left : (tree.childrenOf source).filter (· ∉ [] ++ [first]) = front ++ run ++ rest := by
    rw [turning, List.nil_append, filter_run distinct, List.append_assoc]
  rw [inserted.childrenOf, if_pos rfl, left, splice_head apart]
  simp

/-- A run that is to stay where it is turns around: its first node goes behind its last, and the next one is
    the first now. However long the walk is, it does not end. -/
theorem overRun_turns (sound : tree.WellFormed) (split : tree.childrenOf source = front ++ run ++ rest)
    (long : 2 ≤ run.length) (fuel count : Nat) :
    (overRun (moving source rest.head?) rest.head? fuel run.head? count tree).1 = .error .endlessRun := by
  induction fuel generalizing tree run count with
  | zero =>
      cases run with
      | nil => cases long
      | cons first run =>
          have listed : tree.childrenOf source = front ++ first :: (run ++ rest) := by simpa using split
          have onward := sound.head?_ne_of_listed listed
          rw [List.head?_cons, overRun.eq_def]
          simp [onward]
  | succ fuel ih =>
      rcases run with _ | ⟨first, _ | ⟨second, run⟩⟩
      · cases long
      · simp at long
      · have listed : tree.childrenOf source = front ++ first :: (second :: run ++ rest) := by simpa using split
        obtain ⟨changed, done, well, turned⟩ := moving_turn sound split
        rw [List.head?_cons, overRun_step (sound.head?_ne_of_listed listed) done, sound.nextSibling_eq listed]
        exact ih well turned (by simp) (count + 1)

/-- Two or more nodes that are to stay in their parent, right before the end of their run, are moved forever. -/
theorem Moves.endless (moves : tree.Moves source source start stop stop) (long : 2 ≤ (tree.run start stop).length)
    (fuel : Nat) : (overRun (moving source stop) stop fuel (some start) 0 tree).1 = .error .endlessRun := by
  obtain ⟨front, rest, split, ends, begins⟩ := moves.sound.run_split moves.above moves.ends
  have first : (tree.run start stop).head? = some start := by
    apply head?_run
    intro met
    rw [run_eq_nil_iff.2 met] at long
    cases long
  subst ends
  rw [← first]
  exact overRun_turns moves.sound split long fuel 0

end DomParts.Tree
