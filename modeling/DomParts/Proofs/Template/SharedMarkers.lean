import DomParts.Proofs.Render.Blank
import DomParts.Proofs.Template.FirstValues

/-! # Parts that share a marker

If two node slots of a template are at the same marker, an instance is made all the same: the part that is bound
later has its end marker in front of the other one's. Whatever texts they are given, the part that is bound
first removes the other one's end marker, and the other one then has no place to put its text.
-/

namespace DomParts

open RenderM

variable {σ : Type}

/-- Of a list without duplicates, what is among the members of a part of it is in order there. -/
theorem sublist_of_subset {α : Type} {ones part all : List α} (distinct : all.Nodup) (kept : part.Sublist all)
    (ordered : ones.Sublist all) (among : ones ⊆ part) : ones.Sublist part := by
  induction kept generalizing ones with
  | slnil => exact ordered
  | cons first kept ih =>
      rw [List.nodup_cons] at distinct
      cases ordered with
      | cons _ ordered => exact ih distinct.2 ordered among
      | cons_cons _ ordered => exact absurd (kept.subset (among (List.mem_cons_self ..))) distinct.1
  | @cons_cons part all first kept ih =>
      rw [List.nodup_cons] at distinct
      have rest : ∀ {others : List α}, others.Sublist all → others ⊆ first :: part → others ⊆ part := by
        intro others inside each id member
        apply (List.mem_cons.1 (each member)).resolve_left
        rintro rfl
        exact distinct.1 (inside.subset member)
      cases ordered with
      | cons _ ordered => exact (ih distinct.2 ordered (rest ordered among)).cons _
      | cons_cons _ ordered =>
          apply (ih distinct.2 ordered (rest ordered ?_)).cons_cons
          exact fun id member => among (List.mem_cons_of_mem _ member)

namespace Tree

variable {tree changed : Tree} {id parent : NodeId}

/-- A tree that nodes were detached in and new ones were added to. What is left keeps its order. -/
structure Thinned (tree changed : Tree) : Prop where
  sound : changed.WellFormed
  size_le : tree.size ≤ changed.size
  childrenOf : ∀ id, ((changed.childrenOf id).filter (· < tree.size)).Sublist (tree.childrenOf id)
  isText : ∀ id, id < tree.size → changed.isText id = tree.isText id

namespace Thinned

theorem refl (sound : tree.WellFormed) : tree.Thinned tree := ⟨sound, Nat.le_refl _, fun _ => List.filter_sublist, fun _ _ => rfl⟩

theorem setKind {kind : Kind} (sound : tree.WellFormed) (inside : id < tree.size) (named : kind.attributeNames.Nodup)
    (solid : kind ≠ .fragment) (text : kind.isText = tree.isText id) : tree.Thinned (tree.setKind id kind) where
  sound := sound.setKind inside named solid
  size_le := Nat.le_of_eq size_setKind.symm
  childrenOf other := by
    rw [childrenOf_setKind]
    exact List.filter_sublist
  isText other _ := by
    rw [Tree.isText, kindOf_setKind inside]
    split
    · rename_i same
      rw [same]
      exact text
    · rfl

variable (thinned : tree.Thinned changed)
include thinned

theorem parentOf (sound : tree.WellFormed) (inside : id < tree.size) (above : changed.parentOf id = some parent) :
    tree.parentOf id = some parent := by
  apply sound.parentOf_of_mem
  apply (thinned.childrenOf parent).subset
  exact List.mem_filter.2 ⟨thinned.sound.mem_childrenOf above, by simpa using inside⟩

theorem parentOf_none (sound : tree.WellFormed) (inside : id < tree.size) (alone : tree.parentOf id = none) :
    changed.parentOf id = none := by
  cases above : changed.parentOf id with
  | none => rfl
  | some parent => cases alone.symm.trans (thinned.parentOf sound inside above)

theorem ordered (sound : tree.WellFormed) {ids : List NodeId} (ordered : ids.Sublist (tree.childrenOf parent))
    (left : ids ⊆ changed.childrenOf parent) : ids.Sublist (changed.childrenOf parent) := by
  apply (sublist_of_subset (sound.nodup parent) (thinned.childrenOf parent) ordered ?_).trans List.filter_sublist
  intro id member
  exact List.mem_filter.2 ⟨left member, by simpa using sound.lt_size_of_mem (ordered.subset member)⟩

end Thinned

/-- The next sibling of a node is in front of all others that follow the node. -/
theorem WellFormed.next_between (sound : tree.WellFormed) {start next last : NodeId}
    (behind : tree.nextSibling start = some next) (ordered : [start, last].Sublist (tree.childrenOf parent))
    (other : last ≠ next) : [start, next, last].Sublist (tree.childrenOf parent) := by
  have listed : start ∈ tree.childrenOf parent := ordered.subset (by simp)
  obtain ⟨before, split⟩ := sound.split_at (sound.parentOf_of_mem listed)
  have later := sound.mem_behind ordered
  rw [nextSibling_eq_behind] at behind
  obtain ⟨beyond, follows⟩ := List.head?_eq_some_iff.1 behind
  rw [follows] at split later
  have later := (List.mem_cons.1 later).resolve_left other
  rw [split]
  exact (((List.singleton_sublist.2 later).cons_cons next).cons_cons start).trans (List.sublist_append_right ..)

theorem parentOf_of_insertBefore {before : NodeId} (done : tree.insertBefore parent id (some before) = .ok changed) :
    tree.parentOf before = some parent := by
  unfold insertBefore at done
  split at done
  · cases done
  · rename_i allowed
    by_contra other
    rw [insertFault?, Option.bind_some, referenceFault?] at allowed
    by_cases known : tree.has before <;> simp [known, other] at allowed

/-- A new node without children is inserted before a child, and nothing else happens. -/
theorem insertBefore_leaf {before : NodeId} {kind : Kind} (sound : tree.WellFormed) (alone : tree.parentOf id = none)
    (bare : tree.childrenOf id = []) (standing : tree.kindOf id = some kind) (solid : kind ≠ .fragment)
    (done : tree.insertBefore parent id (some before) = .ok changed) :
    changed.WellFormed ∧ changed.size = tree.size ∧ (∀ other, changed.kindOf other = tree.kindOf other) ∧
      (∀ other, other ≠ id → changed.parentOf other = tree.parentOf other) ∧
      ∀ other, (changed.childrenOf other).filter (· ≠ id) = tree.childrenOf other := by
  have above := parentOf_of_insertBefore done
  have listed := sound.mem_childrenOf above
  obtain ⟨left, right, split⟩ := List.append_of_mem listed
  have unlisted : ∀ other, id ∉ tree.childrenOf other := by
    intro other member
    cases alone.symm.trans (sound.parentOf_of_mem member)
  have away : id ≠ parent := by
    rintro rfl
    rw [bare] at listed
    cases listed
  obtain ⟨_, done', inserted, children, others⟩ := insertBefore_alone id sound (sound.lt_size_of_parent above) split alone
    bare standing solid away
  rw [List.head?_cons] at done'
  cases done.symm.trans done'
  refine ⟨inserted.sound, inserted.size, inserted.kindOf, fun other different => ?_, fun other => ?_⟩
  · rw [inserted.parentOf, if_neg (by simpa using different)]
  · have keeps : ∀ ids : List NodeId, id ∉ ids → ids.filter (· ≠ id) = ids := by
      intro ids absent
      rw [List.filter_eq_self]
      intro other member
      simpa using fun same : other = id => absent (same ▸ member)
    by_cases here : other = parent
    · subst here
      have absent := unlisted other
      rw [split, List.mem_append, not_or] at absent
      rw [children, split, List.filter_append, List.filter_cons, keeps left absent.1, keeps _ absent.2]
      simp
    · rw [others other here, keeps _ (unlisted other)]

theorem WellFormed.thinned (sound : tree.WellFormed) {kind : Kind} {ids : List NodeId} {before : NodeId}
    (named : kind.attributeNames.Nodup) (solid : kind ≠ .fragment) (present : ∀ id ∈ ids, id < tree.size)
    (done : ((tree.create kind).2.detachAll ids).insertBefore parent tree.size (some before) = .ok changed) :
    tree.Thinned changed ∧ tree.parentOf before = some parent ∧ ∀ id ∈ ids, changed.parentOf id = none := by
  have created := sound.create named
  have alone : ((tree.create kind).2.detachAll ids).parentOf tree.size = none := by
    rw [parentOf_detachAll, parentOf_create, parentOf_of_size_le (Nat.le_refl _), ite_self]
  have bare : ((tree.create kind).2.detachAll ids).childrenOf tree.size = [] := by
    rw [childrenOf_detachAll created, childrenOf_create, childrenOf_of_size_le (Nat.le_refl _), List.filter_nil]
  have standing : ((tree.create kind).2.detachAll ids).kindOf tree.size = some kind := by
    rw [kindOf_detachAll, kindOf_create, if_pos rfl]
  obtain ⟨still, size, kinds, parents, children⟩ := insertBefore_leaf (created.detachAll ids) alone bare standing solid done
  have above := parentOf_of_insertBefore done
  rw [parentOf_detachAll, parentOf_create] at above
  refine ⟨⟨still, ?_, fun id => ?_, fun id inside => ?_⟩, ?_, fun id member => ?_⟩
  · rw [size, size_detachAll, size_create]
    exact Nat.le_succ _
  · have old : (changed.childrenOf id).filter (· < tree.size) =
        ((changed.childrenOf id).filter (· ≠ tree.size)).filter (· < tree.size) := by
      rw [List.filter_filter]
      apply List.filter_congr
      intro child _
      simp only [← Bool.decide_and, decide_eq_decide]
      exact ⟨fun inside => ⟨inside, Nat.ne_of_lt inside⟩, And.left⟩
    rw [old, children, childrenOf_detachAll created, childrenOf_create]
    exact List.filter_sublist.trans List.filter_sublist
  · rw [Tree.isText, kinds, kindOf_detachAll, kindOf_create, if_neg (Nat.ne_of_lt inside)]
    rfl
  · rw [Option.ite_none_left_eq_some] at above
    exact above.2
  · rw [parents id (Nat.ne_of_lt (present id member)), parentOf_detachAll, if_pos member]

end Tree

namespace NodePart

variable {scene : Scene σ} {part : NodePart}

/-- Giving an empty part a text. If that goes well, the part's markers have the same parent, and of what stood between
    them nothing is left there but maybe a text. Nothing else happens to the nodes that there were. -/
theorem text_thins (sound : scene.tree.WellFormed) (empty : part.content = .empty) (data : String) :
    (Render.text data part : RenderM σ Content).Leads scene
      (fun _ after => scene.tree.Thinned after.tree ∧
        (∃ parent, scene.tree.parentOf part.start = some parent ∧ scene.tree.parentOf part.stop = some parent) ∧
        ∀ id ∈ part.clears scene.tree, scene.tree.isText id = false → after.tree.parentOf id = none)
      fun _ _ => True := by
  have other : part.content.text? ≠ some data := by simp [empty, Content.text?]
  rw [Render.text, if_neg other]
  simp only [loneText?, leads_bind, leads_look]
  cases lone : (scene.tree.nextSibling part.start).filter fun first =>
      scene.tree.isText first && scene.tree.nextSibling first == some part.stop with
  | some first =>
      obtain ⟨behind, both⟩ := Option.filter_eq_some_iff.1 lone
      obtain ⟨text, last⟩ := Bool.and_eq_true_iff.1 both
      rw [beq_iff_eq] at last
      have inside := Tree.lt_size_of_isText text
      simp only [leads_bind, leads_note, leads_edit, Scene.add, Layout.setText_eq text, leads_pure]
      refine ⟨.setKind sound inside List.nodup_nil (by simp) text.symm, ?_, ?_⟩
      · exact (clears_lone sound behind last).2
      · intro id member solid
        rw [(clears_lone sound behind last).1, List.mem_singleton] at member
        subst member
        cases text.symm.trans solid
  | none =>
      have named : (Kind.text data).attributeNames.Nodup := List.nodup_nil
      have solid : Kind.text data ≠ .fragment := by simp
      have created := sound.create named
      have same : part.clears (scene.tree.create (.text data)).2 = part.clears scene.tree := by
        simp [clears, Tree.behind]
      simp only [leads_bind, leads_create]
      refine Leads.mono (removeContent_takes created part) ?_ fun _ _ _ => trivial
      rintro ⟨⟩ after ⟨-, gone⟩
      simp only [insertContent, container, leads_bind, leads_look, leads_require]
      cases above : after.tree.parentOf part.start with
      | none => trivial
      | some parent =>
          simp only [RenderM.insert, leads_edit]
          cases done : after.tree.insertBefore parent scene.tree.size (some part.stop) with
          | error fault => trivial
          | ok changed =>
              rw [gone, same] at done
              obtain ⟨thinned, before, detached⟩ := sound.thinned named solid (fun id => lt_size_of_clears sound) done
              rw [gone, Tree.parentOf_detachAll, Tree.parentOf_create, Option.ite_none_left_eq_some] at above
              exact ⟨thinned, ⟨parent, above.2, before⟩, fun id member _ => detached id member⟩

theorem mem_clears {tree : Tree} {id parent : NodeId} (sound : tree.WellFormed)
    (ordered : [part.start, id, part.stop].Sublist (tree.childrenOf parent)) : id ∈ part.clears tree := by
  obtain ⟨before, rest, split, start, ordered⟩ := List.cons_sublist_iff.1 ordered
  obtain ⟨middle, last, rfl, inner, stop⟩ := List.cons_sublist_iff.1 ordered
  rw [List.singleton_sublist] at stop
  obtain ⟨front, more, rfl⟩ := List.append_of_mem start
  have whole : tree.childrenOf parent = (front ++ part.start :: (more ++ middle)) ++ last := by simpa using split
  have behind : tree.behind part.start = (more ++ middle) ++ last := sound.behind_eq (by simpa using split)
  have distinct := sound.nodup parent
  rw [whole] at distinct
  have onward : ∀ other ∈ more ++ middle, decide (some other ≠ some part.stop) = true := by
    rintro other member
    rw [decide_eq_true_eq]
    intro same
    apply List.disjoint_of_nodup_append distinct _ stop
    rw [← Option.some.inj same]
    exact List.mem_append_right _ (List.mem_cons_of_mem _ member)
  rw [clears, behind, Tree.upTo, List.takeWhile_append_of_pos onward]
  exact List.mem_append_left _ (List.mem_append_right _ inner)

end NodePart

/-- The end marker `inner` stands between the markers `start` and `outer` of a part, as long as all are attached. -/
structure Tree.Nested (tree : Tree) (start inner outer : NodeId) : Prop where
  start_lt : start < tree.size
  inner_lt : inner < tree.size
  outer_lt : outer < tree.size
  solid : tree.isText inner = false
  ordered : ∀ parent, tree.parentOf start = some parent → tree.parentOf outer = some parent →
    (∃ other, tree.parentOf inner = some other) → [start, inner, outer].Sublist (tree.childrenOf parent)

theorem Tree.Nested.of_ordered {tree : Tree} {start inner outer parent : NodeId} (sound : tree.WellFormed)
    (ordered : [start, inner, outer].Sublist (tree.childrenOf parent)) (marker : tree.isMarker inner = true) :
    tree.Nested start inner outer where
  start_lt := sound.lt_size_of_mem (ordered.subset (by simp))
  inner_lt := sound.lt_size_of_mem (ordered.subset (by simp))
  outer_lt := sound.lt_size_of_mem (ordered.subset (by simp))
  solid := by simp [Tree.isText, Tree.isMarker_iff.1 marker, Kind.isText, Kind.marker]
  ordered other above _ _ := by
    have listed : start ∈ tree.childrenOf parent := ordered.subset (by simp)
    obtain rfl := sound.unique listed (sound.mem_childrenOf above)
    exact ordered

theorem Tree.Nested.thinned {tree changed : Tree} {start inner outer : NodeId} (nested : tree.Nested start inner outer)
    (sound : tree.WellFormed) (thinned : tree.Thinned changed) : changed.Nested start inner outer where
  start_lt := Nat.lt_of_lt_of_le nested.start_lt thinned.size_le
  inner_lt := Nat.lt_of_lt_of_le nested.inner_lt thinned.size_le
  outer_lt := Nat.lt_of_lt_of_le nested.outer_lt thinned.size_le
  solid := (thinned.isText inner nested.inner_lt).trans nested.solid
  ordered := by
    rintro parent first last ⟨other, above⟩
    have ordered := nested.ordered parent (thinned.parentOf sound nested.start_lt first)
      (thinned.parentOf sound nested.outer_lt last) ⟨other, thinned.parentOf sound nested.inner_lt above⟩
    have listed : inner ∈ tree.childrenOf parent := ordered.subset (by simp)
    obtain rfl := sound.unique listed (sound.mem_childrenOf (thinned.parentOf sound nested.inner_lt above))
    apply thinned.ordered sound ordered
    intro id member
    simp only [List.mem_cons, List.not_mem_nil, or_false] at member
    obtain rfl | rfl | rfl := member
    exacts [thinned.sound.mem_childrenOf first, thinned.sound.mem_childrenOf above, thinned.sound.mem_childrenOf last]

namespace Part

variable {scene : Scene σ} {part : Part} {parts : List Part} {one two : NodePart} {texts : List String}

theorem commit_node_thins (sound : scene.tree.WellFormed) {part : NodePart} (empty : part.content = .empty) (data : String) :
    (((Part.node part).stage (.text data)).commitWith (Render.text data)).orThrow.Leads scene
      (fun _ after => scene.tree.Thinned after.tree ∧
        (∃ parent, scene.tree.parentOf part.start = some parent ∧ scene.tree.parentOf part.stop = some parent) ∧
        ∀ id ∈ part.clears scene.tree, scene.tree.isText id = false → after.tree.parentOf id = none)
      fun _ _ => True := by
  have settled : (part.stage (.text data)).commitWith (Render.text data : Renderer σ) =
      ({ part with pending := none } : NodePart).settle (Render.text data) := by
    cases part
    cases empty
    rfl
  have blank : ({ part with pending := none } : NodePart).content = .empty := empty
  rw [commitWith_node _ ⟨.text data, Render.text data⟩, leads_orThrow_map, settled, NodePart.settle, leads_orThrow_carry,
    NodePart.attend_leads]
  exact NodePart.text_thins sound blank data

theorem commit_thins (sound : scene.tree.WellFormed) (blank : part.Blank) (data : String) :
    ((part.stage (.text data)).commitWith (Render.text data)).orThrow.Leads scene
      (fun _ after => scene.tree.Thinned after.tree) fun _ _ => True := by
  cases part with
  | node part => exact (commit_node_thins sound blank data).imp fun _ _ => And.left
  | «attribute» part =>
      rw [commitWith_attribute _ ⟨.text data, Render.text data⟩, leads_orThrow_map, AttributePart.assign]
      split
      · exact .refl sound
      · rw [leads_orThrow_carry, leads_edit]
        cases done : scene.tree.setAttribute part.element part.name data with
        | error fault => trivial
        | ok changed =>
            obtain ⟨tag, attributes, standing, rfl⟩ := Tree.of_changeAttributes done
            have text : scene.tree.isText part.element = false := by simp [Tree.isText, standing, Kind.isText]
            exact .setKind sound (Tree.lt_size_of_kindOf standing) (Attributes.nodup_set (sound.named _ _ standing))
              (by simp) text.symm

theorem commitEach_refused (sound : scene.tree.WellFormed) (blank : ∀ part ∈ parts, part.Blank) {part : NodePart}
    (member : .node part ∈ parts) (inside : part.stop < scene.tree.size) (alone : scene.tree.parentOf part.stop = none)
    (length : texts.length = parts.length) :
    (commitEach (parts.zipWith (fun part data => (part.stage (.text data), Render.text data)) texts)).orThrow.Leads scene
      (fun _ _ => False) fun _ _ => True := by
  induction parts generalizing scene texts with
  | nil => cases member
  | cons first parts ih =>
      obtain ⟨data, texts, rfl⟩ := List.exists_cons_of_length_eq_add_one length
      rw [List.forall_mem_cons] at blank
      rw [List.zipWith_cons_cons, leads_commitEach]
      rcases List.mem_cons.1 member with rfl | member
      · apply (commit_node_thins sound blank.1 data).imp ?_
        rintro _ after ⟨-, ⟨parent, -, above⟩, -⟩
        cases alone.symm.trans above
      · apply (commit_thins sound blank.1 data).imp ?_
        intro _ after thinned
        exact ih thinned.sound blank.2 member (Nat.lt_of_lt_of_le inside thinned.size_le)
          (thinned.parentOf_none sound inside alone) (Nat.succ.inj length)

/-- Of two parts with the same start marker, the one that comes first in the list removes the end marker of the other
    one if that is in front of its own. -/
theorem commitEach_nested (sound : scene.tree.WellFormed) (blank : ∀ part ∈ parts, part.Blank)
    (listed : [.node one, .node two].Sublist parts) (nested : scene.tree.Nested one.start two.stop one.stop)
    (length : texts.length = parts.length) :
    (commitEach (parts.zipWith (fun part data => (part.stage (.text data), Render.text data)) texts)).orThrow.Leads scene
      (fun _ _ => False) fun _ _ => True := by
  induction parts generalizing scene texts with
  | nil => cases listed
  | cons first parts ih =>
      obtain ⟨data, texts, rfl⟩ := List.exists_cons_of_length_eq_add_one length
      rw [List.forall_mem_cons] at blank
      rw [List.zipWith_cons_cons, leads_commitEach]
      cases listed with
      | cons _ listed =>
          apply (commit_thins sound blank.1 data).imp ?_
          intro _ after thinned
          exact ih thinned.sound blank.2 listed (nested.thinned sound thinned) (Nat.succ.inj length)
      | cons_cons _ listed =>
          apply (commit_node_thins sound blank.1 data).imp ?_
          rintro _ after ⟨thinned, ⟨parent, start, stop⟩, cleared⟩
          have member := List.singleton_sublist.1 listed
          have inside := Nat.lt_of_lt_of_le nested.inner_lt thinned.size_le
          refine commitEach_refused thinned.sound blank.2 member inside ?_ (Nat.succ.inj length)
          cases above : scene.tree.parentOf two.stop with
          | none => exact thinned.parentOf_none sound nested.inner_lt above
          | some other =>
              exact cleared _ (NodePart.mem_clears sound (nested.ordered parent start stop ⟨other, above⟩)) nested.solid

section Binding

variable {nodes : List NodeId} {slots : List Slot} {index : Nat} {start outer parent : NodeId}

variable (sound : scene.tree.WellFormed) (attached : ∀ id ∈ nodes, ∃ parent, scene.tree.parentOf id = some parent)
include sound attached

/-- A part that is bound to a marker later has its end marker in front of all that stood behind the marker. -/
theorem bindAll_follows (found : nodes[index]? = some start) (ordered : [start, outer].Sublist (scene.tree.childrenOf parent))
    (member : .node index ∈ slots) : (slots.mapM (Part.bind nodes) : RenderM σ (List Part)).Leads scene
      (fun parts after => ∃ two : NodePart, .node two ∈ parts ∧ after.tree.Nested start two.stop outer)
      fun _ _ => True := by
  induction slots generalizing scene with
  | nil => cases member
  | cons slot slots ih =>
      simp only [List.mapM_cons, leads_bind, leads_pure]
      apply (bind_seats sound attached slot).mono ?_ fun _ _ _ => trivial
      rintro part middle ⟨-, furnished, seated, stop⟩
      have still := furnished.attached attached
      have ordered' := furnished.ordered ordered
      rcases List.mem_cons.1 member with rfl | member
      · apply (bindAll_seats furnished.sound still slots).mono ?_ fun _ _ _ => trivial
        rintro parts after ⟨-, rest, -, -⟩
        cases seated with
        | @node _ _ last found' opens behind closes =>
            obtain rfl := Option.some.inj (found.symm.trans found')
            rw [stop?, Slot.mark?, found, Option.map_some, Option.some.injEq] at stop
            have old : outer < scene.tree.size := sound.lt_size_of_mem (ordered.subset (by simp))
            have other : outer ≠ last := fun same => Nat.ne_of_lt old (same.trans stop)
            have present := Tree.lt_size_of_kindOf (Tree.isMarker_iff.1 closes)
            have between := furnished.sound.next_between behind ordered' other
            exact ⟨.between start last, List.mem_cons_self ..,
              .of_ordered rest.sound (rest.ordered between) ((rest.isMarker present).trans closes)⟩
      · apply (ih furnished.sound still ordered' member).imp ?_
        rintro parts after ⟨two, listed, nested⟩
        exact ⟨two, List.mem_cons_of_mem _ listed, nested⟩

/-- Of two parts that are bound to the same marker, the later one has its end marker in front of the other one's. -/
theorem bindAll_nested (doubled : [.node index, .node index].Sublist slots) :
    (slots.mapM (Part.bind nodes) : RenderM σ (List Part)).Leads scene
      (fun parts after => ∃ one two : NodePart, [.node one, .node two].Sublist parts ∧
        after.tree.Nested one.start two.stop one.stop) fun _ _ => True := by
  induction slots generalizing scene with
  | nil => cases doubled
  | cons slot slots ih =>
      simp only [List.mapM_cons, leads_bind, leads_pure]
      apply (bind_seats sound attached slot).mono ?_ fun _ _ _ => trivial
      rintro part middle ⟨-, furnished, seated, -⟩
      have still := furnished.attached attached
      cases doubled with
      | cons _ doubled =>
          apply (ih furnished.sound still doubled).imp ?_
          rintro parts after ⟨one, two, listed, nested⟩
          exact ⟨one, two, listed.cons _, nested⟩
      | cons_cons _ doubled =>
          cases seated with
          | @node _ start stop found opens behind closes =>
              obtain ⟨parent, before, rest, above, split⟩ := furnished.sound.split_next behind
              have ordered : [start, stop].Sublist (middle.tree.childrenOf parent) := by
                rw [split]
                simp
              have member := List.singleton_sublist.1 doubled
              apply (bindAll_follows furnished.sound still found ordered member).imp ?_
              rintro parts after ⟨two, listed, nested⟩
              exact ⟨.between start stop, two, (List.singleton_sublist.2 listed).cons_cons _, nested⟩

end Binding

end Part

theorem Slot.sublist_of_indices {slots : List Slot} {indices : List Nat}
    (listed : indices.Sublist (slots.filterMap markerIndex?)) : (indices.map Slot.node).Sublist slots := by
  induction slots generalizing indices with
  | nil =>
      rw [List.eq_nil_of_sublist_nil listed]
      exact .slnil
  | cons slot slots ih =>
      cases slot with
      | «attribute» index name => exact (ih listed).cons _
      | node index =>
          have listed : indices.Sublist (index :: slots.filterMap markerIndex?) := listed
          cases listed with
          | cons _ listed => exact (ih listed).cons _
          | cons_cons _ listed => exact (ih listed).cons_cons _

namespace TemplateInstance

variable {scene after : Scene σ} {shared : SharedTemplate} {shown : TemplateInstance} {fragment : NodeId}

/-- A new instance has empty parts. If two of its slots are at the same marker, so are two of its parts. -/
theorem create_nested (sound : scene.tree.WellFormed)
    (repeated : ¬ (shared.template.slots.filterMap Slot.markerIndex?).Nodup) :
    (create shared : RenderM σ (TemplateInstance × NodeId)).Leads scene
      (fun made after => after.tree.WellFormed ∧ (∀ part ∈ made.1.parts, part.Blank) ∧
        ∃ one two : NodePart, [.node one, .node two].Sublist made.1.parts ∧
          after.tree.Nested one.start two.stop one.stop) fun _ _ => True := by
  obtain ⟨index, twice⟩ : ∃ index, [index, index].Sublist (shared.template.slots.filterMap Slot.markerIndex?) := by
    simpa [List.nodup_iff_sublist] using repeated
  obtain ⟨root, grafted⟩ := Tree.cloneDeep_grafted sound shared.template.fragment
  have same : (scene.tree.cloneDeep shared.template.fragment).1 =
      ((scene.tree.subtree shared.template.fragment).renumber scene.tree.size).id := by
    rw [root, Subtree.id_renumber]
  simp only [create, leads_bind, leads_grow, leads_look, leads_require, leads_note, leads_pure, same]
  rw [grafted.walk_eq]
  by_cases room : shared.template.reach < Tree.roomLimit
  case neg =>
    simp only [if_neg room]
  simp only [if_pos room]
  have attached : ∀ id ∈ ((scene.tree.subtree shared.template.fragment).renumber scene.tree.size).descendants.take
      shared.template.reach, ∃ parent, (scene.tree.cloneDeep shared.template.fragment).2.parentOf id = some parent :=
    fun id member => grafted.attached id (List.mem_of_mem_take member)
  have bound : (shared.template.slots.mapM (Part.bind (((scene.tree.subtree shared.template.fragment).renumber
      scene.tree.size).descendants.take shared.template.reach))).Leads
      { scene with tree := (scene.tree.cloneDeep shared.template.fragment).2 } _ _ :=
    Leads.both (Part.bindAll_seats grafted.sound attached shared.template.slots)
      (Leads.both (Part.bindAll_blank _ shared.template.slots _)
        (Part.bindAll_nested grafted.sound attached (Slot.sublist_of_indices twice)))
  refine Leads.mono bound ?_ fun _ _ _ => trivial
  rintro parts after ⟨⟨-, furnished, -, -⟩, blank, nested⟩
  exact ⟨furnished.sound, blank, nested⟩

/-- An instance of a template two of whose node slots are at the same marker cannot be given texts. -/
theorem assign_texts_refused (client : Client σ) (sound : scene.tree.WellFormed)
    (repeated : ¬ (shared.template.slots.filterMap Slot.markerIndex?).Nodup)
    (made : (create shared).runOn scene = (.ok (shown, fragment), after)) (texts : List String) :
    ∃ error, ((shown.assign client (texts.map .text)).runOn after).1.2 = .error error := by
  obtain ⟨sound, blank, one, two, listed, nested⟩ := (create_nested sound repeated).ok made
  by_cases length : texts.length = shown.parts.length
  · have leads : (shown.assign client (texts.map .text)).orThrow.Leads after (fun _ _ => False) fun _ _ => True := by
      rw [assign_eq client length, leads_orThrow_map]
      exact Part.commitEach_nested sound blank listed nested length
    obtain ⟨_, error, _, ran, -⟩ := leads.failed
    exact ⟨error, by rw [ran]⟩
  · have wrong : (Value.renderings client (texts.map .text)).length ≠ shown.parts.length := by
      rwa [Value.renderings_eq_map, List.length_map, List.length_map]
    rw [assign, update, if_neg wrong]
    exact ⟨_, rfl⟩

end TemplateInstance

end DomParts
