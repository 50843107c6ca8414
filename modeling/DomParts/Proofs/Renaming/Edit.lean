import DomParts.Proofs.Renaming.Tree
import DomParts.Proofs.Tree.Operations

/-! # Operations on trees with other texts

What an operation does to both of two such trees: they stay the same but for texts, and the attributes of the
nodes that it has nothing to do with are left alone. A refusal is the same on both.
-/

namespace DomParts.Tree

variable {r : Renaming} {count fewer : Nat} {tree other after last : Tree} {id : NodeId}

/-- The attributes of the first `count` nodes are left alone. -/
structure Spares (count : Nat) (tree after : Tree) : Prop where
  size_le : tree.size ≤ after.size
  attributes : ∀ id name, count > id → after.attribute? id name = tree.attribute? id name

namespace Spares

theorem refl (tree : Tree) : tree.Spares count tree := ⟨Nat.le_refl _, fun _ _ _ => rfl⟩

theorem trans {next : Tree} (one : tree.Spares count after) (two : after.Spares count next) : tree.Spares count next :=
  ⟨Nat.le_trans one.size_le two.size_le,
    fun id name inside => (two.attributes id name inside).trans (one.attributes id name inside)⟩

theorem mono (spares : tree.Spares count after) (le : fewer ≤ count) : tree.Spares fewer after :=
  ⟨spares.size_le, fun id name inside => spares.attributes id name (Nat.lt_of_lt_of_le inside le)⟩

theorem of_kindOf (size_le : tree.size ≤ after.size) (kinds : ∀ id, count > id → after.kindOf id = tree.kindOf id) :
    tree.Spares count after :=
  ⟨size_le, fun id name inside => by rw [attribute?, attribute?, kinds id inside]⟩

theorem of_extends (extended : tree.Extends after) (le : count ≤ tree.size) : tree.Spares count after :=
  of_kindOf extended.size_le fun _ inside => extended.kindOf_eq (Nat.lt_of_lt_of_le inside le)

end Spares

/-- What is done to two trees that are the same but for texts. -/
structure Changes (r : Renaming) (count : Nat) (tree other after last : Tree) : Prop where
  wellFormed : after.WellFormed
  renamed : after.Renamed r last
  left : tree.Spares count after
  right : other.Spares count last

namespace Changes

theorem refl (wellFormed : tree.WellFormed) (renamed : tree.Renamed r other) : Changes r count tree other tree other :=
  ⟨wellFormed, renamed, .refl _, .refl _⟩

theorem trans {next next' : Tree} (one : Changes r count tree other after last)
    (two : Changes r count after last next next') : Changes r count tree other next next' :=
  ⟨two.wellFormed, two.renamed, one.left.trans two.left, one.right.trans two.right⟩

end Changes

/-- An operation that is refused on neither of two trees that are the same but for texts, or on both. -/
def Agree (r : Renaming) (count : Nat) (change change' : Tree → Except HostFault Tree) : Prop :=
  ∀ tree other : Tree, tree.WellFormed → tree.Renamed r other → count ≤ tree.size →
    (∃ fault, change tree = .error fault ∧ change' other = .error fault) ∨
      ∃ after last, change tree = .ok after ∧ change' other = .ok last ∧ Changes r count tree other after last

/-- An operation in steps that comes to the same on two trees that are the same but for texts. -/
def AgreeInSteps {α : Type} (r : Renaming) (count : Nat) (change change' : Tree → Except HostFault α × Tree) : Prop :=
  ∀ tree other : Tree, tree.WellFormed → tree.Renamed r other → count ≤ tree.size →
    (change' other).1 = (change tree).1 ∧ Changes r count tree other (change tree).2 (change' other).2

section Moves

@[simp] theorem size_place (parent : NodeId) (moved : List NodeId) (before : Option NodeId) :
    (tree.place parent moved before).size = tree.size := by
  simp [place]

@[simp] theorem kindOf_place (parent : NodeId) (moved : List NodeId) (before : Option NodeId) :
    (tree.place parent moved before).kindOf id = tree.kindOf id := by
  simp [place]

theorem Spares.insertBefore {parent : NodeId} {before : Option NodeId}
    (done : tree.insertBefore parent id before = .ok after) : tree.Spares count after := by
  unfold Tree.insertBefore at done
  split at done
  · cases done
  · cases done
    exact .of_kindOf (by simp) fun _ _ => by simp

theorem agree_insertBefore (parent id : NodeId) (before : Option NodeId) :
    Agree r count (·.insertBefore parent id before) (·.insertBefore parent id before) := by
  intro tree other wellFormed renamed _
  simp only [insertBefore, renamed.insertFault?_eq, renamed.payload_eq, renamed.nextSibling_eq]
  cases refused : tree.insertFault? parent id before with
  | some fault => exact .inl ⟨fault, rfl, rfl⟩
  | none =>
      have done : tree.insertBefore parent id before = .ok (tree.place parent (tree.payload id)
          (if before = some id then tree.nextSibling id else before)) := by simp only [insertBefore, refused]
      have done' : other.insertBefore parent id before = .ok (other.place parent (tree.payload id)
          (if before = some id then tree.nextSibling id else before)) := by
        simp only [insertBefore, renamed.insertFault?_eq, renamed.payload_eq, renamed.nextSibling_eq, refused]
      exact .inr ⟨_, _, rfl, rfl, wellFormed.insertBefore done, renamed.place _ _ _, .insertBefore done,
        .insertBefore done'⟩

theorem agree_removeChild (parent id : NodeId) :
    Agree r count (·.removeChild parent id) (·.removeChild parent id) := by
  intro tree other wellFormed renamed _
  simp only [removeChild, renamed.has_eq, renamed.parentOf_eq]
  split
  · exact .inl ⟨_, rfl, rfl⟩
  · split
    · exact .inl ⟨_, rfl, rfl⟩
    · refine .inr ⟨_, _, rfl, rfl, wellFormed.detach id, renamed.detach id, .of_kindOf ?_ ?_, .of_kindOf ?_ ?_⟩
      all_goals simp

/-- A run is walked in the same way if each of its nodes is dealt with in the same way. -/
theorem agree_overRun {visit : Tree → NodeId → Except HostFault Tree}
    (each : ∀ id, Agree r count (visit · id) (visit · id)) (stop : Option NodeId) (fuel : Nat) (first : Option NodeId)
    (done : Nat) : AgreeInSteps r count (overRun visit stop fuel first done) (overRun visit stop fuel first done) := by
  induction fuel generalizing first done with
  | zero =>
      intro tree other wellFormed renamed _
      unfold overRun
      cases first with
      | none => exact ⟨rfl, .refl wellFormed renamed⟩
      | some id =>
          by_cases ends : stop = some id
          · simp only [ends, if_true]
            exact ⟨trivial, .refl wellFormed renamed⟩
          · simp only [ends, if_false]
            exact ⟨trivial, .refl wellFormed renamed⟩
  | succ fuel ih =>
      intro tree other wellFormed renamed inside
      unfold overRun
      cases first with
      | none => exact ⟨rfl, .refl wellFormed renamed⟩
      | some id =>
          by_cases ends : stop = some id
          · simp only [ends, if_true]
            exact ⟨trivial, .refl wellFormed renamed⟩
          · simp only [ends, if_false, renamed.nextSibling_eq]
            rcases each id tree other wellFormed renamed inside with ⟨fault, refused, refused'⟩ |
              ⟨after, last, done, done', changes⟩
            · simp only [refused, refused']
              exact ⟨trivial, .refl wellFormed renamed⟩
            · simp only [done, done']
              obtain ⟨same, further⟩ := ih (tree.nextSibling id) _ after last changes.wellFormed changes.renamed
                (Nat.le_trans inside changes.left.size_le)
              exact ⟨same, changes.trans further⟩

theorem agree_moveRun (container start : NodeId) (stop before : Option NodeId) :
    AgreeInSteps r count (·.moveRun container start stop before) (·.moveRun container start stop before) := by
  intro tree other wellFormed renamed inside
  simp only [moveRun, renamed.size]
  exact agree_overRun (fun id => agree_insertBefore container id before) stop _ _ _ tree other wellFormed renamed inside

theorem agree_removeRun (container start : NodeId) (stop : Option NodeId) :
    AgreeInSteps r count (·.removeRun container start stop) (·.removeRun container start stop) := by
  intro tree other wellFormed renamed inside
  simp only [removeRun, renamed.size]
  exact agree_overRun (fun id => agree_removeChild container id) stop _ _ _ tree other wellFormed renamed inside

end Moves

section Growth

variable (wellFormed : tree.WellFormed) (renamed : tree.Renamed r other) (inside : count ≤ tree.size)
include wellFormed renamed inside

theorem changes_create {kind kind' : Kind} (same : kind.Renamed r kind') (named : kind.attributeNames.Nodup) :
    Changes r count tree other (tree.create kind).2 (other.create kind').2 :=
  ⟨wellFormed.create named, renamed.create same, .of_extends (extends_create kind) inside,
    .of_extends (extends_create kind') (by rwa [renamed.size])⟩

end Growth

namespace Renamed

variable (renamed : tree.Renamed r other)
include renamed

theorem wellFormed (sound : tree.WellFormed) : other.WellFormed where
  linked parent child := by rw [renamed.parentOf_eq, renamed.childrenOf_eq, sound.linked]
  nodup id := by
    rw [renamed.childrenOf_eq]
    exact sound.nodup id
  loose id fragment := by
    rw [renamed.parentOf_eq]
    exact sound.loose id ((renamed.fragment_iff id).1 fragment)
  ranked := by
    obtain ⟨rank, ranked⟩ := sound.ranked
    refine ⟨rank, fun parent child link => ranked parent child ?_⟩
    rwa [← renamed.parentOf_eq]
  named id kind found := by
    rcases rel_cases (renamed.kindOf id) with ⟨-, none⟩ | ⟨one, two, here, here', same⟩
    · cases none.symm.trans found
    · cases here'.symm.trans found
      rw [same.attributeNames_eq]
      exact sound.named id one here

theorem changes_graft (sound : tree.WellFormed) (inside : count ≤ tree.size) (original : NodeId) {kind : Kind}
    {children : List Subtree} (named : kind.attributeNames.Nodup)
    (proper : Subtree.Proper (Subtree.spotsOfAll children)) : Changes r count tree other (tree.graft (.branch original kind children)).2
      (other.graft (.branch original kind children)).2 := by
  have grafted := graft_grafted sound original kind children named proper
  have grafted' := graft_grafted (renamed.wellFormed sound) original kind children named proper
  exact ⟨grafted.sound, (renamed.graft _ _ (.refl _)).2, .of_extends grafted.extended inside,
    .of_extends grafted'.extended (by rwa [renamed.size])⟩

theorem changes_cloneDeep (sound : tree.WellFormed) (inside : count ≤ tree.size) (id : NodeId) :
    Changes r count tree other (tree.cloneDeep id).2 (other.cloneDeep id).2 := by
  have cloned := (cloneDeep_grafted sound id).2
  have cloned' := (cloneDeep_grafted (renamed.wellFormed sound) id).2
  exact ⟨cloned.sound, (renamed.cloneDeep id).2, .of_extends cloned.extended inside,
    .of_extends cloned'.extended (by rwa [renamed.size])⟩

end Renamed

section Texts

variable (wellFormed : tree.WellFormed) (renamed : tree.Renamed r other)
include wellFormed renamed

/-- A text is replaced, on the other tree by a text that was given for it. -/
theorem changes_setText {data data' : String} (text : tree.isText id = true) (rewrites : r.Rewrites data data') :
    ∃ after last, tree.setText id data = .ok after ∧ other.setText id data' = .ok last ∧
      Changes r count tree other after last := by
  have spares : ∀ {tree : Tree} {old new : String}, tree.kindOf id = some (.text old) →
      tree.Spares count (tree.setKind id (.text new)) := by
    intro tree old new found
    refine ⟨by simp, fun place name _ => ?_⟩
    rw [attribute?, attribute?, kindOf_setKind (lt_size_of_kindOf found)]
    by_cases here : place = id
    · simp [here, found, Kind.attribute?]
    · simp [here]
  rcases rel_cases (renamed.kindOf id) with ⟨none, -⟩ | ⟨one, two, found, found', same⟩
  · simp [isText, none] at text
  · cases same with
    | text same =>
        have done : tree.setText id data = .ok (tree.setKind id (.text data)) := by
          simp [setText, changeKind, found, Except.map]
        have done' : other.setText id data' = .ok (other.setKind id (.text data')) := by
          simp [setText, changeKind, found', Except.map]
        exact ⟨_, _, done, done', wellFormed.setText done, renamed.setKind (.text rewrites), spares found,
          spares found'⟩
    | _ => simp [isText, found, Kind.isText] at text

/-- The attributes of an element are changed, on the other tree with a text that was given for the text. What is no
    element refuses. -/
theorem agree_changeAttributes {change change' : Attributes → Attributes} (outside : count ≤ id)
    (named : ∀ attributes : Attributes, (attributes.map (·.1)).Nodup → ((change attributes).map (·.1)).Nodup)
    (alike : ∀ attributes others : Attributes, attributes.Renamed r others →
      (change attributes).Renamed r (change' others)) :
    (∃ fault fault', tree.changeAttributes id change = .error fault ∧ other.changeAttributes id change' = .error fault' ∧
        (fault' = fault ∨ ∃ found, fault = .expectedElement found)) ∨
      ∃ after last, tree.changeAttributes id change = .ok after ∧ other.changeAttributes id change' = .ok last ∧
        Changes r count tree other after last := by
  have spares : ∀ {tree : Tree} {kind new : Kind}, tree.kindOf id = some kind →
      tree.Spares count (tree.setKind id new) := by
    intro tree kind new found
    refine .of_kindOf (by simp) fun place near => ?_
    rw [kindOf_setKind (lt_size_of_kindOf found), if_neg (Nat.ne_of_lt (Nat.lt_of_lt_of_le near outside))]
  rcases rel_cases (renamed.kindOf id) with ⟨none, none'⟩ | ⟨one, two, found, found', same⟩
  · refine .inl ⟨.noSuchNode id, .noSuchNode id, ?_, ?_, .inl rfl⟩
    · simp [changeAttributes, changeKind, none]
    · simp [changeAttributes, changeKind, none']
  · cases same with
    | @element name attributes others each =>
        have done : tree.changeAttributes id change = .ok (tree.setKind id (.element name (change attributes))) := by
          simp [changeAttributes, changeKind, found, Except.map]
        have done' : other.changeAttributes id change' = .ok (other.setKind id (.element name (change' others))) := by
          simp [changeAttributes, changeKind, found', Except.map]
        exact .inr ⟨_, _, done, done', wellFormed.changeAttributes done named,
          renamed.setKind (.element name (alike _ _ each)), spares found, spares found'⟩
    | _ =>
        left
        simp [changeAttributes, changeKind, found, found', Except.map]

theorem agree_operation (operation : Operation) :
    (∃ fault fault', operation.perform tree = .error fault ∧ operation.perform other = .error fault') ∨
      ∃ after last, operation.perform tree = .ok after ∧ operation.perform other = .ok last ∧
        Changes r 0 tree other after last := by
  have created : ∀ kind : Kind, kind.attributeNames.Nodup →
      Changes r 0 tree other (tree.create kind).2 (other.create kind).2 :=
    fun kind named => changes_create wellFormed renamed (Nat.zero_le _) (.refl kind) named
  have agreed : ∀ {change : Tree → Except HostFault Tree}, Agree r 0 change change →
      (∃ fault fault', change tree = .error fault ∧ change other = .error fault') ∨
        ∃ after last, change tree = .ok after ∧ change other = .ok last ∧ Changes r 0 tree other after last := by
    intro change agree
    rcases agree tree other wellFormed renamed (Nat.zero_le _) with ⟨fault, one, two⟩ | done
    · exact .inl ⟨fault, fault, one, two⟩
    · exact .inr done
  cases operation with
  | createElement name => exact .inr ⟨_, _, rfl, rfl, created _ List.nodup_nil⟩
  | createText data => exact .inr ⟨_, _, rfl, rfl, created _ List.nodup_nil⟩
  | createComment data => exact .inr ⟨_, _, rfl, rfl, created _ List.nodup_nil⟩
  | createFragment => exact .inr ⟨_, _, rfl, rfl, created _ List.nodup_nil⟩
  | insertBefore parent id before => exact agreed (agree_insertBefore parent id before)
  | appendChild parent id => exact agreed (agree_insertBefore parent id none)
  | removeChild parent id => exact agreed (agree_removeChild parent id)
  | cloneDeep id => exact .inr ⟨_, _, rfl, rfl, renamed.changes_cloneDeep wellFormed (Nat.zero_le _) id⟩
  | setText id data =>
      by_cases text : tree.isText id = true
      · exact .inr (changes_setText wellFormed renamed text (.refl data))
      · have refused : ∀ {tree : Tree}, tree.isText id = false → ∃ fault, tree.setText id data = .error fault := by
          intro tree text
          unfold setText changeKind
          split
          next kind found => cases kind <;> simp_all [isText, Kind.isText, Except.map]
          next => exact ⟨_, rfl⟩
        rw [Bool.not_eq_true] at text
        obtain ⟨fault, one⟩ := refused text
        obtain ⟨fault', two⟩ := refused ((renamed.isText_eq id).trans text)
        exact .inl ⟨fault, fault', one, two⟩
  | setAttribute id name value =>
      rcases agree_changeAttributes wellFormed renamed (Nat.zero_le _) (fun _ => Attributes.nodup_set)
        (fun _ _ each => each.set (.refl value)) with ⟨fault, fault', one, two, -⟩ | done
      · exact .inl ⟨fault, fault', one, two⟩
      · exact .inr done
  | removeAttribute id name =>
      rcases agree_changeAttributes wellFormed renamed (Nat.zero_le _) (fun _ => Attributes.nodup_erase)
        (fun _ _ each => each.erase) with ⟨fault, fault', one, two, -⟩ | done
      · exact .inl ⟨fault, fault', one, two⟩
      · exact .inr done

theorem Renamed.perform (operations : List Operation) :
    (tree.perform operations).Renamed r (other.perform operations) := by
  induction operations generalizing tree other with
  | nil => exact renamed
  | cons operation rest ih =>
      rw [Tree.perform, Tree.perform]
      rcases agree_operation wellFormed renamed operation with
        ⟨fault, fault', one, two⟩ | ⟨after, last, one, two, changes⟩
      · rw [one, two]
        exact ih wellFormed renamed
      · rw [one, two]
        exact ih changes.wellFormed changes.renamed

end Texts

end DomParts.Tree
