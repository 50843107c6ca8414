import DomParts.Proofs.Renaming.Basic
import DomParts.Proofs.Tree.WellFormed
import DomParts.Tree.Edit
import DomParts.Tree.Subtree
import Mathlib.Data.List.Forall2

/-! # Trees with other texts

Two trees that have the same nodes in the same places, and differ at most in the data of text nodes and in the
values of attributes: where they differ, the one has another text for that of the other. Every operation keeps
two trees like that, and refuses on the one whatever it refuses on the other.
-/

namespace DomParts

variable {r : Renaming}

/-- A text that is the same or was given for the other. -/
def Renaming.Rewrites (r : Renaming) (data other : String) : Prop := other = data ∨ other = r.text data

namespace Renaming.Rewrites

theorem refl (data : String) : r.Rewrites data data := .inl rfl

theorem renamed (data : String) : r.Rewrites data (r.text data) := .inr rfl

end Renaming.Rewrites

def Attributes.Renamed (r : Renaming) : Attributes → Attributes → Prop :=
  List.Forall₂ fun one two => two.1 = one.1 ∧ r.Rewrites one.2 two.2

/-- Nodes that are the same but for a text or for attribute values. -/
inductive Kind.Renamed (r : Renaming) : Kind → Kind → Prop where
  | element (name : String) {attributes others : Attributes} (each : attributes.Renamed r others) :
      Kind.Renamed r (.element name attributes) (.element name others)
  | text {data other : String} (rewrites : r.Rewrites data other) : Kind.Renamed r (.text data) (.text other)
  | comment (data : String) : Kind.Renamed r (.comment data) (.comment data)
  | fragment : Kind.Renamed r .fragment .fragment

/-- Nodes in the same place that are the same but for texts. -/
structure Node.Renamed (r : Renaming) (node other : Node) : Prop where
  kind : node.kind.Renamed r other.kind
  parent : other.parent = node.parent
  children : other.children = node.children

/-- Trees that are the same but for texts. -/
structure Tree.Renamed (r : Renaming) (tree other : Tree) : Prop where
  size : other.size = tree.size
  nodes : ∀ id, Option.Rel (Node.Renamed r) (tree.node? id) (other.node? id)

inductive Subtree.Renamed (r : Renaming) : Subtree → Subtree → Prop where
  | branch (id : NodeId) {kind other : Kind} {children others : List Subtree} (same : kind.Renamed r other)
      (each : List.Forall₂ (Subtree.Renamed r) children others) :
      Subtree.Renamed r (.branch id kind children) (.branch id other others)

section Belonging

variable {α β γ : Type} {relates : α → β → Prop} {one : Option α} {two : Option β}

theorem rel_cases (rel : Option.Rel relates one two) :
    (one = none ∧ two = none) ∨ ∃ left right, one = some left ∧ two = some right ∧ relates left right := by
  cases rel with
  | none => exact .inl ⟨rfl, rfl⟩
  | some same => exact .inr ⟨_, _, rfl, rfl, same⟩

theorem map_eq_of_rel {view : α → γ} {view' : β → γ} (rel : Option.Rel relates one two)
    (same : ∀ left right, relates left right → view' right = view left) : two.map view' = one.map view := by
  cases rel with
  | none => rfl
  | some here => exact congrArg some (same _ _ here)

end Belonging

namespace Attributes.Renamed

variable {attributes others : Attributes} {name value other : String}

theorem refl (attributes : Attributes) : attributes.Renamed r attributes :=
  List.forall₂_same.2 fun _ _ => ⟨rfl, .refl _⟩

theorem names (renamed : attributes.Renamed r others) : others.map (·.1) = attributes.map (·.1) := by
  induction renamed with
  | nil => rfl
  | cons first _ ih => rw [List.map_cons, List.map_cons, first.1, ih]

theorem get? (renamed : attributes.Renamed r others) :
    Option.Rel r.Rewrites (attributes.get? name) (others.get? name) := by
  induction renamed with
  | nil => exact .none
  | @cons first second _ _ same _ ih =>
      obtain ⟨named, rewrites⟩ := same
      rw [Attributes.get?, Attributes.get?] at ih ⊢
      rw [List.lookup_cons, List.lookup_cons, named]
      cases name == first.1 with
      | true => exact .some rewrites
      | false => exact ih

theorem set (renamed : attributes.Renamed r others) (rewrites : r.Rewrites value other) :
    (attributes.set name value).Renamed r (others.set name other) := by
  induction renamed with
  | nil => exact .cons ⟨rfl, rewrites⟩ .nil
  | @cons first second _ _ same rest ih =>
      simp only [Attributes.set, same.1]
      split
      · exact .cons ⟨rfl, rewrites⟩ rest
      · exact .cons ⟨rfl, same.2⟩ ih

theorem erase (renamed : attributes.Renamed r others) : (attributes.erase name).Renamed r (others.erase name) := by
  induction renamed with
  | nil => exact .nil
  | @cons first second _ _ same rest ih =>
      unfold Attributes.erase at ih ⊢
      by_cases here : first.1 = name
      · rw [List.filter_cons_of_neg (by simpa), List.filter_cons_of_neg (by simpa [same.1])]
        exact ih
      · rw [List.filter_cons_of_pos (by simpa), List.filter_cons_of_pos (by simpa [same.1])]
        exact .cons same ih

end Attributes.Renamed

namespace Kind.Renamed

variable {kind other : Kind}

theorem refl (kind : Kind) : kind.Renamed r kind := by
  cases kind with
  | element name attributes => exact .element name (.refl attributes)
  | text data => exact .text (.refl data)
  | comment data => exact .comment data
  | fragment => exact .fragment

variable (renamed : kind.Renamed r other)
include renamed

theorem isMarker_eq : other.isMarker = kind.isMarker := by cases renamed <;> rfl

theorem isText_eq : other.isText = kind.isText := by cases renamed <;> rfl

theorem fragment_iff : other = .fragment ↔ kind = .fragment := by cases renamed <;> simp

theorem attributeNames_eq : other.attributeNames = kind.attributeNames := by
  cases renamed with
  | element name each => exact each.names
  | _ => rfl

theorem attribute? (name : String) : Option.Rel r.Rewrites (kind.attribute? name) (other.attribute? name) := by
  cases renamed with
  | element _ each => exact each.get?
  | _ => exact .none

end Kind.Renamed

namespace Subtree.Renamed

mutual

theorem refl (subtree : Subtree) : subtree.Renamed r subtree := by
  cases subtree with
  | branch id kind children => exact .branch id (.refl kind) (refl_all children)
termination_by sizeOf subtree

theorem refl_all (subtrees : List Subtree) : List.Forall₂ (Subtree.Renamed r) subtrees subtrees := by
  cases subtrees with
  | nil => exact .nil
  | cons first rest => exact .cons (refl first) (refl_all rest)
termination_by sizeOf subtrees

end

end Subtree.Renamed

namespace Tree.Renamed

variable {tree other : Tree} {id parent : NodeId} {before : Option NodeId}

theorem refl (tree : Tree) : tree.Renamed r tree := by
  refine ⟨rfl, fun id => ?_⟩
  cases tree.node? id with
  | none => exact .none
  | some node => exact .some ⟨.refl _, rfl, rfl⟩

section Reading

variable (renamed : tree.Renamed r other)
include renamed

theorem kindOf (id : NodeId) : Option.Rel (Kind.Renamed r) (tree.kindOf id) (other.kindOf id) := by
  unfold Tree.kindOf
  rcases rel_cases (renamed.nodes id) with ⟨none, none'⟩ | ⟨one, two, found, found', same⟩
  · rw [none, none']
    exact .none
  · rw [found, found']
    exact .some same.kind

theorem parentOf_eq (id : NodeId) : other.parentOf id = tree.parentOf id := by
  unfold Tree.parentOf
  rcases rel_cases (renamed.nodes id) with ⟨none, none'⟩ | ⟨one, two, found, found', same⟩
  · rw [none, none']
  · rw [found, found']
    exact same.parent

theorem childrenOf_eq (id : NodeId) : other.childrenOf id = tree.childrenOf id := by
  rw [Tree.childrenOf, Tree.childrenOf, map_eq_of_rel (renamed.nodes id) fun _ _ same => same.children]

theorem has_eq (id : NodeId) : other.has id = tree.has id := by rw [Tree.has, Tree.has, renamed.size]

theorem firstChild_eq (id : NodeId) : other.firstChild id = tree.firstChild id := by
  rw [Tree.firstChild, Tree.firstChild, renamed.childrenOf_eq]

theorem nextSibling_eq (id : NodeId) : other.nextSibling id = tree.nextSibling id := by
  simp only [Tree.nextSibling, renamed.parentOf_eq, renamed.childrenOf_eq]

theorem isMarker_eq (id : NodeId) : other.isMarker id = tree.isMarker id := by
  rw [Tree.isMarker, Tree.isMarker, map_eq_of_rel (renamed.kindOf id) fun _ _ same => same.isMarker_eq]

theorem isText_eq (id : NodeId) : other.isText id = tree.isText id := by
  rw [Tree.isText, Tree.isText, map_eq_of_rel (renamed.kindOf id) fun _ _ same => same.isText_eq]

theorem fragment_iff (id : NodeId) : other.kindOf id = some .fragment ↔ tree.kindOf id = some .fragment := by
  rcases rel_cases (renamed.kindOf id) with ⟨none, none'⟩ | ⟨one, two, found, found', same⟩
  · rw [none, none']
  · rw [found, found', Option.some_inj, Option.some_inj, same.fragment_iff]

theorem attribute? (id : NodeId) (name : String) :
    Option.Rel r.Rewrites (tree.attribute? id name) (other.attribute? id name) := by
  unfold Tree.attribute?
  rcases rel_cases (renamed.kindOf id) with ⟨none, none'⟩ | ⟨one, two, found, found', same⟩
  · rw [none, none']
    exact .none
  · rw [found, found']
    exact same.attribute? name

theorem isWithin_eq (ancestor id : NodeId) : other.isWithin ancestor id = tree.isWithin ancestor id := by
  have climbs : ∀ fuel id, other.climbsTo ancestor fuel id = tree.climbsTo ancestor fuel id := by
    intro fuel
    induction fuel with
    | zero => exact fun _ => rfl
    | succ fuel ih =>
        intro id
        simp only [Tree.climbsTo, renamed.parentOf_eq]
        cases tree.parentOf id with
        | none => rfl
        | some parent => simp only [ih parent]
  rw [Tree.isWithin, Tree.isWithin, renamed.size, climbs]

theorem payload_eq (id : NodeId) : other.payload id = tree.payload id := by
  simp only [Tree.payload, renamed.fragment_iff, renamed.childrenOf_eq]

theorem insertFault?_eq (parent id : NodeId) (before : Option NodeId) :
    other.insertFault? parent id before = tree.insertFault? parent id before := by
  have reference : other.referenceFault? parent = tree.referenceFault? parent := by
    funext before
    simp only [Tree.referenceFault?, renamed.has_eq, renamed.parentOf_eq]
  simp only [Tree.insertFault?, reference, renamed.isWithin_eq, renamed.has_eq]

theorem walk_eq (root : NodeId) (limit : Nat) : other.walk root limit = tree.walk root limit := by
  have walks : ∀ limit current pending, other.walkFrom limit current pending = tree.walkFrom limit current pending := by
    intro limit
    induction limit with
    | zero => exact fun _ _ => rfl
    | succ limit ih =>
        intro current pending
        cases current with
        | none => rfl
        | some id => simp only [Tree.walkFrom, renamed.firstChild_eq, renamed.nextSibling_eq, ih]
  rw [Tree.walk, Tree.walk, renamed.firstChild_eq, walks]

theorem subtree (id : NodeId) : (tree.subtree id).Renamed r (other.subtree id) := by
  have kinds : ∀ id, ((tree.kindOf id).getD .fragment).Renamed r ((other.kindOf id).getD .fragment) := by
    intro id
    rcases rel_cases (renamed.kindOf id) with ⟨none, none'⟩ | ⟨one, two, found, found', same⟩
    · rw [none, none']
      exact .fragment
    · rw [found, found']
      exact same
  have cut : ∀ depth id, (tree.subtreeTo depth id).Renamed r (other.subtreeTo depth id) := by
    intro depth
    induction depth with
    | zero => exact fun id => .branch id (kinds id) .nil
    | succ depth ih =>
        intro id
        refine .branch id (kinds id) ?_
        rw [renamed.childrenOf_eq, List.forall₂_map_left_iff, List.forall₂_map_right_iff]
        exact List.forall₂_same.2 fun child _ => ih child
  rw [Tree.subtree, Tree.subtree, renamed.size]
  exact cut _ id

end Reading

section Changing

theorem update (renamed : tree.Renamed r other) {change change' : Node → Node}
    (same : ∀ node node' : Node, node.Renamed r node' → (change node).Renamed r (change' node')) :
    (tree.update id change).Renamed r (other.update id change') := by
  refine ⟨by rw [size_update, size_update, renamed.size], fun place => ?_⟩
  rw [node?_update, node?_update]
  split
  · rcases rel_cases (renamed.nodes place) with ⟨none, none'⟩ | ⟨one, two, found, found', here⟩
    · rw [none, none']
      exact .none
    · rw [found, found']
      exact .some (same one two here)
  · exact renamed.nodes place

variable (renamed : tree.Renamed r other)
include renamed

theorem setParent (above : Option NodeId) : (tree.setParent id above).Renamed r (other.setParent id above) :=
  renamed.update fun _ _ same => ⟨same.kind, rfl, same.children⟩

theorem mapChildren (change : List NodeId → List NodeId) :
    (tree.mapChildren id change).Renamed r (other.mapChildren id change) :=
  renamed.update fun _ _ same => ⟨same.kind, same.parent, congrArg change same.children⟩

theorem setKind {kind kind' : Kind} (same : kind.Renamed r kind') :
    (tree.setKind id kind).Renamed r (other.setKind id kind') :=
  renamed.update fun _ _ place => ⟨same, place.parent, place.children⟩

theorem create {kind kind' : Kind} (same : kind.Renamed r kind') :
    (tree.create kind).2.Renamed r (other.create kind').2 := by
  refine ⟨by rw [size_create, size_create, renamed.size], fun place => ?_⟩
  rw [node?_create, node?_create, renamed.size]
  split
  · exact .some ⟨same, rfl, rfl⟩
  · exact renamed.nodes place

theorem detach (id : NodeId) : (tree.detach id).Renamed r (other.detach id) := by
  unfold Tree.detach
  rw [renamed.parentOf_eq]
  split
  · exact (renamed.setParent none).mapChildren _
  · exact renamed

theorem place (parent : NodeId) (moved : List NodeId) (before : Option NodeId) :
    (tree.place parent moved before).Renamed r (other.place parent moved before) := by
  have detached : (tree.detachAll moved).Renamed r (other.detachAll moved) := by
    induction moved generalizing tree other with
    | nil => exact renamed
    | cons id ids ih => exact ih (renamed.detach id)
  have adopted : ∀ {tree other : Tree}, tree.Renamed r other → ∀ ids,
      (tree.setParents parent ids).Renamed r (other.setParents parent ids) := by
    intro tree other same ids
    induction ids generalizing tree other with
    | nil => exact same
    | cons id ids ih => exact ih (same.setParent (some parent))
  exact (adopted detached moved).mapChildren _

theorem adopt (parent id : NodeId) : (tree.adopt parent id).Renamed r (other.adopt parent id) :=
  (renamed.setParent _).mapChildren _

end Changing

mutual

theorem graft {tree other : Tree} (renamed : tree.Renamed r other) (one two : Subtree) (same : one.Renamed r two) :
    (other.graft two).1 = (tree.graft one).1 ∧ (tree.graft one).2.Renamed r (other.graft two).2 := by
  cases same with
  | @branch id kind _ children _ same each =>
      simp only [Tree.graft, fst_create, renamed.size, true_and]
      exact graftAll (renamed.create same) _ _ each tree.size
termination_by sizeOf one

theorem graftAll {tree other : Tree} (renamed : tree.Renamed r other) (ones twos : List Subtree)
    (each : List.Forall₂ (Subtree.Renamed r) ones twos) (parent : NodeId) :
    (tree.graftAll parent ones).Renamed r (other.graftAll parent twos) := by
  cases each with
  | nil => exact renamed
  | @cons first second rest others same each =>
      obtain ⟨number, grown⟩ := renamed.graft first second same
      simp only [Tree.graftAll, number]
      exact graftAll (grown.adopt parent _) _ _ each parent
termination_by sizeOf ones

end

theorem cloneDeep (renamed : tree.Renamed r other) (id : NodeId) :
    (other.cloneDeep id).1 = (tree.cloneDeep id).1 ∧ (tree.cloneDeep id).2.Renamed r (other.cloneDeep id).2 :=
  renamed.graft _ _ (renamed.subtree id)

end Tree.Renamed

end DomParts
