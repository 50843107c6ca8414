import DomParts.Proofs.Render.Depicts
import DomParts.Proofs.Tree.Ascent
import DomParts.Proofs.Tree.Outline

/-! # Pictures

What a value looks like, said without parts and without regard to what was shown before. A picture forgets
who created a node and in which order attributes were set, except that a node of the host stands for itself.
-/

namespace DomParts

/-- A node with everything below it. -/
inductive Picture where
  /-- A node of the host, whatever it is. -/
  | host (id : NodeId)
  | text (data : String) (children : List Picture)
  | comment (data : String) (children : List Picture)
  | element (name : String) (attribute? : String → Option String) (children : List Picture)
  | fragment (children : List Picture)

namespace Picture

def marker : Picture := .comment "" []

/-- The content of a part with the markers around it. -/
def framed (shown : List Picture) : List Picture := marker :: (shown ++ [marker])

end Picture

/-- How much of a tree one sees. -/
inductive Sight where
  /-- Everything. -/
  | whole
  /-- As much as in markup, where texts and comments hide what is below them. -/
  | surface

/-- What is seen below a text or a comment. -/
def Sight.below : Sight → List Picture → List Picture
  | .whole, children => children
  | .surface, _ => []

@[simp] theorem Sight.below_nil (sight : Sight) : sight.below [] = [] := by
  cases sight <;> rfl

/-- What a node of this kind looks like above these children, if attributes are bound to other texts. -/
def Kind.picture (sight : Sight) (bound? : String → Option (Option String)) (children : List Picture) : Kind → Picture
  | .element name attributes =>
      .element name (fun label => (bound? label).getD (Attributes.get? attributes label)) children
  | .text data => .text data (sight.below children)
  | .comment data => .comment data (sight.below children)
  | .fragment => .fragment children

namespace Subtree

mutual

/-- What a subtree looks like, given the nodes in it that the host put there. -/
def picture (sight : Sight) (hosts : List NodeId) : Subtree → Picture
  | .branch id kind children =>
      if id ∈ hosts then .host id else kind.picture sight (fun _ => none) (pictureAll sight hosts children)

def pictureAll (sight : Sight) (hosts : List NodeId) : List Subtree → List Picture
  | [] => []
  | first :: rest => first.picture sight hosts :: pictureAll sight hosts rest

end

mutual

/-- What a subtree looks like if attributes are bound and something is put behind its nodes. -/
def draw (sight : Sight) (bound? : NodeId → String → Option (Option String)) (behind : NodeId → List Picture) :
    Subtree → List Picture
  | .branch id kind children => kind.picture sight (bound? id) (drawAll sight bound? behind children) :: behind id

/-- What several subtrees look like if attributes are bound and something is put behind their nodes. -/
def drawAll (sight : Sight) (bound? : NodeId → String → Option (Option String)) (behind : NodeId → List Picture) :
    List Subtree → List Picture
  | [] => []
  | first :: rest => first.draw sight bound? behind ++ drawAll sight bound? behind rest

end

theorem pictureAll_eq_map (sight : Sight) (hosts : List NodeId) (trees : List Subtree) :
    pictureAll sight hosts trees = trees.map (picture sight hosts) := by
  induction trees with
  | nil => rfl
  | cons first rest ih => rw [pictureAll, ih, List.map_cons]

variable {sight : Sight} {bound? : NodeId → String → Option (Option String)} {behind : NodeId → List Picture}

mutual

theorem draw_renumber (first place : NodeId) (tree : Subtree) :
    (tree.renumber (first + place)).draw sight bound? behind =
      (tree.renumber place).draw sight (fun id => bound? (first + id)) (fun id => behind (first + id)) := by
  cases tree with
  | branch id kind children =>
      simp only [renumber, draw, Nat.add_assoc, drawAll_renumberAll first (place + 1) children]
termination_by sizeOf tree

/-- It makes no difference where numbers begin if everything is bound to the numbers that they are. -/
theorem drawAll_renumberAll (first place : NodeId) (trees : List Subtree) :
    drawAll sight bound? behind (renumberAll (first + place) trees) =
      drawAll sight (fun id => bound? (first + id)) (fun id => behind (first + id)) (renumberAll place trees) := by
  cases trees with
  | nil => simp only [renumberAll, drawAll]
  | cons tree rest =>
      simp only [renumberAll, drawAll, Nat.add_assoc, draw_renumber first place tree,
        drawAll_renumberAll first (place + tree.size) rest]
termination_by sizeOf trees

end

end Subtree

namespace Tree

variable {tree : Tree} {sight : Sight} {hosts : List NodeId} {id : NodeId} {kind : Kind}

/-- What several nodes look like, given the nodes that the host put there. -/
def pictures (tree : Tree) (sight : Sight) (hosts ids : List NodeId) : List Picture :=
  ids.map fun id => (tree.subtree id).picture sight hosts

@[simp] theorem pictures_nil : tree.pictures sight hosts [] = [] := rfl

@[simp] theorem pictures_cons {ids : List NodeId} : tree.pictures sight hosts (id :: ids) =
    (tree.subtree id).picture sight hosts :: tree.pictures sight hosts ids := rfl

@[simp] theorem pictures_append {first second : List NodeId} : tree.pictures sight hosts (first ++ second) =
    tree.pictures sight hosts first ++ tree.pictures sight hosts second :=
  List.map_append

theorem picture_host (sound : tree.WellFormed) (host : id ∈ hosts) :
    (tree.subtree id).picture sight hosts = .host id := by
  rw [sound.subtree_unfold, Subtree.picture, if_pos host]

theorem picture_own (sound : tree.WellFormed) (own : id ∉ hosts) (found : tree.kindOf id = some kind) :
    (tree.subtree id).picture sight hosts =
      kind.picture sight (fun _ => none) (tree.pictures sight hosts (tree.childrenOf id)) := by
  rw [sound.subtree_unfold, Subtree.picture, if_neg own, found, Option.getD_some, Subtree.pictureAll_eq_map,
    List.map_map]
  rfl

theorem picture_marker (sound : tree.WellFormed) (own : id ∉ hosts) (found : tree.kindOf id = some .marker)
    (leaf : tree.childrenOf id = []) : (tree.subtree id).picture sight hosts = .marker := by
  rw [picture_own sound own found, leaf, pictures_nil, Kind.marker, Kind.picture, Sight.below_nil, Picture.marker]

end Tree

/-- What a value puts into a slot of a template. -/
inductive Inlay where
  /-- Content behind the marker at that index. -/
  | content (index : Nat) (shown : List Picture)
  /-- A text for an attribute of the element at that index, or none. -/
  | label (index : Nat) (name : String) (text? : Option String)

namespace Inlay

/-- What is put behind the node at a place, with the marker that ends it. -/
def behind (place : NodeId) : Inlay → List Picture
  | .content index shown => if index = place then shown ++ [.marker] else []
  | .label .. => []

/-- What an attribute of the element at a place is bound to. -/
def bound? (place : NodeId) (name : String) : Inlay → Option (Option String)
  | .content .. => none
  | .label index other text? => if index = place ∧ other = name then some text? else none

end Inlay

/-- What a value with that look puts into the slot. -/
def Slot.inlay (value : Value) (shown : List Picture) : Slot → Inlay
  | .node index => .content index shown
  | .attribute index name => .label index name (value.label?.getD none)

/-- A template without its place in a tree. -/
structure Blueprint where
  slots : List Slot
  body : List Subtree

/-- What the template looks like with these inlays. The nodes are counted in document order. -/
def Blueprint.draw (sight : Sight) (plan : Blueprint) (inlays : List Inlay) : List Picture :=
  Subtree.drawAll sight (fun place name => inlays.findSome? (·.bound? place name))
    (fun place => inlays.flatMap (·.behind place)) (Subtree.renumberAll 0 plan.body)

/-- The template that a literal has in a scene, if it was asked for. -/
def Scene.blueprint? {σ : Type} (scene : Scene σ) (kind : TemplateKind) (literal : Literal) : Option Blueprint :=
  (scene.cache.findIdentity? kind literal).map fun shared =>
    ⟨shared.template.slots, (scene.tree.childrenOf shared.template.fragment).map scene.tree.subtree⟩

namespace Value

mutual

/-- What a value looks like, given the templates of literals, if all of its templates are known. -/
def denote (sight : Sight) (plan? : TemplateKind → Literal → Option Blueprint) : Value → Option (List Picture)
  | .nothing => some []
  | .text data => some [.text data []]
  | .node id => some [.host id]
  | .template kind literal values => do
      let plan ← plan? kind literal
      let shown ← denoteEach sight plan? values
      return plan.draw sight (List.zipWith (fun slot inlaid => slot.inlay inlaid.1 inlaid.2) plan.slots (values.zip shown))
  | .list items => do
      let shown ← denoteEach sight plan? items
      return shown.flatMap Picture.framed
  | .keyed items => do
      let shown ← denoteItems sight plan? items
      return shown.flatMap Picture.framed

def denoteEach (sight : Sight) (plan? : TemplateKind → Literal → Option Blueprint) :
    List Value → Option (List (List Picture))
  | [] => some []
  | value :: values => do
      let shown ← value.denote sight plan?
      let others ← denoteEach sight plan? values
      return shown :: others

def denoteItems (sight : Sight) (plan? : TemplateKind → Literal → Option Blueprint) :
    List (Key × Value) → Option (List (List Picture))
  | [] => some []
  | item :: items => do
      let shown ← item.2.denote sight plan?
      let others ← denoteItems sight plan? items
      return shown :: others

end

variable {sight : Sight} {plan? : TemplateKind → Literal → Option Blueprint} {shown : List (List Picture)}

theorem denoteEach_of_each {values : List Value}
    (each : List.Forall₂ (fun value shown => value.denote sight plan? = some shown) values shown) :
    denoteEach sight plan? values = some shown := by
  induction each with
  | nil => rfl
  | cons here _ ih => simp [denoteEach, here, ih]

theorem denoteItems_of_each {items : List (Key × Value)}
    (each : List.Forall₂ (fun item shown => item.2.denote sight plan? = some shown) items shown) :
    denoteItems sight plan? items = some shown := by
  induction each with
  | nil => rfl
  | cons here _ ih => simp [denoteItems, here, ih]

end Value

end DomParts
