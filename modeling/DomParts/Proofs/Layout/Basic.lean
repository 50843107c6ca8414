import DomParts.Part.Basic
import DomParts.Proofs.Tree.Outline

/-! # Layouts

What the nodes between a part's markers look like while the part shows something. A layout says which
nodes stand directly between the markers and which nodes the part's content is made of, down to the
parts inside it. Guests are nodes that someone else owns: a layout says where they are but not what is
below them, since they may be taken away to be shown elsewhere at any time.
-/

namespace DomParts

def Content.keyedItems : Content → List NodePart
  | .keyed _ parts _ => parts
  | _ => []

end DomParts

namespace DomParts.Layout

open Subtree (nodesOfAll spotsOfAll renumberAll)

/-- How far a layout may fall short of what is shown. -/
structure Slack where
  /-- The guests that may be shown. -/
  wanted : NodeId → Prop
  /-- The guests that may be missing from where they were shown. -/
  lost : NodeId → Prop

/-- What is known of nodes from some point on: those from `base` on are new since then, and of the others it is
    known which parts may have them. -/
structure Survey where
  base : NodeId
  /-- Whether the part that begins with the first node may have the second one. -/
  fits : NodeId → NodeId → Prop
  /-- Whether the part that begins with the first node may list by key an item that begins with the second one. -/
  lists : NodeId → NodeId → Prop

namespace Survey

def blank : Survey := ⟨0, fun _ _ => True, fun _ _ => True⟩

/-- Whether the items that a part lists by key are new or such as it may list. -/
def Knows (survey : Survey) (part : NodePart) : Prop :=
  ∀ item ∈ part.content.keyedItems, survey.base ≤ item.start ∨ survey.lists part.start item.start

end Survey

/-- What a layout relies on. -/
structure Premises extends Slack where
  survey : Survey
  /-- The nodes that someone else owns. -/
  guest : NodeId → Prop
  /-- The nodes that are in the hands of a removal hook. -/
  kept : NodeId → Prop
  /-- What was below the fragment of a template when it was copied. -/
  shape : SharedTemplate → Subtree → Prop
  /-- Whether no removed node is kept. -/
  bare : Prop
  /-- Whether the text of a part has nothing below it. -/
  leafy : Prop

/-- A part with the nodes directly between its markers and all nodes of its content. -/
structure Plot where
  part : NodePart
  inner : List NodeId
  owned : List NodeId

namespace Plot

/-- The part's nodes with its markers, as they stand in the container. -/
def nodes (plot : Plot) : List NodeId := plot.part.start :: (plot.inner ++ [plot.part.stop])

/-- All nodes of the part, its markers included. -/
def claimed (plot : Plot) : List NodeId := plot.part.start :: plot.part.stop :: plot.owned

def without (taken : List NodeId) (plot : Plot) : Plot :=
  { plot with
    inner := plot.inner.filter (· ∉ taken)
    owned := plot.owned.filter (· ∉ taken) }

end Plot

/-- One of the things that stand next to each other in a list. -/
inductive Block where
  /-- An item of the list. -/
  | plot (plot : Plot)
  /-- A node that a removal hook kept. -/
  | stray (id : NodeId)

namespace Block

def nodes : Block → List NodeId
  | .plot item => item.nodes
  | .stray id => [id]

def claimed : Block → List NodeId
  | .plot item => item.claimed
  | .stray id => [id]

def part? : Block → Option NodePart
  | .plot item => some item.part
  | .stray _ => none

def without (taken : List NodeId) : Block → Option Block
  | .plot item => some (.plot (item.without taken))
  | .stray id => if id ∈ taken then none else some (.stray id)

end Block

/-- A part of a template instance as it lies in its clone. -/
inductive Fitting where
  | node (plot : Plot)
  | label (part : AttributePart)

namespace Fitting

def part : Fitting → Part
  | .node plot => .node plot.part
  | .label part => .attribute part

/-- The nodes that came into the clone for the part. -/
def claimed : Fitting → List NodeId
  | .node plot => plot.part.stop :: plot.owned
  | .label _ => []

/-- What stands behind a node of the clone for the part. -/
def behind (id : NodeId) : Fitting → List NodeId
  | .node plot => if plot.part.start = id then plot.inner ++ [plot.part.stop] else []
  | .label _ => []

def start? : Fitting → Option NodeId
  | .node plot => some plot.part.start
  | .label _ => none

/-- The element and the name of an attribute part. -/
def attribute? : Fitting → Option (NodeId × String)
  | .node _ => none
  | .label part => some (part.element, part.name)

def without (taken : List NodeId) : Fitting → Fitting
  | .node plot => .node (plot.without taken)
  | .label part => .label part

end Fitting

/-- What stands behind a node of a clone for the parts bound into it. -/
def behind (fittings : List Fitting) (id : NodeId) : List NodeId := fittings.flatMap (·.behind id)

/-- Nodes of a clone together with what stands behind each of them. -/
def weave (fittings : List Fitting) (ids : List NodeId) : List NodeId :=
  ids.flatMap fun id => id :: behind fittings id

/-- The text that a part bound to this attribute committed last, if there is such a part. -/
def boundText? (fittings : List Fitting) (id : NodeId) (name : String) : Option (Option String) :=
  fittings.findSome? fun
    | .node _ => none
    | .label part =>
        if part.element = id ∧ part.name = name then some part.committed else none

/-- No attribute has two parts. -/
def Separate (fittings : List Fitting) : Prop := (fittings.filterMap Fitting.attribute?).Nodup

/-- How a node of a clone may differ from the node that it was copied from: an element has the
    attributes that its parts committed. -/
def Accords (fittings : List Fitting) (id : NodeId) : Kind → Kind → Prop
  | .element name planned, kind => ∃ attributes, kind = .element name attributes ∧
      (Separate fittings → ∀ label : String, attributes.get? label =
        (boundText? fittings id label).getD (Attributes.get? planned label))
  | planned, kind => kind = planned

/-- How a copy comes into a container: a fragment gives way to its children. The last list are the nodes
    that slots are counted by. -/
inductive Planted : Subtree → List Subtree → List NodeId → Prop where
  | loose (first original : NodeId) (children : List Subtree) :
      Planted (.branch original .fragment children) (renumberAll first children)
        (nodesOfAll (renumberAll first children))
  | solid (first original : NodeId) {kind : Kind} (children : List Subtree)
      (solid : kind ≠ .fragment) :
      Planted (.branch original kind children) [(Subtree.branch original kind children).renumber first]
        (nodesOfAll (renumberAll (first + 1) children))

/-- If a copy comes in as a single text, there is nothing below the text. -/
def Leafy (original : Subtree) : Prop :=
  ∀ forest reach, Planted original forest reach → ∀ id data below, forest = [.branch id (.text data) below] → below = []

/-- Whether a part is bound where its slot says. -/
def Fits (reach : List NodeId) : Slot → Fitting → Prop
  | .node index, .node plot => reach[index]? = some plot.part.start
  | .attribute index name, .label part => reach[index]? = some part.element ∧ part.name = name
  | _, _ => False

/-- Whether a content shows the items of these blocks. Only lists by key tolerate other nodes. -/
def Arranges (blocks : List Block) : Content → Prop
  | .list parts => blocks.filterMap Block.part? = parts ∧ ∀ id, .stray id ∉ blocks
  | .keyed keys parts _ => blocks.filterMap Block.part? = parts ∧ keys.length = parts.length
  | _ => False

/-- Whether the markers of a part are what they have to be. -/
structure Marked (guest kept : NodeId → Prop) (tree : Tree) (first last : NodeId) : Prop where
  start : tree.kindOf first = some .marker
  stop : tree.kindOf last = some .marker
  start_own : ¬ guest first
  stop_own : ¬ guest last
  start_free : ¬ kept first
  stop_free : ¬ kept last
  /-- The end marker was made for the part, so there is nothing below it. -/
  stop_leaf : tree.childrenOf last = []

/-- A part whose markers are what they have to be and whose nodes are where the survey says that they may be. -/
structure Staked (survey : Survey) (guest kept : NodeId → Prop) (tree : Tree) (plot : Plot) : Prop
    extends Marked guest kept tree plot.part.start plot.part.stop where
  surveyed : ∀ id ∈ plot.owned, survey.base ≤ id ∨ guest id ∨ survey.fits plot.part.start id

/-- A staked part whose items are such as the survey says. -/
structure Charted (survey : Survey) (guest kept : NodeId → Prop) (tree : Tree) (plot : Plot) : Prop
    extends Staked survey guest kept tree plot where
  known : survey.Knows plot.part

/-- A charted item of a list: its start marker was made for it, too. -/
structure Lined (survey : Survey) (guest kept : NodeId → Prop) (tree : Tree) (plot : Plot) : Prop
    extends Charted survey guest kept tree plot where
  start_leaf : tree.childrenOf plot.part.start = []

/-- Markers that stay markers and that the hook does not come by remain what they have to be. -/
theorem Charted.remain {survey : Survey} {guest kept held : NodeId → Prop} {tree changed : Tree} {plot : Plot}
    (charted : Charted survey guest kept tree plot)
    (markers : ∀ id, tree.kindOf id = some .marker → changed.kindOf id = some .marker)
    (free : ∀ id, held id → kept id) (leaf : changed.childrenOf plot.part.stop = tree.childrenOf plot.part.stop) :
    Charted survey guest held changed plot where
  start := markers _ charted.start
  stop := markers _ charted.stop
  start_own := charted.start_own
  stop_own := charted.stop_own
  start_free here := charted.start_free (free _ here)
  stop_free here := charted.stop_free (free _ here)
  stop_leaf := leaf.trans charted.stop_leaf
  surveyed := charted.surveyed
  known := charted.known

/-- The layout of a content: the nodes directly between the markers, and all nodes of the content. -/
inductive Shows (premises : Premises) (tree : Tree) : Content → List NodeId → List NodeId → Prop where
  | empty : Shows premises tree .empty [] []
  | text {id : NodeId} {data : String} (kind : tree.kindOf id = some (.text data))
      (own : ¬ premises.guest id) (free : ¬ premises.kept id) (leaf : premises.leafy → tree.childrenOf id = []) :
      Shows premises tree (.text data) [id] [id]
  | guest {id : NodeId} (guest : premises.guest id) (wanted : premises.wanted id)
      (solid : tree.isText id = false) :
      Shows premises tree (.node id) [id] [id]
  | absent {id : NodeId} (guest : premises.guest id) (wanted : premises.wanted id)
      (gone : premises.lost id) :
      Shows premises tree (.node id) [] []
  | row {blocks : List Block} {content : Content} (arranged : Arranges blocks content)
      (marked : ∀ plot, .plot plot ∈ blocks →
        Lined premises.survey premises.guest premises.kept tree plot)
      (shown : ∀ plot, .plot plot ∈ blocks →
        Shows premises tree plot.part.content plot.inner plot.owned)
      (strays : ∀ id, .stray id ∈ blocks →
        premises.kept id ∧ (premises.guest id → tree.isText id = false))
      (complete : premises.bare → ∀ id, .stray id ∉ blocks) :
      Shows premises tree content (blocks.flatMap Block.nodes) (blocks.flatMap Block.claimed)
  | template {shown : TemplateInstance} {original : Subtree} {forest : List Subtree}
      {reach : List NodeId} {fittings : List Fitting}
      (shape : premises.shape shown.template original) (planted : Planted original forest reach)
      (parts : shown.parts = fittings.map Fitting.part)
      (fit : List.Forall₂ (Fits reach) shown.template.template.slots fittings)
      (distinct : (fittings.filterMap Fitting.start?).Nodup)
      (own : ∀ id ∈ nodesOfAll forest, ¬ premises.guest id ∧ ¬ premises.kept id)
      (kinds : ∀ spot ∈ spotsOfAll forest, ∃ kind, tree.kindOf spot.id = some kind ∧
        Accords fittings spot.id spot.kind kind)
      (children : ∀ spot ∈ spotsOfAll forest,
        tree.childrenOf spot.id = weave fittings spot.children)
      (marked : ∀ plot, .node plot ∈ fittings →
        Charted premises.survey premises.guest premises.kept tree plot)
      (nested : ∀ plot, .node plot ∈ fittings →
        Shows premises tree plot.part.content plot.inner plot.owned) :
      Shows premises tree (.template shown) (weave fittings (forest.map Subtree.id))
        (nodesOfAll forest ++ fittings.flatMap Fitting.claimed)

end DomParts.Layout
