import DomParts.Keyed.Plan
import DomParts.Part.Node

/-! # Lists by key

A keyed pass carries out the plan that leads from the keys shown to the keys wanted. Parts of keys
that stay keep their nodes.
-/

namespace DomParts

open RenderM

variable {σ : Type}

namespace NodePart

/-- Moves a part with its markers before a node. Returns whether it was elsewhere. -/
def moveBefore (part : NodePart) (container before : NodeId) : RenderM σ Bool := do
  let after ← look (·.nextSibling part.stop)
  if after = some before then return false
  let _ ← moveRun container part.start after (some before)
  return true

/-- Removes a part with its markers, as far as the client's hook lets it. -/
def remove (client : Client σ) (part : NodePart) (container : NodeId) : RenderM σ Unit := do
  let after ← look (·.nextSibling part.stop)
  let _ ← removeRunFor client container part.start after

end NodePart

namespace Keyed

/-- What stays the same during a pass. -/
structure Setting (σ : Type) where
  client : Client σ
  container : NodeId
  /-- The marker behind all items. -/
  stop : NodeId
  /-- The parts shown before the pass. -/
  old : List NodePart
  /-- The items wanted. -/
  items : List (Rendering σ)

/-- What a pass has achieved. -/
structure Pass where
  /-- For each item wanted, its part once it has one. -/
  placed : List (Option NodePart)
  stats : Stats := {}

namespace Pass

def start (count : Nat) : Pass := ⟨List.replicate count none, {}⟩

def parts (pass : Pass) : List NodePart := pass.placed.filterMap id

def place (pass : Pass) (index : Nat) (part : NodePart) : Pass :=
  { pass with placed := pass.placed.set index (some part) }

def count (pass : Pass) (change : Stats → Stats) : Pass := { pass with stats := change pass.stats }

end Pass

namespace Setting

/-- The node that stands behind a place among the items. -/
def nodeAt (setting : Setting σ) (pass : Pass) : Anchor → NodeId
  | .beforeOld index => (setting.old[index]?.map (·.start)).getD setting.stop
  | .beforeNew index => (pass.placed[index]?.join.map (·.start)).getD setting.stop
  | .atEnd => setting.stop

/-- Renders an item into an old part that stays where it is. -/
def keep (setting : Setting σ) (pass : Pass) (old new : Nat) : RenderM σ Pass := do
  match setting.old[old]?, setting.items[new]? with
  | some part, some item =>
      let part ← part.renderWith item
      return (pass.place new part).count fun stats => { stats with updated := stats.updated + 1 }
  | _, _ => return pass

/-- Renders an item into an old part and moves the part. -/
def bring (setting : Setting σ) (pass : Pass) (old new : Nat) (anchor : Anchor) : RenderM σ Pass := do
  match setting.old[old]?, setting.items[new]? with
  | some part, some item =>
      let part ← part.renderWith item
      let moved ← part.moveBefore setting.container (setting.nodeAt pass anchor)
      return (pass.place new part).count fun stats =>
        { stats with
          updated := stats.updated + 1
          moved := if moved then stats.moved + 1 else stats.moved }
  | _, _ => return pass

def create (setting : Setting σ) (pass : Pass) (new : Nat) (anchor : Anchor) : RenderM σ Pass := do
  match setting.items[new]? with
  | some item =>
      let fresh ← NodePart.insertInto setting.container (some (setting.nodeAt pass anchor))
      let part ← fresh.renderWith item
      return (pass.place new part).count fun stats => { stats with created := stats.created + 1 }
  | none => return pass

def remove (setting : Setting σ) (pass : Pass) (old : Nat) : RenderM σ Pass := do
  match setting.old[old]? with
  | some part =>
      part.remove setting.client setting.container
      return pass.count fun stats => { stats with removed := stats.removed + 1 }
  | none => return pass

def perform (setting : Setting σ) (pass : Pass) : Action → RenderM σ Pass
  | .keep rule old new => do
      note (.settling rule)
      setting.keep pass old new
  | .bring rule old new anchor => do
      note (.settling rule)
      setting.bring pass old new anchor
  | .create rule new anchor => do
      note (.settling rule)
      setting.create pass new anchor
  | .remove rule old => do
      note (.settling rule)
      setting.remove pass old
  | .index new old duplicates => do
      note (.indexing new old)
      if duplicates > 0 then note (.ignoredDuplicates duplicates)
      return pass

/-- Carries out a plan from its first action to its last. -/
def performAll (setting : Setting σ) (pass : Pass) : List Action → RenderM σ Pass
  | [] => return pass
  | action :: actions => do setting.performAll (← setting.perform pass action) actions

end Setting

end Keyed

namespace Render

/-- Shows one item after the other, each in the part that showed the item with its key. -/
def keyed (client : Client σ) (items : List (Key × Rendering σ)) : Renderer σ := fun part => do
  let (oldKeys, old) ← match part.content with
    | .keyed keys parts _ => pure (keys, parts)
    | _ => do
        part.removeContent
        pure ([], [])
  let container ← part.container
  let keys := items.map (·.1)
  let duplicates := (Keyed.Window.ofKeys keys).duplicates
  if duplicates > 0 then note (.duplicateKeys duplicates)
  let setting := ⟨client, container, part.stop, old, items.map (·.2)⟩
  let pass ← Keyed.Setting.performAll setting (.start items.length) (Keyed.plan oldKeys keys)
  note (.passDone pass.stats)
  return .keyed keys pass.parts pass.stats

end Render

end DomParts
