import DomParts.Render.Scene

/-! # Moving and removing runs in a scene

The runs of a tree, with a report, and a third way to walk one: removal that asks first. Markers go
without asking. A node that the hook keeps stays where it is.
-/

namespace DomParts.RenderM

variable {σ : Type}

/-- Moves a run into `container` before `before`, or behind its last child. -/
def moveRun (container start : NodeId) (stop before : Option NodeId) : RenderM σ Nat := do
  let count ← editInSteps (·.moveRun container start stop before)
  note (.moved count)
  return count

def removeRun (container start : NodeId) (stop : Option NodeId) : RenderM σ Nat := do
  let count ← editInSteps (·.removeRun container start stop)
  note (.removed count)
  return count

/-- Whether a node may go: markers always may, of others the hook is asked. -/
def mayRemove (hook : RemovalHook σ) (container id : NodeId) : RenderM σ Bool := do
  if ← look (·.isMarker id) then return true
  match ← consult (hook.ask id container) with
  | .proceed => return true
  | .skip =>
      note (.kept id)
      return false

/-- Deals with one node of a run: it must still be in its container, and goes if it may. Returns
    whether it went. -/
def removeAsking (hook : RemovalHook σ) (container id : NodeId) : RenderM σ Bool := do
  if (← look (·.parentOf id)) ≠ some container then
    note (.lostNode id)
    throw (.illegalMutation .leftContainer)
  if ← mayRemove hook container id then
    edit (·.removeChild container id)
    return true
  return false

/-- Walks a run to remove its nodes and counts those that went. The walk is cut off after `fuel`
    nodes. -/
def overRunAsking (hook : RemovalHook σ) (container : NodeId) (stop : Option NodeId) :
    Nat → Option NodeId → Nat → RenderM σ Nat
  | _, none, count => return count
  | fuel, some id, count =>
      if stop = some id then return count
      else match fuel with
        | 0 => throw (.host .endlessRun)
        | fuel + 1 => do
            let next ← look (·.nextSibling id)
            let went ← removeAsking hook container id
            overRunAsking hook container stop fuel next (if went then count + 1 else count)

/-- Removes a run from `container`, as far as the hook lets it. -/
def removeRunAsking (hook : RemovalHook σ) (container start : NodeId) (stop : Option NodeId) :
    RenderM σ Nat := do
  let fuel ← look (·.size + hook.additions)
  let count ← overRunAsking hook container stop fuel (some start) 0
  note (.removedAsking count)
  return count

/-- Removes a run in the client's way: through the hook if there is one. -/
def removeRunFor (client : Client σ) (container start : NodeId) (stop : Option NodeId) :
    RenderM σ Nat :=
  match client.hook? with
  | some hook => removeRunAsking hook container start stop
  | none => removeRun container start stop

end DomParts.RenderM
