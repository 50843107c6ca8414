import DomParts.Render.Scene

/-! # Scripted removal hooks

A script says in advance which nodes a removal hook keeps. A hook may also have a side effect on the
tree, which is how scripts show what becomes of a run that is changed while it is removed.
-/

namespace DomParts.Script

/-- What a hook does to the tree before it answers. -/
inductive SideEffect where
  /-- Removes the target's next sibling from the container. -/
  | removeNext
  /-- Removes the target from the container. -/
  | removeSelf
  /-- Appends a text to the container. -/
  | append
  /-- Moves the target's next sibling into a new element. -/
  | reparentNext
  deriving Repr, DecidableEq

/-- How a removal hook decides. -/
structure Hook where
  effect? : Option SideEffect := none
  /-- How often the side effect happens at most. -/
  effectLimit : Nat := 1
  /-- The targets for which the side effect happens, if not for all. -/
  effectOn? : Option (List NodeId) := none
  /-- Targets to keep. -/
  kept : List NodeId := []
  /-- Text nodes with these data are kept. -/
  keptTexts : List String := []
  /-- Every so manyth target is kept. -/
  every? : Option Nat := none
  /-- The answer for all others. -/
  otherwise : Removal := .proceed

namespace Hook

def isDue (hook : Hook) (effectCount : Nat) (target : NodeId) : Bool :=
  effectCount < hook.effectLimit && (hook.effectOn?.map (·.contains target)).getD true

/-- The tree after a change, or as it was if the change is refused. -/
def attempt (tree : Tree) (change : Tree → Except HostFault Tree) : Tree :=
  (change tree).toOption.getD tree

/-- The tree after a side effect. -/
def affect (effect : SideEffect) (target container : NodeId) (tree : Tree) : Tree :=
  match effect with
  | .removeNext =>
      match tree.nextSibling target with
      | some next => attempt tree (·.removeChild container next)
      | none => tree
  | .removeSelf => attempt tree (·.removeChild container target)
  | .append =>
      let (added, tree) := tree.create (.text "+")
      attempt tree (·.appendChild container added)
  | .reparentNext =>
      match tree.nextSibling target with
      | some next =>
          let (parent, tree) := tree.create (.plain "x")
          attempt tree (·.appendChild parent next)
      | none => tree

/-- The answer for a target, the hook's question number `number`. -/
def decide (hook : Hook) (number : Nat) (target : NodeId) (tree : Tree) : Removal :=
  let keptText := match tree.kindOf target with
    | some (.text data) => hook.keptTexts.contains data
    | _ => false
  let keptByCount := match hook.every? with
    | some every => number % every = 0
    | none => false
  if hook.kept.contains target || keptText || keptByCount then .skip else hook.otherwise

end Hook

end DomParts.Script
