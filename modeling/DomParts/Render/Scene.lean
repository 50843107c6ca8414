import DomParts.Render.Event
import DomParts.Template.Cache
import DomParts.Tree.Edit

/-! # Scenes

Everything that rendering reads and writes: the tree, the compiled templates, the memory of those who
compile templates and guard removals, and the report. A render that fails stops early but leaves the
scene as it stands.
-/

namespace DomParts

/-- What a removal hook decides for one node. -/
inductive Removal where
  /-- The node is removed now. -/
  | proceed
  /-- The node stays, and the hook will have to remove it some day. -/
  | skip
  deriving Repr, DecidableEq, Inhabited

/-- A guard that is asked before a node of a keyed item is removed. It may keep a memory of type `σ` and
    change the tree. -/
structure RemovalHook (σ : Type) where
  /-- Decides on a node that is about to leave its container. -/
  ask (target container : NodeId) : StateM (σ × Tree) Removal
  /-- The most nodes that the hook adds to a run while it is being removed. -/
  additions : Nat := 0

/-- Those on whom rendering relies: whoever compiles templates, and a removal hook if there is one. -/
structure Client (σ : Type) where
  /-- Turns the segments of a literal into a template. -/
  compile (kind : TemplateKind) (literal : Literal) : StateM (σ × Tree) (Except Error Template)
  /-- Asked before the nodes of a removed keyed item go. -/
  hook? : Option (RemovalHook σ)

/-- The state that rendering works on. -/
structure Scene (σ : Type) where
  tree : Tree
  cache : TemplateCache
  /-- The client's memory. -/
  memory : σ
  /-- What was reported so far, in order. -/
  report : Array Event := #[]

/-- A computation on a scene that may fail. What it did before it failed stays done. -/
abbrev RenderM (σ : Type) := ExceptT Error (StateM (Scene σ))

/-- A change to something that is kept even if the change fails halfway: the thing afterwards, and how
    it went. -/
abbrev Attempt (σ : Type) (α : Type) := StateM (Scene σ) (α × Except Error Unit)

variable {σ α β : Type}

namespace Scene

def add (event : Event) (scene : Scene σ) : Scene σ :=
  { scene with report := scene.report.push event }

/-- A scene on a given tree, before anything was compiled or reported. -/
def onTree (tree : Tree) (memory : σ) : Scene σ := ⟨tree, .empty, memory, #[]⟩

end Scene

namespace RenderM

def note (event : Event) : RenderM σ Unit := modify (·.add event)

def look (view : Tree → α) : RenderM σ α := do return view (← get).tree

def edit (change : Tree → Except HostFault Tree) : RenderM σ Unit := do
  let scene ← get
  match change scene.tree with
  | .ok tree => set { scene with tree }
  | .error fault => throw (.host fault)

def grow (change : Tree → NodeId × Tree) : RenderM σ NodeId := do
  let scene ← get
  let (id, tree) := change scene.tree
  set { scene with tree }
  return id

def create (kind : Kind) : RenderM σ NodeId := grow (·.create kind)

/-- Inserts a node into `parent` before `before`, or as its last child. -/
def insert (parent id : NodeId) (before : Option NodeId) : RenderM σ Unit :=
  edit (·.insertBefore parent id before)

/-- Changes the tree in several steps. If the tree refuses on the way, the steps before stay done. -/
def editInSteps (change : Tree → Except HostFault α × Tree) : RenderM σ α := do
  let scene ← get
  let (result, tree) := change scene.tree
  set { scene with tree }
  match result with
  | .ok value => return value
  | .error fault => throw (.host fault)

/-- Lets the client act on its memory and the tree. -/
def consult (act : StateM (σ × Tree) α) : RenderM σ α := do
  let scene ← get
  let (answer, memory, tree) := act (scene.memory, scene.tree)
  set { scene with memory, tree }
  return answer

def require (error : Error) : Option α → RenderM σ α
  | some value => return value
  | none => throw error

end RenderM

/-- The result on a scene, and the scene afterwards. -/
def RenderM.runOn (act : RenderM σ α) (scene : Scene σ) : Except Error α × Scene σ := act scene

namespace Attempt

/-- The thing afterwards and how it went on a scene, and the scene afterwards. -/
def runOn (attempt : Attempt σ α) (scene : Scene σ) : (α × Except Error Unit) × Scene σ :=
  attempt scene

def done (value : α) : Attempt σ α := fun scene => ((value, .ok ()), scene)

def refused (value : α) (error : Error) : Attempt σ α := fun scene => ((value, .error error), scene)

/-- Carries out a computation. `kept` is made from its result; if it fails, `broken` is what is left. -/
def carry (act : RenderM σ β) (kept : β → α) (broken : α) : Attempt σ α := fun scene =>
  match act.runOn scene with
  | (.ok result, scene) => ((kept result, .ok ()), scene)
  | (.error error, scene) => ((broken, .error error), scene)

def map (change : α → β) (attempt : Attempt σ α) : Attempt σ β := fun scene =>
  match attempt.runOn scene with
  | ((value, result), scene) => ((change value, result), scene)

def orThrow (attempt : Attempt σ α) : RenderM σ α := fun scene =>
  match attempt.runOn scene with
  | ((value, .ok ()), scene) => (.ok value, scene)
  | ((_, .error error), scene) => (.error error, scene)

end Attempt

end DomParts
