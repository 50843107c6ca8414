import DomParts.Render.Describe
import DomParts.Render.Value
import DomParts.Script.Step

/-! # Sessions

A session is the state between the steps of a script: one tree, and what the script has named. Things
that a name was bound to before live on as long as a part uses them, so contexts are kept by number.
-/

namespace DomParts.Script

/-- A cache of templates with the client that belongs to it. -/
structure Context where
  cache : TemplateCache := .empty
  memory : Memory

/-- A part with a name. -/
inductive Holder where
  | root (root : Root)
  | node (part : NodePart)
  | attribute (part : AttributePart)

/-- A part and the number of the context that it works in. -/
structure Held where
  context : Nat
  holder : Holder

/-- The state between two steps. -/
structure Session where
  tree : Tree := .empty
  /-- All contexts and caches made so far. -/
  contexts : Array Context := #[]
  contextNames : List (String × Nat) := []
  cacheNames : List (String × Nat) := []
  literals : List (String × Literal) := []
  /-- How many places for literals were used so far. -/
  sites : Nat := 0
  parts : List (String × Held) := []
  templates : List (String × Template) := []
  instances : List (String × Nat × TemplateInstance) := []
  /-- The templates found by caches so far, each by the numbers of its cache and in it, in the order in
      which they were first found. -/
  found : List (Nat × Nat) := []
  /-- What the current step has shown so far besides its answer. -/
  requests : List (TemplateKind × List String) := []
  questions : List (NodeId × NodeId) := []
  report : List Event := []

/-- A computation on a session, which may bring the script to an end. -/
abbrev SessionM := ExceptT Halt (StateM Session)

namespace SessionM

variable {α : Type}

def named (name : String) (bindings : List (String × α)) : SessionM α :=
  match bindings.lookup name with
  | some value => return value
  | none => throw (.unknownName name)

def requireNode (id : NodeId) : SessionM Unit := do
  if ¬ (← get).tree.has id then throw .noSuchNode

def view (id : NodeId) (read : Tree → NodeId → α) : SessionM α := do
  requireNode id
  return read (← get).tree id

/-- Stops the script if a failure is one that the program does not survive. -/
def check (result : Except Error α) : SessionM (Except Error α) :=
  match result with
  | .error (.host (.noSuchNode _)) => throw .noSuchNode
  | .error .overflow => throw .crashed
  | result => return result

/-- Runs on the session's tree, with a cache and a memory that are given back. -/
def onScene (cache : TemplateCache) (memory : Memory) (act : StateM (Scene Memory) α) :
    SessionM (α × Context) := do
  let session ← get
  let (result, scene) := act.run ⟨session.tree, cache, memory, #[]⟩
  let memory := scene.memory
  set { session with
    tree := scene.tree
    requests := session.requests ++ memory.requests
    questions := session.questions ++ memory.questions
    report := session.report ++ scene.report.toList }
  return (result, ⟨scene.cache, { memory with requests := [], questions := [] }⟩)

def contextAt (number : Nat) : SessionM Context := do
  match (← get).contexts[number]? with
  | some context => return context
  | none => throw (.unknownName (toString number))

def within (number : Nat) (act : Client Memory → StateM (Scene Memory) α) : SessionM α := do
  let context ← contextAt number
  let (result, context) ← onScene context.cache context.memory (act context.memory.client)
  modify fun session => { session with contexts := session.contexts.setIfInBounds number context }
  return result

def renderWithin (number : Nat) (act : RenderM Memory α) : SessionM (Except Error α) := do
  check (← within number fun _ => act.run)

/-- Runs something that may fail outside all contexts. -/
def renderAlone (memory : Memory) (act : RenderM Memory α) : SessionM (Except Error α) := do
  let (result, _) ← onScene .empty memory act.run
  check result

/-- The answer to something that has nothing to tell unless it fails. -/
def doneAnswer (result : Except Error Unit) : Answer :=
  match result with
  | .ok () => .done
  | .error error => .failed error

def edit (change : Tree → Except HostFault Tree) : SessionM Answer := do
  return doneAnswer (← renderAlone {} (RenderM.edit change))

def buildBelow (parent : NodeId) (specs : List Spec) : SessionM Answer := do
  return doneAnswer (← renderAlone {}
    (RenderM.editInSteps (Spec.buildAll parent specs).run.run))

/-- The answer to a count, or to the failure to get one. -/
def countAnswer (result : Except Error Nat) : Answer :=
  match result with
  | .ok count => .count count
  | .error error => .failed error

def addContext (memory : Memory) : SessionM Nat := do
  let session ← get
  set { session with contexts := session.contexts.push { memory } }
  return session.contexts.size

def resolve (draft : Draft) : SessionM Value := do
  match draft.resolve (← get).literals with
  | .ok value => return value
  | .error name => throw (.unknownName name)

def resolveAll (drafts : List Draft) : SessionM (List Value) := do
  match Draft.resolveAll (← get).literals drafts with
  | .ok values => return values
  | .error name => throw (.unknownName name)

/-- Binds a part to a name, in place of what the name was bound to. -/
def holdPart (name : String) (held : Held) : SessionM Unit :=
  modify fun session => { session with parts := (name, held) :: session.parts }

/-- How things stand with a node part: the part, and the node around it with all of its children. -/
def nodeState (context : Nat) (result : Except Error Unit) (part : NodePart) :
    SessionM Answer := do
  let result ← check result
  let around ← renderWithin context do
    let container ← part.container
    RenderM.look (·.subtree container)
  return .nodeState result part around

def attributeState (result : Except Error Unit) (part : AttributePart) : SessionM Answer := do
  let result ← check result
  return .attributeState result part.name (← view part.element Tree.subtree)

def state (held : Held) (result : Except Error Unit) : SessionM Answer :=
  match held.holder with
  | .root root => nodeState held.context result root.part
  | .node part => nodeState held.context result part
  | .attribute part => attributeState result part

/-- Attempts to change a part, keeps what comes of it, and says how things stand. -/
def attempt (name : String) (context : Nat)
    (act : Client Memory → Attempt Memory Holder) : SessionM Answer := do
  let (holder, result) ← within context act
  holdPart name ⟨context, holder⟩
  state ⟨context, holder⟩ result

/-- The number of a template among all those found by the script. -/
def numberOf (cache serial : Nat) : SessionM Nat := do
  let found := (← get).found
  match found.idxOf? (cache, serial) with
  | some number => return number
  | none =>
      modify fun session => { session with found := session.found ++ [(cache, serial)] }
      return found.length

/-- The text of a part's attribute, if it is an attribute part. -/
def withText (tree : Tree) (part : Part) : Part × Option String :=
  match part with
  | .node _ => (part, none)
  | .attribute inner => (part, tree.attribute? inner.element inner.name)

def renderInto (value : Value) (client : Client Memory) : Holder → Attempt Memory Holder
  | .root root => (root.render client value).map .root
  | .node part => ((part.stage value).commit client).map .node
  | .attribute part => (part.stage value).commit.map .attribute

end SessionM

open SessionM

def Step.answer : Step → SessionM Answer
  | .create made => do
      let (id, tree) := (← get).tree.create made
      modify fun session => { session with tree }
      return .node id
  | .build parent specs => buildBelow parent specs
  | .appendChild parent node => edit (·.appendChild parent node)
  | .insertBefore parent node before => edit (·.insertBefore parent node before)
  | .removeChild parent node => edit (·.removeChild parent node)
  | .cloneDeep node => do
      let (id, tree) ← view node Tree.cloneDeep
      modify fun session => { session with tree }
      return .node id
  | .setText node data => edit (·.setText node data)
  | .isMarker node => return .flag (← view node Tree.isMarker)
  | .isText node => return .flag (← view node Tree.isText)
  | .parentNode node => return .node (← view node Tree.parentOf)
  | .firstChild node => return .node (← view node Tree.firstChild)
  | .nextSibling node => return .node (← view node Tree.nextSibling)
  | .kind node => do
      match ← view node Tree.kindOf with
      | some found => return .kind found
      | none => throw .noSuchNode
  | .children node => return .nodes (← view node Tree.childrenOf)
  | .textContent node => return .text (← view node Tree.textContent)
  | .markup node => return .text (← view node Tree.markup)
  | .subtree node => return .subtree (← view node Tree.subtree)
  | .getAttribute node name => return .text (← view node (·.attribute? · name))
  | .setAttribute node name value => edit (·.setAttribute node name value)
  | .removeAttribute node name => edit (·.removeAttribute node name)
  | .moveRun container start stop before => do
      if stop ≠ some start then requireNode start
      return countAnswer (← renderAlone {} (RenderM.moveRun container start stop before))
  | .removeRun container start stop hook? => do
      if stop ≠ some start then requireNode start
      let run := match hook? with
        | some hook => RenderM.removeRunAsking (Memory.removalHook hook) container start stop
        | none => RenderM.removeRun container start stop
      return countAnswer (← renderAlone { hook? } run)
  | .bindLiteral name segments => do
      modify fun session => { session with
        literals := (name, ⟨session.sites, segments⟩) :: session.literals
        sites := session.sites + 1 }
      return .count segments.length
  | .bindPart name other count => do
      let literal ← named other (← get).literals
      let segments := literal.segments.take count
      modify fun session => { session with
        literals := (name, ⟨literal.site, segments⟩) :: session.literals }
      return .count segments.length
  | .inspectTemplate language literal values => do
      let literal ← named literal (← get).literals
      return .templateValue language literal.segments (← resolveAll values).length
  | .bindContext name processor hook? => do
      let number ← addContext { processor, hook? }
      modify fun session =>
        { session with contextNames := (name, number) :: session.contextNames }
      return .done
  | .countTemplates context => do
      let context ← contextAt (← named context (← get).contextNames)
      return .templates context.cache.size
  | .showContext context => do
      let context ← contextAt (← named context (← get).contextNames)
      return .text (describeContext (← get).tree context.cache context.memory.client)
  | .bindRoot name context container => do
      let context ← named context (← get).contextNames
      match ← renderWithin context (Root.create container) with
      | .ok root =>
          holdPart name ⟨context, .root root⟩
          return .nodePart root.part
      | .error error => return .failed error
  | .bindNodePart name context container => do
      let context ← named context (← get).contextNames
      match ← renderWithin context (NodePart.insertInto container none) with
      | .ok part =>
          holdPart name ⟨context, .node part⟩
          return .nodePart part
      | .error error => return .failed error
  | .bindAttributePart name context element attributeName => do
      let context ← named context (← get).contextNames
      requireNode element
      match ← renderWithin context (AttributePart.bind element attributeName) with
      | .ok part =>
          holdPart name ⟨context, .attribute part⟩
          return .attributePart part.element part.name
      | .error error => return .failed error
  | .render part value => do
      let held ← named part (← get).parts
      let value ← resolve value
      attempt part held.context fun client => renderInto value client held.holder
  | .stage part value => do
      let held ← named part (← get).parts
      let value ← resolve value
      match held.holder with
      | .root _ => throw (.unknownName part)
      | .node inner => holdPart part { held with holder := .node (inner.stage value) }
      | .attribute inner => holdPart part { held with holder := .attribute (inner.stage value) }
      return .done
  | .commit part => do
      let held ← named part (← get).parts
      match held.holder with
      | .root _ => throw (.unknownName part)
      | .node inner =>
          attempt part held.context fun client => (inner.commit client).map .node
      | .attribute inner =>
          attempt part held.context fun _ => inner.commit.map .attribute
  | .clear part => do
      let held ← named part (← get).parts
      match held.holder with
      | .root root => attempt part held.context fun _ => root.clear.map .root
      | .node inner => attempt part held.context fun _ => inner.clear.map .node
      | .attribute _ => throw (.unknownName part)
  | .inspect part => do state (← named part (← get).parts) (.ok ())
  | .bindTemplate name template => do
      modify fun session => { session with templates := (name, template) :: session.templates }
      return .template template
  | .bindInstance name context template => do
      let context ← named context (← get).contextNames
      let template ← named template (← get).templates
      requireNode template.fragment
      let shared : SharedTemplate := ⟨0, template⟩
      match ← renderWithin context (TemplateInstance.create shared) with
      | .ok (shown, clone) =>
          modify fun session =>
            { session with instances := (name, context, shown) :: session.instances }
          return .shownInstance (← view clone Tree.subtree) shown.parts (shown.template == shared)
      | .error error => return .failed error
  | .update name values => do
      let (context, shown) ← named name (← get).instances
      let values ← resolveAll values
      let (shown, result) ← within context fun client => shown.assign client values
      let result ← check result
      modify fun session =>
        { session with instances := (name, context, shown) :: session.instances }
      return .updated result (shown.parts.map (withText (← get).tree))
  | .bindCache name processor => do
      let number ← addContext { processor }
      modify fun session => { session with cacheNames := (name, number) :: session.cacheNames }
      return .done
  | .fetch cache literal language => do
      let number ← named cache (← get).cacheNames
      let literal ← named literal (← get).literals
      let result ← check
        (← within number fun client => (RenderM.templateFor client language literal).run)
      let size := (← contextAt number).cache.size
      match result with
      | .ok shared =>
          let found ← numberOf number shared.serial
          let fragment ← view shared.template.fragment Tree.subtree
          return .fetched (.ok (found, shared.template, fragment)) size
      | .error error => return .fetched (.error error) size

namespace Session

def empty : Session := {}

/-- Whether an event is the failure of a commit that the program does not survive. The script ends there,
    so nothing that would have come of it is reported. -/
def isAftermath : Event → Bool
  | .commitFailed (.host (.noSuchNode _)) => true
  | .commitFailed .overflow => true
  | _ => false

def step (session : Session) (step : Step) : Response × Session :=
  let (answer, session) :=
    step.answer.run.run { session with requests := [], questions := [], report := [] }
  (⟨answer, session.requests, session.questions, session.report.filter (!isAftermath ·)⟩, session)

/-- Takes step after step, up to one that brings the script to an end. -/
def runAll (session : Session) : List Step → List Response
  | [] => []
  | first :: rest =>
      let (response, session) := session.step first
      match response.answer with
      | .ok _ => response :: session.runAll rest
      | .error _ => [response]

end Session

end DomParts.Script
