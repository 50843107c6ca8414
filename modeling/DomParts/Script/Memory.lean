import DomParts.Script.Hook
import DomParts.Script.Processor

/-! # Scripted clients

A client that follows a script counts how often it was called and takes down what it was asked.
-/

namespace DomParts.Script

/-- A scripted client's memory. -/
structure Memory where
  processor : Processor := {}
  hook? : Option Hook := none
  /-- How many literals were to be compiled so far. -/
  requestCount : Nat := 0
  /-- How often the hook was asked so far. -/
  questionCount : Nat := 0
  /-- How many side effects happened so far. -/
  effectCount : Nat := 0
  /-- The literals to be compiled since this was last read. -/
  requests : List (TemplateKind × List String) := []
  /-- The targets and containers that the hook was asked about since this was last read. -/
  questions : List (NodeId × NodeId) := []

namespace Memory

/-- Takes the request down and compiles the literal. -/
def compile (kind : TemplateKind) (literal : Literal) :
    StateM (Memory × Tree) (Except Error Template) :=
  fun (memory, tree) =>
    let (result, tree) := memory.processor.compile memory.requestCount kind literal tree
    (result,
      { memory with
        requestCount := memory.requestCount + 1
        requests := memory.requests ++ [(kind, literal.segments)] },
      tree)

def affect (hook : Hook) (target container : NodeId) (memory : Memory) (tree : Tree) :
    Memory × Tree :=
  match hook.effect? with
  | some effect =>
      if hook.isDue memory.effectCount target then
        ({ memory with effectCount := memory.effectCount + 1 },
          Hook.affect effect target container tree)
      else (memory, tree)
  | none => (memory, tree)

/-- Takes the question down, has the side effect, and answers. -/
def ask (hook : Hook) (target container : NodeId) : StateM (Memory × Tree) Removal :=
  fun (memory, tree) =>
    let memory := { memory with
      questionCount := memory.questionCount + 1
      questions := memory.questions ++ [(target, container)] }
    let (memory, tree) := affect hook target container memory tree
    (hook.decide memory.questionCount target tree, memory, tree)

/-- The hook as rendering sees it. A side effect adds at most one node. -/
def removalHook (hook : Hook) : RemovalHook Memory := ⟨ask hook, hook.effectLimit⟩

def client (memory : Memory) : Client Memory := ⟨compile, memory.hook?.map removalHook⟩

end Memory

end DomParts.Script
