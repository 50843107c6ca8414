import DomParts.Error
import DomParts.Keyed.Plan

/-! # Events

What rendering reports while it goes on. An event holds counts, nodes and rules but never a key and
never a rendered text, since both may be private.
-/

namespace DomParts

/-- The rule's name in reports. Leftovers go without one. -/
def Keyed.Rule.title? : Rule → Option String
  | .headMatch => some "Head match"
  | .tailMatch => some "Tail match"
  | .headToTail => some "Old head to new tail"
  | .tailToHead => some "Old tail to new head"
  | .dropHead => some "Removing old head"
  | .dropTail => some "Removing old tail"
  | .placeHead => some "Placing new head"
  | .insert => some "Inserting"
  | .leftover => none

/-- Something that rendering reports. -/
inductive Event where
  /-- A run was moved. -/
  | moved (count : Nat)
  /-- A run was removed without asking. -/
  | removed (count : Nat)
  /-- A run was removed as far as the hook let it. -/
  | removedAsking (count : Nat)
  /-- The hook kept a node. -/
  | kept (node : NodeId)
  /-- A node left its container before its turn. -/
  | lostNode (node : NodeId)
  /-- A template was found by its literal's place. -/
  | foundByIdentity
  /-- A template was found by its literal's content. -/
  | foundByContent
  /-- A template was compiled. -/
  | compiled (slots : Nat)
  /-- A root was made. -/
  | rootCreated
  /-- The slots of a template were bound. -/
  | bound (parts : Nat)
  /-- A text node was given new text. -/
  | textUpdated
  /-- A template instance is given new values. -/
  | instanceUpdated
  /-- A template is about to be instantiated. -/
  | instanceStarted
  /-- A list is about to lose its last items. -/
  | truncated (old new : Nat)
  /-- A value is of no use in an attribute. -/
  | misfit (what name : String)
  /-- A commit failed and the part is now poisoned. -/
  | commitFailed (error : Error)
  /-- Some new keys repeat earlier ones. -/
  | duplicateKeys (count : Nat)
  /-- A keyed pass is about to act by a rule. -/
  | settling (rule : Keyed.Rule)
  /-- A keyed pass is about to index what is left on both sides. -/
  | indexing (new old : Nat)
  /-- While indexing, some keys were met again. -/
  | ignoredDuplicates (count : Nat)
  /-- A keyed pass is complete. -/
  | passDone (stats : Stats)
  deriving Repr, DecidableEq

/-- The event as a line of a report: its level, or the word for the beginning of a section, and its
    text. A rule without a title makes no line. -/
def Event.line? : Event → Option String
  | .moved count => some ("TRACE Moved " ++ toString count ++ " node(s).")
  | .removed count => some ("TRACE Removed " ++ toString count ++ " node(s).")
  | .removedAsking count =>
      some ("TRACE Removed " ++ toString count ++ " node(s) with callback.")
  | .kept node => some ("TRACE Removal skipped by hook: " ++ node.describe)
  | .lostNode node =>
      some ("ERROR Node to remove was detached out of band: " ++ node.describe)
  | .foundByIdentity => some "TRACE Hit by identity."
  | .foundByContent => some "TRACE Hit by content."
  | .compiled slots =>
      some ("INFO Compiled a template with " ++ toString slots ++ " part(s).")
  | .rootCreated => some "INFO Created render root."
  | .bound parts => some ("TRACE Bound " ++ toString parts ++ " part(s).")
  | .textUpdated => some "TRACE Updating text in place."
  | .instanceUpdated => some "TRACE Updating template instance."
  | .instanceStarted => some "SPAN Creating template instance"
  | .truncated old new =>
      some ("TRACE Truncating list from " ++ toString old ++ " to " ++ toString new ++ " item(s).")
  | .misfit what name =>
      some ("ERROR Can't commit " ++ what ++ " into attribute " ++ Text.quoted name ++ ".")
  | .commitFailed error => some ("ERROR Commit failed, poisoning the part: " ++ error.message)
  | .duplicateKeys count =>
      some ("WARN " ++ toString count ++ " duplicate key(s) in one pass. " ++
        "Only the first occurrence of a key is matched to an existing item.")
  | .settling rule => rule.title?.map fun title => "SPAN " ++ title ++ " key=<key>"
  | .indexing new old =>
      some ("SPAN Filling key lookups new=" ++ toString new ++ " old=" ++ toString old)
  | .ignoredDuplicates count =>
      some ("TRACE Ignored " ++ toString count ++ " duplicate key(s) while filling lookups.")
  | .passDone stats =>
      some ("INFO Repeat pass: " ++ toString stats.created ++ " created, " ++
        toString stats.updated ++ " updated, " ++ toString stats.moved ++ " moved, " ++
        toString stats.removed ++ " removed.")

end DomParts
