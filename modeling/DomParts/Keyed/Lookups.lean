import DomParts.Key

/-! # Windows and lookups

A window is what a keyed pass has not dealt with yet, of the old items or of the new ones: keys with
their places in the full sequence. Lookups index the keys of two windows by first occurrence. They may
be kept and filled again; what they held before is forgotten then.
-/

namespace DomParts.Keyed

/-- A key and its place in the full sequence. -/
structure Entry where
  index : Nat
  key : Key
  deriving Repr, DecidableEq, Inhabited

/-- Some of the entries of a sequence, in order. -/
abbrev Window := List Entry

namespace Window

/-- The entries of a sequence whose first place is `index`. -/
def numbered (index : Nat) : List Key → Window
  | [] => []
  | key :: rest => ⟨index, key⟩ :: numbered (index + 1) rest

def ofKeys (keys : List Key) : Window := numbered 0 keys

/-- The entries whose keys do not occur before them. -/
def firsts : Window → Window
  | [] => []
  | entry :: rest => entry :: (firsts rest).filter (·.key ≠ entry.key)

/-- How many entries repeat the key of an earlier one. -/
def duplicates (window : Window) : Nat := window.length - window.firsts.length

/-- Enters a key with its place in an index, unless the key is there already. Returns whether it is. -/
def enter (entry : Entry) : StateM Window Bool := do
  if (← get).any (·.key = entry.key) then return true
  modify (· ++ [entry])
  return false

/-- Enters keys with their places, one after the other. Returns how many were there already. -/
def enterAll : Window → StateM Window Nat
  | [] => return 0
  | entry :: rest => do
      let again ← enter entry
      let others ← enterAll rest
      return if again then others + 1 else others

/-- Indexes a window in place of what was indexed before. Returns how many entries were ignored. -/
def index (window : Window) : StateM Window Nat := do
  set ([] : Window)
  enterAll window

end Window

/-- Where each key of two windows occurs first. -/
structure Lookups where
  new : Window
  old : Window
  deriving Repr, DecidableEq, Inhabited

namespace Lookups

/-- Indexes two windows, in place of what was indexed before. Returns how many entries were ignored
    because they repeat the key of an earlier one. -/
def fill (new old : Window) : StateM Lookups Nat := do
  let lookups ← get
  let (newIgnored, newIndex) := new.index lookups.new
  let (oldIgnored, oldIndex) := old.index lookups.old
  set (⟨newIndex, oldIndex⟩ : Lookups)
  return newIgnored + oldIgnored

def ofWindows (new old : Window) : Lookups := (fill new old default).2

/-- How many entries lookups for two windows ignore. -/
def ignored (new old : Window) : Nat := (fill new old default).1

def hasNew (lookups : Lookups) (key : Key) : Bool := lookups.new.any (·.key = key)

/-- Where the key first occurred in the old window. -/
def oldIndex? (lookups : Lookups) (key : Key) : Option Nat :=
  (lookups.old.find? (·.key = key)).map (·.index)

end Lookups

end DomParts.Keyed
