import DomParts.Keyed.Lookups

/-! # Plans

How to get from one sequence of keys to another. The plan is a list of actions on old and new items,
told apart by their places; it depends on the keys alone, and only on which of them are equal.

Both sequences are eaten up from both ends. Equal heads and equal tails stay where they are, and an
item that went from one end to the other is moved across. Only if none of that applies are the keys
indexed, once in a plan and only as far as they are left; a plan made while nothing but appending,
prepending, removing, swapping or reversing happened needs no index, at the price of not always
finding the fewest moves.
-/

namespace DomParts

/-- What one keyed pass did. -/
structure Stats where
  /-- Parts made for keys that were not shown before. -/
  created : Nat := 0
  /-- Parts that were kept and given their item's new value. -/
  updated : Nat := 0
  /-- Kept parts whose nodes had to change place. -/
  moved : Nat := 0
  /-- Parts removed because their keys are gone. -/
  removed : Nat := 0
  deriving Repr, DecidableEq, Inhabited

namespace Keyed

/-- The rule by which an item is settled. -/
inductive Rule where
  /-- The first items left on both sides have equal keys. -/
  | headMatch
  /-- The last items left on both sides have equal keys. -/
  | tailMatch
  /-- The first old item comes last among the new ones. -/
  | headToTail
  /-- The last old item comes first among the new ones. -/
  | tailToHead
  /-- The first old item's key is gone. -/
  | dropHead
  /-- The last old item's key is gone. -/
  | dropTail
  /-- The first new item goes before everything that is left of the old ones. -/
  | placeHead
  /-- A new item is left after the last old one. -/
  | insert
  /-- An old item is left after the last new one. -/
  | leftover
  deriving Repr, DecidableEq, Inhabited

/-- A place among the items. -/
inductive Anchor where
  /-- Before the old item with that index. -/
  | beforeOld (index : Nat)
  /-- Before the item that took the place with that index in the new sequence. -/
  | beforeNew (index : Nat)
  /-- Behind all items. -/
  | atEnd
  deriving Repr, DecidableEq, Inhabited

/-- One action of a plan. -/
inductive Action where
  /-- The old item takes the place of the new one and stays where it is. -/
  | keep (rule : Rule) (old new : Nat)
  /-- The old item takes the place of the new one and is moved. -/
  | bring (rule : Rule) (old new : Nat) (anchor : Anchor)
  /-- The new item gets a part of its own. -/
  | create (rule : Rule) (new : Nat) (anchor : Anchor)
  /-- The old item goes. -/
  | remove (rule : Rule) (old : Nat)
  /-- Numbers of entries indexed, and of those that repeat an earlier key. -/
  | index (new old duplicates : Nat)
  deriving Repr, DecidableEq, Inhabited

/-- The place right behind the new entry, in a new sequence of that many keys. Everything behind the
    last entry of the new window is in place already. -/
def Anchor.behind (total : Nat) (entry : Entry) : Anchor :=
  if entry.index + 1 < total then .beforeNew (entry.index + 1) else .atEnd

/-- Creates everything in the new window, before whatever comes behind it. -/
def insertAll (total : Nat) (new : Window) : List Action :=
  match new.getLast? with
  | some last => new.map fun entry => .create .insert entry.index (.behind total last)
  | none => []

def removeAll (old : Window) : List Action :=
  old.map fun entry => .remove .leftover entry.index

/-- The indexing of two windows, unless lookups exist already. -/
def indexing (lookups? : Option Lookups) (new old : Window) : List Action :=
  if lookups?.isSome then [] else [.index new.length old.length (Lookups.ignored new old)]

/-- The old entry that was the first with this key when the lookups were made, unless it is settled. -/
def reusable? (lookups : Lookups) (key : Key) (old : Window) : Option Entry :=
  (lookups.oldIndex? key).bind fun index => old.find? (·.index = index)

theorem length_filter_lt_of_reusable {lookups : Lookups} {key : Key} {old : Window}
    {entry : Entry} (found : reusable? lookups key old = some entry) :
    (old.filter (·.index ≠ entry.index)).length < old.length := by
  obtain ⟨index, -, hit⟩ := Option.bind_eq_some_iff.1 found
  have member := List.mem_of_find?_eq_some hit
  refine Nat.lt_of_le_of_ne (List.length_filter_le ..) fun same => ?_
  have := List.length_filter_eq_length_iff.1 same entry member
  simp at this

/-- Settles two windows of the old and the new sequence, the latter having `total` keys in all. -/
def planWindows (total : Nat) (lookups? : Option Lookups) (old new : Window) : List Action :=
  match old, new with
  | [], new => insertAll total new
  | old, [] => removeAll old
  | o :: os, n :: ns =>
      let oldLast := (o :: os).getLast (List.cons_ne_nil _ _)
      let newLast := (n :: ns).getLast (List.cons_ne_nil _ _)
      if o.key = n.key then
        .keep .headMatch o.index n.index :: planWindows total lookups? os ns
      else if oldLast.key = newLast.key then
        .keep .tailMatch oldLast.index newLast.index ::
          planWindows total lookups? (o :: os).dropLast (n :: ns).dropLast
      else if o.key = newLast.key then
        .bring .headToTail o.index newLast.index (.behind total newLast) ::
          planWindows total lookups? os (n :: ns).dropLast
      else if oldLast.key = n.key then
        .bring .tailToHead oldLast.index n.index (.beforeOld o.index) ::
          planWindows total lookups? (o :: os).dropLast ns
      else
        let lookups := lookups?.getD (.ofWindows (n :: ns) (o :: os))
        indexing lookups? (n :: ns) (o :: os) ++
          if ¬ lookups.hasNew o.key then
            .remove .dropHead o.index :: planWindows total (some lookups) os (n :: ns)
          else if ¬ lookups.hasNew oldLast.key then
            .remove .dropTail oldLast.index ::
              planWindows total (some lookups) (o :: os).dropLast (n :: ns)
          else match _found : reusable? lookups n.key (o :: os) with
            | some entry =>
                .bring .placeHead entry.index n.index (.beforeOld o.index) ::
                  planWindows total (some lookups)
                    ((o :: os).filter (·.index ≠ entry.index)) ns
            | none =>
                .create .placeHead n.index (.beforeOld o.index) ::
                  planWindows total (some lookups) (o :: os) ns
termination_by old.length + new.length
decreasing_by
  all_goals
    first
      | simp only [List.length_cons, List.length_dropLast]; omega
      | have := length_filter_lt_of_reusable _found; simp only [List.length_cons] at this ⊢; omega

/-- The actions that turn items with the old keys into items with the new keys. -/
def plan (old new : List Key) : List Action :=
  planWindows new.length none (.ofKeys old) (.ofKeys new)

end Keyed

end DomParts
