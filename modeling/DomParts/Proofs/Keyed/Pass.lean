import DomParts.Proofs.Keyed.Route
import DomParts.Proofs.Layout.Cards

/-! # The state of a keyed pass

In the middle of a pass, the list consists of three stretches: items settled from the front, old plots
that are not settled yet, and items settled from the back. The new window is what is missing between the
first and the last stretch.
-/

namespace DomParts.Layout

open Keyed

variable {σ : Type}

/-- Which items are settled: `heads` from the front, `tails` from the back, all but the new window. -/
structure Holds (count : Nat) (new : Window) (pass : Pass) (heads tails : List Card) : Prop where
  heads_items : heads.map Card.item = (List.range heads.length).map some
  tails_items : tails.map Card.item = (List.range' (heads.length + new.length) tails.length).map some
  window : new.map Entry.index = List.range' heads.length new.length
  total : heads.length + new.length + tails.length = count
  placed : pass.placed = heads.map (some ∘ Card.part) ++
    (List.replicate new.length none ++ tails.map (some ∘ Card.part))

namespace Holds

variable {count : Nat} {new : Window} {pass : Pass} {heads tails : List Card} {n : Entry} {part : NodePart}
  {was : Plot}

theorem start (keys : List Key) :
    Holds keys.length (.ofKeys keys) (.start keys.length) [] [] := by
  refine ⟨rfl, rfl, ?_, ?_, ?_⟩
  · simpa using Window.indices_ofKeys keys
  · simp
  · simp [Pass.start]

theorem counted (holds : Holds count new pass heads tails) (change : Stats → Stats) :
    Holds count new (pass.count change) heads tails := { holds with }

theorem fresh (holds : Holds count new pass heads tails) (member : n ∈ new) :
    (∀ card ∈ heads, card.item ≠ some n.index) ∧ ∀ card ∈ tails, card.item ≠ some n.index := by
  have among : n.index ∈ List.range' heads.length new.length := holds.window ▸ List.mem_map_of_mem member
  rw [List.mem_range'_1] at among
  refine ⟨fun card here shown => ?_, fun card here shown => ?_⟩
  · have := List.mem_map_of_mem (f := Card.item) here
    rw [holds.heads_items, shown] at this
    simp at this
    omega
  · have := List.mem_map_of_mem (f := Card.item) here
    rw [holds.tails_items, shown] at this
    simp at this
    omega

theorem inside (holds : Holds count new pass heads tails) (member : n ∈ new) : n.index < count := by
  have among : n.index ∈ List.range' heads.length new.length := holds.window ▸ List.mem_map_of_mem member
  rw [List.mem_range'_1] at among
  have := holds.total
  omega

theorem first (holds : Holds count (n :: new) pass heads tails) :
    Holds count new (pass.place n.index part) (heads ++ [⟨part, was, some n.index⟩]) tails := by
  have window := holds.window
  simp only [List.map_cons, List.length_cons, List.range'_succ, List.cons.injEq] at window
  obtain ⟨index, window⟩ := window
  refine ⟨?heads_items, ?tails_items, ?window, ?total, ?placed⟩
  case heads_items => simp [holds.heads_items, List.range_succ, index]
  case tails_items => simpa [Nat.add_assoc, Nat.add_comm 1] using holds.tails_items
  case window => simpa using window
  case total =>
    have := holds.total
    simp at this ⊢
    omega
  case placed =>
    simp only [Pass.place, holds.placed, index]
    simp [List.replicate_succ]

theorem last (holds : Holds count (new ++ [n]) pass heads tails) :
    Holds count new (pass.place n.index part) heads (⟨part, was, some n.index⟩ :: tails) := by
  have window := holds.window
  simp only [List.map_append, List.map_cons, List.map_nil, List.length_append, List.length_cons,
    List.length_nil, List.range'_concat] at window
  obtain ⟨window, index⟩ := List.append_inj' window rfl
  have index : n.index = heads.length + new.length := by simpa using index
  refine ⟨holds.heads_items, ?_, window, ?_, ?_⟩
  · simpa [index, List.range'_succ, Nat.add_assoc] using holds.tails_items
  · have := holds.total
    simp at this ⊢
    omega
  · simp only [Pass.place, holds.placed, index]
    simp [List.replicate_succ']

theorem behind (setting : Setting σ) {ends : Entry} (holds : Holds count new pass heads tails)
    (last : new.getLast? = some ends) :
    setting.nodeAt pass (.behind count ends) = Card.anchorOf setting.stop tails := by
  obtain ⟨more, rfl⟩ := List.getLast?_eq_some_iff.1 last
  have window := holds.window
  simp only [List.map_append, List.map_cons, List.map_nil, List.length_append, List.length_cons,
    List.length_nil, List.range'_concat] at window
  have index : ends.index = heads.length + more.length := by
    simpa using (List.append_inj' window rfl).2
  have total := holds.total
  simp only [List.length_append, List.length_cons, List.length_nil] at total
  cases tails with
  | nil =>
      have : ¬ ends.index + 1 < count := by simp at total; omega
      simp [Anchor.behind, this, Setting.nodeAt, Card.anchorOf]
  | cons card tails =>
      have : ends.index + 1 < count := by simp at total; omega
      have next : pass.placed[ends.index + 1]? = some (some card.part) := by
        rw [holds.placed, index, List.getElem?_append_right (by simp; omega),
          List.getElem?_append_right (by simp; omega)]
        have : heads.length + more.length + 1 - heads.length - (more.length + 1) = 0 := by omega
        simp [this]
      simp [Anchor.behind, this, Setting.nodeAt, Card.anchorOf, next]

end Holds

/-- Where the settled items come from. Every old plot is still to be settled, or shows an item with its
    key, or is gone; every other plot that shows an item is new, and the later ones were made later. -/
structure Traced (size : Nat) (olds : List Plot) (oldKeys newKeys : List Key) (careful : Prop) (old : Window)
    (heads tails : List Card) (gone : List (NodeId × Removal)) : Prop where
  keys : ∀ entry ∈ old, oldKeys[entry.index]? = some entry.key
  source : ∀ card, card ∈ heads ∨ card ∈ tails → ∀ index, card.item = some index →
    (∃ place : Nat, olds[place]? = some card.was ∧ oldKeys[place]? = newKeys[index]?) ∨
      size ≤ card.was.part.start ∧ size ≤ card.was.part.stop
  fate : ∀ (place : Nat) plot, olds[place]? = some plot → (∃ entry ∈ old, entry.index = place) ∨
    (∃ card, (card ∈ heads ∨ card ∈ tails) ∧ card.was = plot ∧
      ∃ index, card.item = some index ∧ newKeys[index]? = oldKeys[place]?) ∨
    (plot.part.start, .proceed) ∈ gone ∧ (plot.part.stop, .proceed) ∈ gone ∧
      (careful → ∀ key, oldKeys[place]? = some key → key ∉ newKeys)
  increasing : ((heads.map (·.was.part.start)).filter (size ≤ ·)).Pairwise (· < ·)
  older : ∀ card ∈ tails, size > card.was.part.start

namespace Traced

variable {size : Nat} {olds : List Plot} {oldKeys newKeys : List Key} {careful : Prop} {old less : Window}
  {heads tails : List Card} {gone fates : List (NodeId × Removal)} {entry : Entry} {plot was : Plot} {part : NodePart}
  {index : Nat}

theorem start (newKeys : List Key) (length : oldKeys.length = olds.length) :
    Traced size olds oldKeys newKeys careful (.ofKeys oldKeys) [] [] [] where
  keys entry := Window.mem_ofKeys.1
  source := by simp
  fate place plot here := by
    have inside : place < oldKeys.length := length ▸ (List.getElem?_eq_some_iff.1 here).1
    exact .inl ⟨⟨place, oldKeys[place]⟩, Window.mem_ofKeys.2 (List.getElem?_eq_getElem inside), rfl⟩
  increasing := by simp
  older := by simp

section Settle

variable (traced : Traced size olds oldKeys newKeys careful old heads tails gone)
  (fewer : ∀ other ∈ less, other ∈ old) (others : ∀ other ∈ old, other = entry ∨ other ∈ less)
  (found : olds[entry.index]? = some plot)
include traced fewer others found

variable (part) (index) in
theorem settle {heads' tails' : List Card} (member : entry ∈ old)
    (same : newKeys[index]? = some entry.key) (inside : size > plot.part.start)
    (cards : ∀ card, card ∈ heads' ∨ card ∈ tails' ↔
      card = ⟨part, plot, some index⟩ ∨ card ∈ heads ∨ card ∈ tails)
    (starts : (heads'.map (·.was.part.start)).filter (size ≤ ·) = (heads.map (·.was.part.start)).filter (size ≤ ·))
    (older : ∀ card ∈ tails', card = ⟨part, plot, some index⟩ ∨ card ∈ tails) :
    Traced size olds oldKeys newKeys careful less heads' tails' gone where
  keys other among := traced.keys other (fewer other among)
  source card here place shows := by
    rcases (cards card).1 here with rfl | here
    · cases shows
      exact .inl ⟨entry.index, found, (traced.keys entry member).trans same.symm⟩
    · exact traced.source card here place shows
  fate place other here := by
    rcases traced.fate place other here with ⟨waits, among, rfl⟩ | ⟨card, among, rest⟩ | lost
    · rcases others waits among with rfl | among
      · rw [found] at here
        cases here
        refine .inr (.inl ⟨_, (cards _).2 (.inl rfl), rfl, index, rfl, ?_⟩)
        exact same.trans (traced.keys waits member).symm
      · exact .inl ⟨waits, among, rfl⟩
    · exact .inr (.inl ⟨card, (cards card).2 (.inr among), rest⟩)
    · exact .inr (.inr lost)
  increasing := starts ▸ traced.increasing
  older card among := by
    rcases older card among with rfl | among
    · exact inside
    · exact traced.older card among

theorem drop (dropped : careful → entry.key ∉ newKeys) (member : entry ∈ old)
    (start : (plot.part.start, .proceed) ∈ fates) (stop : (plot.part.stop, .proceed) ∈ fates) :
    Traced size olds oldKeys newKeys careful less heads tails (gone ++ fates) where
  keys other among := traced.keys other (fewer other among)
  source := traced.source
  fate place other here := by
    rcases traced.fate place other here with ⟨waits, among, rfl⟩ | shown | ⟨first, last, care⟩
    · rcases others waits among with rfl | among
      · rw [found] at here
        cases here
        refine .inr (.inr ⟨List.mem_append_right _ start, List.mem_append_right _ stop, fun care key known => ?_⟩)
        rw [traced.keys waits member] at known
        cases known
        exact dropped care
      · exact .inl ⟨waits, among, rfl⟩
    · exact .inr (.inl shown)
    · exact .inr (.inr ⟨List.mem_append_left _ first, List.mem_append_left _ last, care⟩)
  increasing := traced.increasing
  older := traced.older

end Settle

theorem make (traced : Traced size olds oldKeys newKeys careful old heads tails gone)
    (start : size ≤ was.part.start) (stop : size ≤ was.part.stop)
    (later : ∀ card ∈ heads, card.was.part.start < was.part.start) :
    Traced size olds oldKeys newKeys careful old (heads ++ [⟨part, was, some index⟩]) tails gone where
  keys := traced.keys
  source card here place shows := by
    simp only [List.mem_append, List.mem_singleton] at here
    rcases here with (here | rfl) | here
    · exact traced.source card (.inl here) place shows
    · exact .inr ⟨start, stop⟩
    · exact traced.source card (.inr here) place shows
  fate place other here := by
    refine (traced.fate place other here).imp_right (Or.imp_left ?_)
    rintro ⟨card, among, rest⟩
    exact ⟨card, among.imp_left (List.mem_append_left _), rest⟩
  increasing := by
    rw [List.map_append, List.filter_append, List.pairwise_append]
    refine ⟨traced.increasing, (List.pairwise_singleton _ _).filter _, fun one among two member => ?_⟩
    obtain ⟨card, here, rfl⟩ := List.mem_map.1 (List.mem_of_mem_filter among)
    obtain rfl : two = was.part.start := by simpa using List.mem_of_mem_filter member
    exact later card here
  older := traced.older

end Traced

/-- Whatever could be kept can still be kept. -/
structure Balanced (newKeys : List Key) (careful : Prop) (old new : Window) : Prop where
  old_distinct : careful → (old.map Entry.key).Nodup
  new_keys : ∀ entry ∈ new, newKeys[entry.index]? = some entry.key
  wanted : careful → ∀ entry ∈ old, entry.key ∈ newKeys → entry.key ∈ new.map Entry.key

namespace Balanced

variable {newKeys : List Key} {careful : Prop} {old new before after : Window} {o n : Entry}

theorem keep {window : Window} (balanced : Balanced newKeys careful old window) (perm : old.Perm (o :: before))
    (others : window.Perm (n :: new)) (same : o.key = n.key) : Balanced newKeys careful before new where
  old_distinct care := ((perm.map _).nodup_iff.1 (balanced.old_distinct care)).of_cons
  new_keys entry member := balanced.new_keys entry (others.mem_iff.2 (List.mem_cons_of_mem _ member))
  wanted care entry member known := by
    have here := balanced.wanted care entry (perm.mem_iff.2 (List.mem_cons_of_mem _ member)) known
    have distinct := (perm.map Entry.key).nodup_iff.1 (balanced.old_distinct care)
    rw [(others.map Entry.key).mem_iff, List.map_cons, List.mem_cons] at here
    refine here.resolve_left fun again => (List.nodup_cons.1 distinct).1 ?_
    exact same.trans again.symm ▸ List.mem_map_of_mem member

theorem start {oldKeys : List Key} (distinct : careful → oldKeys.Nodup) :
    Balanced newKeys careful (.ofKeys oldKeys) (.ofKeys newKeys) where
  old_distinct care := by simpa using distinct care
  new_keys entry := Window.mem_ofKeys.1
  wanted _ _ _ := by simp

theorem create (balanced : Balanced newKeys careful old (n :: new))
    (fresh : careful → n.key ∉ old.map Entry.key) : Balanced newKeys careful old new where
  old_distinct := balanced.old_distinct
  new_keys entry member := balanced.new_keys entry (List.mem_cons_of_mem _ member)
  wanted care entry member known := by
    have here := balanced.wanted care entry member known
    rw [List.map_cons, List.mem_cons] at here
    exact here.resolve_left fun again => fresh care (again ▸ List.mem_map_of_mem member)

theorem remove (balanced : Balanced newKeys careful (before ++ o :: after) new) :
    Balanced newKeys careful (before ++ after) new where
  old_distinct care := by
    have distinct := ((List.perm_middle).map Entry.key).nodup_iff.1 (balanced.old_distinct care)
    exact distinct.of_cons
  new_keys := balanced.new_keys
  wanted care entry member := balanced.wanted care entry
    ((List.perm_middle).mem_iff.2 (List.mem_cons_of_mem _ member))

end Balanced

end DomParts.Layout
