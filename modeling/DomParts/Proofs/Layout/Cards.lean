import DomParts.Proofs.Layout.Withdraw

/-! # What a plan has to know

While a list is filled, what is known of its cells without looking at the tree does not change but for the
cell in question. A board is a list in the making seen that way.
-/

namespace DomParts.Layout

variable {σ : Type}

/-- What is known of a cell without looking at the tree. -/
structure Card where
  part : NodePart
  was : Plot
  item : Option Nat

namespace Cell

/-- The cell's card. -/
def card (cell : Cell) : Card := ⟨cell.plot.part, cell.was, cell.item⟩

variable {cells : List Cell} {cell : Cell} {cards ahead behind : List Card} {card : Card}
  {taken : List NodeId} {index : Nat} {plot : Plot}

@[simp] theorem card_part : cell.card.part = cell.plot.part := rfl

@[simp] theorem card_was : cell.card.was = cell.was := rfl

@[simp] theorem card_item : cell.card.item = cell.item := rfl

@[simp] theorem card_without : (cell.without taken).card = cell.card := rfl

@[simp] theorem card_fill : (cell.fill index plot).card = ⟨plot.part, cell.was, some index⟩ := rfl

@[simp] theorem card_comp_without : Cell.card ∘ Cell.without taken = Cell.card := rfl

theorem exists_card (cards : cells.map Cell.card = ahead ++ card :: behind) :
    ∃ first cell last, cells = first ++ cell :: last ∧ first.map Cell.card = ahead ∧ cell.card = card ∧
      last.map Cell.card = behind := by
  obtain ⟨first, rest, rfl, ahead, more⟩ := List.map_eq_append_iff.1 cards
  obtain ⟨cell, last, rfl, here, behind⟩ := List.map_eq_cons_iff.1 more
  exact ⟨first, cell, last, rfl, ahead, here, behind⟩

end Cell

namespace Card

def ofPlot (plot : Plot) : Card := ⟨plot.part, plot, none⟩

def ofPart (part : NodePart) : Card := ofPlot ⟨part, [], []⟩

/-- The node behind a place: the first marker there, be it that of an item or that of the list. -/
def anchorOf (stop : NodeId) : List Card → NodeId
  | [] => stop
  | card :: _ => card.part.start

end Card

namespace Task

variable {task : Task σ} {scene : Scene σ} {cards ahead behind first second : List Card} {card : Card}
  {gone : List (NodeId × Removal)} {index : Nat} {item : Rendering σ}

/-- A list in the making. -/
def Board (task : Task σ) (scene : Scene σ) (cards : List Card) (gone : List (NodeId × Removal)) : Prop :=
  ∃ kept blocks cells, task.Filling ⟨scene, kept⟩ blocks cells gone ∧ cells.map Cell.card = cards

theorem anchorOf_cards {stop : NodeId} {cells : List Cell} :
    Card.anchorOf stop (cells.map Cell.card) = anchorOf stop cells := by
  cases cells <;> rfl

namespace Board

theorem noted (lawful : task.realm.Lawful) (board : task.Board scene cards gone) {event : Event}
    (other : ∀ id, event ≠ .kept id) : task.Board (scene.add event) cards gone := by
  obtain ⟨kept, blocks, cells, filling, same⟩ := board
  exact ⟨kept, blocks, cells, filling.noted lawful other, same⟩

theorem render (lawful : task.realm.Lawful) (board : task.Board scene (ahead ++ card :: behind) gone)
    (waits : card.item = none) (wanted : task.items[index]? = some item)
    (honest : task.realm.Honest item.value.leaves item.render)
    (admits : task.realm.Admits task.start.tree item.value.leaves)
    (fresh : ∀ other, other ∈ ahead ∨ other ∈ behind → other.item ≠ some index) :
    (card.part.renderWith item).Leads scene
      (fun part scene => part.start = card.part.start ∧
        task.Board scene (ahead ++ ⟨part, card.was, some index⟩ :: behind) gone)
      (fun _ scene => task.Broken scene) := by
  obtain ⟨kept, blocks, cells, filling, same⟩ := board
  obtain ⟨first, cell, last, rfl, rfl, rfl, rfl⟩ := Cell.exists_card same
  refine (filling.render lawful waits wanted honest (filling.admits admits) ?_).imp ?_
  · intro other member
    exact fresh other.card (member.imp List.mem_map_of_mem List.mem_map_of_mem)
  · rintro _ scene ⟨content, rfl, kept, blocks, plot, taken, part, filling⟩
    exact ⟨rfl, kept, blocks, _, filling, by simp [part]⟩

theorem insert (lawful : task.realm.Lawful) (board : task.Board scene (ahead ++ behind) gone) :
    (NodePart.insertInto task.container (some (Card.anchorOf task.whole.part.stop behind))).Leads scene
      (fun part scene' => part = .between scene.tree.size (scene.tree.size + 1) ∧
        task.Board scene' (ahead ++ .ofPart part :: behind) gone)
      (fun _ _ => False) := by
  obtain ⟨kept, blocks, cells, filling, same⟩ := board
  obtain ⟨first, last, rfl, rfl, rfl⟩ := List.map_eq_append_iff.1 same
  rw [anchorOf_cards]
  refine (filling.insert lawful).mono ?_ fun _ _ none => none
  rintro part scene ⟨made, blocks, filling⟩
  exact ⟨made, kept, blocks, _, filling, by simp [vacant, Cell.card, Card.ofPart, Card.ofPlot]⟩

theorem move (lawful : task.realm.Lawful) (board : task.Board scene (ahead ++ card :: behind) gone)
    (places : ahead ++ behind = first ++ second) :
    (card.part.moveBefore task.container (Card.anchorOf task.whole.part.stop second)).Leads scene
      (fun moved scene => (ahead.length ≠ first.length → moved = true) ∧
        task.Board scene (first ++ card :: second) gone)
      (fun _ _ => False) := by
  obtain ⟨kept, blocks, cells, filling, same⟩ := board
  obtain ⟨left, cell, right, rfl, rfl, rfl, rfl⟩ := Cell.exists_card same
  rw [← List.map_append] at places
  obtain ⟨one, two, split, rfl, rfl⟩ := List.map_eq_append_iff.1 places
  rw [anchorOf_cards]
  refine (filling.move lawful split).mono ?_ fun _ _ none => none
  intro moved scene ⟨elsewhere, blocks, filling⟩
  exact ⟨by simpa using elsewhere, kept, blocks, _, filling, by simp⟩

theorem remove (lawful : task.realm.Lawful) (board : task.Board scene (ahead ++ card :: behind) gone)
    (waits : card.item = none) (tolerant : task.tolerant) :
    (card.part.remove task.realm.client task.container).Leads scene
      (fun _ scene => ∃ plot fates, plot.part = card.part ∧ (leavesIn task.items = [] → plot = card.was) ∧
        Fates task.realm.guest plot fates ∧ task.Board scene (ahead ++ behind) (gone ++ fates))
      (fun _ _ => False) := by
  obtain ⟨kept, blocks, cells, filling, same⟩ := board
  obtain ⟨first, cell, last, rfl, rfl, rfl, rfl⟩ := Cell.exists_card same
  refine (filling.remove lawful waits tolerant).mono ?_ fun _ _ none => none
  rintro _ scene ⟨fates, told, kept, blocks, after⟩
  exact ⟨cell.plot, fates, rfl, fun quiet => filling.still quiet cell (by simp) waits, told, kept, blocks, _, after,
    by simp⟩

theorem grown (board : task.Board scene cards gone) : task.start.tree.size ≤ scene.tree.size := by
  obtain ⟨kept, blocks, cells, filling, -⟩ := board
  obtain ⟨touched, taken, progress, -, -⟩ := filling.progress
  exact progress.change.size_le

theorem start_eq (board : task.Board scene cards gone) : ∀ card ∈ cards, card.part.start = card.was.part.start := by
  obtain ⟨kept, blocks, cells, filling, rfl⟩ := board
  intro card member
  obtain ⟨cell, here, rfl⟩ := List.mem_map.1 member
  exact (filling.markers cell here).1

theorem start_exists (board : task.Board scene cards gone) :
    ∀ card ∈ cards, card.was.part.start < scene.tree.size := by
  obtain ⟨kept, blocks, cells, filling, rfl⟩ := board
  obtain ⟨touched, taken, progress, -, -⟩ := filling.progress
  intro card member
  obtain ⟨cell, here, rfl⟩ := List.mem_map.1 member
  have listed : .plot cell.plot ∈ blocks := by
    rw [← mem_plotsOf, filling.plots]
    exact List.mem_map_of_mem here
  rw [Cell.card_was, ← (filling.markers cell here).1]
  exact Tree.lt_size_of_kindOf (progress.row.marked _ listed).start

end Board

end Task

end DomParts.Layout
