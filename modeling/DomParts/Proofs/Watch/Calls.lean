import DomParts.Proofs.Root.Calls
import DomParts.Proofs.Watch.Values

/-! # Calls that keep off templates

A caller keeps off what is set aside for templates if it leaves these nodes alone, puts no root there and renders no
value that shows one of them. Then no attribute is ever misplaced, whatever calls follow one another.
-/

namespace DomParts

open Scene

variable {σ : Type} {client : Client σ} {shelf : σ → NodeId → Prop} {stage : Stage σ}

/-- What a call has to respect. The nodes that a value shows are there and are not set aside, or they are still not
    there when the call is over. -/
def Call.KeepsOff (client : Client σ) (shelf : σ → NodeId → Prop) (stage : Stage σ) : Call → Prop
  | .make change _ => stage.scene.tree.Skirts (Aside shelf stage.scene) (change stage.scene.tree)
  | .mount container => ¬ Aside shelf stage.scene container
  | .render position value => ∀ id ∈ value.leaves, stage.scene.Outside shelf id ∨
      (stage.perform client (.render position value)).2.scene.tree.size ≤ id
  | .clear _ => True

namespace Stage

/-- Each call respects what it has to when its turn comes. -/
def KeepsOff (client : Client σ) (shelf : σ → NodeId → Prop) (stage : Stage σ) : List Call → Prop
  | [] => True
  | call :: calls => call.KeepsOff client shelf stage ∧ (stage.perform client call).2.KeepsOff client shelf calls

/-- What is set aside is in order, and all roots have their place outside. -/
structure Watched (client : Client σ) (shelf : σ → NodeId → Prop) (stage : Stage σ) : Prop where
  guarded : stage.scene.Guarded client shelf
  lodged : ∀ part ∈ stage.parts, part.Lodged ⟨client, shelf, stage.scene.tree.size, fun _ => False⟩ stage.scene

end Stage

/-- As long as there are not too many nodes, it does not matter how many there may be. -/
theorem NodePart.Lodged.rewatch {watch other : Watch σ} {scene : Scene σ} {part : NodePart}
    (lodged : part.Lodged watch scene) (early : watch.Early scene) (same : other.shelf = watch.shelf) : part.Lodged other scene := by
  have outside : ∀ id, watch.Outside scene id → other.Outside scene id := by
    intro id outside _
    rw [same]
    exact outside early
  induction lodged with
  | late late => exact absurd early late
  | intro start stop labels _ ih =>
      exact .intro (outside _ start) (outside _ stop) (fun label member =>
        ⟨outside _ (labels label member).1, fun _ => (labels label member).2 early⟩) ih

namespace Stage.Watched

theorem start {tree : Tree} {memory : σ} (guest : NodeId → Prop) (fenced : tree.Fenced (shelf memory)) :
    (Stage.start tree memory guest).Watched client shelf where
  guarded := ⟨orderly_onTree ⟨fenced.present, fun id child here link =>
    (fenced.linked child id (fenced.wellFormed.parentOf_of_mem link)).2 here⟩, fenced⟩
  lodged := List.forall_mem_nil _

/-- What is known during the work is known afterwards if there are not too many nodes. -/
theorem later (next : Stage σ) {watch : Watch σ} {before : Scene σ} (keeps : watch.Keeps before next.scene)
    (early : watch.Early next.scene) (lodged : ∀ part ∈ next.parts, part.Lodged watch next.scene) :
    next.Watched watch.client watch.shelf :=
  ⟨keeps.guards.guarded early, fun part member => (lodged part member).rewatch early rfl⟩

theorem ask {watch : Watch σ} (guards : watch.Guards stage.scene)
    (lodged : ∀ part ∈ stage.parts, part.Lodged watch stage.scene) {position : Nat} {act : Root → Attempt σ Root}
    {attempt : NodePart → Attempt σ NodePart} (does : ∀ part, act ⟨part⟩ = (attempt part).map .mk)
    (attempts : ∀ part ∈ stage.parts, watch.Attempts (attempt part) stage.scene)
    (early : watch.Early (stage.ask position act).2.scene) :
    (stage.ask position act).2.Watched watch.client watch.shelf ∧
      ∀ error, (stage.ask position act).1 = .error error → ¬ error.Misplaced := by
  unfold Stage.ask at early ⊢
  cases found : stage.parts[position]? with
  | none =>
      simp only [found] at early ⊢
      exact ⟨later _ guards.refl early lodged, fun _ => nofun⟩
  | some part =>
      simp only [found, does] at early ⊢
      have attempted := attempts part (List.mem_of_getElem? found)
      rcases ran : (attempt part).runOn stage.scene with ⟨⟨new, result⟩, after⟩
      have asked : ((attempt part).map Root.mk).runOn stage.scene = ((⟨new⟩, result), after) := by
        simp only [Attempt.map, Attempt.runOn] at ran ⊢
        rw [ran]
      rw [asked] at early ⊢
      obtain ⟨keeps, here, placed⟩ := attempted
      rw [ran] at keeps here placed
      refine ⟨later _ keeps early fun other member => ?_, placed early⟩
      rcases List.mem_or_eq_of_mem_set member with known | rfl
      · exact (lodged other known).kept keeps
      · exact here

variable (provides : client.Provides shelf) (watched : stage.Watched client shelf)
include watched

theorem guards (limit : Nat) {guest : NodeId → Prop}
    (guests : ∀ id, guest id → id < limit → stage.scene.Outside shelf id) :
    (⟨client, shelf, limit, guest⟩ : Watch σ).Guards stage.scene ∧
      ∀ part ∈ stage.parts, part.Lodged ⟨client, shelf, limit, guest⟩ stage.scene :=
  ⟨⟨watched.guarded.wellFormed, fun _ => watched.guarded, fun id guest within _ => guests id guest within⟩,
    fun part member => (watched.lodged part member).rewatch (Nat.le_refl _) rfl⟩

theorem mount {container : NodeId} (off : ¬ Aside shelf stage.scene container) :
    (stage.perform client (.mount container)).2.Watched client shelf ∧
      ∀ error, (stage.perform client (.mount container)).1 = .error error → ¬ error.Misplaced := by
  obtain ⟨guards, lodged⟩ := watched.guards ((Root.create container).runOn stage.scene).2.tree.size
    fun id (none : False) => none.elim
  have leads := Watch.heeds_createRoot guards fun _ => off
  unfold Watch.Heeds RenderM.Leads at leads
  simp only [Stage.perform]
  rcases ran : (Root.create container).runOn stage.scene with ⟨error | root, after⟩ <;>
    rw [ran] at guards lodged leads
  · obtain ⟨keeps, placed⟩ := leads
    have others : ∀ part ∈ stage.parts, part.Lodged _ after := fun part member => (lodged part member).kept keeps
    refine ⟨later { stage with scene := after } keeps (Nat.le_refl _) others, ?_⟩
    rintro _ ⟨⟩
    exact placed (Nat.le_refl _)
  · obtain ⟨keeps, here⟩ := leads
    have all : ∀ part ∈ stage.parts ++ [root.part],
        part.Lodged ⟨client, shelf, after.tree.size, fun _ => False⟩ after := by
      intro part member
      rcases List.mem_append.1 member with known | new
      · exact (lodged part known).kept keeps
      · exact List.mem_singleton.1 new ▸ here
    refine ⟨later { stage with scene := after, parts := stage.parts ++ [root.part] } keeps (Nat.le_refl _) all, ?_⟩
    rintro _ ⟨⟩

include provides

theorem perform {call : Call} (off : call.KeepsOff client shelf stage) :
    (stage.perform client call).2.Watched client shelf ∧
      ∀ error, (stage.perform client call).1 = .error error → ¬ error.Misplaced := by
  cases call with
  | make change guest =>
      have off : stage.scene.tree.Skirts (Aside shelf stage.scene) (change stage.scene.tree) := off
      obtain ⟨guards, lodged⟩ := watched.guards (change stage.scene.tree).size fun id (none : False) => none.elim
      have keeps : (⟨client, shelf, (change stage.scene.tree).size, fun _ => False⟩ : Watch σ).Keeps stage.scene
          (stage.perform client (.make change guest)).2.scene :=
        guards.skirted off.wellFormed off.size_le fun _ _ => ⟨off, rfl, fun _ => Iff.rfl⟩
      have lodged : ∀ part ∈ (stage.perform client (.make change guest)).2.parts, part.Lodged _ _ :=
        fun part member => (lodged part member).kept keeps
      refine ⟨later _ keeps (Nat.le_refl _) lodged, ?_⟩
      rintro _ ⟨⟩
  | mount container => exact watched.mount off
  | render position value =>
      have off : ∀ id ∈ value.leaves, stage.scene.Outside shelf id ∨
        (stage.perform client (.render position value)).2.scene.tree.size ≤ id := off
      obtain ⟨guards, lodged⟩ := watched.guards (stage.perform client (.render position value)).2.scene.tree.size
        fun id (leaf : id ∈ value.leaves) within => (off id leaf).resolve_right (Nat.not_le.2 within)
      exact ask guards lodged (fun _ => rfl) (fun part member =>
        Watch.attempts_commit guards (lodged part member) provides fun _ leaf => leaf) (Nat.le_refl _)
  | clear position =>
      obtain ⟨guards, lodged⟩ := watched.guards (stage.perform client (.clear position)).2.scene.tree.size
        fun id (none : False) => none.elim
      exact ask guards lodged (fun _ => rfl) (fun part member =>
        Watch.attempts_clear guards (lodged part member)) (Nat.le_refl _)

theorem run {calls : List Call} (off : stage.KeepsOff client shelf calls) :
    ∀ error, .error error ∈ (stage.run client calls).1 → ¬ error.Misplaced := by
  induction calls generalizing stage with
  | nil => exact fun _ => nofun
  | cons call calls ih =>
      obtain ⟨next, placed⟩ := watched.perform provides off.1
      intro error member
      rcases List.mem_cons.1 member with here | later
      · exact placed error here.symm
      · exact ih next off.2 error later

end Stage.Watched

end DomParts
