import DomParts.Proofs.Tree.Ascent
import DomParts.Proofs.Tree.Attributes
import DomParts.Proofs.Tree.Clone
import DomParts.Proofs.Tree.Placing
import DomParts.Proofs.Tree.Text
import DomParts.Tree.Edit

/-! # Trees made by operations

Whatever is done to an empty tree by its own operations, in any order and whether they are refused or
not, the tree stays consistent: both sides of every link agree, no way up comes back, and every walk
comes to its end.
-/

namespace DomParts.Tree

inductive Operation where
  | createElement (name : String)
  | createText (data : String)
  /-- A comment without data is a marker. -/
  | createComment (data : String)
  | createFragment
  | insertBefore (parent id : NodeId) (before : Option NodeId)
  | appendChild (parent id : NodeId)
  | removeChild (parent id : NodeId)
  | cloneDeep (id : NodeId)
  | setText (id : NodeId) (data : String)
  | setAttribute (id : NodeId) (name value : String)
  | removeAttribute (id : NodeId) (name : String)
  deriving Repr, DecidableEq

/-- The tree after an operation, unless it is refused. -/
def Operation.perform (tree : Tree) : Operation → Except HostFault Tree
  | .createElement name => .ok (tree.create (.plain name)).2
  | .createText data => .ok (tree.create (.text data)).2
  | .createComment data => .ok (tree.create (.comment data)).2
  | .createFragment => .ok (tree.create .fragment).2
  | .insertBefore parent id before => tree.insertBefore parent id before
  | .appendChild parent id => tree.appendChild parent id
  | .removeChild parent id => tree.removeChild parent id
  | .cloneDeep id => .ok (tree.cloneDeep id).2
  | .setText id data => tree.setText id data
  | .setAttribute id name value => tree.setAttribute id name value
  | .removeAttribute id name => tree.removeAttribute id name

/-- The tree after some operations. One that is refused changes nothing, and those behind it go on. -/
def perform (tree : Tree) : List Operation → Tree
  | [] => tree
  | operation :: rest =>
      match operation.perform tree with
      | .ok changed => changed.perform rest
      | .error _ => tree.perform rest

/-- What can be relied on in a tree. -/
structure Consistent (tree : Tree) : Prop where
  /-- A node is a child of another one if and only if that is its parent. -/
  linked : ∀ parent child, child ∈ tree.childrenOf parent ↔ tree.parentOf child = some parent
  /-- No node is listed twice. -/
  nodup : ∀ id, (tree.childrenOf id).Nodup
  /-- No node lies below itself. -/
  acyclic : ∀ id, ¬ Relation.TransGen tree.Link id id
  /-- The walk up to an ancestor is not cut off: it finds whatever is above. -/
  climbs : ∀ ancestor id fuel, tree.size < fuel →
    (tree.climbsTo ancestor fuel id = true ↔ tree.Ascends id ancestor)
  /-- A subtree, which is what is copied and shown as markup, is not cut off. -/
  unfolds : ∀ id depth, tree.size ≤ depth → tree.subtreeTo depth id =
    .branch id ((tree.kindOf id).getD .fragment) ((tree.childrenOf id).map tree.subtree)
  /-- The loop that gathers text is not cut off. -/
  gathers : ∀ id fuel, tree.size ≤ fuel → tree.gatherText fuel [id] "" = (tree.subtree id).text
  /-- A fragment has no parent. -/
  loose : ∀ id, tree.kindOf id = some .fragment → tree.parentOf id = none
  /-- No element has two attributes of one name. -/
  named : ∀ id name attributes, tree.kindOf id = some (.element name attributes) →
    (attributes.map (·.1)).Nodup

variable {tree changed : Tree} {id parent : NodeId} {change : Attributes → Attributes}

theorem of_removeChild (done : tree.removeChild parent id = .ok changed) : changed = tree.detach id := by
  unfold removeChild at done
  split at done
  · cases done
  · split at done
    · cases done
    · cases done
      rfl

theorem of_setText {data : String} (done : tree.setText id data = .ok changed) :
    ∃ old, tree.kindOf id = some (.text old) ∧ changed = tree.setKind id (.text data) := by
  unfold setText changeKind at done
  cases found : tree.kindOf id with
  | none => simp [found] at done
  | some kind =>
      cases kind with
      | text old =>
          simp only [found, Except.map] at done
          cases done
          exact ⟨old, rfl, rfl⟩
      | _ => simp [found, Except.map] at done

namespace WellFormed

variable (sound : tree.WellFormed)
include sound

theorem consistent : tree.Consistent where
  linked parent child := (sound.linked parent child).symm
  nodup := sound.nodup
  acyclic := sound.acyclic
  climbs _ _ _ := sound.climbsTo_iff
  unfolds id _ enough := sound.subtreeTo_eq enough id
  gathers id _ enough := sound.gatherText_subtree enough id
  loose := sound.loose
  named id _ _ found := sound.named id _ found

theorem removeChild (done : tree.removeChild parent id = .ok changed) : changed.WellFormed := by
  rw [of_removeChild done]
  exact sound.detach id

theorem setText {data : String} (done : tree.setText id data = .ok changed) : changed.WellFormed := by
  obtain ⟨old, found, rfl⟩ := of_setText done
  exact sound.setKind (lt_size_of_kindOf found) (by simp [Kind.attributeNames]) (by simp)

theorem changeAttributes (done : tree.changeAttributes id change = .ok changed)
    (named : ∀ attributes : Attributes, (attributes.map (·.1)).Nodup → ((change attributes).map (·.1)).Nodup) :
    changed.WellFormed := by
  obtain ⟨name, attributes, found, rfl⟩ := of_changeAttributes done
  exact sound.setKind (lt_size_of_kindOf found) (named attributes (sound.named id _ found)) (by simp)

theorem operation {operation : Operation} (done : operation.perform tree = .ok changed) : changed.WellFormed := by
  cases operation with
  | createElement name =>
      cases done
      exact sound.create (by simp [Kind.plain, Kind.attributeNames])
  | createText data =>
      cases done
      exact sound.create (by simp [Kind.attributeNames])
  | createComment data =>
      cases done
      exact sound.create (by simp [Kind.attributeNames])
  | createFragment =>
      cases done
      exact sound.create (by simp [Kind.attributeNames])
  | insertBefore parent id before => exact sound.insertBefore done
  | appendChild parent id => exact sound.insertBefore done
  | removeChild parent id => exact sound.removeChild done
  | cloneDeep id =>
      cases done
      exact (cloneDeep_grafted sound id).2.sound
  | setText id data => exact sound.setText done
  | setAttribute id name value => exact sound.changeAttributes done fun _ => Attributes.nodup_set
  | removeAttribute id name => exact sound.changeAttributes done fun _ => Attributes.nodup_erase

theorem perform (operations : List Operation) : (tree.perform operations).WellFormed := by
  induction operations generalizing tree with
  | nil => exact sound
  | cons operation rest ih =>
      rw [Tree.perform]
      split
      · exact ih (sound.operation ‹_›)
      · exact ih sound

end WellFormed

/-- Every tree that operations make of an empty one is consistent. -/
theorem perform_empty_consistent (operations : List Operation) : (Tree.empty.perform operations).Consistent :=
  (WellFormed.empty.perform operations).consistent

end DomParts.Tree
