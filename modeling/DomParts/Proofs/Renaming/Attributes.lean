import DomParts.Proofs.Render.InStep
import DomParts.Proofs.Renaming.Parts

/-! # Attribute parts with other texts

An attribute part spares the host a change that would change nothing. Whether it does may depend on a text for as
long as the part has not committed anything: it goes by the value that the element had before, which is not given
another text. But then the change really would change nothing, so it makes no difference whether it is spared.
-/

namespace DomParts

open RenderM

variable {σ : Type} {r : Renaming} {count : Nat} {tree : Tree} {id : NodeId} {scene other : Scene σ}

namespace RenderM

/-- The attributes of an element are changed on both sides, or it is no element and the attribute is misplaced. -/
theorem alike_changeAttributes {change change' : Attributes → Attributes} (outside : count ≤ id)
    (named : ∀ attributes : Attributes, (attributes.map (·.1)).Nodup → ((change attributes).map (·.1)).Nodup)
    (alike : ∀ attributes others : Attributes, attributes.Renamed r others →
      (change attributes).Renamed r (change' others)) :
    (edit (·.changeAttributes id change) : RenderM σ Unit).Alike r count (edit (·.changeAttributes id change')) Eq := by
  intro scene other paired _
  rcases Tree.agree_changeAttributes paired.wellFormed paired.renamed.tree outside named alike with
    ⟨fault, fault', refused, refused', rfl | ⟨found, rfl⟩⟩ | ⟨after, last, done, done', changes⟩
  · simp only [Follows, leads_edit, refused, refused']
    exact fun _ => ⟨paired.refl, trivial⟩
  · simp only [Follows, leads_edit, refused]
    exact fun placed => absurd trivial placed
  · simp only [Follows, leads_edit, done, done']
    exact ⟨paired.withTrees changes, trivial⟩

theorem alike_setAttribute (outside : count ≤ id) (name data : String) :
    (edit (·.setAttribute id name data) : RenderM σ Unit).Alike r count (edit (·.setAttribute id name (r.text data))) Eq :=
  alike_changeAttributes outside (fun _ => Attributes.nodup_set) fun _ _ renamed => renamed.set (.renamed data)

theorem alike_removeAttribute (outside : count ≤ id) (name : String) :
    (edit (·.removeAttribute id name) : RenderM σ Unit).Alike r count (edit (·.removeAttribute id name)) Eq :=
  alike_changeAttributes outside (fun _ => Attributes.nodup_erase) fun _ _ renamed => renamed.erase

end RenderM

namespace AttributePart

variable (part : AttributePart)

theorem alike_assign (outside : count ≤ part.element) (value : Value) :
    (part.assign value : Attempt σ AttributePart).orThrow.Alike r count ((part.rename r).assign (value.rename r)).orThrow
      fun left right => right = left.rename r := by
  cases value with
  | text data =>
      have known : part.committed.map r.text = some (r.text data) ↔ part.committed = some data := by
        cases part.committed with
        | none => simp
        | some old => simp [r.text_injective.eq_iff]
      simp only [Value.rename, assign, rename, known]
      by_cases same : part.committed = some data
      · simp only [same, if_true]
        exact alike_pure (by simp [same])
      · simp only [same, if_false, alike_orThrow_carry]
        exact (alike_setAttribute outside _ _).mono fun _ _ _ => by simp
  | nothing =>
      simp only [Value.rename, assign, rename, Option.isNone_map]
      by_cases bare : part.committed.isNone = true
      · simp only [bare, if_true]
        exact alike_pure (by simp)
      · simp only [bare, Bool.false_eq_true, if_false, alike_orThrow_carry]
        exact (alike_removeAttribute outside _).mono fun _ _ _ => by simp
  | _ =>
      simp only [Value.rename, assign, alike_orThrow_carry]
      exact (alike_note _).andThen fun _ => alike_throw _

/-- A value is committed by parts of an attribute that have not committed anything. -/
theorem follows_assign_bound {part' : AttributePart} (outside : count ≤ part.element)
    (bound : part.Bound scene.tree) (bound' : part'.Bound other.tree) (elements : part'.element = part.element)
    (names : part'.name = part.name) (staged : part.pending = none) (staged' : part'.pending = none)
    (paired : scene.Paired r other) (inside : count ≤ scene.tree.size) (value : Value) :
    (part.assign value).orThrow.Follows r count (part'.assign (value.rename r)).orThrow scene other
      fun left right => right = left.rename r := by
  obtain ⟨element, name, _, committed⟩ := part
  obtain ⟨_, _, _, committed'⟩ := part'
  cases elements
  cases names
  cases staged
  cases staged'
  cases value with
  | text data =>
      have changed := (alike_setAttribute outside name data) scene other paired inside
      simp only [Value.rename, Follows, leads_assign_bound bound, leads_assign_bound bound'] at changed ⊢
      exact Follows.mono changed fun _ _ _ => by simp [rename]
  | nothing =>
      have bare : committed'.isNone = committed.isNone := by
        rw [show committed' = other.tree.attribute? element name from bound',
          show committed = scene.tree.attribute? element name from bound]
        rcases rel_cases (paired.renamed.tree.attribute? element name) with ⟨none, none'⟩ | ⟨_, _, found, found', -⟩
        · rw [none, none']
        · rw [found, found', Option.isNone_some, Option.isNone_some]
      simp only [Value.rename, assign, bare]
      by_cases bare : committed.isNone = true
      · simp only [bare, if_true]
        exact alike_pure (by simp [rename]) scene other paired inside
      · simp only [bare, Bool.false_eq_true, if_false]
        refine (alike_orThrow_carry _ _ _ _).2 ?_ scene other paired inside
        exact (alike_removeAttribute outside _).mono fun _ _ _ => by simp [rename]
  | _ =>
      simp only [Value.rename, assign]
      refine (alike_orThrow_carry _ _ _ _).2 ?_ scene other paired inside
      exact (alike_note _).andThen fun _ => alike_throw _

theorem assign_leads (value : Value) : (part.assign value : Attempt σ AttributePart).orThrow.Leads scene
    (fun _ after => ∀ id name, (id, name) ≠ (part.element, part.name) →
      after.tree.attribute? id name = scene.tree.attribute? id name) fun _ _ => True := by
  have changes : ∀ change : Attributes → Attributes, (∀ attributes : Attributes, ∀ other, other ≠ part.name →
      (change attributes).get? other = attributes.get? other) →
      (edit (·.changeAttributes part.element change) : RenderM σ Unit).Leads scene
        (fun _ after => ∀ id name, (id, name) ≠ (part.element, part.name) →
          after.tree.attribute? id name = scene.tree.attribute? id name) fun _ _ => True := by
    intro change others
    rw [leads_edit]
    cases done : scene.tree.changeAttributes part.element change with
    | error fault => exact trivial
    | ok changed => exact fun id name => Tree.attribute?_changeAttributes others done
  cases value with
  | text data =>
      simp only [assign]
      split
      · exact fun _ _ _ => rfl
      · rw [leads_orThrow_carry]
        exact changes _ fun _ _ different => by rw [Attributes.get?_set, if_neg different]
  | nothing =>
      simp only [assign]
      split
      · exact fun _ _ _ => rfl
      · rw [leads_orThrow_carry]
        exact changes _ fun _ _ different => by rw [Attributes.get?_erase, if_neg different]
  | _ => simp only [assign, leads_orThrow_carry, leads_bind, leads_note, leads_throw]

end AttributePart

end DomParts
