import DomParts.Proofs.Render.Templates
import Mathlib.Data.List.Nodup

/-! # Numbered templates

The templates of a cache carry different numbers, so they can be told apart, and each place of a literal leads
to a template that is there for the content of a literal at that place.
-/

namespace DomParts

/-- The template was compiled for this cache. -/
def TemplateCache.Lists (cache : TemplateCache) (shared : SharedTemplate) : Prop :=
  ∃ key, (key, shared) ∈ cache.byContent

namespace TemplateCache

variable {cache : TemplateCache} {kind : TemplateKind} {literal : Literal} {shared other : SharedTemplate}

theorem lists_recordContent : (cache.recordContent kind literal shared).Lists other ↔
    other = shared ∨ cache.Lists other := by
  simp only [Lists, recordContent, List.mem_cons, Prod.mk.injEq]
  constructor
  · rintro ⟨key, ⟨-, same⟩ | member⟩
    · exact .inl same
    · exact .inr ⟨key, member⟩
  · rintro (same | ⟨key, member⟩)
    · exact ⟨_, .inl ⟨rfl, same⟩⟩
    · exact ⟨key, .inr member⟩

theorem Lists.of_content (found : cache.findContent? kind literal = some shared) : cache.Lists shared :=
  ⟨_, mem_of_lookup found⟩

theorem not_lists_empty : ¬ empty.Lists shared := by
  rintro ⟨key, member⟩
  exact List.not_mem_nil member

/-- The templates of a cache can be told apart. -/
structure Numbered (cache : TemplateCache) : Prop where
  known : ∀ kind id shared, ((kind, id), shared) ∈ cache.byIdentity →
    ∃ literal : Literal, literal.id = id ∧ ((kind, literal.contentKey), shared) ∈ cache.byContent
  serials : (cache.byContent.map (·.2.serial)).Nodup
  below : ∀ shared, cache.Lists shared → shared.serial < cache.size

namespace Numbered

variable (numbered : cache.Numbered)
include numbered

theorem unique (one : cache.Lists shared) (two : cache.Lists other) (same : shared.serial = other.serial) :
    shared = other := by
  obtain ⟨key, member⟩ := one
  obtain ⟨key', member'⟩ := two
  exact congrArg Prod.snd (List.inj_on_of_nodup_map numbered.serials member member' same)

theorem of_identity (found : cache.findIdentity? kind literal = some shared) : cache.Lists shared := by
  obtain ⟨same, -, member⟩ := numbered.known kind literal.id shared (mem_of_lookup found)
  exact ⟨_, member⟩

theorem recordIdentity (member : ((kind, literal.contentKey), shared) ∈ cache.byContent) :
    (cache.recordIdentity kind literal shared).Numbered := by
  refine ⟨fun kind' id shared' known => ?_, numbered.serials, numbered.below⟩
  rcases List.mem_cons.1 known with new | old
  · cases new
    exact ⟨literal, rfl, member⟩
  · exact numbered.known kind' id shared' old

theorem recordContent {template : Template} :
    (cache.recordContent kind literal ⟨cache.size, template⟩).Numbered := by
  have size : (cache.recordContent kind literal ⟨cache.size, template⟩).size = cache.size + 1 := rfl
  refine ⟨fun kind id shared known => ?_, ?_, fun shared listed => ?_⟩
  · obtain ⟨same, place, member⟩ := numbered.known kind id shared known
    exact ⟨same, place, List.mem_cons_of_mem _ member⟩
  · refine List.nodup_cons.2 ⟨fun member => ?_, numbered.serials⟩
    obtain ⟨⟨key, shared⟩, member, same⟩ := List.mem_map.1 member
    exact Nat.ne_of_lt (numbered.below shared ⟨key, member⟩) same
  · rw [size]
    rcases lists_recordContent.1 listed with rfl | listed
    · exact Nat.lt_succ_self _
    · exact Nat.lt_succ_of_lt (numbered.below shared listed)

end Numbered

end TemplateCache

end DomParts
