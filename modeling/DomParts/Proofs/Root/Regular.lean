import DomParts.Proofs.Layout.Standing

/-! # Regular clients

A client is regular if whoever compiles its templates only adds nodes and puts the node slots of a
template at markers of their own, and if its removal hook only thinks. Rendering for a regular client
keeps to a realm in which nothing is set aside for templates.
-/

namespace DomParts

variable {σ : Type}

/-- No two node slots of the template are at the same marker. -/
def SharedTemplate.Separate (shared : SharedTemplate) : Prop :=
  (shared.template.slots.filterMap Slot.markerIndex?).Nodup

/-- Whoever compiles templates only adds nodes to the tree, and separates the node slots. -/
structure Client.Additive (client : Client σ) : Prop where
  grows : ∀ kind literal memory (tree : Tree), tree.WellFormed →
    (client.compile kind literal (memory, tree)).2.2.WellFormed ∧
      tree.Extends (client.compile kind literal (memory, tree)).2.2
  separate : ∀ kind literal state template, (client.compile kind literal state).1 = .ok template →
    (template.slots.filterMap Slot.markerIndex?).Nodup

/-- Besides, the hook only thinks. -/
structure Client.Regular (client : Client σ) : Prop extends client.Additive where
  thinks : ∀ hook, client.hook? = some hook → ∀ target container memory (tree : Tree),
    (hook.ask target container (memory, tree)).2.2 = tree

namespace Layout

variable {client : Client σ} {guest : NodeId → Prop} {survey : Survey} {world : World σ}

/-- The realm of a regular client, given the nodes that values may show. -/
def regularRealm (client : Client σ) (guest : NodeId → Prop) : Realm σ where
  client := client
  survey := .blank
  guest := guest
  stock _ _ := False
  shape _ shared _ := shared.Separate
  holds scene := scene.cache.All SharedTemplate.Separate
  bare := client.hook? = none
  leafy := False

/-- The same realm when something is known of nodes. -/
def surveyedRealm (client : Client σ) (guest : NodeId → Prop) (survey : Survey) : Realm σ :=
  { regularRealm client guest with survey }

/-- Adding nodes to the tree while templates stay separate is a change that works on nothing. -/
theorem surveyed_change (sound : (surveyedRealm client guest survey).Sound world) (after : Scene σ)
    (wellFormed : after.tree.WellFormed) (extended : world.tree.Extends after.tree)
    (separate : after.cache.All SharedTemplate.Separate)
    (report : ∀ id, .kept id ∈ after.report.toList ↔ .kept id ∈ world.scene.report.toList) :
    (surveyedRealm client guest survey).Change world ⟨after, world.kept⟩ (fun _ => False) [] :=
  .ofExtended sound wellFormed extended separate (fun _ _ => Iff.rfl) nofun nofun (fun _ _ => id) report

theorem surveyed_lawful (regular : client.Regular) (guest : NodeId → Prop) (survey : Survey) :
    (surveyedRealm client guest survey).Lawful where
  steady before after holds cache _ _ _ := by
    refine ⟨?_, fun _ => Iff.rfl, fun _ _ => id⟩
    have separate : before.cache.All SharedTemplate.Separate := holds
    rw [← cache] at separate
    exact separate
  compiled world kind literal sound := by
    have separate : world.scene.cache.All SharedTemplate.Separate := sound.holds
    obtain ⟨wellFormed, extended⟩ := regular.grows kind literal world.scene.memory world.scene.tree sound.wellFormed
    have other : ∀ {event : Event}, (∀ id, event ≠ .kept id) → ∀ id,
        .kept id ∈ (world.scene.report.push event).toList ↔ .kept id ∈ world.scene.report.toList :=
      fun other id => Realm.kept_mem_push (other id)
    refine RenderM.templateFor_leads ?_ ?_ ?_ ?_
    · intro shared found
      exact ⟨surveyed_change sound _ sound.wellFormed (.refl _) separate (other nofun), separate.identity found⟩
    · intro shared found
      have here := separate.content found
      exact ⟨surveyed_change sound _ sound.wellFormed (.refl _) (separate.recordIdentity here) (other nofun), here⟩
    · intro template done
      have here : SharedTemplate.Separate ⟨world.scene.cache.size, template⟩ := regular.separate _ _ _ _ done
      exact ⟨surveyed_change sound _ wellFormed extended ((separate.recordContent here).recordIdentity here) (other nofun),
        here⟩
    · intro error _
      exact surveyed_change sound _ wellFormed extended separate fun _ => Iff.rfl
  distinct _ _ _ separate := separate
  unasked := id
  leaves := False.elim
  asked hook known scene target container holds :=
    ⟨regular.thinks hook known target container scene.memory scene.tree, holds, fun _ => Iff.rfl, fun _ _ => id⟩

theorem regular_lawful (regular : client.Regular) (guest : NodeId → Prop) : (regularRealm client guest).Lawful :=
  surveyed_lawful regular guest .blank

end Layout

end DomParts
