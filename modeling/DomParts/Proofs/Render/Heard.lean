import DomParts.Proofs.Render.Record
import DomParts.Proofs.Tree.Siblings

/-! # What a hook hears

A run that is removed with a hook in place goes node by node. The hook is asked about each of them but the
markers, in order, and those that it lets go leave the container.
-/

namespace DomParts

open DomParts.Tree (upTo)

variable {σ : Type}

/-- What a hook is asked about the nodes of a run, in order, and the nodes that go. -/
inductive Heard (tree : Tree) (container : NodeId) : List NodeId → List Question → List NodeId → Prop where
  | nil : Heard tree container [] [] []
  | marker {id : NodeId} {run gone : List NodeId} {questions : List Question} (marker : tree.isMarker id = true)
      (rest : Heard tree container run questions gone) : Heard tree container (id :: run) questions (id :: gone)
  | proceed {id : NodeId} {run gone : List NodeId} {questions : List Question} (solid : tree.isMarker id = false)
      (rest : Heard tree container run questions gone) :
      Heard tree container (id :: run) (.remove id container .proceed :: questions) (id :: gone)
  | skip {id : NodeId} {run gone : List NodeId} {questions : List Question} (solid : tree.isMarker id = false)
      (rest : Heard tree container run questions gone) :
      Heard tree container (id :: run) (.remove id container .skip :: questions) gone

namespace Heard

variable {tree changed : Tree} {container id : NodeId} {run gone : List NodeId} {questions : List Question}

theorem congr (same : ∀ id, changed.isMarker id = tree.isMarker id)
    (heard : Heard changed container run questions gone) : Heard tree container run questions gone := by
  induction heard with
  | nil => exact .nil
  | marker marker _ ih => exact .marker (same _ ▸ marker) ih
  | proceed solid _ ih => exact .proceed (same _ ▸ solid) ih
  | skip solid _ ih => exact .skip (same _ ▸ solid) ih

theorem about (heard : Heard tree container run questions gone) :
    ∀ question ∈ questions, ∃ id ∈ run, tree.isMarker id = false ∧
      ∃ answer, question = .remove id container answer := by
  induction heard with
  | nil => nofun
  | marker _ _ ih =>
      intro question member
      obtain ⟨id, inside, solid, same⟩ := ih question member
      exact ⟨id, List.mem_cons_of_mem _ inside, solid, same⟩
  | proceed solid _ ih | skip solid _ ih =>
      rw [List.forall_mem_cons]
      refine ⟨⟨_, List.mem_cons_self .., solid, _, rfl⟩, fun question member => ?_⟩
      obtain ⟨id, inside, solid, same⟩ := ih question member
      exact ⟨id, List.mem_cons_of_mem _ inside, solid, same⟩

theorem gone_sublist (heard : Heard tree container run questions gone) : gone.Sublist run := by
  induction heard with
  | nil => exact .slnil
  | marker _ _ ih | proceed _ _ ih => exact ih.cons_cons _
  | skip _ _ ih => exact ih.cons _

theorem gone_subset (heard : Heard tree container run questions gone) : gone ⊆ run := heard.gone_sublist.subset

/-- Each node but the markers is asked about, and goes if the hook says so. -/
theorem answered (heard : Heard tree container run questions gone) (distinct : run.Nodup) (member : id ∈ run)
    (solid : tree.isMarker id = false) :
    (∃ answer, .remove id container answer ∈ questions) ∧ (id ∈ gone ↔ .remove id container .proceed ∈ questions) := by
  induction heard with
  | nil => cases member
  | @marker first run gone questions marker rest ih =>
      obtain ⟨-, distinct⟩ := List.nodup_cons.1 distinct
      have other : id ≠ first := fun same => by rw [same, marker] at solid; cases solid
      simpa [other] using ih distinct ((List.mem_cons.1 member).resolve_left other)
  | @proceed first run gone questions solid' rest ih =>
      obtain ⟨fresh, distinct⟩ := List.nodup_cons.1 distinct
      rcases List.mem_cons.1 member with rfl | member
      · exact ⟨⟨_, List.mem_cons_self ..⟩, by simp⟩
      · have other : id ≠ first := fun same => fresh (same ▸ member)
        obtain ⟨⟨answer, asked⟩, goes⟩ := ih distinct member
        exact ⟨⟨answer, List.mem_cons_of_mem _ asked⟩, by simp [other, goes]⟩
  | @skip first run gone questions solid' rest ih =>
      obtain ⟨fresh, distinct⟩ := List.nodup_cons.1 distinct
      rcases List.mem_cons.1 member with rfl | member
      · have stays : id ∉ gone := fun here => fresh (rest.gone_subset here)
        refine ⟨⟨_, List.mem_cons_self ..⟩, by simp [stays], fun asked => ?_⟩
        obtain ⟨again, inside, -, answer, same⟩ := rest.about _ ((List.mem_cons.1 asked).resolve_left nofun)
        cases same
        exact absurd inside fresh
      · have other : id ≠ first := fun same => fresh (same ▸ member)
        obtain ⟨⟨answer, asked⟩, goes⟩ := ih distinct member
        exact ⟨⟨answer, List.mem_cons_of_mem _ asked⟩, by simp [goes]⟩

theorem asked (heard : Heard tree container run questions gone) :
    ∃ asked, questions = questionsOf container asked ∧ asked.map (·.1) = run.filter (!tree.isMarker ·) := by
  induction heard with
  | nil => exact ⟨[], rfl, rfl⟩
  | marker marker _ ih =>
      obtain ⟨asked, same, targets⟩ := ih
      exact ⟨asked, same, by simp [marker, targets]⟩
  | proceed solid _ ih | skip solid _ ih =>
      obtain ⟨asked, same, targets⟩ := ih
      exact ⟨(_, _) :: asked, by rw [same]; rfl, by simp [solid, targets]⟩

theorem targets {asked : List (NodeId × Removal)} (heard : Heard tree container run (questionsOf container asked) gone) :
    asked.map (·.1) = run.filter (!tree.isMarker ·) := by
  obtain ⟨again, same, targets⟩ := heard.asked
  rwa [questionsOf_injective container same]

theorem markers (heard : Heard tree container run questions gone) :
    ∀ id ∈ run, tree.isMarker id = true → id ∈ gone := by
  induction heard with
  | nil => exact List.forall_mem_nil _
  | marker marker _ ih | proceed _ _ ih =>
      exact List.forall_mem_cons.2 ⟨fun _ => List.mem_cons_self .., fun id member marker =>
        List.mem_cons_of_mem _ (ih id member marker)⟩
  | skip solid _ ih =>
      refine List.forall_mem_cons.2 ⟨fun marker => ?_, ih⟩
      rw [solid] at marker
      cases marker

/-- A node that the hook was asked about goes if and only if the hook said so. -/
theorem goes {asked : List (NodeId × Removal)}
    (heard : Heard tree container run (questionsOf container asked) gone) (distinct : run.Nodup) :
    ∀ pair ∈ asked, pair.1 ∈ gone ↔ pair.2 = .proceed := by
  intro pair member
  have targets := heard.targets
  have among := List.mem_map_of_mem (f := (·.1)) member
  rw [targets, List.mem_filter, Bool.not_eq_true'] at among
  have once : (asked.map (·.1)).Nodup := targets ▸ distinct.filter _
  rw [(heard.answered distinct among.1 among.2).2, mem_questionsOf]
  constructor
  · intro proceeds
    have same := List.inj_on_of_nodup_map once proceeds member rfl
    exact (congrArg (·.2) same).symm
  · exact fun proceeds => proceeds ▸ member

theorem gone_eq {asked : List (NodeId × Removal)} (heard : Heard tree container run (questionsOf container asked) gone)
    (distinct : run.Nodup) : gone = run.filter fun id => tree.isMarker id || (id, .proceed) ∈ asked := by
  have goes : ∀ id ∈ run, decide (id ∈ gone) = (tree.isMarker id || decide ((id, Removal.proceed) ∈ asked)) := by
    intro id member
    cases marker : tree.isMarker id with
    | true => simpa using heard.markers id member marker
    | false =>
        have answered := (heard.answered distinct member marker).2
        rw [mem_questionsOf] at answered
        simpa using answered
  have kept : gone.Sublist (run.filter (· ∈ gone)) := by
    have inside := heard.gone_sublist.filter fun id => decide (id ∈ gone)
    rwa [List.filter_eq_self.2 (by simp)] at inside
  have same : gone.Perm (run.filter (· ∈ gone)) := by
    rw [List.perm_ext_iff_of_nodup (heard.gone_sublist.nodup distinct) (distinct.filter _)]
    simpa using fun id member => heard.gone_subset (a := id) member
  rw [← List.filter_congr goes]
  exact kept.eq_of_length same.length_eq

end Heard

/-- What becomes of a run when an overheard hook is asked about it. -/
structure Sifted (hook : RemovalHook σ) (container : NodeId) (run : List NodeId) (before after : Scene (σ × List Question))
    (asked : List (NodeId × Removal)) (gone : List NodeId) : Prop where
  heard : Heard before.tree container run (questionsOf container asked) gone
  /-- The answers are those that the hook gave. -/
  said : ∀ pair ∈ asked, ∃ state, (hook.ask pair.1 container state).1 = pair.2
  tree : after.tree = before.tree.detachAll gone
  memory : after.memory.2 = before.memory.2 ++ questionsOf container asked

namespace Sifted

variable {hook : RemovalHook σ} {container id : NodeId} {run gone gone' : List NodeId}
  {before middle after : Scene (σ × List Question)} {asked asked' : List (NodeId × Removal)}

theorem nil (before : Scene (σ × List Question)) : Sifted hook container [] before before [] [] :=
  ⟨.nil, List.forall_mem_nil _, rfl, (List.append_nil _).symm⟩

theorem cons (first : Sifted hook container [id] before middle asked gone)
    (rest : Sifted hook container run middle after asked' gone') :
    Sifted hook container (id :: run) before after (asked ++ asked') (gone ++ gone') := by
  have both : questionsOf container (asked ++ asked') = questionsOf container asked ++ questionsOf container asked' :=
    List.map_append
  refine ⟨?_, List.forall_mem_append.2 ⟨first.said, rest.said⟩, ?_, ?_⟩
  · have same : ∀ other, middle.tree.isMarker other = before.tree.isMarker other := fun other => by
      simp only [Tree.isMarker, first.tree, Tree.kindOf_detachAll]
    have later := rest.heard.congr same
    have here := first.heard
    rw [both]
    generalize questionsOf container asked = questions at here
    cases here with
    | marker marker none => cases none; exact .marker marker later
    | proceed solid none => cases none; exact .proceed solid later
    | skip solid none => cases none; exact .skip solid later
  · rw [rest.tree, first.tree, Tree.detachAll_append]
  · rw [rest.memory, first.memory, both, List.append_assoc]

theorem gone_of_willing (sifted : Sifted hook container run before after asked gone) (distinct : run.Nodup)
    (willing : ∀ target state, (hook.ask target container state).1 = .proceed) : gone = run := by
  rw [sifted.heard.gone_eq distinct, List.filter_eq_self]
  intro id member
  cases marker : before.tree.isMarker id with
  | true => rfl
  | false =>
      have among : id ∈ asked.map (·.1) := by simp [sifted.heard.targets, member, marker]
      obtain ⟨⟨_, answer⟩, asked, rfl⟩ := List.mem_map.1 among
      obtain ⟨state, same⟩ := sifted.said _ asked
      obtain rfl : .proceed = answer := (willing _ state).symm.trans same
      simpa using asked

end Sifted

namespace RenderM

section Walk

variable {hook : RemovalHook σ} {container id : NodeId} {stop : Option NodeId} {scene : Scene σ} {fuel count : Nat}

theorem overRunAsking_none : overRunAsking hook container stop fuel none count = pure count := by
  rw [overRunAsking.eq_def]

theorem overRunAsking_stop : overRunAsking hook container stop fuel stop count = pure count := by
  cases stop with
  | none => exact overRunAsking_none
  | some id => rw [overRunAsking.eq_def]; simp

theorem leads_overRunAsking_step {good : Nat → Scene σ → Prop} {bad : Error → Scene σ → Prop} (onward : stop ≠ some id) :
    (overRunAsking hook container stop (fuel + 1) (some id) count).Leads scene good bad ↔
      (removeAsking hook container id).Leads scene
        (fun went after => (overRunAsking hook container stop fuel (scene.tree.nextSibling id)
          (if went then count + 1 else count)).Leads after good bad) bad := by
  simp only [overRunAsking, if_neg onward, leads_bind, leads_look]

end Walk

variable {hook : RemovalHook σ} {scene : Scene (σ × List Question)} {container id : NodeId} {front left : List NodeId}
  (thinks : ∀ target container memory (tree : Tree), (hook.ask target container (memory, tree)).2.2 = tree)
include thinks

theorem removeAsking_sifted (sound : scene.tree.WellFormed) (member : id ∈ scene.tree.childrenOf container) :
    (removeAsking hook.overheard container id).Leads scene
      (fun went after => ∃ asked gone, Sifted hook container [id] scene after asked gone ∧
        gone.length = if went then 1 else 0) fun _ _ => False := by
  have above := sound.parentOf_of_mem member
  have removed := Tree.removeChild_eq sound member
  simp only [removeAsking, mayRemove, leads_bind, leads_look, above, ne_eq, not_true, if_false]
  cases marker : scene.tree.isMarker id with
  | true =>
      simp only [if_true, leads_pure, leads_bind, leads_edit, removed]
      exact ⟨[], [id], ⟨.marker marker .nil, List.forall_mem_nil _, rfl, (List.append_nil _).symm⟩, rfl⟩
  | false =>
      have same := thinks id container scene.memory.1 scene.tree
      cases answer : (hook.ask id container (scene.memory.1, scene.tree)).1 with
      | proceed =>
          simp only [Bool.false_eq_true, if_false, leads_bind, leads_consult, hook.overheard_ask, answer, same,
            leads_pure, if_true, leads_edit, removed]
          exact ⟨[(id, .proceed)], [id], ⟨.proceed marker .nil, by simpa using ⟨_, _, answer⟩, rfl, rfl⟩, rfl⟩
      | skip =>
          simp only [Bool.false_eq_true, if_false, leads_bind, leads_consult, hook.overheard_ask, answer, same,
            leads_pure, leads_note]
          exact ⟨[(id, .skip)], [], ⟨.skip marker .nil, by simpa using ⟨_, _, answer⟩, rfl, rfl⟩, rfl⟩

/-- The nodes of a run go or stay, one after the other. Those that went are counted. -/
theorem overRunAsking_sifted (sound : scene.tree.WellFormed) (listed : scene.tree.childrenOf container = front ++ left)
    (stop : Option NodeId) {fuel : Nat} (room : (upTo stop left).length ≤ fuel) (count : Nat) :
    (overRunAsking hook.overheard container stop fuel left.head? count).Leads scene
      (fun total after => ∃ asked gone, Sifted hook container (upTo stop left) scene after asked gone ∧
        total = count + gone.length) fun _ _ => False := by
  induction left generalizing scene front fuel count with
  | nil =>
      rw [List.head?_nil, overRunAsking_none, leads_pure]
      exact ⟨[], [], .nil scene, rfl⟩
  | cons id left ih =>
      by_cases met : stop = some id
      · rw [List.head?_cons, ← met, overRunAsking_stop, leads_pure, met, Tree.upTo_cons_self]
        exact ⟨[], [], .nil scene, rfl⟩
      · rw [Tree.upTo_cons met] at room ⊢
        obtain ⟨fuel, rfl⟩ : ∃ less, fuel = less + 1 := ⟨fuel - 1, by simp at room; omega⟩
        have distinct := sound.nodup container
        rw [listed, List.nodup_middle, List.nodup_cons] at distinct
        rw [List.head?_cons, leads_overRunAsking_step met, sound.nextSibling_eq listed]
        refine (removeAsking_sifted thinks sound (by simp [listed])).mono ?_ fun _ _ none => none
        rintro went after ⟨asked, gone, first, counted⟩
        have sound' : after.tree.WellFormed := first.tree ▸ sound.detachAll gone
        -- The others stand behind what is left of the node.
        have listed' : after.tree.childrenOf container = (front ++ [id].filter (· ∉ gone)) ++ left := by
          have others : ∀ ids : List NodeId, id ∉ ids → ids.filter (· ∉ gone) = ids := by
            intro ids outside
            refine List.filter_eq_self.2 fun other here => decide_eq_true fun goes => outside ?_
            rwa [← List.mem_singleton.1 (first.heard.gone_subset goes)]
          rw [List.mem_append, not_or] at distinct
          rw [first.tree, Tree.childrenOf_detachAll sound, listed, List.append_cons, List.filter_append,
            List.filter_append, others front distinct.1.1, others left distinct.1.2]
        refine (ih sound' listed' (by simpa using room) _).mono ?_ fun _ _ none => none
        rintro total last ⟨asked', gone', rest, rfl⟩
        refine ⟨asked ++ asked', gone ++ gone', first.cons rest, ?_⟩
        rw [List.length_append, counted]
        cases went with
        | true => simp only [if_true]; omega
        | false => simp

end RenderM

end DomParts
