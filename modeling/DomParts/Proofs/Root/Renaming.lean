import DomParts.Proofs.Renaming.Values
import DomParts.Proofs.Root.Calls
import DomParts.Proofs.Watch.Calls
import Mathlib.Logic.Equiv.Basic

/-! # Calls with other keys and texts

Neither keys nor texts show in what rendering does or reports. If a caller goes by other keys, of whatever sort, and
renders other texts, which are different if the keys and texts were, then call by call everything comes to the same:
the results, the nodes and how they are linked, the counts of keyed passes, what the client is asked and what is
reported. Only the data of text nodes and the values of attributes are others.
-/

namespace DomParts

open RenderM

variable {σ : Type} {r : Renaming} {client : Client σ} {shelf : σ → NodeId → Prop} {stage other : Stage σ}

def Call.rename (r : Renaming) : Call → Call
  | .render position value => .render position (value.rename r)
  | call => call

/-- What the caller does to the tree by itself does not depend on texts that were rendered. -/
def Call.Even (r : Renaming) : Call → Prop
  | .make change _ => ∀ tree other : Tree, tree.WellFormed → tree.Renamed r other →
      (change tree).WellFormed ∧ (change tree).Renamed r (change other)
  | _ => True

theorem Call.even_perform (operations : List Tree.Operation) (guest : NodeId → Prop) :
    (Call.make (·.perform operations) guest).Even r :=
  fun _ _ wellFormed renamed => ⟨wellFormed.perform operations, renamed.perform wellFormed operations⟩

namespace Stage

/-- Two stages that are the same but for keys and texts. -/
structure Renamed (r : Renaming) (stage other : Stage σ) : Prop where
  scene : stage.scene.Renamed r other.scene
  parts : other.parts = stage.parts.map (NodePart.rename r)

structure Paired (r : Renaming) (stage other : Stage σ) : Prop where
  scene : stage.scene.Paired r other.scene
  parts : other.parts = stage.parts.map (NodePart.rename r)

namespace Paired

variable (paired : stage.Paired r other)
include paired

theorem renamed : stage.Renamed r other := ⟨paired.scene.renamed, paired.parts⟩

theorem ask {act act' : Root → Attempt σ Root} (position : Nat)
    (alike : ∀ part : NodePart, (act ⟨part⟩).Alike r (act' ⟨part.rename r⟩) stage.scene other.scene
      fun left right => right.part = left.part.rename r)
    (placed : ∀ error, (stage.ask position act).1 = .error error → ¬ error.Misplaced) :
    (other.ask position act').1 = (stage.ask position act).1 ∧
      (stage.ask position act).2.Paired r (other.ask position act').2 := by
  unfold Stage.ask at placed ⊢
  rw [paired.parts, List.getElem?_map]
  cases found : stage.parts[position]? with
  | none => exact ⟨rfl, paired⟩
  | some part =>
      simp only [found] at placed
      obtain ⟨result, shown, scene⟩ := alike part placed
      refine ⟨result, scene, ?_⟩
      rw [List.map_set, ← shown]
      rfl

theorem perform (discreet : client.Discreet r) {call : Call} (even : call.Even r)
    (placed : ∀ error, (stage.perform client call).1 = .error error → ¬ error.Misplaced) :
    (other.perform client (call.rename r)).1 = (stage.perform client call).1 ∧
      (stage.perform client call).2.Paired r (other.perform client (call.rename r)).2 := by
  cases call with
  | make change guest =>
      obtain ⟨⟨⟨tree, cache, memory, report⟩, wellFormed, templates⟩, parts⟩ := paired
      obtain ⟨sound, renamed⟩ := even _ _ wellFormed tree
      exact ⟨rfl, ⟨⟨renamed, cache, memory, report⟩, sound, templates⟩, parts⟩
  | mount container =>
      rcases (Root.alike_create container _ _ paired.scene (Nat.zero_le _)).ends with
        ⟨left, after, right, last, ran, ran', changes, shown⟩ | ⟨error, after, ran, follows⟩
      · simp only [Call.rename, Stage.perform, ran, ran']
        refine ⟨trivial, changes.paired, ?_⟩
        rw [paired.parts, shown, List.map_append, List.map_cons, List.map_nil]
      · simp only [Stage.perform, ran] at placed ⊢
        obtain ⟨last, ran', changes⟩ := follows (placed error rfl)
        simp only [Call.rename, ran']
        exact ⟨trivial, changes.paired, paired.parts⟩
  | render position value =>
      exact paired.ask position (fun part => NodePart.commit_alike discreet paired.scene part value) placed
  | clear position => exact paired.ask position (fun part => NodePart.clear_alike paired.scene part) placed

theorem run (discreet : client.Discreet r) {calls : List Call} (even : ∀ call ∈ calls, call.Even r)
    (placed : ∀ error, .error error ∈ (stage.run client calls).1 → ¬ error.Misplaced) :
    (other.run client (calls.map (Call.rename r))).1 = (stage.run client calls).1 ∧
      (stage.run client calls).2.Paired r (other.run client (calls.map (Call.rename r))).2 := by
  induction calls generalizing stage other with
  | nil => exact ⟨rfl, paired⟩
  | cons call calls ih =>
      obtain ⟨here, later⟩ := List.forall_mem_cons.1 even
      simp only [Stage.run] at placed
      obtain ⟨result, next⟩ := paired.perform discreet here fun error failed =>
        placed error (failed ▸ List.mem_cons_self ..)
      obtain ⟨results, last⟩ := ih next later fun error member => placed error (List.mem_cons_of_mem _ member)
      simp only [List.map_cons, Stage.run, result, results]
      exact ⟨trivial, last⟩

end Paired

theorem results_take (client : Client σ) (stage : Stage σ) (calls : List Call) (count : Nat) :
    (stage.run client (calls.take count)).1 = (stage.run client calls).1.take count := by
  induction calls generalizing stage count with
  | nil => rw [List.take_nil, Stage.run, List.take_nil]
  | cons call calls ih =>
      cases count with
      | zero => rfl
      | succ count => simp only [List.take_succ_cons, Stage.run, ih]

/-- After any number of calls, whatever the client was asked included, everything is the same but for the keys and the
    texts. Templates have slots for attributes at elements only, and the calls keep off what is set aside for them. -/
theorem run_renamed (discreet : client.Discreet r) (provides : client.Provides shelf) {tree : Tree} {memory : σ}
    (fenced : tree.Fenced (shelf memory)) (guest : NodeId → Prop) {calls : List Call} (even : ∀ call ∈ calls, call.Even r)
    (off : (start tree (memory, []) guest).KeepsOff client.overheard (fun memory => shelf memory.1) calls) (count : Nat) :
    ((start tree (memory, []) guest).run client.overheard ((calls.take count).map (Call.rename r))).1 =
        ((start tree (memory, []) guest).run client.overheard (calls.take count)).1 ∧
      ((start tree (memory, []) guest).run client.overheard (calls.take count)).2.Renamed r
        ((start tree (memory, []) guest).run client.overheard ((calls.take count).map (Call.rename r))).2 := by
  have paired : (start tree (memory, ([] : List Question)) guest).Paired r (start tree (memory, []) guest) :=
    ⟨⟨⟨.refl tree, rfl, rfl, rfl⟩, fenced.wellFormed, TemplateCache.all_empty⟩, rfl⟩
  have watched : (start tree (memory, ([] : List Question)) guest).Watched client.overheard fun memory => shelf memory.1 :=
    .start guest fenced
  obtain ⟨results, last⟩ := paired.run discreet.overheard (fun call member => even call (List.mem_of_mem_take member))
    fun error member => watched.run provides.overheard off error (List.mem_of_mem_take (results_take .. ▸ member))
  exact ⟨results, last.renamed⟩

end Stage

namespace Root.Example

/-- A client that makes the same of every literal, a paragraph with a title around some content, and whose hook keeps
    every other node. -/
def keeper : Client Unit :=
  { press [.branch 0 (.element "p" [("title", "none")]) [.branch 0 .marker []]] [.attribute 0 "title", .node 1] with
    hook? := some { ask := fun target _ state => (if target % 2 = 1 then .skip else .proceed, state) } }

/-- Other keys for two keys, of other sorts, and another text for the title that paragraphs have anyway. -/
def disguise : Renaming where
  key := Equiv.swap (.int 1) (.str "one") ∘ Equiv.swap (.index 0) (.int 2)
  text := Equiv.swap "none" "secret"
  key_injective := (Equiv.injective _).comp (Equiv.injective _)
  text_injective := Equiv.injective _

def titled (title content : Value) : Value := .template .html ⟨0, ["<p title=", ">", "</p>"]⟩ [title, content]

/-- Items come, change places and go, some of them with a key that is there already. Then a list is no title, so that
    the root fails halfway, refuses a value, is cleared, and shows a text. -/
def entries : List Call :=
  [.make (·.perform [.createElement "em", .createText "none", .appendChild 1 2]) fun id => id = 1, .mount 0,
    .render 0 (.keyed [(.int 1, titled (.text "none") (.node 1)), (.index 0, .text "b"), (.int 1, .text "c")]),
    .render 0 (.keyed [(.index 0, .text "secret"), (.str "one", titled .nothing (.text "d")),
      (.int 1, titled (.text "secret") (.list [.text "none", .text "e"]))]),
    .render 0 (.keyed [(.int 2, .text "f"), (.int 1, titled (.list []) .nothing)]), .render 0 .nothing, .clear 0,
    .render 0 (.text "none")]

def body : Tree := (Tree.empty.create (.plain "body")).2

theorem keeper_proper : Subtree.Proper
    (Subtree.spotsOfAll [.branch 0 (.element "p" [("title", "none")]) [.branch 0 .marker []]]) := by
  simp [Subtree.Proper, Subtree.spotsOfAll, Subtree.spots, Kind.attributeNames, Kind.marker]

theorem keeper_discreet (r : Renaming) : keeper.Discreet r where
  compile _ _ := Renaming.unseen_graft 0 (show Kind.fragment.attributeNames.Nodup from List.nodup_nil) keeper_proper _
  distinct := by
    rintro _ _ _ _ ⟨⟩
    exact show [(0, "title")].Nodup by decide
  ask := by
    rintro _ ⟨⟩ target _
    exact Renaming.unseen_answer _

/-- What the keeper makes is a copy of the paragraph, so the title is that of an element. -/
theorem keeper_fits {kind : TemplateKind} {literal : Literal} {template : Template} {original : Subtree}
    (makes : keeper.Makes kind literal template original) : template.Fits original := by
  obtain ⟨memory, tree, wellFormed, made, rfl⟩ := makes
  have grafted := Tree.graft_grafted wellFormed 0 .fragment _ List.nodup_nil keeper_proper
  have slots : template.slots = [.attribute 0 "title", .node 1] := by
    cases made
    rfl
  have fits : template.Fits
      (.branch 0 .fragment [.branch 0 (.element "p" [("title", "none")]) [.branch 0 .marker []]]) := by
    intro index name listed
    rw [slots] at listed
    simp only [List.mem_cons, Slot.attribute.injEq, reduceCtorEq, List.not_mem_nil, or_false] at listed
    obtain ⟨rfl, rfl⟩ := listed
    exact ⟨_, _, _, rfl, rfl⟩
  cases made
  exact grafted.sound.subtree_of_spells grafted.spelled ▸ fits.renumber tree.size

theorem keeper_provides : keeper.Provides fun _ _ => False := by
  have prepares : (press [.branch 0 (.element "p" [("title", "none")]) [.branch 0 .marker []]]
      [.attribute 0 "title", .node 1]).Prepares fun _ _ => False :=
    press_prepares keeper_proper ⟨show [1].Nodup by decide, show [(0, "title")].Nodup by decide⟩
  have prepared : ∀ kind literal memory (tree : Tree), tree.WellFormed →
      Preparation (fun _ _ => False) memory tree (keeper.compile kind literal (memory, tree)) :=
    fun kind literal memory tree wellFormed => prepares.prepared kind literal memory tree wellFormed
      ⟨fun _ none => none.elim, fun _ _ none => none.elim⟩
  constructor
  case grows =>
    intro kind literal memory tree wellFormed
    have preparation := prepared kind literal memory tree wellFormed
    exact ⟨preparation.wellFormed, preparation.extended.size_le⟩
  case prepared => exact fun kind literal memory tree fenced => prepared kind literal memory tree fenced.wellFormed
  case fenced => exact fun kind literal memory tree fenced => .nowhere (prepared kind literal memory tree fenced.wellFormed).wellFormed
  case fits => exact fun _ _ _ _ => keeper_fits
  case worded => exact fun _ _ _ _ => nofun
  case hookGrows =>
    rintro _ ⟨⟩ target container memory tree wellFormed
    exact ⟨wellFormed, Nat.le_refl _⟩
  case hookSkirts =>
    rintro _ ⟨⟩ target container scene guarded - -
    exact ⟨.refl guarded.wellFormed, rfl, fun _ => Iff.rfl⟩

/-- Only the first value shows a node, and no template was compiled before. -/
theorem entries_off :
    (Stage.start body ((), []) fun _ => False).KeepsOff keeper.overheard (fun _ _ => False) entries := by
  have bare : ∀ {stage : Stage (Unit × List Question)} {position : Nat} {value : Value}, value.leaves = [] →
      (Call.render position value).KeepsOff keeper.overheard (fun _ _ => False) stage := by
    intro stage position value none id leaf
    rw [none] at leaf
    cases leaf
  have blank : ∀ {scene : Scene (Unit × List Question)} {id : NodeId}, scene.cache = .empty →
      ¬ Scene.Aside (fun _ _ => False) scene id := by
    rintro scene id empty (none | ⟨shared, original, prepared, -⟩)
    · exact none
    · exact TemplateCache.not_lists_empty (empty ▸ prepared.listed)
  have wellFormed : body.WellFormed := Tree.WellFormed.empty.create List.nodup_nil
  refine ⟨?_, blank rfl, ?_, bare rfl, bare rfl, bare rfl, trivial, bare rfl, trivial⟩
  · -- The nodes that are made are new, and nothing is set aside yet.
    have fenced : body.Fenced (Scene.Aside (fun _ _ => False) (Stage.start body ((), ([] : List Question)) fun _ => False).scene) :=
      ⟨wellFormed, fun id aside => absurd aside (blank rfl), fun _ _ _ => iff_of_false (blank rfl) (blank rfl)⟩
    refine fenced.extended (wellFormed.perform _) ⟨by decide +kernel, fun id old => ?_⟩
    obtain rfl : id = 0 := Nat.lt_one_iff.1 old
    rfl
  · intro id leaf
    obtain rfl : id = 1 := by simpa [titled, Value.leaves, Value.leavesOfItems, Value.leavesOfAll] using leaf
    exact .inl ⟨by decide +kernel, blank rfl⟩

end Root.Example

open Root.Example in
/-- The first paragraph is given the title that the template gives it anyway, so that nothing has to be set; with the
    other text it is set. Nobody can tell that from anything else, not even where the root fails. -/
theorem Stage.run_renamed_entries : keeper.Discreet disguise ∧ (keeper.Provides fun _ _ => False) ∧
    body.Fenced (fun _ => False) ∧ (∀ call ∈ entries, call.Even disguise) ∧
    (start body ((), []) fun _ => False).KeepsOff keeper.overheard (fun _ _ => False) entries ∧
    ((start body ((), []) fun _ => False).run keeper.overheard ((entries.take 5).map (Call.rename disguise))).1 =
        ((start body ((), []) fun _ => False).run keeper.overheard (entries.take 5)).1 ∧
      ((start body ((), []) fun _ => False).run keeper.overheard (entries.take 5)).2.Renamed disguise
        ((start body ((), []) fun _ => False).run keeper.overheard ((entries.take 5).map (Call.rename disguise))).2 := by
  have fenced : body.Fenced (fun _ => False) := .nowhere (Tree.WellFormed.empty.create List.nodup_nil)
  have even : ∀ call ∈ entries, call.Even disguise :=
    List.forall_mem_cons.2 ⟨Call.even_perform _ _, by simp [Call.Even]⟩
  exact ⟨keeper_discreet _, keeper_provides, fenced, even, entries_off,
    run_renamed (keeper_discreet _) keeper_provides fenced _ even entries_off 5⟩

end DomParts
