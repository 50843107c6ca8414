import DomParts.Proofs.Layout.Commit
import DomParts.Proofs.Render.Clearing
import DomParts.Proofs.Render.Plain
import DomParts.Proofs.Renaming.Instance
import DomParts.Proofs.Template.Binding

/-! # The first values of an instance

Parts that were bound to markers of their own and to attributes of their own do not get in each other's way
when they are given texts one after the other: what one of them adds to the tree leaves the others in their
places. That the slots have different markers is not checked when an instance is made. Where two of them
have the same one, the part that is given its value first takes the other one's end marker for content, see
`DomParts.Proofs.Template.SharedMarkers`.
-/

namespace DomParts

open RenderM

variable {σ : Type}

namespace Tree

variable {tree changed : Tree} {element : NodeId} {tag name data : String} {attributes : Attributes}

theorem setAttribute_furnished (sound : tree.WellFormed) (standing : tree.kindOf element = some (.element tag attributes))
    (name data : String) : ∃ changed, tree.setAttribute element name data = .ok changed ∧
      tree.Furnished changed [] [(element, name)] ∧ changed.attribute? element name = some data := by
  have inside := lt_size_of_kindOf standing
  refine ⟨tree.setKind element (.element tag (attributes.set name data)), ?_, ?_, ?_⟩
  · simp only [setAttribute, changeAttributes, changeKind, standing]
    rfl
  · apply furnished_setKind sound standing
    · exact Attributes.nodup_set (sound.named element _ standing)
    · intro other different
      rw [Attributes.get?_set, if_neg different]
  · simp [Tree.attribute?, kindOf_setKind inside, Kind.attribute?, Attributes.get?_set]

end Tree

namespace NodePart

variable {scene : Scene σ} {start stop : NodeId}

theorem text_between (sound : scene.tree.WellFormed) (behind : scene.tree.nextSibling start = some stop)
    (closes : scene.tree.isMarker stop = true) (data : String) :
    (Render.text data (between start stop) : RenderM σ Content).Leads scene
      (fun content after => content = .text data ∧ scene.tree.Furnished after.tree [start] [] ∧
        after.tree.nextSibling start = some scene.tree.size ∧ after.tree.kindOf scene.tree.size = some (.text data) ∧
        after.tree.nextSibling scene.tree.size = some stop)
      fun _ _ => False := by
  obtain ⟨parent, left, right, above, listed⟩ := sound.split_next behind
  have created : (scene.tree.create (.text data)).2.WellFormed := sound.create List.nodup_nil
  have relisted : (scene.tree.create (.text data)).2.childrenOf parent = left ++ start :: stop :: right := by
    simpa using listed
  have onward := created.nextSibling_eq relisted
  have split : scene.tree.childrenOf parent = (left ++ [start]) ++ stop :: right := by simpa using listed
  have named : (Kind.text data).attributeNames.Nodup := List.nodup_nil
  obtain ⟨tree, done, joined⟩ := Tree.leaf_inserted sound (sound.lt_size_of_parent above) split named nofun
  obtain ⟨furnished, next, last⟩ := joined.furnished sound listed
  rw [behind] at last
  have other : scene.tree.isText stop = false := by
    simp [Tree.isText, Tree.isMarker_iff.1 closes, Kind.isText, Kind.marker]
  have removed : (scene.tree.create (.text data)).2.removeRun parent stop (some stop) =
      (.ok 0, (scene.tree.create (.text data)).2) := Tree.overRun_stop
  have empty : (between start stop).content.text? ≠ some data := by simp [between, Content.text?]
  rw [Render.text, if_neg empty]
  simp only [between, loneText?, removeContent, insertContent, container, leads_bind, leads_look, behind,
    Option.filter_some, other, Bool.false_and, Bool.false_eq_true, if_false, leads_create, leads_require, onward,
    Tree.parentOf_create, above, List.head?_cons, RenderM.removeRun, leads_editInSteps, removed, leads_note, leads_pure,
    RenderM.insert, leads_edit, Scene.add]
  rw [List.head?_cons] at done
  simp only [done, true_and]
  exact ⟨furnished, next, joined.kind, last⟩

end NodePart

namespace Part

variable {tree changed : Tree} {scene : Scene σ} {part : Part} {parts : List Part} {data : String} {texts : List String}
  {marks : List NodeId} {places : List (NodeId × String)}

def start? : Part → Option NodeId
  | .node part => some part.start
  | .attribute _ => none

/-- The nodes from the part's start marker to its end marker, if it has markers. -/
def region (tree : Tree) : Part → List NodeId
  | .node part => part.start :: part.clears tree ++ [part.stop]
  | .attribute _ => []

/-- A part that is in its place, and that nothing was rendered into yet. -/
inductive Ready (tree : Tree) : Part → Prop where
  | node {start stop : NodeId} (opens : tree.isMarker start = true) (behind : tree.nextSibling start = some stop)
      (closes : tree.isMarker stop = true) : Ready tree (.node (.between start stop))
  | attribute {element : NodeId} {name tag : String} {attributes : Attributes}
      (standing : tree.kindOf element = some (.element tag attributes)) :
      Ready tree (.attribute ⟨element, name, none, tree.attribute? element name⟩)

def showing (data : String) : Part → Part
  | .node part => .node { part with content := .text data }
  | .attribute part => .attribute { part with committed := some data }

/-- The text is all there is in the part's place. -/
def Shows (tree : Tree) (data : String) : Part → Prop
  | .node part => ∃ inner, tree.nextSibling part.start = some inner ∧ tree.kindOf inner = some (.text data) ∧
      tree.nextSibling inner = some part.stop
  | .attribute part => tree.attribute? part.element part.name = some data

@[simp] theorem start?_showing (data : String) (part : Part) : (part.showing data).start? = part.start? := by
  cases part <;> rfl

@[simp] theorem shows_showing {shown : String} : (part.showing shown).Shows tree data ↔ part.Shows tree data := by
  cases part <;> rfl

theorem Ready.stays (ready : part.Ready tree) (furnished : tree.Furnished changed marks places)
    (mark : ∀ start, part.start? = some start → start ∉ marks)
    (place : ∀ place, part.place? = some place → place ∉ places) : part.Ready changed := by
  cases ready with
  | @node start stop opens behind closes =>
      have start_inside := Tree.lt_size_of_kindOf (Tree.isMarker_iff.1 opens)
      have stop_inside := Tree.lt_size_of_kindOf (Tree.isMarker_iff.1 closes)
      apply Ready.node
      · rw [furnished.isMarker start_inside, opens]
      · rw [furnished.nextSibling start start_inside (mark start rfl), behind]
      · rw [furnished.isMarker stop_inside, closes]
  | @«attribute» element name tag attributes standing =>
      have inside := Tree.lt_size_of_kindOf standing
      have bare := furnished.bare element inside
      rw [standing, Option.map_some, Option.map_eq_some_iff] at bare
      obtain ⟨kind, standing', same⟩ := bare
      rw [← furnished.attribute? element name inside (place _ rfl)]
      cases kind with
      | element tag attributes => exact .attribute standing'
      | _ => cases same

/-- What a part shows stays when something is added elsewhere, and not to a text. -/
theorem Shows.stays (shows : part.Shows tree data) (furnished : tree.Furnished changed marks places)
    (mark : ∀ start, part.start? = some start → start ∉ marks)
    (place : ∀ place, part.place? = some place → place ∉ places)
    (untouched : ∀ id, tree.kindOf id = some (.text data) → id ∉ marks ∧ ∀ place ∈ places, place.1 ≠ id) :
    part.Shows changed data := by
  cases part with
  | node part =>
      obtain ⟨inner, behind, text, last⟩ := shows
      have inside := Tree.lt_size_of_kindOf text
      have start_inside := Tree.lt_size_of_nextSibling behind
      obtain ⟨unmarked, elsewhere⟩ := untouched inner text
      refine ⟨inner, ?_, ?_, ?_⟩
      · rw [furnished.nextSibling _ start_inside (mark _ rfl), behind]
      · rw [furnished.kindOf inner inside elsewhere, text]
      · rw [furnished.nextSibling inner inside unmarked, last]
  | «attribute» part =>
      have inside := Tree.lt_size_of_attribute? shows
      exact (furnished.attribute? _ _ inside (place _ rfl)).trans shows

/-- A ready part that is given a text shows it, and all that is added is behind its start marker or in its
    attribute. -/
theorem commit_shows (sound : scene.tree.WellFormed) (ready : part.Ready scene.tree) (data : String) :
    ((part.stage (.text data)).commitWith (Render.text data)).orThrow.Leads scene
      (fun shown after => shown = part.showing data ∧
        scene.tree.Furnished after.tree part.start?.toList part.place?.toList ∧ part.Shows after.tree data)
      fun _ _ => False := by
  cases ready with
  | @node start stop opens behind closes =>
      rw [commitWith_node _ ⟨.text data, Render.text data⟩, leads_orThrow_map]
      have settled : ((NodePart.between start stop).stage (.text data)).commitWith (Render.text data : Renderer σ) =
          (NodePart.between start stop).settle (Render.text data) := rfl
      rw [settled, NodePart.settle, leads_orThrow_carry, NodePart.attend_leads]
      apply (NodePart.text_between sound behind closes data).mono
      · rintro content after ⟨rfl, furnished, first, text, last⟩
        exact ⟨rfl, furnished, _, first, text, last⟩
      · exact fun _ _ => id
  | @«attribute» element name tag attributes standing =>
      rw [commitWith_attribute _ ⟨.text data, Render.text data⟩, leads_orThrow_map]
      obtain ⟨changed, done, furnished, value⟩ := Tree.setAttribute_furnished sound standing name data
      have bound : AttributePart.Bound scene.tree ⟨element, name, none, scene.tree.attribute? element name⟩ := rfl
      rw [AttributePart.leads_assign_bound bound, leads_edit, done]
      exact ⟨rfl, furnished, value⟩

theorem nodup_filterMap_cons {α : Type} {key : Part → Option α} (distinct : ((part :: parts).filterMap key).Nodup) :
    (parts.filterMap key).Nodup ∧ ∀ found, key part = some found → found ∉ parts.filterMap key := by
  cases here : key part with
  | none =>
      rw [List.filterMap_cons_none here] at distinct
      exact ⟨distinct, nofun⟩
  | some first =>
      rw [List.filterMap_cons_some here, List.nodup_cons] at distinct
      refine ⟨distinct.2, ?_⟩
      rintro _ ⟨⟩
      exact distinct.1

/-- Ready parts, no two of which have the same start marker or are for the same attribute. -/
structure Apart (tree : Tree) (parts : List Part) : Prop where
  ready : ∀ part ∈ parts, part.Ready tree
  starts : (parts.filterMap start?).Nodup
  places : (parts.filterMap place?).Nodup

namespace Apart

theorem markers (apart : Apart tree parts) :
    ∀ id ∈ parts.filterMap start? ++ parts.filterMap stop?, tree.isMarker id = true := by
  rw [List.forall_mem_append]
  constructor
  · intro id member
    obtain ⟨part, listed, found⟩ := List.mem_filterMap.1 member
    cases apart.ready part listed with
    | node opens behind closes =>
        cases found
        exact opens
    | «attribute» standing => cases found
  · intro id member
    obtain ⟨part, listed, found⟩ := List.mem_filterMap.1 member
    cases apart.ready part listed with
    | node opens behind closes =>
        cases found
        exact closes
    | «attribute» standing => cases found

theorem untouched (apart : Apart tree parts) {id : NodeId} (text : tree.kindOf id = some (.text data)) :
    id ∉ parts.filterMap start? ∧ ∀ place ∈ parts.filterMap place?, place.1 ≠ id := by
  constructor
  · intro member
    have marker := apart.markers id (List.mem_append_left _ member)
    cases (Tree.isMarker_iff.1 marker).symm.trans text
  · rintro place member rfl
    obtain ⟨part, listed, found⟩ := List.mem_filterMap.1 member
    cases apart.ready part listed with
    | node opens behind closes => cases found
    | «attribute» standing =>
        cases found
        cases standing.symm.trans text

/-- The other parts stay as they are when something is added to the first one. -/
theorem tail (apart : Apart tree (part :: parts))
    (furnished : tree.Furnished changed part.start?.toList part.place?.toList) : Apart changed parts := by
  obtain ⟨starts, unmarked⟩ := nodup_filterMap_cons apart.starts
  obtain ⟨places, unplaced⟩ := nodup_filterMap_cons apart.places
  refine ⟨fun other member => ?_, starts, places⟩
  apply (apart.ready other (List.mem_cons_of_mem _ member)).stays furnished
  · intro start there here
    exact unmarked start (Option.mem_toList.1 here) (List.mem_filterMap.2 ⟨other, member, there⟩)
  · intro place there here
    exact unplaced place (Option.mem_toList.1 here) (List.mem_filterMap.2 ⟨other, member, there⟩)

end Apart

/-- Parts that keep apart show their texts after they were given them one after the other. -/
theorem commitEach_shows (sound : scene.tree.WellFormed) (apart : Apart scene.tree parts)
    (length : texts.length = parts.length) :
    (commitEach (parts.zipWith (fun part data => (part.stage (.text data), Render.text data)) texts)).orThrow.Leads scene
      (fun shown after => shown = parts.zipWith (fun part data => part.showing data) texts ∧
        scene.tree.Furnished after.tree (parts.filterMap start?) (parts.filterMap place?) ∧
        List.Forall₂ (Shows after.tree) texts parts)
      fun _ _ => False := by
  induction parts generalizing scene texts with
  | nil =>
      obtain rfl := List.eq_nil_of_length_eq_zero length
      exact ⟨rfl, .refl sound, .nil⟩
  | cons part parts ih =>
      obtain ⟨data, texts, rfl⟩ := List.exists_cons_of_length_eq_add_one length
      rw [List.zipWith_cons_cons, leads_commitEach]
      apply (commit_shows sound (apart.ready part (List.mem_cons_self ..)) data).imp ?_
      rintro shown middle ⟨rfl, first, shows⟩
      have rest := apart.tail first
      apply (ih first.sound rest (Nat.succ.inj length)).imp ?_
      rintro _ after ⟨rfl, second, others⟩
      refine ⟨rfl, ?_, .cons ?_ others⟩
      · have both := first.trans second
        cases part <;> exact both
      · exact shows.stays second (nodup_filterMap_cons apart.starts).2 (nodup_filterMap_cons apart.places).2
          fun id => rest.untouched

theorem Shows.region_eq (sound : tree.WellFormed) {part : NodePart} (shows : (Part.node part).Shows tree data) :
    ∃ inner, (Part.node part).region tree = [part.start, inner, part.stop] ∧
      tree.nextSibling part.start = some inner ∧ tree.isText inner = true ∧ tree.nextSibling inner = some part.stop := by
  obtain ⟨inner, behind, text, last⟩ := shows
  obtain ⟨alone, -⟩ := NodePart.clears_lone sound behind last
  refine ⟨inner, ?_, behind, by simp [Tree.isText, text, Kind.isText], last⟩
  rw [region, alone]
  rfl

/-- Two parts that show texts own no node in common if their markers are different. The texts between them are
    different because a node has one next sibling at most, and is that of one node at most. -/
theorem Shows.disjoint (sound : tree.WellFormed) {one two : NodePart} {data' : String}
    (shows : (Part.node one).Shows tree data) (shows' : (Part.node two).Shows tree data')
    (markers : ∀ id ∈ [one.start, one.stop, two.start, two.stop], tree.isMarker id = true)
    (starts : one.start ≠ two.start) (ends : one.start ≠ two.stop) (ends' : two.start ≠ one.stop) :
    ((Part.node one).region tree).Disjoint ((Part.node two).region tree) := by
  obtain ⟨inner, region, behind, text, last⟩ := shows.region_eq sound
  obtain ⟨inner', region', behind', text', last'⟩ := shows'.region_eq sound
  have inners : inner ≠ inner' := fun same => starts (sound.nextSibling_inj behind (same ▸ behind'))
  have stops : one.stop ≠ two.stop := fun same => inners (sound.nextSibling_inj last (same ▸ last'))
  have solid : ∀ other, tree.isText other = true → other ∉ [one.start, one.stop, two.start, two.stop] := by
    intro other text member
    have marker := markers other member
    simp [Tree.isText, Tree.isMarker_iff.1 marker, Kind.isText, Kind.marker] at text
  have apart := solid inner text
  have apart' := solid inner' text'
  rw [region, region']
  grind [List.Disjoint]

/-- No two of the parts own a node in common, once each of them shows a text. -/
theorem regions_disjoint (sound : tree.WellFormed) (shows : List.Forall₂ (Shows tree) texts parts)
    (markers : ∀ id ∈ parts.filterMap start? ++ parts.filterMap stop?, tree.isMarker id = true)
    (distinct : (parts.filterMap start?).Nodup) (apart : (parts.filterMap start?).Disjoint (parts.filterMap stop?)) :
    parts.Pairwise fun one two => (one.region tree).Disjoint (two.region tree) := by
  have separate := List.pairwise_filterMap.1 distinct
  apply separate.imp_of_mem
  intro one two first second different
  obtain ⟨data, -, shows_one⟩ := exists_left_of_forall₂ shows first
  obtain ⟨data', -, shows_two⟩ := exists_left_of_forall₂ shows second
  cases one with
  | «attribute» one => exact List.disjoint_nil_left _
  | node one =>
      cases two with
      | «attribute» two => exact List.disjoint_nil_right _
      | node two =>
          have start_one : one.start ∈ parts.filterMap start? := List.mem_filterMap.2 ⟨_, first, rfl⟩
          have start_two : two.start ∈ parts.filterMap start? := List.mem_filterMap.2 ⟨_, second, rfl⟩
          have stop_one : one.stop ∈ parts.filterMap stop? := List.mem_filterMap.2 ⟨_, first, rfl⟩
          have stop_two : two.stop ∈ parts.filterMap stop? := List.mem_filterMap.2 ⟨_, second, rfl⟩
          apply shows_one.disjoint sound shows_two
          · intro id member
            apply markers
            rw [List.mem_append]
            simp only [List.mem_cons, List.not_mem_nil, or_false] at member
            obtain rfl | rfl | rfl | rfl := member
            exacts [.inl start_one, .inr stop_one, .inl start_two, .inr stop_two]
          · exact different one.start rfl two.start rfl
          · exact fun same => apart start_one (same ▸ stop_two)
          · exact fun same => apart start_two (same ▸ stop_one)

end Part

namespace Slot

variable {tree changed : Tree} {nodes others : List NodeId} {slot : Slot} {slots : List Slot} {part : Part} {parts : List Part}

/-- Whether the slot's index is that of an element if the slot takes an attribute. -/
def Fits (tree : Tree) (nodes : List NodeId) : Slot → Prop
  | .node _ => True
  | .attribute index _ => ∃ id tag attributes, nodes[index]? = some id ∧ tree.kindOf id = some (.element tag attributes)

theorem Fits.of_kinds (fits : slot.Fits tree nodes) (same : nodes.map tree.kindOf = others.map changed.kindOf) :
    slot.Fits changed others := by
  cases slot with
  | node index => trivial
  | «attribute» index name =>
      obtain ⟨id, tag, attributes, found, standing⟩ := fits
      have here : (others.map changed.kindOf)[index]? = some (some (.element tag attributes)) := by
        rw [← same, List.getElem?_map, found, Option.map_some, standing]
      rw [List.getElem?_map, Option.map_eq_some_iff] at here
      obtain ⟨other, found', standing'⟩ := here
      exact ⟨other, tag, attributes, found', standing'⟩

theorem Seated.ready (seated : slot.Seated tree nodes part) (fits : slot.Fits tree nodes) : part.Ready tree := by
  cases seated with
  | node found opens behind closes => exact .node opens behind closes
  | «attribute» found =>
      obtain ⟨id, tag, attributes, found', standing⟩ := fits
      obtain rfl := Option.some.inj (found.symm.trans found')
      exact .attribute standing

theorem Seated.start? (seated : slot.Seated tree nodes part) : part.start? = slot.mark? nodes := by
  cases seated with
  | node found opens behind closes => exact found.symm
  | «attribute» found => rfl

theorem starts_eq (seated : List.Forall₂ (Seated tree nodes) slots parts) :
    parts.filterMap Part.start? = slots.filterMap (mark? nodes) := by
  induction seated with
  | nil => rfl
  | cons here _ ih =>
      rw [List.filterMap_cons, List.filterMap_cons, here.start?, ih]

end Slot

namespace TemplateInstance

variable {scene after : Scene σ} {shared : SharedTemplate} {shown : TemplateInstance} {fragment : NodeId} {texts : List String}

/-- The parts of a new instance keep apart if its slots do. Their end markers are all new. -/
theorem create_apart (sound : scene.tree.WellFormed) (separate : (shared.template.slots.filterMap Slot.markerIndex?).Nodup)
    (tidy : shared.template.Tidy)
    (fits : ∀ slot ∈ shared.template.slots, slot.Fits scene.tree (scene.tree.subtree shared.template.fragment).descendants) :
    (create shared : RenderM σ (TemplateInstance × NodeId)).Leads scene
      (fun made after => after.tree.WellFormed ∧ Part.Apart after.tree made.1.parts ∧
        (made.1.parts.filterMap Part.start?).Disjoint made.1.ends ∧
        made.1.parts.length = shared.template.slots.length)
      fun _ _ => True := by
  apply ((create_made sound shared).both (create_fresh shared sound tidy)).mono ?_ fun _ _ _ => trivial
  rintro ⟨shown, fragment⟩ after ⟨⟨-, -, -, made⟩, -, -, places⟩
  obtain ⟨middle, grafted, furnished⟩ := made.furnished
  have kinds := grafted.kinds_descendants sound
  have distinct := Slot.nodup_marks (Subtree.nodup_descendants_renumber scene.tree.size
    (scene.tree.subtree shared.template.fragment)) separate
  generalize (scene.tree.subtree shared.template.fragment).renumber scene.tree.size = copy at made grafted furnished kinds distinct
  have seated := made.seated distinct
  have starts := Slot.starts_eq seated
  have inside : ∀ id ∈ copy.descendants, id < middle.size :=
    fun id member => grafted.spelled.lt_size (Subtree.mem_nodes_of_descendant member)
  have still : ∀ id ∈ copy.descendants, middle.kindOf id = after.tree.kindOf id :=
    fun id member => (furnished.kindOf id (inside id member) (List.forall_mem_nil _)).symm
  rw [List.map_congr_left still] at kinds
  refine ⟨furnished.sound, ⟨?_, ?_, places⟩, ?_, seated.length_eq.symm⟩
  · intro part member
    obtain ⟨slot, listed, here⟩ := exists_left_of_forall₂ seated member
    exact here.ready ((fits slot listed).of_kinds kinds)
  · rw [starts]
    exact distinct
  · intro start first last
    rw [starts, List.mem_filterMap] at first
    obtain ⟨slot, -, found⟩ := first
    have old : start < middle.size := inside start (Slot.mem_of_mark? found)
    rw [grafted.size] at old
    rw [made.ends, List.mem_range'_1] at last
    exact Nat.not_lt.2 last.1 old

theorem assign_eq (client : Client σ) (length : texts.length = shown.parts.length) :
    shown.assign client (texts.map .text) =
      (Part.commitEach (shown.parts.zipWith (fun part data => (part.stage (.text data), Render.text data)) texts)).map
        fun parts => { shown with parts } := by
  have count : (Value.renderings client (texts.map .text)).length = shown.parts.length := by
    rw [Value.renderings_eq_map, List.length_map, List.length_map, length]
  rw [assign, update, if_pos count, Value.renderings_eq_map, List.map_map, List.zipWith_map_right]
  rfl

/-- Giving a new instance texts. If its slots keep apart and suit their nodes, this goes well. Each part then shows
    its text, no two parts own a node in common, and the tree is as it was but for the texts behind the start
    markers and the attributes that the parts are for. -/
theorem assign_texts (client : Client σ) (sound : scene.tree.WellFormed)
    (separate : (shared.template.slots.filterMap Slot.markerIndex?).Nodup) (tidy : shared.template.Tidy)
    (fits : ∀ slot ∈ shared.template.slots, slot.Fits scene.tree (scene.tree.subtree shared.template.fragment).descendants)
    (made : (create shared).runOn scene = (.ok (shown, fragment), after)) (length : texts.length = shared.template.slots.length) :
    ∃ final, (shown.assign client (texts.map .text)).runOn after =
        (({ shown with parts := shown.parts.zipWith (fun part data => part.showing data) texts }, .ok ()), final) ∧
      List.Forall₂ (Part.Shows final.tree) texts shown.parts ∧
      shown.parts.Pairwise (fun one two => (one.region final.tree).Disjoint (two.region final.tree)) ∧
      after.tree.Furnished final.tree (shown.parts.filterMap Part.start?) (shown.parts.filterMap Part.place?) := by
  obtain ⟨sound, apart, ends, count⟩ := (create_apart sound separate tidy fits).ok made
  have length : texts.length = shown.parts.length := length.trans count.symm
  have leads : (shown.assign client (texts.map .text)).orThrow.Leads after
      (fun new final => new = { shown with parts := shown.parts.zipWith (fun part data => part.showing data) texts } ∧
        after.tree.Furnished final.tree (shown.parts.filterMap Part.start?) (shown.parts.filterMap Part.place?) ∧
        List.Forall₂ (Part.Shows final.tree) texts shown.parts) fun _ _ => False := by
    rw [assign_eq client length, leads_orThrow_map]
    apply (Part.commitEach_shows sound apart length).imp ?_
    rintro _ final ⟨rfl, rest⟩
    exact ⟨rfl, rest⟩
  obtain ⟨_, final, ran, rfl, furnished, shows⟩ := leads.attempted
  refine ⟨final, ran, shows, ?_, furnished⟩
  apply Part.regions_disjoint furnished.sound shows ?_ apart.starts ends
  intro id member
  have marker := apart.markers id member
  rw [furnished.isMarker (Tree.lt_size_of_kindOf (Tree.isMarker_iff.1 marker)), marker]

end TemplateInstance

namespace Template.Example

/-- A fragment with one marker, which two slots take content at. -/
def doubled : Tree := .perform .empty [.createFragment, .createComment "", .appendChild 0 1]

/-- Making an instance goes well, and its first values fail in the host. -/
example : ((do
    let (shown, _) ← TemplateInstance.create ⟨0, ⟨0, [.node 0, .node 0]⟩⟩
    let _ ← (shown.update (["a", "b"].map fun data => ⟨.text data, Render.text data⟩)).orThrow : RenderM Unit Unit).runOn
    (.onTree doubled ())).1 = .error (.host (.notChild 5 2)) := by decide +kernel

end Template.Example

end DomParts
