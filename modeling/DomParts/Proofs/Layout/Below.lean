import DomParts.Proofs.Layout.Instance
import DomParts.Proofs.Tree.Spelling

/-! # What lies below a part

All nodes of a part's content lie below the nodes between its markers, and what lies below them is nobody
else's. So committing one part of an instance leaves everything below the other parts as it is.
-/

namespace DomParts.Layout

open Subtree (nodesOfAll spotsOfAll top_or_child spot_mem)

variable {premises : Premises} {tree : Tree} {content : Content} {inner owned : List NodeId}

/-- The nodes of a clone lie below its topmost nodes, since each of the others has its parent in the clone. -/
theorem clone_below (sound : tree.WellFormed) {forest : List Subtree} {fittings : List Fitting}
    (children : ∀ spot ∈ spotsOfAll forest, tree.childrenOf spot.id = weave fittings spot.children) :
    ∀ id ∈ nodesOfAll forest, ∃ top ∈ weave fittings (forest.map Subtree.id), tree.Ascends id top := by
  obtain ⟨rank, ranked⟩ := sound.ranked
  intro id member
  induction height : rank id using Nat.strongRecOn generalizing id with
  | ind height ih =>
      subst height
      rcases top_or_child member with top | ⟨spot, listed, child⟩
      · exact ⟨id, mem_weave.2 (.inl top), .refl⟩
      · have link : tree.parentOf id = some spot.id := sound.parentOf_of_mem (by
          rw [children spot listed]
          exact mem_weave.2 (.inl child))
        obtain ⟨top, above, way⟩ := ih _ (ranked _ _ link) spot.id (spot_mem listed) rfl
        exact ⟨top, above, .head link way⟩

theorem behind_below (sound : tree.WellFormed) {forest : List Subtree} {fittings : List Fitting}
    (children : ∀ spot ∈ spotsOfAll forest, tree.childrenOf spot.id = weave fittings spot.children) {start id : NodeId}
    (member : start ∈ nodesOfAll forest) (here : id ∈ behind fittings start) :
    ∃ top ∈ weave fittings (forest.map Subtree.id), tree.Ascends id top := by
  rcases top_or_child member with top | ⟨spot, listed, child⟩
  · exact ⟨id, mem_weave.2 (.inr ⟨_, top, here⟩), .refl⟩
  · have link : tree.parentOf id = some spot.id := sound.parentOf_of_mem (by
      rw [children spot listed]
      exact mem_weave.2 (.inr ⟨_, child, here⟩))
    obtain ⟨top, above, way⟩ := clone_below sound children spot.id (spot_mem listed)
    exact ⟨top, above, .head link way⟩

theorem Shows.owned_below (sound : tree.WellFormed) (shows : Shows premises tree content inner owned) :
    ∀ id ∈ owned, ∃ top ∈ inner, tree.Ascends id top := by
  induction shows with
  | empty => nofun
  | text => exact fun id member => ⟨id, member, .refl⟩
  | guest => exact fun id member => ⟨id, member, .refl⟩
  | absent => nofun
  | @row blocks content arranged marked shown strays complete ih =>
      intro id member
      obtain ⟨block, listed, claimed⟩ := List.mem_flatMap.1 member
      have among : ∀ {top}, top ∈ block.nodes → top ∈ blocks.flatMap Block.nodes := fun here =>
        List.mem_flatMap.2 ⟨block, listed, here⟩
      cases block with
      | stray other => exact ⟨id, among claimed, .refl⟩
      | plot plot =>
          simp only [Block.claimed, Plot.claimed, List.mem_cons] at claimed
          rcases claimed with rfl | rfl | owned
          · exact ⟨_, among (by simp [Block.nodes, Plot.nodes]), .refl⟩
          · exact ⟨_, among (by simp [Block.nodes, Plot.nodes]), .refl⟩
          · obtain ⟨top, here, way⟩ := ih plot listed id owned
            exact ⟨top, among (by simp [Block.nodes, Plot.nodes, here]), way⟩
  | @template shown original forest reach fittings shape planted parts fit distinct own kinds children marked
      nested ih =>
      have behind : ∀ plot, .node plot ∈ fittings → ∀ id ∈ plot.inner ++ [plot.part.stop],
          ∃ top ∈ weave fittings (forest.map Subtree.id), tree.Ascends id top := fun plot listed id member =>
        behind_below sound children (planted.mem_nodes (start_mem_reach fit listed)) (mem_behind.2 ⟨plot, listed, rfl, member⟩)
      intro id member
      rcases List.mem_append.1 member with node | claimed
      · exact clone_below sound children id node
      · obtain ⟨fitting, listed, claimed⟩ := List.mem_flatMap.1 claimed
        cases fitting with
        | label part => cases claimed
        | node plot =>
            rcases List.mem_cons.1 claimed with rfl | owned
            · exact behind plot listed _ (by simp)
            · obtain ⟨between, here, way⟩ := ih plot listed id owned
              obtain ⟨top, above, onward⟩ := behind plot listed between (by simp [here])
              exact ⟨top, above, way.trans onward⟩

variable {σ : Type}

namespace Realm.Bench

variable {realm : Realm σ} {world : World σ} {slack : Slack} {lines : List Line} {fittings ahead behind : List Fitting}
  {plot other : Plot} {top id : NodeId}

/-- A node part of an instance stands among the children of a node of the clone. -/
theorem encloses (bench : realm.Bench world lines fittings) (member : .node plot ∈ fittings) :
    ∃ line ∈ lines, ∃ front rest, world.tree.childrenOf line.id =
      front ++ plot.part.start :: (plot.inner ++ plot.part.stop :: rest) := by
  obtain ⟨ahead, behind, rfl⟩ := List.append_of_mem member
  obtain ⟨line, listed, first, later, split⟩ := bench.place
  have children := bench.listed_middle listed split
  rw [Plot.nodes, List.cons_append, List.append_assoc plot.inner, List.singleton_append] at children
  exact ⟨line, listed, _, _, children⟩

/-- What came into the clone for a part lies below children of the clone that came in for the part. -/
theorem claimed_below (bench : realm.Bench world lines fittings) (sound : realm.Sound world)
    (member : .node plot ∈ fittings) (shows : realm.Shows world slack plot.part.content plot.inner plot.owned)
    (claimed : id ∈ (Fitting.node plot).claimed) : ∃ top ∈ (Fitting.node plot).claimed,
      world.tree.Ascends id top ∧ ∃ line ∈ lines, world.tree.parentOf top = some line.id := by
  obtain ⟨line, listed, front, rest, children⟩ := bench.encloses member
  rcases List.mem_cons.1 claimed with rfl | owned
  · exact ⟨_, claimed, .refl, line, listed, sound.wellFormed.parentOf_of_mem (by simp [children])⟩
  · obtain ⟨top, inner, way⟩ := shows.owned_below sound.wellFormed id owned
    exact ⟨top, List.mem_cons_of_mem _ (bench.inside plot member top inner), way, line, listed,
      sound.wellFormed.parentOf_of_mem (by simp [children, inner])⟩

/-- No way up leads from the clone, or from what came in for another part, to a node that came in for a part. -/
theorem not_ascends (bench : realm.Bench world lines fittings) {line : Line} (listed : line ∈ lines)
    (claimed : top ∈ claimedBy fittings) : ¬ world.tree.Ascends line.id top := by
  obtain ⟨upward, closed, above, outside⟩ := bench.apart
  intro way
  have up : upward top := by
    clear claimed
    induction way with
    | refl => exact above line listed
    | tail _ link ih => exact closed _ _ ih link
  exact (outside top up).1 claimed

end Realm.Bench

namespace Job

variable {job : Job σ} {now after : World σ} {ahead behind : List Fitting} {fitting : Fitting}
  {before : List (Rendering σ)} {leaves : List NodeId} {plot : Plot} {top : NodeId}

/-- Committing one part leaves everything as it is that lies between the markers of the parts behind it. -/
theorem Mending.still (mending : job.Mending now ahead (fitting :: behind) before)
    (worked : job.Worked now after fitting leaves []) (sound : after.tree.WellFormed) (member : .node plot ∈ behind)
    (inner : top ∈ plot.inner) : after.tree.subtree top = now.tree.subtree top := by
  obtain ⟨touched, taken, headway, -⟩ := mending.headway
  obtain ⟨works, change, reach⟩ := worked.change
  have bench := headway.bench
  have here : .node plot ∈ ahead ++ fitting :: behind := by simp [member]
  have owned := bench.inside plot here top inner
  have claimed := Realm.Bench.claimed_of_owned here owned
  have wellFormed := headway.change.sound.wellFormed
  obtain ⟨line, listed, front, rest, children⟩ := bench.encloses here
  have above : now.tree.parentOf top = some line.id := wellFormed.parentOf_of_mem (by simp [children, inner])
  -- The clone is above, and what came in for another part is beside.
  have idle : ∀ id, now.tree.Ascends id top → ¬ works id := by
    intro id way touch
    rcases reach id touch with ⟨line, spot, rfl⟩ | among
    · have spot : line.without taken ∈ job.lines.map (Line.without taken) := List.mem_map_of_mem spot
      exact bench.not_ascends spot claimed way
    · cases fitting with
      | label part => cases among
      | node other =>
          have shows := mending.waiting other (List.mem_cons_self ..)
          obtain ⟨beside, there, up, line', listed', above'⟩ :=
            bench.claimed_below headway.change.sound (by simp) shows among
          have claimed' : beside ∈ claimedBy (ahead ++ .node other :: behind) :=
            List.mem_flatMap.2 ⟨.node other, by simp, there⟩
          rcases Relation.ReflTransGen.total_of_right_unique Tree.rightUnique_link way up with onward | onward
          · rcases Tree.ascends_head.1 onward with rfl | ⟨parent, link, onward⟩
            · exact (bench.claims.2 top there).2 (Realm.Bench.claimed_of_owned member owned)
            · cases Tree.rightUnique_link link above
              exact bench.not_ascends listed claimed' onward
          · rcases Tree.ascends_head.1 onward with rfl | ⟨parent, link, onward⟩
            · exact (bench.claims.2 beside there).2 (Realm.Bench.claimed_of_owned member owned)
            · cases Tree.rightUnique_link link above'
              exact bench.not_ascends listed' claimed onward
  refine wellFormed.subtree_stays sound (bench.present top claimed) fun id way inside => ?_
  have spared := change.spared id inside (idle id way)
  exact ⟨spared.kindOf, by simpa using spared.childrenOf⟩

end Job

end DomParts.Layout
