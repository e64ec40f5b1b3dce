import LayeredGraph.Proofs.Graph.Symmetry

/-! Checkpoints. An overlay is packed into what grouping its accepted pairs over its nodes gives,
whatever was appended to it, so a checkpoint that is accepted seals those pairs: every node's list
grows by the other ends of its pairs, and the overlay starts afresh over the new level. -/
namespace LayeredGraph

open LevelData

theorem PendingLists.edges_eq_edgesAt (lists : PendingLists) (node : NodeId) :
    lists.edges node = lists.edgesAt node.toNat := by
  induction lists with
  | nil => rfl
  | cons first rest ih =>
    obtain ⟨owner, edges⟩ := first
    rw [PendingLists.edges, List.lookup_cons, edgesAt, ← ih]
    by_cases same : owner = node
    · subst same
      simp
    · have differ : owner.toNat ≠ node.toNat := mt NodeId.toNat_inj.1 same
      rw [if_neg differ, beq_false_of_ne (Ne.symm same)]
      rfl

namespace Overlay

section Gathers

variable {overlay : Overlay} {pairs : List (NodeId × NodeId)}

/-- A node has as many pending edges as pairs that it owns. -/
theorem Gathers.pendingDegree (h : overlay.Gathers pairs) (direction : Direction)
    (node : NodeId) :
    overlay.pendingDegree direction node = (row direction pairs node.toNat).length := by
  rw [Overlay.pendingDegree, Overlay.edges, PendingLists.edges_eq_edgesAt, ← h.targets direction,
    PendingLists.targetsAt, List.length_map]

theorem Gathers.pendingDegree_le (h : overlay.Gathers pairs) (direction : Direction)
    (node : NodeId) : overlay.pendingDegree direction node ≤ pairs.length := by
  rw [h.pendingDegree, row, List.length_map]
  exact List.length_filter_le _ _

/-- Where no node has more pending edges than a degree can say, all rows are short. -/
theorem Gathers.short (h : overlay.Gathers pairs)
    (few : ∀ direction node, overlay.pendingDegree direction node < UInt32.size)
    (direction : Direction) (i : Nat) : Short (row direction pairs i) := by
  by_cases inside : i < UInt64.size
  · have degree := few direction (.ofNat i)
    rw [h.pendingDegree, NodeId.toNat_ofNat inside] at degree
    exact degree
  · have none : row direction pairs i = [] := by
      apply row_eq_nil
      rintro pair - rfl
      exact inside (owner direction pair).toNat_lt
    rw [none]
    exact Nat.zero_lt_succ _

theorem Gathers.not_short_iff (h : overlay.Gathers pairs) :
    (¬∀ direction i, Short (row direction pairs i)) ↔
      ∃ direction node, UInt32.size ≤ overlay.pendingDegree direction node := by
  constructor
  · intro long
    apply Classical.byContradiction
    intro few
    simp only [not_exists, Nat.not_le] at few
    exact long (h.short few)
  · rintro ⟨direction, node, many⟩ short
    rw [h.pendingDegree] at many
    exact Nat.not_lt.2 many (short direction node.toNat)

end Gathers

end Overlay

namespace Graph

/-- A checkpoint that is accepted seals what the overlay packs, and starts the overlay afresh over
the nodes of the new level. -/
theorem checkpoint_of_ok {graph after : Graph} {overlay left : Overlay} {handle : LevelHandle}
    (accepted : graph.checkpoint overlay = (.ok handle, after, left)) :
    ∃ data, overlay.levelData = .ok data ∧
      graph.sealLevel data.out data.inc = (.ok handle, after) ∧ left = .ofBase handle.maxNodes := by
  have outcome := graph.checkpoint_outcome overlay
  rw [accepted] at outcome
  cases outcome with
  | added _ packed built => exact ⟨_, packed, sealLevel_of_ok built, rfl⟩

/-- Sealing appends to every node's list what the new contents record for it. -/
theorem Holds.drained_sealLevel {graph after : Graph} {contents : List (PerDirection LevelData)}
    (held : graph.Holds contents) {data : PerDirection LevelData} {handle : LevelHandle}
    (sealed : graph.sealLevel data.out data.inc = (.ok handle, after))
    (direction : Direction) (node : NodeId) :
    after.snapshot.drained direction node =
        graph.snapshot.drained direction node ++ (data.get direction).recorded node ∧
      (node.toNat < handle.maxNodes → ∃ cursor, after.snapshot.begin direction node = .ok cursor ∧
        after.snapshot.drained direction node = cursor.targets) := by
  rcases graph.sealLevel_cases data.out data.inc with ⟨next, built, answer⟩ | ⟨e, -, refused⟩
  · obtain ⟨rfl, rfl⟩ : newest next = handle ∧ Graph.publishing next = after := by
      simpa [answer] using sealed
    have later := held.publishing built
    refine ⟨?_, ?_⟩
    · rw [later.drained_recorded, held.drained_recorded, List.flatMap_append,
        List.flatMap_singleton]
    · intro inside
      obtain ⟨cursor, opened, -⟩ := later.begin_eq_ok direction inside
      have opened : (Graph.publishing next).snapshot.begin direction node = .ok cursor := opened
      exact ⟨cursor, opened, by rw [Snapshot.drained, opened]⟩
  · simp [refused] at sealed

/-- Over whatever base and after any appends, accepted or refused, as long as no node has more
pending edges than a degree can say, an overlay is packed into what grouping the accepted pairs
over its nodes gives. On every graph a checkpoint that is accepted then is the sealing of these
groups: every node's list is prolonged by the other ends of its pairs in the order in which they
were added, and the overlay is left empty over the nodes of the new level. -/
theorem checkpoint_seals_pairs (base : Nat) (appends : List Overlay.Append)
    (few : ∀ direction node,
      ((Overlay.ofBase base).appendAll appends).pendingDegree direction node < UInt32.size) :
    let overlay := (Overlay.ofBase base).appendAll appends
    let pairs := (Overlay.ofBase base).acceptedAll appends
    ∃ out inc,
      ofEdges overlay.maxNodes pairs .out = .ok (.ok out) ∧
      ofEdges overlay.maxNodes pairs .inc = .ok (.ok inc) ∧
      overlay.levelData = .ok ⟨out, inc⟩ ∧
      ∀ calls handle after left,
        let graph := (GraphRun.ofCalls calls).graph
        graph.checkpoint overlay = (.ok handle, after, left) →
          graph.sealLevel out inc = (.ok handle, after) ∧
          (∀ direction node,
            after.snapshot.drained direction node =
              graph.snapshot.drained direction node ++ row direction pairs node.toNat ∧
            (node.toNat < handle.maxNodes →
              ∃ cursor, after.snapshot.begin direction node = .ok cursor ∧
                after.snapshot.drained direction node = cursor.targets)) ∧
          left.isEmpty = true ∧ left.baseNodes = handle.maxNodes ∧
          left.maxNodes = handle.maxNodes ∧
          ∀ direction node, left.edges direction node = [] := by
  intro overlay pairs
  have gathers : overlay.Gathers pairs := Overlay.gathers_appendAll base appends
  have short := gathers.short few
  have countable (direction : Direction) : Countable overlay.maxNodes direction pairs :=
    countable_of_lt (gathers.inside direction)
  have packed : overlay.levelData = .ok (groupedBoth overlay.maxNodes pairs) :=
    gathers.levelData.trans (groupBoth_eq_ok_iff.2 ⟨short, rfl⟩)
  refine ⟨grouped overlay.maxNodes .out pairs, grouped overlay.maxNodes .inc pairs,
    ofEdges_eq_ok_iff.2 ⟨countable .out, short .out, rfl⟩,
    ofEdges_eq_ok_iff.2 ⟨countable .inc, short .inc, rfl⟩, packed, ?_⟩
  intro calls handle after left graph accepted
  have held : graph.Holds (GraphRun.ofCalls calls).added := GraphRun.holds_ofCalls calls
  obtain ⟨data, offered, sealed, fresh⟩ := checkpoint_of_ok accepted
  obtain rfl := Except.ok.inj (packed.symm.trans offered)
  refine ⟨sealed, ?_, ?_⟩
  · intro direction node
    obtain ⟨grown, opened⟩ := held.drained_sealLevel sealed direction node
    rw [get_groupedBoth, recorded_grouped (short direction)] at grown
    exact ⟨grown, opened⟩
  · subst fresh
    refine ⟨by simp [Overlay.isEmpty, Overlay.addsNodes, Overlay.ofBase], rfl, rfl, ?_⟩
    intro direction node
    rw [Overlay.edges, Overlay.ofBase, PerDirection.get_both]
    rfl

/-- Appends with a refused one and a new node among them, over a graph with one level. -/
theorem checkpoint_seals_pairs_over_level :
    let appends : List Overlay.Append := [.edge ⟨1⟩ ⟨0⟩, .edge ⟨0⟩ ⟨2⟩, .node, .edge ⟨1⟩ ⟨2⟩]
    let calls : List GraphCall := [.sealLevel ⟨[.empty, ⟨.sealed 0, 1⟩], [⟨1⟩]⟩ ⟨[], []⟩]
    let graph := (GraphRun.ofCalls calls).graph
    let overlay := (Overlay.ofBase 2).appendAll appends
    let after := (graph.checkpoint overlay).2.1
    (∀ direction node, overlay.pendingDegree direction node < UInt32.size) ∧
    graph.checkpoint overlay = (.ok ⟨1, 3⟩, after, .ofBase 3) ∧
    after.snapshot.drained .out ⟨1⟩ = graph.snapshot.drained .out ⟨1⟩ ++ [⟨0⟩, ⟨2⟩] := by
  intro appends calls graph overlay after
  have few : ∀ direction node, overlay.pendingDegree direction node < UInt32.size := by
    intro direction node
    have gathers : overlay.Gathers _ := Overlay.gathers_appendAll 2 appends
    exact Nat.lt_of_le_of_lt (gathers.pendingDegree_le direction node) (by decide)
  have accepted : graph.checkpoint overlay = (.ok ⟨1, 3⟩, after, .ofBase 3) := rfl
  obtain ⟨out, inc, -, -, -, sealed⟩ := checkpoint_seals_pairs 2 appends few
  exact ⟨few, accepted, (((sealed calls _ _ _ accepted).2.1) .out ⟨1⟩).1⟩

end Graph

end LayeredGraph
