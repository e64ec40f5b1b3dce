import LayeredGraph.Proofs.Graph.Traversal

/-! Graphs built from edge pairs, sealed at once or through overlays. Both directions group the
same pairs, so each of them records every pair once, and the two agree on how often an edge leads
from one node to another. -/
namespace LayeredGraph

open LevelData

namespace LevelData

/-- Both ends of a pair are nodes that the level covers. -/
theorem owner_lt_coverage (nodes : Nat) {pairs : List (NodeId × NodeId)}
    (direction : Direction) {pair : NodeId × NodeId} (h : pair ∈ pairs) :
    (owner direction pair).toNat < coverage (groupedBoth nodes pairs) := by
  have table := nodeCount_get_le_coverage (groupedBoth nodes pairs) direction
  rw [get_groupedBoth, nodeCount_grouped] at table
  exact Nat.lt_of_lt_of_le (owner_lt_span nodes h) table

/-- Contents that record some pairs: in each direction the nodes' targets are the rows of the
pairs, and there is one edge for each pair. -/
structure Records (contents : List (PerDirection LevelData)) (pairs : List (NodeId × NodeId)) :
    Prop where
  recorded : ∀ direction node,
    contents.flatMap (fun data => (data.get direction).recorded node) =
      row direction pairs node.toNat
  edges : ∀ direction, totalEdges (contents.map (·.get direction)) = pairs.length
  covered : ∀ direction, ∀ pair ∈ pairs, (owner direction pair).toNat < largestTable contents

theorem records_nil : Records [] [] := ⟨fun _ _ => rfl, fun _ => rfl, nofun⟩

theorem Records.append {contents : List (PerDirection LevelData)}
    {pairs more : List (NodeId × NodeId)} (h : Records contents pairs)
    (short : ∀ direction i, Short (row direction more i)) (nodes : Nat) :
    Records (contents ++ [groupedBoth nodes more]) (pairs ++ more) := by
  refine ⟨?_, ?_, ?_⟩
  · intro direction node
    rw [List.flatMap_append, h.recorded, List.flatMap_singleton, get_groupedBoth,
      recorded_grouped (short direction), row_append]
  · intro direction
    rw [List.map_append, totalEdges_append, h.edges, List.map_singleton, get_groupedBoth,
      totalEdges, edgeCount_grouped, totalEdges, Nat.add_zero, List.length_append]
  · intro direction pair member
    rw [largestTable_append]
    rcases List.mem_append.1 member with member | member
    · exact Nat.lt_of_lt_of_le (h.covered direction pair member) (Nat.le_max_left _ _)
    · have inside := owner_lt_coverage nodes direction member
      exact Nat.lt_of_lt_of_le inside (Nat.le_trans (Nat.le_max_left _ _) (Nat.le_max_right _ _))

end LevelData

/-- A call that adds a level of edge pairs: pairs grouped for both directions, or an overlay after
some appends. -/
inductive EdgeCall where
  | sealEdges (nodes : Nat) (edges : List (NodeId × NodeId))
  | checkpoint (base : Nat) (appends : List Overlay.Append)
  deriving DecidableEq, Repr

namespace EdgeCall

/-- The pairs that a call offers. -/
def pairs : EdgeCall → List (NodeId × NodeId)
  | .sealEdges _ edges => edges
  | .checkpoint base appends => (Overlay.ofBase base).acceptedAll appends

/-- The call on the graph, once the edges of both directions are grouped. -/
def toGraph : EdgeCall → Except Overflow (Except Error GraphCall)
  | .sealEdges nodes edges => do
      let out ← ofEdges nodes edges .out
      let inc ← ofEdges nodes edges .inc
      return do return .sealLevel (← out) (← inc)
  | .checkpoint base appends => return .ok (.checkpoint ((Overlay.ofBase base).appendAll appends))

/-- Grouping both directions faults where one of them does, and else the rows of both are packed. -/
theorem toGraph_sealEdges (nodes : Nat) (edges : List (NodeId × NodeId)) :
    (sealEdges nodes edges).toGraph =
      if Countable nodes .out edges ∧ Countable nodes .inc edges then
        .ok ((groupBoth nodes edges).map fun data => .sealLevel data.out data.inc)
      else .error .sum := by
  rw [toGraph, ofEdges_eq, ofEdges_eq]
  by_cases outward : Countable nodes .out edges
  · by_cases inward : Countable nodes .inc edges
    · rw [if_pos outward, if_pos inward, if_pos ⟨outward, inward⟩, groupBoth]
      change Except.ok _ = Except.ok _
      cases packRows nodes edges .out with
      | error e => rfl
      | ok out => cases packRows nodes edges .inc <;> rfl
    · have broken : ¬(Countable nodes .out edges ∧ Countable nodes .inc edges) :=
        fun both => inward both.2
      rw [if_pos outward, if_neg inward, if_neg broken]
      rfl
  · have broken : ¬(Countable nodes .out edges ∧ Countable nodes .inc edges) :=
      fun both => outward both.1
    rw [if_neg outward, if_neg broken]
    rfl

/-- What reaches the graph are the offered pairs, grouped for both directions. -/
theorem contents_of_toGraph {call : EdgeCall} {sent : GraphCall}
    {data : PerDirection LevelData} (built : call.toGraph = .ok (.ok sent))
    (offered : sent.contents = .ok data) :
    ∃ nodes, (∀ direction i, Short (row direction call.pairs i)) ∧
      data = groupedBoth nodes call.pairs := by
  cases call with
  | sealEdges nodes edges =>
    rw [toGraph_sealEdges] at built
    split at built
    · cases both : groupBoth nodes edges with
      | error e => simp [both, Except.map] at built
      | ok grouped =>
        rw [both] at built
        obtain rfl := Except.ok.inj (Except.ok.inj built)
        obtain rfl := Except.ok.inj offered
        exact ⟨nodes, groupBoth_eq_ok_iff.1 both⟩
    · exact absurd built (by simp)
  | checkpoint base appends =>
    obtain rfl := Except.ok.inj (Except.ok.inj built)
    have levelData := (Overlay.gathers_appendAll base appends).levelData
    exact ⟨_, groupBoth_eq_ok_iff.1 (levelData.symm.trans offered)⟩

end EdgeCall

namespace Graph

/-- Groups the pairs of a call and adds them as a level. A fault strikes before the graph is
touched. -/
def perform (graph : Graph) (call : EdgeCall) :
    Except Overflow (Except Error LevelHandle × Graph) := do
  match ← call.toGraph with
  | .error e => return (.error e, graph)
  | .ok sent => return graph.call sent

theorem perform_cases {graph : Graph} {contents : List (PerDirection LevelData)}
    {pairs : List (NodeId × NodeId)} (held : graph.Holds contents)
    (recorded : Records contents pairs) (call : EdgeCall) :
    (∃ handle next data, graph.perform call = .ok (.ok handle, next) ∧
      next.Holds (contents ++ [data]) ∧ Records (contents ++ [data]) (pairs ++ call.pairs)) ∨
    (∃ e, graph.perform call = .ok (.error e, graph)) ∨
    graph.perform call = .error .sum := by
  unfold perform
  cases built : call.toGraph with
  | error fault => exact .inr (.inr rfl)
  | ok asked =>
    cases asked with
    | error e => exact .inr (.inl ⟨e, rfl⟩)
    | ok sent =>
      rcases graph.call_cases sent with ⟨data, next, offered, published, answer⟩ | ⟨e, answer⟩
      · obtain ⟨nodes, short, rfl⟩ := EdgeCall.contents_of_toGraph built offered
        exact .inl ⟨_, _, _, congrArg Except.ok answer, held.publishing published,
          recorded.append short nodes⟩
      · exact .inr (.inl ⟨e, congrArg Except.ok answer⟩)

/-- Pairs grouped for both directions can be sealed over any snapshot. -/
theorem exists_nextSnapshot_grouped (snapshot : Snapshot) {nodes : Nat}
    {edges : List (NodeId × NodeId)} (fits : Fits edges) :
    ∃ next, nextSnapshot snapshot (grouped nodes .out edges) (grouped nodes .inc edges) =
      .ok next := by
  apply exists_nextSnapshot
  intro direction
  change ∃ grown, (snapshot.stack direction).withLevel
    (sealedAs direction (groupedBoth nodes edges)) = .ok grown
  rw [Stack.withLevel_eq_ok_iff, nodeCount_sealedAs, sealedAs, get_groupedBoth]
  apply Sealable.padTo
  apply sealable_grouped (fits.short direction) fits.size
  intro pair member
  apply Nat.lt_of_lt_of_le _ (Nat.le_max_right _ _)
  -- The target in one direction is the owner in the other one.
  cases direction
  · exact owner_lt_coverage nodes .inc member
  · exact owner_lt_coverage nodes .out member

section Sealing

variable (graph : Graph) {nodes : Nat} {edges : List (NodeId × NodeId)} (fits : Fits edges)

include fits

/-- Pairs that fit are sealed if no sum leaves the words, and else sealing them faults. -/
theorem perform_sealEdges :
    if Countable nodes .out edges ∧ Countable nodes .inc edges then
      ∃ handle after, graph.perform (.sealEdges nodes edges) = .ok (.ok handle, after)
    else graph.perform (.sealEdges nodes edges) = .error .sum := by
  rw [perform, EdgeCall.toGraph_sealEdges]
  split
  · obtain ⟨next, built⟩ := @exists_nextSnapshot_grouped graph.current nodes edges fits
    rw [groupBoth_eq_ok_iff.2 ⟨fits.short, rfl⟩]
    exact ⟨newest next, publishing next, congrArg Except.ok (sealLevel_of_ok built)⟩
  · rfl

theorem sealEdges_of_ne_last (named : ∀ edge ∈ edges, edge.1 ≠ .last ∧ edge.2 ≠ .last) :
    ∃ handle after, graph.perform (.sealEdges nodes edges) = .ok (.ok handle, after) := by
  have outward : Countable nodes .out edges :=
    countable_of_ne_last fun edge member => (named edge member).1
  have inward : Countable nodes .inc edges :=
    countable_of_ne_last fun edge member => (named edge member).2
  have outcome := @perform_sealEdges graph nodes edges fits
  rwa [if_pos ⟨outward, inward⟩] at outcome

theorem sealEdges_of_last (word : nodes < UInt64.size)
    (ended : ∃ edge ∈ edges, edge.1 = .last ∨ edge.2 = .last) :
    graph.perform (.sealEdges nodes edges) = .error .sum := by
  obtain ⟨edge, member, last⟩ := ended
  have wraps : ¬(Countable nodes .out edges ∧ Countable nodes .inc edges) := by
    rintro ⟨outward, inward⟩
    rcases last with last | last
    · exact Nat.not_lt.2 (outward edge member last) word
    · exact Nat.not_lt.2 (inward edge member last) word
  have outcome := @perform_sealEdges graph nodes edges fits
  rwa [if_neg wraps] at outcome

end Sealing

end Graph

/-- A graph with the pairs of the levels that were added to it, in order. -/
structure EdgeRun where
  graph : Graph
  pairs : List (NodeId × NodeId)

namespace EdgeRun

/-- A call that succeeds adds the pairs that it offers. A call that faults leaves the graph as it
is. -/
def step (run : EdgeRun) (call : EdgeCall) : EdgeRun :=
  match run.graph.perform call with
  | .ok (.ok _, graph) => ⟨graph, run.pairs ++ call.pairs⟩
  | .ok (.error _, graph) => ⟨graph, run.pairs⟩
  | .error _ => run

/-- The run that some calls make from the empty graph. -/
def ofCalls (calls : List EdgeCall) : EdgeRun := calls.foldl step ⟨.empty, []⟩

/-- The levels of the graph record the pairs that were added. -/
def Holds (run : EdgeRun) : Prop :=
  ∃ contents, run.graph.Holds contents ∧ Records contents run.pairs

theorem Holds.step {run : EdgeRun} (h : run.Holds) (call : EdgeCall) : (run.step call).Holds := by
  obtain ⟨contents, held, recorded⟩ := h
  rcases Graph.perform_cases held recorded call with
    ⟨handle, next, data, answer, later, records⟩ | ⟨e, answer⟩ | answer
  · simp only [EdgeRun.step, answer]
    exact ⟨_, later, records⟩
  all_goals
    simp only [EdgeRun.step, answer]
    exact ⟨contents, held, recorded⟩

theorem Holds.foldl {run : EdgeRun} (h : run.Holds) (calls : List EdgeCall) :
    (calls.foldl EdgeRun.step run).Holds := by
  induction calls generalizing run with
  | nil => exact h
  | cons call calls ih => exact ih (h.step call)

theorem holds_ofCalls (calls : List EdgeCall) : (ofCalls calls).Holds := by
  have start : Holds ⟨.empty, []⟩ := ⟨[], Graph.holds_empty, records_nil⟩
  exact start.foldl calls

end EdgeRun

/-- The targets that draining a new cursor gives; none for a node that the snapshot lacks. -/
def Snapshot.drained (snapshot : Snapshot) (direction : Direction) (node : NodeId) :
    List NodeId :=
  match snapshot.begin direction node with
  | .ok cursor => cursor.targets
  | .error _ => []

theorem Cursor.Stands.targets {cursor : Cursor} {walk : List (EdgeRef × NodeId)}
    (h : cursor.Stands walk 0) : cursor.targets = walk.map (·.2) := by
  rw [Cursor.targets, (Cursor.drain_spec h.ready).1, h.rest, List.drop_zero]

/-- Draining a node gives what the levels recorded for it, also where none of them covers it. -/
theorem Graph.Holds.drained_recorded {graph : Graph} {contents : List (PerDirection LevelData)}
    (held : graph.Holds contents) (direction : Direction) (node : NodeId) :
    graph.snapshot.drained direction node =
      contents.flatMap fun data => (data.get direction).recorded node := by
  by_cases inside : node.toNat < graph.current.maxNodes
  · obtain ⟨cursor, opened, stands⟩ := held.begin_eq_ok direction inside
    rw [Snapshot.drained, Graph.snapshot, opened]
    simp only
    rw [stands.targets, targets_walkAll, List.flatMap_map]
  · have outside := Nat.not_lt.1 inside
    have refused := held.begin_eq_error direction outside
    rw [Snapshot.drained, Graph.snapshot, refused]
    simp only
    symm
    rw [List.flatMap_eq_nil_iff]
    intro data member
    apply recorded_of_nodeCount_le
    rw [held.current_maxNodes] at outside
    have table := nodeCount_get_le_coverage data direction
    have largest := coverage_le_largestTable member
    omega

/-- Draining a node gives the other ends of its pairs, in the order in which they were added. -/
theorem Graph.Holds.drained {graph : Graph} {contents : List (PerDirection LevelData)}
    {pairs : List (NodeId × NodeId)} (held : graph.Holds contents)
    (recorded : Records contents pairs) (direction : Direction) (node : NodeId) :
    graph.snapshot.drained direction node = row direction pairs node.toNat := by
  rw [held.drained_recorded, recorded.recorded]

namespace Graph

/-- However a graph was built from edge pairs, sealing more pairs succeeds as long as the last node
is no end of them, and faults if it is one; every node can be drained in both directions, and
between any two nodes both directions count exactly the pairs of the two that were added. -/
theorem directions_agree (calls : List EdgeCall) :
    let run := EdgeRun.ofCalls calls
    let snapshot := run.graph.snapshot
    (∀ nodes edges, Fits edges →
      ((∀ edge ∈ edges, edge.1 ≠ .last ∧ edge.2 ≠ .last) → ∃ handle after,
        run.graph.perform (.sealEdges nodes edges) = .ok (.ok handle, after)) ∧
      (nodes < UInt64.size → (∃ edge ∈ edges, edge.1 = .last ∨ edge.2 = .last) →
        run.graph.perform (.sealEdges nodes edges) = .error .sum)) ∧
    (∀ direction node, node.toNat < snapshot.maxNodes →
      ∃ cursor, snapshot.begin direction node = .ok cursor ∧
        snapshot.drained direction node = cursor.targets ∧
        cursor.drain.2.nextEdge = (none, cursor.drain.2)) ∧
    (∀ u v, (snapshot.drained .out u).count v = run.pairs.count (u, v) ∧
      (snapshot.drained .inc v).count u = run.pairs.count (u, v)) ∧
    ∀ direction, (snapshot.stack direction).edgeCount = run.pairs.length := by
  intro run snapshot
  obtain ⟨contents, held, recorded⟩ : run.Holds := EdgeRun.holds_ofCalls calls
  refine ⟨fun nodes edges fits => ⟨run.graph.sealEdges_of_ne_last fits,
    run.graph.sealEdges_of_last fits⟩, ?_, ?_, ?_⟩
  · intro direction node inside
    obtain ⟨cursor, opened, stands⟩ := held.begin_eq_ok direction inside
    refine ⟨cursor, opened, ?_, (Cursor.drain_spec stands.ready).2⟩
    have opened : snapshot.begin direction node = .ok cursor := opened
    rw [Snapshot.drained, opened]
  · intro u v
    have outward : snapshot.drained .out u = _ := held.drained recorded .out u
    have inward : snapshot.drained .inc v = _ := held.drained recorded .inc v
    rw [outward, inward, count_row_out, count_row_inc]
    exact ⟨rfl, rfl⟩
  · intro direction
    have total : (snapshot.stack direction).edgeCount = _ := (held.levels direction).edgeCount
    rw [total, totalEdges_sealedAs, recorded.edges]

theorem directions_agree_twice :
    let edges : List (NodeId × NodeId) := [(⟨0⟩, ⟨3⟩), (⟨0⟩, ⟨3⟩), (⟨3⟩, ⟨3⟩)]
    let run := EdgeRun.ofCalls [.sealEdges 1 edges, .checkpoint 4 [.node, .edge ⟨4⟩ ⟨0⟩]]
    (∃ handle after, run.graph.perform (.sealEdges 2 edges) = .ok (.ok handle, after)) ∧
    run.graph.perform (.sealEdges 2 [(⟨0⟩, .last)]) = .error .sum ∧
    (∃ cursor, run.graph.snapshot.begin .inc ⟨4⟩ = .ok cursor) ∧
    (run.graph.snapshot.drained .out ⟨0⟩).count ⟨3⟩ = 2 ∧
    (run.graph.snapshot.drained .inc ⟨0⟩).count ⟨4⟩ = 1 := by
  intro edges run
  obtain ⟨sealed, opened, counts, -⟩ :=
    directions_agree [.sealEdges 1 edges, .checkpoint 4 [.node, .edge ⟨4⟩ ⟨0⟩]]
  refine ⟨(sealed 2 edges (fits_of_length_lt (by decide))).1 (by decide),
    (sealed 2 _ (fits_of_length_lt (by decide))).2 (by decide) (by decide), ?_, ?_, ?_⟩
  · obtain ⟨cursor, begun, -⟩ := opened .inc ⟨4⟩ (by decide)
    exact ⟨cursor, begun⟩
  · rw [(counts ⟨0⟩ ⟨3⟩).1]
    decide
  · rw [(counts ⟨4⟩ ⟨0⟩).2]
    decide

/-- A pair with the last node for an end cannot be sealed: grouping it faults, although no node has
more than one edge. -/
theorem sealing_overflows_on_last_node :
    let edges : List (NodeId × NodeId) := [(.last, ⟨0⟩)]
    Fits edges ∧ Graph.empty.perform (.sealEdges 0 edges) = .error .sum ∧
    ¬∀ (calls : List EdgeCall) (nodes : Nat) (edges : List (NodeId × NodeId)), Fits edges →
      ∃ handle after, (EdgeRun.ofCalls calls).graph.perform (.sealEdges nodes edges) =
        .ok (.ok handle, after) := by
  intro edges
  have fits : Fits edges := fits_of_length_lt (by decide)
  have fault : Graph.empty.perform (.sealEdges 0 edges) = .error .sum := rfl
  refine ⟨fits, fault, fun always => ?_⟩
  obtain ⟨handle, after, sealed⟩ := always [] 0 edges fits
  exact absurd (fault.symm.trans sealed) (by simp)

end Graph

end LayeredGraph
