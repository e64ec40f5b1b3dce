import LayeredGraph.Proofs.Graph.Growth
import LayeredGraph.Proofs.Hint.Worker

/-! Hints for a node's own edges. The planner asks each level for the range of the node and passes
over the empty ones; a cursor walks from level to level. Over all levels both come to the same edges
in the same order, so what the hints cover is what a traversal of the node reads. -/
namespace LayeredGraph

/-- The hints for the edges of a node in some levels, its range in each where it has any. -/
def edgeHints (node : NodeId) (levels : List Level) : List Hint :=
  (levels.filter fun level => level.degree node ≠ 0).map fun level => ⟨level, level.edgeRange node⟩

theorem Level.isEmpty_edgeRange_iff (level : Level) (node : NodeId) :
    (level.edgeRange node).isEmpty = true ↔ level.degree node = 0 := by
  have length := level.length_edgeRange node
  rw [EdgeRange.isEmpty, decide_eq_true_iff, ← UInt32.toNat_inj, ← length]
  exact Nat.sub_eq_zero_iff_le.symm

section Levels

variable (node : NodeId) (levels : List Level)

/-- A level adds its own hint, or none if the node has no edges there. -/
theorem edgeHints_cons (level : Level) :
    edgeHints node (level :: levels) = Planner.ownHints node level ++ edgeHints node levels := by
  have empty := level.isEmpty_edgeRange_iff node
  rw [Planner.ownHints, edgeHints, edgeHints]
  by_cases none : level.degree node = 0
  · rw [if_pos (empty.2 none), List.filter_cons_of_neg (by simp [none]), List.nil_append]
  · rw [if_neg (mt empty.1 none), List.filter_cons_of_pos (by simp [none]), List.map_cons]
    rfl

/-- The planner passes over the levels in which the node has no edges. -/
theorem flatMap_ownHints : levels.flatMap (Planner.ownHints node) = edgeHints node levels := by
  induction levels with
  | nil => rfl
  | cons level levels ih => rw [List.flatMap_cons, ih, edgeHints_cons]

theorem edges_walk (node : NodeId) (level : Level) :
    (level.walk node).map (·.1) = (level.edgeRange node).numbers.map EdgeRef.sealed := by
  rw [Level.walk, Level.between, List.map_map]
  rfl

/-- Hints cover the edges that a traversal of the same levels gives, in its order. -/
theorem edges_edgeHints :
    ((edgeHints node levels).flatMap (·.range.numbers)).map EdgeRef.sealed =
      (levels.flatMap (·.walk node)).map (·.1) := by
  induction levels with
  | nil => rfl
  | cons level levels ih =>
    rw [edgeHints_cons, List.flatMap_append, List.map_append, ih, List.flatMap_cons,
      List.map_append, edges_walk, Planner.ownHints]
    split
    · next empty =>
      have none : (level.edgeRange node).numbers = [] := by
        rw [EdgeRange.numbers, EdgeRange.length, level.length_edgeRange,
          (level.isEmpty_edgeRange_iff node).1 empty]
        rfl
      rw [none]
      rfl
    · rw [List.flatMap_singleton]

theorem totalBytes_edgeHints :
    Hint.totalBytes (edgeHints node levels) = 8 * Level.totalDegree node levels := by
  induction levels with
  | nil => rfl
  | cons level levels ih =>
    have length : (level.edgeRange node).length = (level.degree node).toNat :=
      level.length_edgeRange node
    rw [edgeHints_cons, Hint.totalBytes_append, ih, Level.totalDegree, Nat.mul_add, ← length,
      Planner.ownHints]
    congr 1
    split
    · next empty =>
      rw [length, (level.isEmpty_edgeRange_iff node).1 empty]
      rfl
    · exact Nat.mul_comm _ _

theorem length_edgeHints :
    (edgeHints node levels).length = levels.countP (fun level => level.degree node ≠ 0) := by
  rw [edgeHints, List.length_map, List.countP_eq_length_filter]

end Levels

/-- The plan for a node's own edges has a hint for each selected level in which it has any, unless
the node is not covered. -/
theorem Planner.fullPlan_nodeOnly {planner : Planner} (policy : planner.policy = .nodeOnly)
    (snapshot : Snapshot) (request : Request) :
    planner.fullPlan snapshot request =
      if request.node.toNat < (snapshot.stack request.direction).maxNodes then
        edgeHints request.node (planner.selectedLevels (snapshot.stack request.direction))
      else [] := by
  rw [Planner.fullPlan, policy, flatMap_ownHints]

/-- Of a request for a node and its own edges, if it is not too old, a worker makes one hint for
each selected level in which the node has edges, namely the range of the node there, and no other;
for a node that the graph does not have it makes none. If it looks at all levels, the hints cover
the edges that a traversal of the node gives, in the same order; there are as many of them as levels
with edges of the node, and if all of them work their bytes are those of all its edges. -/
theorem Worker.node_hints_cover_edges (calls : List GraphCall) (worker : Worker)
    (request : Request) (current : UInt32) (policy : worker.planner.policy = .nodeOnly)
    (fresh : worker.isStale request current = false) :
    let snapshot := (GraphRun.ofCalls calls).graph.snapshot
    let levels := (snapshot.stack request.direction).levels.toList
    (snapshot.maxNodes ≤ request.node.toNat →
      worker.process snapshot request current = (.hinted 0 0, worker)) ∧
    (request.node.toNat < snapshot.maxNodes →
      let selected := if worker.planner.allLevels then levels else levels.take 1
      let hints := edgeHints request.node selected
      let issued := worker.outlet.issueAll hints
      worker.process snapshot request current =
        (.hinted hints.length issued.1, { worker with outlet := issued.2 }) ∧
      (worker.planner.allLevels = true →
        (∃ cursor edges, snapshot.begin request.direction request.node = .ok cursor ∧
          cursor.Gives edges ∧
          (hints.flatMap (·.range.numbers)).map EdgeRef.sealed = edges.map (·.1)) ∧
        hints.length = levels.countP (fun level => level.degree request.node ≠ 0) ∧
        ((∀ number hint, worker.outlet.sink.succeeds number hint = true) →
          ∃ degree, snapshot.degree request.direction request.node = .ok degree ∧
            issued.1 = 8 * degree))) := by
  intro snapshot levels
  have held : (GraphRun.ofCalls calls).graph.Holds _ := GraphRun.holds_ofCalls calls
  have covered : (snapshot.stack request.direction).maxNodes = snapshot.maxNodes :=
    held.stack_maxNodes_eq request.direction
  have other : worker.planner.policy ≠ .sequential := by rw [policy]; nofun
  have outcome : worker.process snapshot request current = _ := process_of_ne_sequential other fresh
  rw [Planner.fullPlan_nodeOnly policy, covered] at outcome
  constructor
  · intro unknown
    rw [if_neg (Nat.not_lt.2 unknown)] at outcome
    exact outcome
  · intro known selected hints issued
    rw [if_pos known] at outcome
    refine ⟨outcome, fun all => ?_⟩
    have whole : hints = edgeHints request.node levels := by
      simp only [hints, selected, all, if_true]
    rw [whole]
    refine ⟨?_, length_edgeHints _ _, fun works => ?_⟩
    · obtain ⟨cursor, opened, gives⟩ : (snapshot.stack request.direction).Gives request.node _ :=
        ((held.levels request.direction).sound.gives_iff).2 ⟨covered ▸ known, rfl⟩
      exact ⟨cursor, _, opened, gives, edges_edgeHints _ _⟩
    · have bytes : issued.1 = Hint.totalBytes hints := Outlet.issueAll_of_succeeds works hints
      refine ⟨_, held.snapshot_degree request.direction known, ?_⟩
      rw [bytes, whole, totalBytes_edgeHints]
      rfl

/-- A node with edges in the first and the last of three levels: two hints, for the three edges that
a cursor gives. -/
theorem Worker.node_hints_cover_edges_across_empty_level :
    let calls : List GraphCall := [.sealLevel ⟨[⟨.sealed 0, 1⟩, .empty], [⟨1⟩]⟩ (.empty 2),
      .sealLevel (.empty 1) (.empty 1), .sealLevel ⟨[⟨.sealed 0, 2⟩], [⟨1⟩, ⟨0⟩]⟩ (.empty 1)]
    let snapshot := (GraphRun.ofCalls calls).graph.snapshot
    let worker := Worker.ofOptions { allLevels := true } (.ofSink .recording .silent)
    let after := worker.process snapshot ⟨⟨0⟩, 0, .out⟩ 3
    after.1 = .hinted 2 24 ∧ after.2.recorded = #[⟨0, 0, 8⟩, ⟨2, 0, 16⟩] ∧
    (∃ cursor edges, snapshot.begin .out ⟨0⟩ = .ok cursor ∧ cursor.Gives edges ∧
      edges.map (·.1) = [.sealed 0, .sealed 1, .sealed 2]) ∧
    worker.process snapshot ⟨⟨2⟩, 0, .out⟩ 3 = (.hinted 0 0, worker) := by
  intro calls snapshot worker after
  obtain ⟨-, known⟩ := node_hints_cover_edges calls worker ⟨⟨0⟩, 0, .out⟩ 3 rfl rfl
  obtain ⟨unknown, -⟩ := node_hints_cover_edges calls worker ⟨⟨2⟩, 0, .out⟩ 3 rfl rfl
  obtain ⟨outcome, covered⟩ := known (by decide)
  obtain ⟨⟨cursor, edges, opened, gives, same⟩, -⟩ := covered rfl
  have outcome : after = _ := outcome
  refine ⟨?_, ?_, ⟨cursor, edges, opened, gives, same.symm.trans (by decide)⟩, unknown (by decide)⟩
  · rw [outcome]
    decide
  · rw [outcome]
    decide

end LayeredGraph
