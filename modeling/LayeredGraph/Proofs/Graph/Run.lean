import LayeredGraph.Graph
import LayeredGraph.Proofs.Stack

/-! Runs of a graph. A call either adds one level in both directions and publishes the result, or
leaves the graph as it was. A run keeps a record of the contents that its levels were sealed from;
at every moment both stacks hold exactly these contents, padded to a common number of nodes. -/
namespace LayeredGraph

namespace LevelData

/-- The number of nodes that a level covers, that of its larger table. -/
def coverage (data : PerDirection LevelData) : Nat := max data.out.nodeCount data.inc.nodeCount

/-- What is sealed in a direction: the contents, with a table as long as the larger one. -/
def sealedAs (direction : Direction) (data : PerDirection LevelData) : LevelData :=
  (data.get direction).padTo (coverage data)

theorem nodeCount_get_le_coverage (data : PerDirection LevelData) (direction : Direction) :
    (data.get direction).nodeCount ≤ coverage data := by
  cases direction
  · exact Nat.le_max_left _ _
  · exact Nat.le_max_right _ _

@[simp] theorem nodeCount_sealedAs (direction : Direction) (data : PerDirection LevelData) :
    (sealedAs direction data).nodeCount = coverage data := by
  rw [sealedAs, nodeCount_padTo]
  exact Nat.max_eq_right (nodeCount_get_le_coverage data direction)

@[simp] theorem edgeCount_sealedAs (direction : Direction) (data : PerDirection LevelData) :
    (sealedAs direction data).edgeCount = (data.get direction).edgeCount := rfl

@[simp] theorem walk_padTo (data : LevelData) (nodes base : Nat) (node : NodeId) :
    (data.padTo nodes).walk base node = data.walk base node := by
  rw [walk, walk, recorded_padTo, entry_padTo]

/-- The largest number of nodes that any of some levels covers. -/
def largestTable : List (PerDirection LevelData) → Nat
  | [] => 0
  | data :: rest => max (coverage data) (largestTable rest)

theorem largestTable_append (xs ys : List (PerDirection LevelData)) :
    largestTable (xs ++ ys) = max (largestTable xs) (largestTable ys) := by
  induction xs with
  | nil => exact (Nat.zero_max _).symm
  | cons data xs ih => rw [List.cons_append, largestTable, largestTable, ih, Nat.max_assoc]

theorem coverage_le_largestTable {contents : List (PerDirection LevelData)}
    {data : PerDirection LevelData} (h : data ∈ contents) :
    coverage data ≤ largestTable contents := by
  induction contents with
  | nil => simp at h
  | cons first rest ih =>
    rw [largestTable]
    rcases List.mem_cons.1 h with rfl | h
    · exact Nat.le_max_left _ _
    · exact Nat.le_trans (ih h) (Nat.le_max_right _ _)

theorem coveredNodes_sealedAs (direction : Direction) (contents : List (PerDirection LevelData)) :
    coveredNodes (contents.map (sealedAs direction)) = largestTable contents := by
  induction contents with
  | nil => rfl
  | cons data rest ih => rw [List.map_cons, coveredNodes, ih, nodeCount_sealedAs, largestTable]

theorem totalEdges_sealedAs (direction : Direction) (contents : List (PerDirection LevelData)) :
    totalEdges (contents.map (sealedAs direction)) =
      totalEdges (contents.map (·.get direction)) := by
  induction contents with
  | nil => rfl
  | cons data rest ih =>
    rw [List.map_cons, List.map_cons, totalEdges, totalEdges, ih, edgeCount_sealedAs]

/-- Padding tables changes no walk. -/
theorem walkAll_sealedAs (direction : Direction) (base : Nat) (node : NodeId)
    (contents : List (PerDirection LevelData)) :
    walkAll base node (contents.map (sealedAs direction)) =
      walkAll base node (contents.map (·.get direction)) := by
  induction contents generalizing base with
  | nil => rfl
  | cons data rest ih =>
    rw [List.map_cons, List.map_cons, walkAll, walkAll, ih, sealedAs, walk_padTo]
    rfl

end LevelData

open LevelData

/-- A call that may add a level to a graph. -/
inductive GraphCall where
  | sealLevel (out inc : LevelData)
  | checkpoint (overlay : Overlay)
  deriving DecidableEq, Repr

/-- The contents that a call offers, if it can build them. -/
def GraphCall.contents : GraphCall → Except Error (PerDirection LevelData)
  | .sealLevel out inc => .ok ⟨out, inc⟩
  | .checkpoint overlay => overlay.levelData

namespace Graph

def call (graph : Graph) : GraphCall → Except Error LevelHandle × Graph
  | .sealLevel out inc => graph.sealLevel out inc
  | .checkpoint overlay => ((graph.checkpoint overlay).1, (graph.checkpoint overlay).2.1)

/-- The graph that publishes a snapshot. -/
def publishing (snapshot : Snapshot) : Graph := ⟨snapshot, snapshot.maxNodes⟩

/-- The handle of the newest level of a snapshot. -/
def newest (snapshot : Snapshot) : LevelHandle := ⟨snapshot.numLevels - 1, snapshot.maxNodes⟩

section Cases

variable {graph : Graph}

theorem sealLevel_of_ok {out inc : LevelData} {next : Snapshot}
    (built : nextSnapshot graph.current out inc = .ok next) :
    graph.sealLevel out inc = (.ok (newest next), publishing next) := by
  rw [sealLevel, built]
  rfl

theorem sealLevel_of_error {out inc : LevelData} {e : Error}
    (refused : nextSnapshot graph.current out inc = .error e) :
    graph.sealLevel out inc = (.error e, graph) := by
  rw [sealLevel, refused]

theorem sealLevel_cases (graph : Graph) (out inc : LevelData) :
    (∃ next, nextSnapshot graph.current out inc = .ok next ∧
      graph.sealLevel out inc = (.ok (newest next), publishing next)) ∨
    ∃ e, nextSnapshot graph.current out inc = .error e ∧
      graph.sealLevel out inc = (.error e, graph) := by
  cases built : nextSnapshot graph.current out inc with
  | error e => exact .inr ⟨e, rfl, sealLevel_of_error built⟩
  | ok next => exact .inl ⟨next, rfl, sealLevel_of_ok built⟩

/-- The overlay has new nodes over another number of nodes than the graph has. -/
def Collides (graph : Graph) (overlay : Overlay) : Prop :=
  overlay.addsNodes = true ∧ overlay.baseNodes ≠ graph.maxNodes

/-- The answer to an overlay whose new nodes were given out by a level as well. -/
def collision : Error := .invalid "overlay node ids collide with a newer level"

/-- What a checkpoint comes to, by the first of its checks that fails. -/
inductive Checkpointed (graph : Graph) (overlay : Overlay) :
    Except Error LevelHandle × Graph × Overlay → Prop
  | collides (collides : graph.Collides overlay) :
      Checkpointed graph overlay (.error collision, graph, overlay)
  | unpacked {e : Error} (apart : ¬graph.Collides overlay)
      (refused : overlay.levelData = .error e) :
      Checkpointed graph overlay (.error e, graph, overlay)
  | unsealed {data : PerDirection LevelData} {e : Error} (apart : ¬graph.Collides overlay)
      (packed : overlay.levelData = .ok data)
      (refused : nextSnapshot graph.current data.out data.inc = .error e) :
      Checkpointed graph overlay (.error e, graph, overlay)
  | added {data : PerDirection LevelData} {next : Snapshot} (apart : ¬graph.Collides overlay)
      (packed : overlay.levelData = .ok data)
      (built : nextSnapshot graph.current data.out data.inc = .ok next) :
      Checkpointed graph overlay (.ok (newest next), publishing next, .ofBase next.maxNodes)

theorem checkpoint_outcome (graph : Graph) (overlay : Overlay) :
    graph.Checkpointed overlay (graph.checkpoint overlay) := by
  have guard : (overlay.addsNodes && overlay.baseNodes != graph.maxNodes) = true ↔
      graph.Collides overlay := by
    rw [Bool.and_eq_true, bne_iff_ne, Collides]
  unfold checkpoint
  split
  · next collides => exact .collides (guard.1 collides)
  · next apart =>
    have apart := mt guard.2 apart
    cases packed : overlay.levelData with
    | error e => exact .unpacked apart packed
    | ok data =>
      rcases graph.sealLevel_cases data.out data.inc with
        ⟨next, built, answer⟩ | ⟨e, refused, answer⟩
      · simp only [answer]
        exact .added apart packed built
      · simp only [answer]
        exact .unsealed apart packed refused

/-- A call publishes a snapshot with the contents that it offers, or changes nothing. -/
theorem call_cases (graph : Graph) (call : GraphCall) :
    (∃ data next, call.contents = .ok data ∧
      nextSnapshot graph.current data.out data.inc = .ok next ∧
      graph.call call = (.ok (newest next), publishing next)) ∨
    ∃ e, graph.call call = (.error e, graph) := by
  cases call with
  | sealLevel out inc =>
    rcases graph.sealLevel_cases out inc with ⟨next, built, answer⟩ | ⟨e, -, answer⟩
    · exact .inl ⟨⟨out, inc⟩, next, rfl, built, answer⟩
    · exact .inr ⟨e, answer⟩
  | checkpoint overlay =>
    have outcome := graph.checkpoint_outcome overlay
    rw [Graph.call]
    generalize graph.checkpoint overlay = answer at outcome ⊢
    cases outcome with
    | collides => exact .inr ⟨_, rfl⟩
    | unpacked => exact .inr ⟨_, rfl⟩
    | unsealed => exact .inr ⟨_, rfl⟩
    | added _ packed built => exact .inl ⟨_, _, packed, built, rfl⟩

theorem nextSnapshot_eq_ok_iff {snapshot next : Snapshot} {out inc : LevelData} :
    nextSnapshot snapshot out inc = .ok next ↔
      ∀ direction, (snapshot.stack direction).withLevel (sealedAs direction ⟨out, inc⟩) =
        .ok (next.stack direction) := by
  have outward : (snapshot.stack .out).withLevel (sealedAs .out ⟨out, inc⟩) =
      snapshot.out.withLevel (out.padTo (max out.nodeCount inc.nodeCount)) := rfl
  have inward : (snapshot.stack .inc).withLevel (sealedAs .inc ⟨out, inc⟩) =
      snapshot.inc.withLevel (inc.padTo (max out.nodeCount inc.nodeCount)) := rfl
  constructor
  · intro h
    simp only [nextSnapshot, bind, Except.bind, pure, Except.pure] at h
    split at h
    · simp at h
    next first =>
    split at h
    · simp at h
    next second =>
    obtain rfl := Except.ok.inj h
    rintro (_ | _)
    · exact outward.trans first
    · exact inward.trans second
  · intro h
    have first := outward.symm.trans (h .out)
    have second := inward.symm.trans (h .inc)
    simp only [nextSnapshot, first, second, bind, Except.bind, pure, Except.pure]
    rfl

/-- A level can be added where it can be added in each direction. -/
theorem exists_nextSnapshot {snapshot : Snapshot} {out inc : LevelData}
    (ready : ∀ direction, ∃ grown,
      (snapshot.stack direction).withLevel (sealedAs direction ⟨out, inc⟩) = .ok grown) :
    ∃ next, nextSnapshot snapshot out inc = .ok next := by
  obtain ⟨grownOut, outward⟩ := ready .out
  obtain ⟨grownInc, inward⟩ := ready .inc
  refine ⟨⟨grownOut, grownInc⟩, nextSnapshot_eq_ok_iff.2 ?_⟩
  rintro (_ | _)
  · exact outward
  · exact inward

end Cases

/-- A graph that publishes the contents of some levels, and checks requests against the nodes
that they cover. -/
structure Holds (graph : Graph) (contents : List (PerDirection LevelData)) : Prop where
  levels : ∀ direction,
    (graph.current.stack direction).Holds (contents.map (sealedAs direction))
  maxNodes : graph.maxNodes = graph.current.maxNodes

theorem holds_empty : empty.Holds [] := by
  refine ⟨?_, rfl⟩
  rintro (_ | _)
  · exact Stack.holds_empty
  · exact Stack.holds_empty

section Holds

variable {graph : Graph} {contents : List (PerDirection LevelData)}

theorem Holds.stack_maxNodes (h : graph.Holds contents) (direction : Direction) :
    (graph.current.stack direction).maxNodes = largestTable contents := by
  rw [(h.levels direction).maxNodes, coveredNodes_sealedAs]

theorem Holds.current_maxNodes (h : graph.Holds contents) :
    graph.current.maxNodes = largestTable contents := by
  have out : graph.current.out.maxNodes = _ := h.stack_maxNodes .out
  have inc : graph.current.inc.maxNodes = _ := h.stack_maxNodes .inc
  rw [Snapshot.maxNodes, out, inc, Nat.max_self]

theorem Holds.stack_maxNodes_eq (h : graph.Holds contents) (direction : Direction) :
    (graph.current.stack direction).maxNodes = graph.current.maxNodes := by
  rw [h.stack_maxNodes, h.current_maxNodes]

theorem Holds.stack_numLevels (h : graph.Holds contents) (direction : Direction) :
    (graph.current.stack direction).numLevels = contents.length := by
  rw [(h.levels direction).numLevels, List.length_map]

/-- Publishing a snapshot with one more level adds the contents of that level. -/
theorem Holds.publishing {data : PerDirection LevelData} {next : Snapshot}
    (h : graph.Holds contents)
    (built : nextSnapshot graph.current data.out data.inc = .ok next) :
    (publishing next).Holds (contents ++ [data]) := by
  refine ⟨?_, rfl⟩
  intro direction
  rw [List.map_append]
  exact (h.levels direction).withLevel (nextSnapshot_eq_ok_iff.1 built direction)

end Holds

end Graph

/-- A graph with the contents of the levels that were added to it, oldest first. -/
structure GraphRun where
  graph : Graph
  added : List (PerDirection LevelData)

namespace GraphRun

/-- A call that succeeds adds the contents that it offers. -/
def step (run : GraphRun) (call : GraphCall) : GraphRun :=
  match run.graph.call call, call.contents with
  | (.ok _, graph), .ok data => ⟨graph, run.added ++ [data]⟩
  | (_, graph), _ => ⟨graph, run.added⟩

/-- The run that some calls make from the empty graph. -/
def ofCalls (calls : List GraphCall) : GraphRun := calls.foldl step ⟨.empty, []⟩

/-- The graph of a run holds the contents that were added. -/
def Holds (run : GraphRun) : Prop := run.graph.Holds run.added

theorem step_of_ok {run : GraphRun} {call : GraphCall} {data : PerDirection LevelData}
    {handle : LevelHandle} {graph : Graph} (answer : run.graph.call call = (.ok handle, graph))
    (offered : call.contents = .ok data) : run.step call = ⟨graph, run.added ++ [data]⟩ := by
  simp only [step, answer, offered]

theorem step_of_error {run : GraphRun} {call : GraphCall} {e : Error}
    (answer : run.graph.call call = (.error e, run.graph)) : run.step call = run := by
  simp only [step, answer]

theorem Holds.step {run : GraphRun} (h : run.Holds) (call : GraphCall) : (run.step call).Holds := by
  rcases run.graph.call_cases call with ⟨data, next, offered, built, answer⟩ | ⟨e, answer⟩
  · rw [step_of_ok answer offered]
    exact Graph.Holds.publishing h built
  · rw [step_of_error answer]
    exact h

theorem Holds.foldl {run : GraphRun} (h : run.Holds) (calls : List GraphCall) :
    (calls.foldl GraphRun.step run).Holds := by
  induction calls generalizing run with
  | nil => exact h
  | cons call calls ih => exact ih (h.step call)

/-- Whatever the calls, the graph holds the contents that were added. -/
theorem holds_ofCalls (calls : List GraphCall) : (ofCalls calls).Holds := by
  have start : Holds ⟨.empty, []⟩ := Graph.holds_empty
  exact start.foldl calls

end GraphRun

end LayeredGraph
