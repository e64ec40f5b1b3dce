import LayeredGraph.Proofs.Hint.NodeHints

/-! Hints for a node and its neighbours. The planner goes along the node's edges in a level, looks
up where each of them leads, and cuts the range that it finds there by edge numbers. The hints come
to the first edges of each target that has enough of them, for every edge that leads to it. -/
namespace LayeredGraph

namespace Level

/-- Where the edges of a node lead, edge by edge. -/
def targets (level : Level) (node : NodeId) : List NodeId := (level.walk node).map (·.2)

/-- Whether a node has as many edges as asked for, and any at all. -/
def hasEdges (level : Level) (least : Nat) (node : NodeId) : Bool :=
  max least 1 ≤ (level.degree node).toNat

/-- A hint for the first edges of a node, for all of them if they are not more than the limit. -/
def firstEdges (level : Level) (limit : Nat) (node : NodeId) : Hint :=
  let start := (level.edgeRange node).start
  ⟨level, start, start + min (level.degree node).toNat limit⟩

/-- The hints for a node and its neighbours: all of its own edges, and then the first edges of each
target that has enough of them. -/
def neighborhoodHints (level : Level) (least limit : Nat) (node : NodeId) : List Hint :=
  if level.degree node = 0 then []
  else
    ⟨level, level.edgeRange node⟩ ::
      ((level.targets node).filter (level.hasEdges least)).map (level.firstEdges limit)

section Targets

variable {level : Level}

/-- Every edge of a node has a target. -/
theorem map_target?_numbers (sound : level.Sound) (node : NodeId) :
    (level.edgeRange node).numbers.map (fun number => level.target? (.sealed number)) =
      (level.targets node).map some := by
  rw [targets, walk, between, List.map_map, List.map_map]
  apply List.map_congr_left
  intro number member
  obtain ⟨low, high⟩ := sound node
  obtain ⟨start, stop⟩ := EdgeRange.mem_numbers.1 member
  have found := level.target?_sealed (Nat.le_trans low start) (Nat.lt_of_lt_of_le stop high)
  simp [found]

end Targets

section FirstEdges

variable (level : Level) (limit : Nat) (node : NodeId)

/-- Cutting by edge numbers keeps the first edges. -/
theorem numbers_firstEdges :
    (level.firstEdges limit node).range.numbers = (level.edgeRange node).numbers.take limit := by
  have length := level.length_edgeRange node
  apply List.ext_getElem
  · simp [firstEdges, EdgeRange.numbers, EdgeRange.length, length, Nat.min_comm]
  · intro i _ _
    simp [firstEdges, EdgeRange.numbers]

theorem bytes_firstEdges_le : (level.firstEdges limit node).bytes ≤ limit * 8 := by
  have length : (level.firstEdges limit node).range.length = min (level.degree node).toNat limit :=
    Nat.add_sub_cancel_left ..
  rw [Hint.bytes, length]
  exact Nat.mul_le_mul_right _ (Nat.min_le_right ..)

end FirstEdges

theorem length_neighborhoodHints (level : Level) (least limit : Nat) (node : NodeId) :
    (level.neighborhoodHints least limit node).length =
      if level.degree node = 0 then 0
      else 1 + (level.targets node).countP (level.hasEdges least) := by
  rw [neighborhoodHints, List.countP_eq_length_filter]
  split <;> simp [Nat.add_comm]

/-- A hint for a neighbour covers as many bytes as the limit has edges at most. -/
theorem bytes_le_of_mem_tail {level : Level} {least limit : Nat} {node : NodeId} {hint : Hint}
    (neighbor : hint ∈ (level.neighborhoodHints least limit node).tail) :
    hint.bytes ≤ limit * 8 := by
  rw [neighborhoodHints] at neighbor
  split at neighbor
  · simp at neighbor
  · obtain ⟨target, -, rfl⟩ := List.mem_map.1 neighbor
    exact level.bytes_firstEdges_le limit target

end Level

namespace Planner

variable (planner : Planner) {level : Level}

/-- What the planner finds at an edge: the target's first edges, unless it has too few. -/
theorem neighborRange?_eq {number : Nat} {neighbor : NodeId}
    (found : level.target? (.sealed number) = some neighbor) :
    (planner.neighborRange? level number).map (Hint.mk level) =
      if level.hasEdges planner.minNeighborDegree.toNat neighbor then
        some (level.firstEdges planner.maxHintEdges neighbor)
      else none := by
  have few : level.degree neighbor < planner.minNeighborDegree ↔
      (level.degree neighbor).toNat < planner.minNeighborDegree.toNat := Iff.rfl
  have empty : (level.edgeRange neighbor).isEmpty = true ↔ (level.degree neighbor).toNat = 0 :=
    (level.isEmpty_edgeRange_iff neighbor).trans UInt32.toNat_inj.symm
  simp only [neighborRange?, found, few, empty, Level.hasEdges, decide_eq_true_iff]
  split
  · rw [if_neg (by omega)]
    rfl
  split
  · rw [if_neg (by omega)]
    rfl
  · rw [if_pos (by omega), Level.firstEdges, level.stop_edgeRange, Nat.add_min_add_left]
    rfl

/-- Going along some edges brings up their targets one by one. -/
theorem neighborHints_eq {numbers : List Nat} {targets : List NodeId}
    (leads : numbers.map (fun number => level.target? (.sealed number)) = targets.map some) :
    (numbers.filterMap (planner.neighborRange? level)).map (Hint.mk level) =
      (targets.filter (level.hasEdges planner.minNeighborDegree.toNat)).map
        (level.firstEdges planner.maxHintEdges) := by
  induction numbers generalizing targets with
  | nil =>
    obtain rfl : targets = [] := by simpa using leads.symm
    rfl
  | cons number numbers ih =>
    cases targets with
    | nil => nomatch leads
    | cons neighbor targets =>
      obtain ⟨found, leads⟩ := List.cons.inj leads
      have first := planner.neighborRange?_eq found
      rw [List.filterMap_cons, List.filter_cons]
      split at first
      · next enough =>
        obtain ⟨range, kept, same⟩ := Option.map_eq_some_iff.1 first
        rw [if_pos enough, kept, List.map_cons, List.map_cons, ih leads, same]
      · next few =>
        rw [if_neg few, Option.map_eq_none_iff.1 first, ih leads]

theorem twoHopHints_eq (sound : level.Sound) (node : NodeId) :
    planner.twoHopHints node level = level.neighborhoodHints planner.minNeighborDegree.toNat
      planner.maxHintEdges node := by
  have neighbors := planner.neighborHints_eq (Level.map_target?_numbers sound node)
  simp only [twoHopHints, Level.neighborhoodHints, level.isEmpty_edgeRange_iff, neighbors]

theorem flatMap_twoHopHints {levels : List Level} (sound : ∀ level ∈ levels, level.Sound)
    (node : NodeId) :
    levels.flatMap (planner.twoHopHints node) = levels.flatMap fun level =>
      level.neighborhoodHints planner.minNeighborDegree.toNat planner.maxHintEdges node := by
  induction levels with
  | nil => rfl
  | cons level levels ih =>
    have first := planner.twoHopHints_eq (sound level List.mem_cons_self) node
    have rest := ih fun other member => sound other (List.mem_cons_of_mem _ member)
    rw [List.flatMap_cons, List.flatMap_cons, first, rest]

/-- The plan for a node and its neighbours, level by level. -/
theorem fullPlan_complete {snapshot : Snapshot} {request : Request}
    (policy : planner.policy = .complete)
    (known : request.node.toNat < (snapshot.stack request.direction).maxNodes)
    (sound : (snapshot.stack request.direction).Sound) :
    planner.fullPlan snapshot request =
      (planner.selectedLevels (snapshot.stack request.direction)).flatMap fun level =>
        level.neighborhoodHints planner.minNeighborDegree.toNat planner.maxHintEdges
          request.node := by
  have selected := (planner.selectedLevels_isPrefix (snapshot.stack request.direction)).subset
  rw [fullPlan, policy, if_pos known]
  exact planner.flatMap_twoHopHints (fun level member => sound level (selected member)) request.node

end Planner

/-- A limit in bytes that is valid covers an edge. -/
theorem Options.eight_le_maxHintBytes {options : Options} (valid : options.validate = .ok ()) :
    8 ≤ options.maxHintBytes.toNat := by
  apply Nat.le_of_not_lt
  intro small
  have fault : options.fault? = some .maxHintBytes := if_pos small
  rw [validate, fault] at valid
  nomatch valid

/-- Of a request for a node and its neighbours, if it is not too old, a worker makes these hints and
no others: in each selected level where the node has edges, all of them, and then for each of these
edges in order the first edges of its target there, if it has as many as asked for and any at all.
A level in which the node has edges so gives one hint more than it has edges to such targets. Valid
options have every hint for a neighbour cover as many bytes as they say at most. -/
theorem Worker.neighbor_hints_cover_first_edges (calls : List GraphCall) (options : Options)
    (outlet : Outlet) (request : Request) (current : UInt32) (policy : options.policy = .complete)
    (fresh : (Worker.ofOptions options outlet).isStale request current = false)
    (known : request.node.toNat < (GraphRun.ofCalls calls).graph.snapshot.maxNodes) :
    let snapshot := (GraphRun.ofCalls calls).graph.snapshot
    let worker := Worker.ofOptions options outlet
    let levels := (snapshot.stack request.direction).levels.toList
    let selected := if options.allLevels then levels else levels.take 1
    let least := options.minNeighborDegree.toNat
    let limit := max 1 (options.maxHintBytes.toNat / 8)
    let hintsIn := fun level : Level => level.neighborhoodHints least limit request.node
    let hints := selected.flatMap hintsIn
    let issued := outlet.issueAll hints
    worker.process snapshot request current =
      (.hinted hints.length issued.1, { worker with outlet := issued.2 }) ∧
    (outlet.sink.records = true →
      issued.2.recorded.toList = outlet.recorded.toList ++ hints.map Hint.record) ∧
    (∀ level ∈ selected,
      (level.edgeRange request.node).numbers.map (fun number => level.target? (.sealed number)) =
        (level.targets request.node).map some ∧
      (hintsIn level).length =
        if level.degree request.node = 0 then 0
        else 1 + (level.targets request.node).countP (level.hasEdges least)) ∧
    (∀ (level : Level) (node : NodeId), (level.firstEdges limit node).range.numbers =
      (level.edgeRange node).numbers.take limit) ∧
    (options.validate = .ok () → ∀ level ∈ selected, ∀ hint ∈ (hintsIn level).tail,
      hint.bytes ≤ options.maxHintBytes.toNat) := by
  intro snapshot worker levels selected least limit hintsIn hints issued
  have held : (GraphRun.ofCalls calls).graph.Holds _ := GraphRun.holds_ofCalls calls
  have covered : (snapshot.stack request.direction).maxNodes = snapshot.maxNodes :=
    held.stack_maxNodes_eq request.direction
  have sound : (snapshot.stack request.direction).Sound := (held.levels request.direction).sound
  have within : selected ⊆ levels :=
    (worker.planner.selectedLevels_isPrefix (snapshot.stack request.direction)).subset
  have limit_eq : worker.planner.maxHintEdges = limit := Nat.max_comm ..
  have complete : worker.planner.policy = .complete := policy
  have other : worker.planner.policy ≠ .sequential := by rw [complete]; nofun
  have plan : worker.planner.fullPlan snapshot request = hints := by
    rw [worker.planner.fullPlan_complete complete (covered ▸ known) sound, limit_eq]
    rfl
  have outcome : worker.process snapshot request current = _ := process_of_ne_sequential other fresh
  rw [plan] at outcome
  refine ⟨outcome, Outlet.recorded_issueAll outlet hints, fun level member => ⟨?_, ?_⟩, ?_, ?_⟩
  · exact Level.map_target?_numbers (sound level (within member)) request.node
  · exact level.length_neighborhoodHints least limit request.node
  · intro level node
    exact level.numbers_firstEdges limit node
  · intro valid level _ hint neighbor
    have room := options.eight_le_maxHintBytes valid
    have cut := level.bytes_le_of_mem_tail neighbor
    omega

/-- Two edges to one neighbour, one to a node with too few edges, and a loop: the loop is cut to the
first three edges. -/
theorem Worker.neighbor_hints_of_repeated_neighbor :
    let calls : List GraphCall := [.sealLevel ⟨[⟨.sealed 0, 4⟩, ⟨.sealed 4, 2⟩, ⟨.sealed 6, 1⟩],
      [⟨1⟩, ⟨2⟩, ⟨1⟩, ⟨0⟩, ⟨0⟩, ⟨2⟩, ⟨0⟩]⟩ (.empty 3)]
    let snapshot := (GraphRun.ofCalls calls).graph.snapshot
    let options : Options := { policy := .complete, minNeighborDegree := 2, maxHintBytes := 24 }
    let worker := Worker.ofOptions options (.ofSink .recording .silent)
    let after := worker.process snapshot ⟨⟨0⟩, 0, .out⟩ 3
    after.1 = .hinted 4 88 ∧
      after.2.recorded = #[⟨0, 0, 32⟩, ⟨0, 32, 16⟩, ⟨0, 32, 16⟩, ⟨0, 0, 24⟩] := by
  intro calls snapshot options worker after
  obtain ⟨outcome, -⟩ := neighbor_hints_cover_first_edges calls options (.ofSink .recording .silent)
    ⟨⟨0⟩, 0, .out⟩ 3 rfl (by decide) (by decide)
  have outcome : after = _ := outcome
  rw [outcome]
  decide

end LayeredGraph
