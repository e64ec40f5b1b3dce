import LayeredGraph.CommonNeighbors
import LayeredGraph.Proofs.Graph.Traversal

/-! The targets that two nodes share. For each target of the first node the second node's edges are
walked from their start, while the first walk goes on where it stopped: what is given is the list of
the first node's targets, in order and with repetitions, less those that the second node lacks. -/
namespace LayeredGraph

namespace CommonNeighbors

/-- The targets among some edges that are also targets of other edges. -/
def common (edges others : List (EdgeRef × NodeId)) : List NodeId :=
  (edges.map (·.2)).filter (· ∈ others.map (·.2))

theorem common_cons_of_mem {edge : EdgeRef} {target : NodeId}
    {others : List (EdgeRef × NodeId)} (member : target ∈ others.map (·.2))
    (edges : List (EdgeRef × NodeId)) :
    common ((edge, target) :: edges) others = target :: common edges others :=
  List.filter_cons_of_pos (decide_eq_true member)

theorem common_cons_of_not_mem {edge : EdgeRef} {target : NodeId}
    {others : List (EdgeRef × NodeId)} (apart : target ∉ others.map (·.2))
    (edges : List (EdgeRef × NodeId)) :
    common ((edge, target) :: edges) others = common edges others :=
  List.filter_cons_of_neg (by simpa using apart)

theorem length_common_le (edges others : List (EdgeRef × NodeId)) :
    (common edges others).length ≤ edges.length := by
  simpa [common] using List.length_filter_le (· ∈ others.map (·.2)) (edges.map (·.2))

section Walks

variable {walk inner : Cursor}

/-- A walk comes to the targets of its edges, and to no other node. -/
theorem comesTo_eq (ready : walk.Ready) (node : NodeId) :
    comesTo node walk walk.remaining = decide (node ∈ walk.rest.map (·.2)) := by
  rw [Cursor.remaining_eq_length_rest ready]
  generalize left : walk.rest = edges
  induction edges generalizing walk with
  | nil => simp [comesTo]
  | cons first later ih =>
    obtain ⟨after, step, next, rest, -, last⟩ := Cursor.nextEdge_of_rest_cons ready left
    rw [List.length_cons, comesTo, Cursor.next_of_nextEdge step last]
    simp only [ih next rest, List.map_cons, List.mem_cons, Bool.decide_or, eq_comm (a := node)]
    rfl

/-- A search stops at the first shared target that is left, and stands before the others. -/
theorem search_spec (still : inner.Ready) (ready : walk.Ready) :
    (search inner walk walk.remaining).1 = (common walk.rest inner.rest).head? ∧
      (search inner walk walk.remaining).2.Ready ∧
      common (search inner walk walk.remaining).2.rest inner.rest =
        (common walk.rest inner.rest).tail := by
  rw [Cursor.remaining_eq_length_rest ready]
  generalize left : walk.rest = edges
  induction edges generalizing walk with
  | nil =>
    rw [List.length_nil, search]
    exact ⟨rfl, ready, by rw [left]; rfl⟩
  | cons first later ih =>
    obtain ⟨after, step, next, rest, -, last⟩ := Cursor.nextEdge_of_rest_cons ready left
    rw [List.length_cons, search, Cursor.next_of_nextEdge step last]
    simp only [comesTo_eq still, decide_eq_true_iff]
    by_cases member : first.2 ∈ inner.rest.map (·.2)
    · rw [if_pos member, common_cons_of_mem member, rest]
      exact ⟨rfl, next, rfl⟩
    · rw [if_neg member, common_cons_of_not_mem member]
      exact ih next rest

end Walks

/-- A walk over shared targets that can go on. -/
structure Ready (shared : CommonNeighbors) : Prop where
  outer : shared.outer.Ready
  inner : shared.inner.Ready

/-- The shared targets that are left. -/
def rest (shared : CommonNeighbors) : List NodeId := common shared.outer.rest shared.inner.rest

section Calls

variable {shared : CommonNeighbors}

/-- A call gives the first of the shared targets that are left, if there is one. -/
theorem next_spec (ready : shared.Ready) :
    shared.next.1 = shared.rest.head? ∧ shared.next.2.Ready ∧
      shared.next.2.rest = shared.rest.tail := by
  obtain ⟨found, onward, left⟩ := search_spec ready.inner ready.outer
  exact ⟨found, ⟨onward, ready.inner⟩, left⟩

theorem take_spec (ready : shared.Ready) (count : Nat) :
    (shared.take count).1 = shared.rest.take count ∧ (shared.take count).2.Ready ∧
      (shared.take count).2.rest = shared.rest.drop count := by
  induction count generalizing shared with
  | zero => exact ⟨rfl, ready, rfl⟩
  | succ count ih =>
    obtain ⟨found, onward, left⟩ := next_spec ready
    rw [take]
    cases rest : shared.rest with
    | nil =>
      rw [rest] at found left
      generalize shared.next = answer at found onward left ⊢
      obtain ⟨_, after⟩ := answer
      obtain rfl : _ = none := found
      exact ⟨rfl, onward, left⟩
    | cons first later =>
      rw [rest] at found left
      obtain ⟨taken, last, dropped⟩ := ih onward
      rw [left] at taken dropped
      generalize shared.next = answer at found onward left taken last dropped ⊢
      obtain ⟨_, after⟩ := answer
      obtain rfl : _ = some first := found
      exact ⟨congrArg (first :: ·) taken, last, dropped⟩

/-- Draining gives all that is left. -/
theorem drain_spec (ready : shared.Ready) :
    shared.drain.1 = shared.rest ∧ shared.drain.2.Ready ∧ shared.drain.2.rest = [] := by
  have enough : shared.rest.length ≤ shared.outer.remaining := by
    rw [Cursor.remaining_eq_length_rest ready.outer]
    exact length_common_le _ _
  obtain ⟨taken, last, left⟩ := take_spec ready shared.outer.remaining
  rw [List.take_of_length_le enough] at taken
  rw [List.drop_eq_nil_of_le enough] at left
  exact ⟨taken, last, left⟩

end Calls

/-- What can happen while shared targets are given: the next one is asked for, or a call is made on
the graph. -/
inductive Event where
  | next
  | graph (call : GraphCall)
  deriving DecidableEq, Repr

/-- How often a target is asked for. -/
def Event.asked (events : List Event) : Nat :=
  events.countP fun
    | .next => true
    | .graph _ => false

/-- A graph, and a walk over shared targets. -/
structure Scene where
  graph : Graph
  shared : CommonNeighbors

namespace Scene

/-- The answer, if a target is asked for, and what an event leaves. -/
def step (scene : Scene) : Event → List (Option NodeId) × Scene
  | .next => ([scene.shared.next.1], { scene with shared := scene.shared.next.2 })
  | .graph call => ([], { scene with graph := (scene.graph.call call).2 })

def run (scene : Scene) : List Event → List (Option NodeId) × Scene
  | [] => ([], scene)
  | event :: events =>
      let (first, scene) := scene.step event
      let (rest, scene) := scene.run events
      (first ++ rest, scene)

theorem run_cons (scene : Scene) (event : Event) (events : List Event) :
    scene.run (event :: events) =
      ((scene.step event).1 ++ ((scene.step event).2.run events).1,
        ((scene.step event).2.run events).2) := rfl

/-- The targets that are asked for are given in order, and none at the end; calls on the graph
change nothing about them. -/
theorem run_spec (scene : Scene) (ready : scene.shared.Ready) (events : List Event) :
    (scene.run events).1 = (List.range (Event.asked events)).map (scene.shared.rest[·]?) ∧
      (scene.run events).2.shared.Ready ∧
      (scene.run events).2.shared.rest = scene.shared.rest.drop (Event.asked events) := by
  induction events generalizing scene with
  | nil => exact ⟨rfl, ready, rfl⟩
  | cons event events ih =>
    rw [run_cons]
    cases event with
    | next =>
      obtain ⟨found, onward, left⟩ := next_spec ready
      obtain ⟨answers, last, dropped⟩ := ih ⟨scene.graph, scene.shared.next.2⟩ onward
      have asked : Event.asked (.next :: events) = Event.asked events + 1 := by simp [Event.asked]
      rw [left] at answers dropped
      refine ⟨?_, last, ?_⟩
      · simp only [step, answers, found, asked, List.range_succ_eq_map, List.map_cons,
          List.map_map, List.getElem?_tail, List.head?_eq_getElem?]
        rfl
      · rw [asked]
        simpa [step] using dropped
    | graph call =>
      have asked : Event.asked (.graph call :: events) = Event.asked events := by
        simp [Event.asked]
      rw [asked]
      exact ih ⟨(scene.graph.call call).2, scene.shared⟩ ready

end Scene

/-- A walk gives some targets: however many were asked for, and whatever became of a graph
meanwhile, those given so far are the first of them, a further one is none, and draining gives
the others. -/
def Yields (shared : CommonNeighbors) (targets : List NodeId) : Prop :=
  ∀ (graph : Graph) (events : List Event),
    let after := Scene.run ⟨graph, shared⟩ events
    after.1 = (List.range (Event.asked events)).map (targets[·]?) ∧
    after.1.filterMap id ++ after.2.shared.drain.1 = targets

theorem filterMap_range_getElem? (targets : List NodeId) (count : Nat) :
    ((List.range count).map (targets[·]?)).filterMap id = targets.take count := by
  induction count with
  | zero => rfl
  | succ count ih =>
    rw [List.range_succ, List.map_append, List.filterMap_append, ih, List.take_add_one]
    cases answer : targets[count]? <;> simp [answer]

theorem Ready.yields {shared : CommonNeighbors} (ready : shared.Ready) :
    shared.Yields shared.rest := by
  intro graph events after
  obtain ⟨answers, last, left⟩ := Scene.run_spec ⟨graph, shared⟩ ready events
  refine ⟨answers, ?_⟩
  rw [answers, filterMap_range_getElem?, (drain_spec last).1, left, List.take_append_drop]

section Begin

variable {snapshot : Snapshot} {a b : NodeId}

theorem begin_eq_ok {outer inner : Cursor} (first : snapshot.begin .out a = .ok outer)
    (second : snapshot.begin .out b = .ok inner) : begin snapshot a b = .ok ⟨outer, inner⟩ := by
  simp only [begin, first, second, bind, Except.bind]
  rfl

theorem begin_eq_error_first {e : Error} (refused : snapshot.begin .out a = .error e) :
    begin snapshot a b = .error e := by
  simp only [begin, refused, bind, Except.bind]

theorem begin_eq_error_second {outer : Cursor} {e : Error}
    (first : snapshot.begin .out a = .ok outer) (refused : snapshot.begin .out b = .error e) :
    begin snapshot a b = .error e := by
  simp only [begin, first, refused, bind, Except.bind]

end Begin

/-- The targets that two nodes of a published snapshot share are those of the first node's walk, in
order and with repetitions, that the second node's walk comes to. All of them are given, and then
none, whatever is sealed meanwhile. Shared targets are refused exactly for a node that the snapshot
does not have, and the first node is looked at first. -/
theorem gives_shared_targets (calls : List GraphCall) (a b : NodeId) :
    let snapshot := (GraphRun.ofCalls calls).graph.snapshot
    (a.toNat < snapshot.maxNodes → b.toNat < snapshot.maxNodes →
      ∃ edges others shared, snapshot.out.Gives a edges ∧ snapshot.out.Gives b others ∧
        begin snapshot a b = .ok shared ∧
        let targets := (edges.map (·.2)).filter (· ∈ others.map (·.2))
        shared.Yields targets ∧ shared.drain.1 = targets ∧ shared.drain.2.Yields []) ∧
    ∀ e, begin snapshot a b = .error e ↔
      snapshot.maxNodes ≤ a.toNat ∧ e = .nodeOutOfRange a snapshot.maxNodes ∨
      a.toNat < snapshot.maxNodes ∧ snapshot.maxNodes ≤ b.toNat ∧
        e = .nodeOutOfRange b snapshot.maxNodes := by
  intro snapshot
  have held : (GraphRun.ofCalls calls).graph.Holds (GraphRun.ofCalls calls).added :=
    GraphRun.holds_ofCalls calls
  have sound : snapshot.out.Sound := (held.levels .out).sound
  have nodes : snapshot.out.maxNodes = snapshot.maxNodes := held.stack_maxNodes_eq .out
  have opened {node : NodeId} (inside : node.toNat < snapshot.maxNodes) :
      ∃ cursor, snapshot.begin .out node = .ok cursor ∧
        cursor.Stands (snapshot.out.walk node) 0 := Cursor.begin_eq_ok sound (nodes ▸ inside)
  have refused {node : NodeId} (outside : snapshot.maxNodes ≤ node.toNat) :
      snapshot.begin .out node = .error (.nodeOutOfRange node snapshot.maxNodes) :=
    held.begin_eq_error .out outside
  constructor
  · intro inside within
    obtain ⟨outer, first, start⟩ := opened inside
    obtain ⟨inner, second, still⟩ := opened within
    have ready : Ready ⟨outer, inner⟩ := ⟨start.ready, still.ready⟩
    have left : rest ⟨outer, inner⟩ = common (snapshot.out.walk a) (snapshot.out.walk b) := by
      rw [rest, start.rest, still.rest, List.drop_zero, List.drop_zero]
    have yields := ready.yields
    rw [left] at yields
    obtain ⟨drained, last, none⟩ := drain_spec ready
    refine ⟨_, _, ⟨outer, inner⟩, sound.gives_iff.2 ⟨nodes ▸ inside, rfl⟩,
      sound.gives_iff.2 ⟨nodes ▸ within, rfl⟩, begin_eq_ok first second, yields,
      drained.trans left, ?_⟩
    exact none ▸ last.yields
  · intro e
    by_cases inside : a.toNat < snapshot.maxNodes
    · obtain ⟨outer, first, -⟩ := opened inside
      by_cases within : b.toNat < snapshot.maxNodes
      · obtain ⟨inner, second, -⟩ := opened within
        rw [begin_eq_ok first second]
        simp only [reduceCtorEq, false_iff]
        omega
      · rw [begin_eq_error_second first (refused (Nat.not_lt.1 within))]
        simp only [Except.error.injEq, inside, Nat.not_lt.1 within, Nat.not_le.2 inside, false_and,
          true_and, false_or]
        exact eq_comm
    · rw [begin_eq_error_first (refused (Nat.not_lt.1 inside))]
      simp only [Except.error.injEq, inside, Nat.not_lt.1 inside, false_and, true_and, or_false]
      exact eq_comm

/-- Two nodes with targets in two levels, one of them repeated: the third target of the first node
is not shared, and the last one is found on a walk that starts once more. -/
theorem gives_shared_targets_across_levels :
    let calls : List GraphCall := [
      .sealLevel ⟨[⟨.sealed 0, 3⟩, ⟨.sealed 3, 1⟩], [⟨2⟩, ⟨3⟩, ⟨0⟩, ⟨3⟩]⟩ (.empty 4),
      .sealLevel ⟨[⟨.sealed 0, 1⟩, ⟨.sealed 1, 1⟩], [⟨3⟩, ⟨2⟩]⟩ (.empty 2)]
    let snapshot := (GraphRun.ofCalls calls).graph.snapshot
    begin snapshot ⟨4⟩ ⟨9⟩ = .error (.nodeOutOfRange ⟨4⟩ 4) ∧
    begin snapshot ⟨0⟩ ⟨4⟩ = .error (.nodeOutOfRange ⟨4⟩ 4) ∧
    ∃ shared, begin snapshot ⟨0⟩ ⟨1⟩ = .ok shared ∧ shared.drain.1 = [⟨2⟩, ⟨3⟩, ⟨3⟩] ∧
      (Scene.run ⟨.empty, shared⟩ [.next, .graph (.sealLevel (.empty 7) (.empty 0)), .next, .next,
        .next]).1 = [some ⟨2⟩, some ⟨3⟩, some ⟨3⟩, none] := by
  intro calls snapshot
  refine ⟨((gives_shared_targets calls ⟨4⟩ ⟨9⟩).2 _).2 (.inl ⟨by decide, rfl⟩),
    ((gives_shared_targets calls ⟨0⟩ ⟨4⟩).2 _).2 (.inr ⟨by decide, by decide, rfl⟩), ?_⟩
  obtain ⟨edges, others, shared, given, givenToo, opened, yields, drained, -⟩ :=
    (gives_shared_targets calls ⟨0⟩ ⟨1⟩).1 (by decide) (by decide)
  have sound := ((GraphRun.holds_ofCalls calls).levels .out).sound
  obtain rfl : edges = _ := (sound.gives_iff.1 given).2
  obtain rfl : others = _ := (sound.gives_iff.1 givenToo).2
  refine ⟨shared, opened, drained.trans (by decide), ?_⟩
  rw [(yields _ _).1]
  decide

end CommonNeighbors

end LayeredGraph
