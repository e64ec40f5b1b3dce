import LayeredGraph.Proofs.Cursor
import LayeredGraph.Proofs.Graph.Run
import LayeredGraph.Proofs.Overlay

/-! Walks over a published snapshot. A cursor opened on it gives what the levels of the snapshot
recorded for its node, whichever calls are made on the cursor and whatever happens to the graph
and to overlays between them. -/
namespace LayeredGraph

open LevelData

inductive CursorCall where
  | next
  | nextEdge
  deriving DecidableEq, Repr

inductive CursorAnswer where
  | target (node : Option NodeId)
  | edge (edge : Option EdgeRef)
  deriving DecidableEq, Repr

/-- What a call shows of an edge. -/
def CursorCall.show (first : Option (EdgeRef × NodeId)) : CursorCall → CursorAnswer
  | .next => .target (first.map (·.2))
  | .nextEdge => .edge (first.map (·.1))

/-- The answers to some calls that take one edge each, for as long as there are edges. -/
def CursorCall.showAll (walk : List (EdgeRef × NodeId)) : List CursorCall → List CursorAnswer
  | [] => []
  | call :: calls => call.show walk.head? :: showAll walk.tail calls

def Cursor.call (cursor : Cursor) : CursorCall → CursorAnswer × Cursor
  | .next => (.target cursor.next.1, cursor.next.2)
  | .nextEdge => (.edge cursor.nextEdge.1, cursor.nextEdge.2)

/-- A graph, an overlay, and an open cursor. -/
structure Scene where
  graph : Graph
  overlay : Overlay
  cursor : Cursor

/-- What can happen while a cursor is open. -/
inductive SceneEvent where
  | graph (call : GraphCall)
  | append (append : Overlay.Append)
  | checkpoint
  | cursor (call : CursorCall)
  deriving DecidableEq, Repr

/-- The calls on the cursor among some events. -/
def SceneEvent.cursorCalls (events : List SceneEvent) : List CursorCall :=
  events.filterMap fun
    | .cursor call => some call
    | _ => none

namespace Scene

/-- The answer of the cursor, if it is called, and what an event leaves. -/
def step (scene : Scene) : SceneEvent → List CursorAnswer × Scene
  | .graph call => ([], { scene with graph := (scene.graph.call call).2 })
  | .append append => ([], { scene with overlay := scene.overlay.append append })
  | .checkpoint =>
      let (_, graph, overlay) := scene.graph.checkpoint scene.overlay
      ([], { scene with graph, overlay })
  | .cursor call =>
      let (answer, cursor) := scene.cursor.call call
      ([answer], { scene with cursor })

def run (scene : Scene) : List SceneEvent → List CursorAnswer × Scene
  | [] => ([], scene)
  | event :: events =>
      let (first, scene) := scene.step event
      let (rest, scene) := scene.run events
      (first ++ rest, scene)

theorem run_cursor (graph : Graph) (overlay : Overlay) (cursor : Cursor) (call : CursorCall)
    (events : List SceneEvent) :
    run ⟨graph, overlay, cursor⟩ (.cursor call :: events) =
      ((cursor.call call).1 :: (run ⟨graph, overlay, (cursor.call call).2⟩ events).1,
        (run ⟨graph, overlay, (cursor.call call).2⟩ events).2) := rfl

end Scene

section Stands

variable {cursor : Cursor} {walk : List (EdgeRef × NodeId)} {given : Nat}

theorem Cursor.Stands.call (h : cursor.Stands walk given) (call : CursorCall) :
    (cursor.call call).1 = call.show walk[given]? ∧
      (cursor.call call).2.Stands walk (given + 1) := by
  obtain ⟨edge, target, later⟩ := h.step
  cases call with
  | next =>
    refine ⟨congrArg CursorAnswer.target target, ?_⟩
    rw [Cursor.call, Cursor.next_eq]
    exact later
  | nextEdge => exact ⟨congrArg CursorAnswer.edge edge, later⟩

/-- The calls on a cursor take the edges of its walk one by one; other events do not touch it. -/
theorem Cursor.Stands.run (h : cursor.Stands walk given) (graph : Graph) (overlay : Overlay)
    (events : List SceneEvent) :
    (Scene.run ⟨graph, overlay, cursor⟩ events).1 =
        CursorCall.showAll (walk.drop given) (SceneEvent.cursorCalls events) ∧
      (Scene.run ⟨graph, overlay, cursor⟩ events).2.cursor.Stands walk
        (given + (SceneEvent.cursorCalls events).length) := by
  induction events generalizing graph overlay cursor given with
  | nil => exact ⟨rfl, h⟩
  | cons event events ih =>
    cases event with
    | graph call => exact ih h _ _
    | append append => exact ih h _ _
    | checkpoint => exact ih h _ _
    | cursor call =>
      obtain ⟨answer, later⟩ := h.call call
      obtain ⟨answers, last⟩ := ih later graph overlay
      have calls : SceneEvent.cursorCalls (.cursor call :: events) =
          call :: SceneEvent.cursorCalls events := rfl
      rw [Scene.run_cursor, calls, CursorCall.showAll, List.head?_drop, List.tail_drop, answer,
        answers, List.length_cons, ← Nat.add_assoc, Nat.add_right_comm]
      exact ⟨rfl, last⟩

end Stands

namespace Graph

section Holds

variable {graph : Graph} {contents : List (PerDirection LevelData)}

theorem Holds.walk (h : graph.Holds contents) (direction : Direction) (node : NodeId) :
    (graph.current.stack direction).walk node =
      walkAll 0 node (contents.map (·.get direction)) := by
  rw [(h.levels direction).walk, walkAll_sealedAs]

/-- A cursor can be opened for every node of the snapshot, and stands before all that its levels
recorded for the node. -/
theorem Holds.begin_eq_ok (h : graph.Holds contents) (direction : Direction) {node : NodeId}
    (inside : node.toNat < graph.current.maxNodes) :
    ∃ cursor, graph.current.begin direction node = .ok cursor ∧
      cursor.Stands (walkAll 0 node (contents.map (·.get direction))) 0 := by
  rw [← h.stack_maxNodes_eq direction] at inside
  rw [← h.walk]
  exact Cursor.begin_eq_ok (h.levels direction).sound inside

theorem Holds.begin_eq_error (h : graph.Holds contents) (direction : Direction) {node : NodeId}
    (outside : graph.current.maxNodes ≤ node.toNat) :
    graph.current.begin direction node =
      .error (.nodeOutOfRange node graph.current.maxNodes) := by
  rw [← h.stack_maxNodes_eq direction] at outside ⊢
  exact Cursor.begin_eq_error outside

end Holds

/-- A cursor on a snapshot that was published in any run gives what the levels of the snapshot
were sealed with for its node, oldest level first, and then nothing more, in whatever mix it is
called and whatever becomes of the graph and of overlays meanwhile. It is refused exactly for the
nodes that the snapshot does not have. -/
theorem begin_walks_recorded (calls : List GraphCall) (direction : Direction) (node : NodeId) :
    let run := GraphRun.ofCalls calls
    let snapshot := run.graph.snapshot
    let walk := walkAll 0 node (run.added.map (·.get direction))
    (snapshot.stack direction).numLevels = run.added.length ∧
    walk.map (·.2) = run.added.flatMap (fun data => (data.get direction).recorded node) ∧
    run.graph.begin direction node = snapshot.begin direction node ∧
    (snapshot.maxNodes ≤ node.toNat →
      snapshot.begin direction node = .error (.nodeOutOfRange node snapshot.maxNodes)) ∧
    (node.toNat < snapshot.maxNodes →
      ∃ cursor, snapshot.begin direction node = .ok cursor ∧
        ∀ graph overlay events,
          let after := Scene.run ⟨graph, overlay, cursor⟩ events
          let made := SceneEvent.cursorCalls events
          after.1 = CursorCall.showAll walk made ∧
          after.2.cursor.lastNode = (walk.take made.length).getLast?.map (·.2) ∧
          after.2.cursor.lastEdge = ((walk.take made.length).getLast?.map (·.1)).getD .nil) := by
  intro run snapshot walk
  have held : run.graph.Holds run.added := GraphRun.holds_ofCalls calls
  refine ⟨held.stack_numLevels direction, ?_, rfl, held.begin_eq_error direction, ?_⟩
  · rw [targets_walkAll, List.flatMap_map]
  · intro inside
    obtain ⟨cursor, opened, start⟩ := held.begin_eq_ok direction inside
    refine ⟨cursor, opened, ?_⟩
    intro graph overlay events after made
    obtain ⟨answers, last⟩ := start.run graph overlay events
    rw [Nat.zero_add] at last
    exact ⟨answers, last.lastNode, last.lastEdge⟩

theorem begin_walks_two_levels :
    let calls : List GraphCall := [
      .sealLevel ⟨[⟨.sealed 0, 1⟩, .empty], [⟨1⟩]⟩ ⟨[], []⟩,
      .sealLevel ⟨[⟨.sealed 0, 2⟩], [⟨1⟩, ⟨0⟩]⟩ ⟨[], []⟩]
    let snapshot := (GraphRun.ofCalls calls).graph.snapshot
    snapshot.begin .out ⟨2⟩ = .error (.nodeOutOfRange ⟨2⟩ snapshot.maxNodes) ∧
    ∃ cursor, snapshot.begin .out ⟨0⟩ = .ok cursor ∧
      (Scene.run ⟨.empty, .ofBase 0, cursor⟩ [.cursor .next, .append .node, .cursor .nextEdge,
        .checkpoint, .cursor .next, .cursor .next]).1 =
          [.target (some ⟨1⟩), .edge (some (.sealed 1)), .target (some ⟨0⟩), .target none] := by
  intro calls snapshot
  refine ⟨(begin_walks_recorded calls .out ⟨2⟩).2.2.2.1 (by decide), ?_⟩
  obtain ⟨cursor, opened, answers⟩ := (begin_walks_recorded calls .out ⟨0⟩).2.2.2.2 (by decide)
  refine ⟨cursor, opened, ?_⟩
  rw [(answers _ _ _).1]
  decide

end Graph

end LayeredGraph
