import LayeredGraph.Snapshot
import LayeredGraph.Overlay

/-! The graph: the published snapshot, replaced as a whole whenever a level is sealed. A level
is sealed for both directions at once or not at all. -/
namespace LayeredGraph

/-- The published snapshot, and the number of nodes that new requests are checked against. -/
structure Graph where
  current : Snapshot
  maxNodes : Nat
  deriving DecidableEq, Repr

namespace Graph

def empty : Graph := ⟨.empty, 0⟩

instance : Inhabited Graph := ⟨empty⟩

def snapshot (graph : Graph) : Snapshot := graph.current

def numLevels (graph : Graph) : Nat := graph.current.numLevels

def begin (graph : Graph) (direction : Direction) (node : NodeId) : Except Error Cursor :=
  graph.snapshot.begin direction node

/-- The snapshot with one more level in both directions. -/
def nextSnapshot (snapshot : Snapshot) (out inc : LevelData) : Except Error Snapshot := do
  let nodes := max out.nodeCount inc.nodeCount
  let out ← snapshot.out.withLevel (out.padTo nodes)
  let inc ← snapshot.inc.withLevel (inc.padTo nodes)
  return ⟨out, inc⟩

/-- Seals the contents of a level for both directions and publishes the result. -/
def sealLevel (graph : Graph) (out inc : LevelData) : Except Error LevelHandle × Graph :=
  match nextSnapshot graph.current out inc with
  | .error e => (.error e, graph)
  | .ok snapshot =>
      let handle : LevelHandle := ⟨snapshot.numLevels - 1, snapshot.maxNodes⟩
      (.ok handle, { current := snapshot, maxNodes := handle.maxNodes })

/-- Seals what an overlay holds and starts it afresh over the new level. New nodes of the overlay
must not have been given out by a level that was sealed since. -/
def checkpoint (graph : Graph) (overlay : Overlay) :
    Except Error LevelHandle × Graph × Overlay :=
  if overlay.addsNodes && overlay.baseNodes != graph.maxNodes then
    (.error (.invalid "overlay node ids collide with a newer level"), graph, overlay)
  else
    match overlay.levelData with
    | .error e => (.error e, graph, overlay)
    | .ok data =>
        match graph.sealLevel data.out data.inc with
        | (.error e, graph) => (.error e, graph, overlay)
        | (.ok handle, graph) => (.ok handle, graph, .ofBase handle.maxNodes)

/-- An overlay over the nodes of the graph. -/
def overlay (graph : Graph) : Overlay := .ofBase graph.maxNodes

end Graph

end LayeredGraph
