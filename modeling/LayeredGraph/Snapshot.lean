import LayeredGraph.Cursor

/-! The published state of a graph: a stack of levels for each direction. -/
namespace LayeredGraph

/-- What readers see: the levels of both directions at one moment. -/
structure Snapshot where
  out : Stack
  inc : Stack
  deriving DecidableEq, Repr

namespace Snapshot

def empty : Snapshot := ⟨.empty, .empty⟩

instance : Inhabited Snapshot := ⟨empty⟩

def stack (snapshot : Snapshot) : Direction → Stack
  | .out => snapshot.out
  | .inc => snapshot.inc

def maxNodes (snapshot : Snapshot) : Nat := max snapshot.out.maxNodes snapshot.inc.maxNodes

def numLevels (snapshot : Snapshot) : Nat := snapshot.out.numLevels

/-- All nodes in order. -/
def nodes (snapshot : Snapshot) : List NodeId := (List.range snapshot.maxNodes).map NodeId.ofNat

def begin (snapshot : Snapshot) (direction : Direction) (node : NodeId) : Except Error Cursor :=
  Cursor.begin (snapshot.stack direction) node

def beginWithinLevel (snapshot : Snapshot) (direction : Direction) (node : NodeId)
    (index : Nat) : Except Error Cursor :=
  Cursor.beginWithinLevel (snapshot.stack direction) node index

def degree (snapshot : Snapshot) (direction : Direction) (node : NodeId) : Except Error Nat := do
  (snapshot.stack direction).checkNode node
  return (snapshot.stack direction).degree node

def target? (snapshot : Snapshot) (direction : Direction) (edge : EdgeRef) : Option NodeId :=
  (snapshot.stack direction).target? edge

def byteRange (snapshot : Snapshot) (direction : Direction) (index : Nat) (node : NodeId) :
    Except Error (Nat × Nat) :=
  (snapshot.stack direction).byteRange index node

end Snapshot

end LayeredGraph
