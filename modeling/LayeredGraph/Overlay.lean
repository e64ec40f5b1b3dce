import LayeredGraph.Cursor

/-! New nodes and edges that are not yet sealed. An overlay numbers new nodes from its base on,
keeps every edge under one reference in the list of its source and in the list of its target,
and can be packed as the contents of a level for each direction. -/
namespace LayeredGraph

/-- The edges of an overlay by their owner, owners in increasing order. -/
abbrev PendingLists := List (NodeId × List PendingEdge)

namespace PendingLists

/-- Appends an edge to the list of its owner. -/
def push (lists : PendingLists) (owner : NodeId) (edge : PendingEdge) : PendingLists :=
  match lists with
  | [] => [(owner, [edge])]
  | (node, edges) :: rest =>
      if owner.number < node.number then (owner, [edge]) :: (node, edges) :: rest
      else if owner = node then (node, edges ++ [edge]) :: rest
      else (node, edges) :: push rest owner edge

/-- The edges of a node in the order in which they were added. -/
def edges (lists : PendingLists) (node : NodeId) : List PendingEdge :=
  (lists.lookup node).getD []

/-- Writes the entry of every owner, its targets lying behind those of the owners before it. -/
def packInto (vertices : Array VertexEntry) (targets : Array NodeId) :
    PendingLists → Except Error (Array VertexEntry × Array NodeId)
  | [] => .ok (vertices, targets)
  | (_, []) :: rest => packInto vertices targets rest
  | (node, edges) :: rest => do
      let degree ← degreeOf edges.length
      packInto (vertices.setIfInBounds node.toNat ⟨.sealed targets.size, degree⟩)
        (targets ++ edges.map (·.target)) rest

/-- The contents of a level over a number of nodes. -/
def pack (lists : PendingLists) (nodes : Nat) : Except Error LevelData := do
  let (vertices, targets) ← packInto (Array.replicate nodes .empty) #[] lists
  return ⟨vertices.toList, targets.toList⟩

end PendingLists

/-- New nodes from `baseNodes` on, and new edges in order of insertion. -/
structure Overlay where
  baseNodes : Nat
  nodeCount : Nat
  edgeCount : Nat
  lists : PerDirection PendingLists
  deriving DecidableEq, Repr

namespace Overlay

def ofBase (baseNodes : Nat) : Overlay := ⟨baseNodes, baseNodes, 0, .both []⟩

def maxNodes (overlay : Overlay) : Nat := overlay.nodeCount

def addsNodes (overlay : Overlay) : Bool := overlay.baseNodes < overlay.nodeCount

def isEmpty (overlay : Overlay) : Bool := overlay.edgeCount == 0 && !overlay.addsNodes

def addNode (overlay : Overlay) : NodeId × Overlay :=
  (.ofNat overlay.nodeCount, { overlay with nodeCount := overlay.nodeCount + 1 })

def checkNode (overlay : Overlay) (node : NodeId) : Except Error Unit :=
  if node.toNat < overlay.nodeCount then .ok ()
  else .error (.nodeOutOfRange node overlay.nodeCount)

/-- Adds an edge between two nodes of the overlay and gives its reference. The source is checked
before the target. -/
def addEdge (overlay : Overlay) (source target : NodeId) : Except Error EdgeRef × Overlay :=
  match overlay.checkNode source, overlay.checkNode target with
  | .error e, _ => (.error e, overlay)
  | _, .error e => (.error e, overlay)
  | .ok _, .ok _ =>
      let edge := EdgeRef.pending overlay.edgeCount
      (.ok edge, {
        overlay with
        edgeCount := overlay.edgeCount + 1
        lists := {
          out := overlay.lists.out.push source ⟨target, edge⟩
          inc := overlay.lists.inc.push target ⟨source, edge⟩ } })

/-- The edges that the overlay holds for a node in one direction. -/
def edges (overlay : Overlay) (direction : Direction) (node : NodeId) : List PendingEdge :=
  (overlay.lists.get direction).edges node

def pendingDegree (overlay : Overlay) (direction : Direction) (node : NodeId) : Nat :=
  (overlay.edges direction node).length

def begin (overlay : Overlay) (direction : Direction) (node : NodeId) : Except Error Cursor := do
  overlay.checkNode node
  return Cursor.beginPending node (overlay.edges direction node)

/-- The contents of a level for each direction. -/
def levelData (overlay : Overlay) : Except Error (PerDirection LevelData) := do
  let out ← overlay.lists.out.pack overlay.nodeCount
  let inc ← overlay.lists.inc.pack overlay.nodeCount
  return ⟨out, inc⟩

end Overlay

end LayeredGraph
