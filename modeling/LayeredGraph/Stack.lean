import LayeredGraph.Level

/-! The levels of one direction, oldest first. A stack grows by one level at a time and never
changes the levels it has, so edge numbers keep their meaning. -/
namespace LayeredGraph

/-- Bisection: the first position in `[low, low + count)` where a test that holds up to some
position and fails from there on fails. -/
def partitionPoint (test : Nat → Bool) (low count : Nat) : Nat :=
  if count = 0 then low
  else
    let half := count / 2
    if test (low + half) then partitionPoint test (low + half + 1) (count - half - 1)
    else partitionPoint test low half
termination_by count

/-- The levels of one direction, with the number of nodes and of edges that they cover. -/
structure Stack where
  levels : Array Level
  maxNodes : Nat
  edgeCount : Nat
  deriving DecidableEq, Repr

namespace Stack

def empty : Stack := ⟨#[], 0, 0⟩

instance : Inhabited Stack := ⟨empty⟩

def numLevels (stack : Stack) : Nat := stack.levels.size

def level (stack : Stack) (index : Nat) : Except Error Level :=
  match stack.levels[index]? with
  | some level => .ok level
  | none => .error (.levelOutOfRange index stack.numLevels)

def checkNode (stack : Stack) (node : NodeId) : Except Error Unit :=
  if node.toNat < stack.maxNodes then .ok ()
  else .error (.nodeOutOfRange node stack.maxNodes)

/-- The number of a node's edges in all levels. -/
def degree (stack : Stack) (node : NodeId) : Nat :=
  Level.totalDegree node stack.levels.toList

def levelDegree (stack : Stack) (node : NodeId) (index : Nat) : Except Error UInt32 := do
  return (← stack.level index).degree node

/-- The first level from an index on in which a node has edges. -/
def nextNonemptyLevel (stack : Stack) (node : NodeId) (start : Nat) : Option Nat :=
  ((stack.levels.toList.drop start).findIdx? fun level => 0 < level.degree node).map (start + ·)

/-- The number of levels that start at or before an edge number. -/
def levelsStartingBy (stack : Stack) (number : Nat) : Nat :=
  partitionPoint (fun i => (stack.levels[i]?.map (·.edgeBase)).any (· ≤ number)) 0
    stack.numLevels

/-- The target of a sealed edge, found in the last level that starts at or before it. -/
def target? (stack : Stack) (edge : EdgeRef) : Option NodeId :=
  if edge.isNil || edge.isPending || stack.edgeCount ≤ edge.raw then none
  else
    match stack.levelsStartingBy edge.raw with
    | 0 => none
    | index + 1 => stack.levels[index]?.bind (·.target? edge)

def byteRange (stack : Stack) (index : Nat) (node : NodeId) : Except Error (Nat × Nat) := do
  stack.checkNode node
  return (← stack.level index).byteRange node

/-- The stack with one more level, whose edges are numbered after all others. The stack covers
the nodes of its largest level, and targets have to lie among them. -/
def withLevel (stack : Stack) (data : LevelData) : Except Error Stack :=
  let maxNodes := max stack.maxNodes data.nodeCount
  match data.fault? maxNodes with
  | some fault => .error (.corruption fault.message)
  | none =>
      .ok {
        levels := stack.levels.push (Level.ofData stack.numLevels stack.edgeCount data)
        maxNodes
        edgeCount := stack.edgeCount + data.edgeCount }

theorem checkNode_eq_ok {stack : Stack} {node : NodeId} :
    stack.checkNode node = .ok () ↔ node.toNat < stack.maxNodes := by
  unfold checkNode
  split <;> simp [*]

end Stack

end LayeredGraph
