import LayeredGraph.Stack

/-! Walking the edges of one node: through all levels of a stack, oldest first, through one
level, or through the edges that an overlay holds for the node. A cursor keeps the stack or the
edges it was opened on, so later changes do not reach it. -/
namespace LayeredGraph

/-- An edge of an overlay, seen from the node whose list holds it. -/
structure PendingEdge where
  target : NodeId
  edge : EdgeRef
  deriving DecidableEq, Repr

/-- Where a cursor stands in a level: the last edge it gave there, the next one, and the end of
the node's range. -/
structure LevelSpan where
  level : Nat
  prev : EdgeRef
  next : EdgeRef
  stop : EdgeRef
  deriving DecidableEq, Repr

/-- The numbers of the edges that are left in a level. -/
def LevelSpan.remaining (span : LevelSpan) : EdgeRange :=
  if span.next.isNil then ⟨span.stop.raw, span.stop.raw⟩ else ⟨span.next.raw, span.stop.raw⟩

namespace Cursor

/-- A node's range in a level, and the next edge of it. -/
structure Position where
  level : Nat
  start : Nat
  next : Nat
  stop : Nat
  deriving DecidableEq, Repr

/-- Whether the walk goes on to later levels at the end of a range. -/
inductive Scope where
  | allLevels
  | singleLevel
  deriving DecidableEq, Repr

/-- What is walked. A walk over a stack without a position is finished. -/
inductive Source where
  | levels (stack : Stack) (scope : Scope) (position : Option Position)
  | pending (rest : List PendingEdge)
  deriving DecidableEq, Repr

/-- The start of a node's range in a level where it has edges. -/
def positionAt (stack : Stack) (node : NodeId) (index : Nat) : Except Error Position := do
  let level ← stack.level index
  level.checkEntry node
  let range := level.edgeRange node
  if range.isEmpty then .error (.corruption "positioned on an empty range")
  else .ok ⟨index, range.start, range.start, range.stop⟩

/-- The start of a node's first range from a level on. -/
def firstPosition (stack : Stack) (node : NodeId) (start : Nat) :
    Except Error (Option Position) :=
  match stack.nextNonemptyLevel node start with
  | some index => some <$> positionAt stack node index
  | none => .ok none

/-- The position after the next edge has been given. -/
def following (stack : Stack) (node : NodeId) (scope : Scope) (position : Position) :
    Option Position :=
  if position.next + 1 < position.stop then some { position with next := position.next + 1 }
  else
    match scope with
    | .singleLevel => none
    | .allLevels =>
        match firstPosition stack node (position.level + 1) with
        | .ok later => later
        | .error _ => none

end Cursor

open Cursor in
/-- A walk over the edges of a node, with the edge and the target given last. -/
structure Cursor where
  node : NodeId
  source : Source
  lastNode : Option NodeId
  lastEdge : EdgeRef
  deriving DecidableEq, Repr

namespace Cursor

/-- A walk over a node's edges in all levels. -/
def begin (stack : Stack) (node : NodeId) : Except Error Cursor := do
  stack.checkNode node
  return ⟨node, .levels stack .allLevels (← firstPosition stack node 0), none, .nil⟩

/-- A walk over a node's edges in one level. -/
def beginWithinLevel (stack : Stack) (node : NodeId) (index : Nat) : Except Error Cursor := do
  stack.checkNode node
  let level ← stack.level index
  let position ←
    if 0 < level.degree node then some <$> positionAt stack node index else .ok none
  return ⟨node, .levels stack .singleLevel position, none, .nil⟩

/-- A walk over edges that an overlay holds for a node. -/
def beginPending (node : NodeId) (edges : List PendingEdge) : Cursor :=
  ⟨node, .pending edges, none, .nil⟩

def isWritable (cursor : Cursor) : Bool :=
  match cursor.source with
  | .levels .. => false
  | .pending _ => true

def isExhausted (cursor : Cursor) : Bool :=
  match cursor.source with
  | .levels _ _ position => position.isNone
  | .pending rest => rest.isEmpty

def hasNext (cursor : Cursor) : Bool := !cursor.isExhausted

/-- The level of the next edge. -/
def level (cursor : Cursor) : Option Nat :=
  match cursor.source with
  | .levels _ _ position => position.map (·.level)
  | .pending _ => none

def levelSpan (cursor : Cursor) : Option LevelSpan :=
  match cursor.source with
  | .levels _ _ (some ⟨level, start, next, stop⟩) =>
      some {
        level
        prev := if start < next then .sealed (next - 1) else .nil
        next := .sealed next
        stop := .sealed stop }
  | _ => none

/-- The number of edges still to come. -/
def remaining (cursor : Cursor) : Nat :=
  match cursor.source with
  | .pending rest => rest.length
  | .levels _ _ none => 0
  | .levels _ .singleLevel (some position) => position.stop - position.next
  | .levels stack .allLevels (some position) =>
      position.stop - position.next
        + Level.totalDegree cursor.node (stack.levels.toList.drop (position.level + 1))

/-- Lower and upper bound of the number of edges still to come. -/
def sizeHint (cursor : Cursor) : Nat × Option Nat := (cursor.remaining, some cursor.remaining)

/-- The next edge with its target, and what is left to walk. -/
def advance (node : NodeId) : Source → Option (EdgeRef × NodeId) × Source
  | .pending [] => (none, .pending [])
  | .pending (first :: rest) => (some (first.edge, first.target), .pending rest)
  | .levels stack scope none => (none, .levels stack scope none)
  | .levels stack scope (some position) =>
      let edge := .sealed position.next
      match stack.levels[position.level]?.bind (·.target? edge) with
      | none => (none, .levels stack scope none)
      | some target =>
          (some (edge, target), .levels stack scope (following stack node scope position))

/-- Gives the next edge. At the end nothing changes. -/
def nextEdge (cursor : Cursor) : Option EdgeRef × Cursor :=
  match advance cursor.node cursor.source with
  | (some (edge, target), source) =>
      (some edge, { cursor with source, lastNode := some target, lastEdge := edge })
  | (none, source) => (none, { cursor with source })

/-- Gives the target of the next edge. -/
def next (cursor : Cursor) : Option NodeId × Cursor :=
  match cursor.nextEdge with
  | (some _, cursor) => (cursor.lastNode, cursor)
  | (none, cursor) => (none, cursor)

/-- The next edges with their targets, at most `count` of them, and the cursor behind them. -/
def take (cursor : Cursor) : Nat → List (EdgeRef × NodeId) × Cursor
  | 0 => ([], cursor)
  | count + 1 =>
      match cursor.nextEdge with
      | (some edge, after) =>
          let (edges, last) := take after count
          ((edge, after.lastNode.getD default) :: edges, last)
      | (none, after) => ([], after)

/-- All edges that are left, and the finished cursor. -/
def drain (cursor : Cursor) : List (EdgeRef × NodeId) × Cursor := cursor.take cursor.remaining

/-- The targets of all edges that are left. -/
def targets (cursor : Cursor) : List NodeId := cursor.drain.1.map (·.2)

@[simp] theorem next_eq (cursor : Cursor) : cursor.next.2 = cursor.nextEdge.2 := by
  unfold next
  split <;> simp [*]

theorem sizeHint_eq (cursor : Cursor) :
    cursor.sizeHint = (cursor.remaining, some cursor.remaining) := rfl

end Cursor

end LayeredGraph
