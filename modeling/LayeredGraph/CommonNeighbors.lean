import LayeredGraph.Snapshot

/-! The targets that two nodes share: a walk over the first node's edges that stops at the targets
which a walk over the second node's edges comes to as well. The second walk starts afresh for each
target of the first. -/
namespace LayeredGraph

/-- A walk over the edges of one node, and one over those of another that stays at its start. -/
structure CommonNeighbors where
  outer : Cursor
  inner : Cursor
  deriving DecidableEq, Repr

namespace CommonNeighbors

def begin (snapshot : Snapshot) (a b : NodeId) : Except Error CommonNeighbors := do
  let outer ← snapshot.begin .out a
  let inner ← snapshot.begin .out b
  return ⟨outer, inner⟩

/-- Whether a walk comes to a node within `count` steps. -/
def comesTo (node : NodeId) (walk : Cursor) : (count : Nat) → Bool
  | 0 => false
  | count + 1 =>
      match walk.next with
      | (some found, after) => found == node || comesTo node after count
      | (none, _) => false

/-- The next target of a walk that another walk comes to, looking at no more than `count`
targets. -/
def search (inner walk : Cursor) : (count : Nat) → Option NodeId × Cursor
  | 0 => (none, walk)
  | count + 1 =>
      match walk.next with
      | (some found, after) =>
          if comesTo found inner inner.remaining then (some found, after)
          else search inner after count
      | (none, after) => (none, after)

/-- The next shared target. -/
def next (shared : CommonNeighbors) : Option NodeId × CommonNeighbors :=
  let (found, outer) := search shared.inner shared.outer shared.outer.remaining
  (found, { shared with outer })

/-- The next shared targets, at most `count` of them. -/
def take (shared : CommonNeighbors) : (count : Nat) → List NodeId × CommonNeighbors
  | 0 => ([], shared)
  | count + 1 =>
      match shared.next with
      | (some found, after) =>
          let (nodes, last) := take after count
          (found :: nodes, last)
      | (none, after) => ([], after)

/-- All shared targets that are left. -/
def drain (shared : CommonNeighbors) : List NodeId × CommonNeighbors :=
  shared.take shared.outer.remaining

end CommonNeighbors

end LayeredGraph
