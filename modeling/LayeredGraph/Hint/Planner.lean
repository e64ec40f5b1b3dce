import LayeredGraph.Advisor.Options
import LayeredGraph.Hint.Sink
import LayeredGraph.Queue.Request
import LayeredGraph.Snapshot

/-! Which ranges a request asks for. A plan is walked with a receiver that may break it off after
any hint; `fullPlan` lists what a receiver that never breaks off gets. -/
namespace LayeredGraph

/-- Whether a walk goes on. -/
inductive Flow where
  | more
  | halt
  deriving DecidableEq, Repr

/-- Visits the elements of a list until a visit ends the walk. -/
def visitUntil {σ α : Type} (visit : σ → α → Flow × σ) : σ → List α → Flow × σ
  | state, [] => (.more, state)
  | state, a :: rest =>
      match visit state a with
      | (.more, state) => visitUntil visit state rest
      | (.halt, state) => (.halt, state)

/-- The limits of a policy, and for each direction the edge up to which windows of the oldest
level have been handed out. -/
structure Planner where
  policy : Policy
  allLevels : Bool
  minNeighborDegree : UInt32
  maxHintEdges : Nat
  windowEdges : Nat
  hintedUpto : PerDirection Nat
  deriving DecidableEq, Repr

namespace Planner

def ofOptions (options : Options) : Planner where
  policy := options.policy
  allLevels := options.allLevels
  minNeighborDegree := options.minNeighborDegree
  maxHintEdges := options.maxHintEdges
  windowEdges := options.windowEdges
  hintedUpto := .both 0

/-- The levels that a node's own policies look at. -/
def selectedLevels (planner : Planner) (stack : Stack) : List Level :=
  if planner.allLevels then stack.levels.toList else stack.levels.toList.take 1

/-- The range of a neighbour, cut to the limit; none if the neighbour has too few edges. -/
def neighborRange? (planner : Planner) (level : Level) (number : Nat) : Option EdgeRange :=
  match level.target? (.sealed number) with
  | none => none
  | some neighbor =>
      if level.degree neighbor < planner.minNeighborDegree then none
      else
        let range := level.edgeRange neighbor
        if range.isEmpty then none
        else some ⟨range.start, min range.stop (range.start + planner.maxHintEdges)⟩

/-- The next window of a level in a direction, none when all of it has been handed out. -/
def window? (planner : Planner) (level : Level) (direction : Direction) : Option EdgeRange :=
  let start := max (planner.hintedUpto.get direction) level.edgeBase
  if level.edgeEnd ≤ start then none
  else some ⟨start, min (start + planner.windowEdges) level.edgeEnd⟩

section Walk

variable {σ : Type} (receive : σ → Hint → Flow × σ)

/-- Offers a node's own range in a level. -/
def offerOwn (node : NodeId) (state : σ) (level : Level) : Flow × σ :=
  let own := level.edgeRange node
  if own.isEmpty then (.more, state) else receive state ⟨level, own⟩

/-- Offers a node's own range in a level, and then the ranges of its neighbours there. -/
def offerTwoHop (planner : Planner) (node : NodeId) (state : σ) (level : Level) : Flow × σ :=
  let own := level.edgeRange node
  if own.isEmpty then (.more, state)
  else
    match receive state ⟨level, own⟩ with
    | (.halt, state) => (.halt, state)
    | (.more, state) =>
        visitUntil (fun state number =>
          match planner.neighborRange? level number with
          | none => (.more, state)
          | some range => receive state ⟨level, range⟩) state own.numbers

/-- Offers the next window of a level. The window counts as handed out only if the receiver goes
on. -/
def offerWindow (planner : Planner) (direction : Direction) (state : σ) (level : Level) :
    Flow × Planner × σ :=
  match planner.window? level direction with
  | none => (.more, planner, state)
  | some range =>
      match receive state ⟨level, range⟩ with
      | (.halt, state) => (.halt, planner, state)
      | (.more, state) =>
          (.more, { planner with hintedUpto := planner.hintedUpto.set direction range.stop },
            state)

/-- Walks the plan of a request until the receiver breaks it off. A node that the stack does not
cover has an empty plan. -/
def plan (planner : Planner) (snapshot : Snapshot) (request : Request) (state : σ) :
    Flow × Planner × σ :=
  let stack := snapshot.stack request.direction
  match stack.checkNode request.node with
  | .error _ => (.more, planner, state)
  | .ok _ =>
      match planner.policy with
      | .nodeOnly =>
          let (flow, state) :=
            visitUntil (offerOwn receive request.node) state (planner.selectedLevels stack)
          (flow, planner, state)
      | .complete =>
          let (flow, state) :=
            visitUntil (planner.offerTwoHop receive request.node) state
              (planner.selectedLevels stack)
          (flow, planner, state)
      | .sequential =>
          match stack.levels[0]? with
          | none => (.more, planner, state)
          | some level => planner.offerWindow receive request.direction state level

end Walk

/-- The hint for a node's own range in a level. -/
def ownHints (node : NodeId) (level : Level) : List Hint :=
  if (level.edgeRange node).isEmpty then [] else [⟨level, level.edgeRange node⟩]

/-- The hints for a node and its neighbours in a level. -/
def twoHopHints (planner : Planner) (node : NodeId) (level : Level) : List Hint :=
  if (level.edgeRange node).isEmpty then []
  else
    ⟨level, level.edgeRange node⟩ ::
      ((level.edgeRange node).numbers.filterMap (planner.neighborRange? level)).map (⟨level, ·⟩)

/-- The hint for the next window of a stack's oldest level. -/
def windowHints (planner : Planner) (direction : Direction) (stack : Stack) : List Hint :=
  (stack.levels.toList.take 1).flatMap fun level =>
    ((planner.window? level direction).map (Hint.mk level)).toList

/-- Everything that a request asks for, in order. -/
def fullPlan (planner : Planner) (snapshot : Snapshot) (request : Request) : List Hint :=
  let stack := snapshot.stack request.direction
  if request.node.toNat < stack.maxNodes then
    match planner.policy with
    | .nodeOnly => (planner.selectedLevels stack).flatMap (ownHints request.node)
    | .complete => (planner.selectedLevels stack).flatMap (planner.twoHopHints request.node)
    | .sequential => planner.windowHints request.direction stack
  else []

/-- The planner after a hint for a direction has been made. -/
def afterHint (planner : Planner) (direction : Direction) (hint : Hint) : Planner :=
  match planner.policy with
  | .sequential => { planner with hintedUpto := planner.hintedUpto.set direction hint.range.stop }
  | _ => planner

end Planner

end LayeredGraph
