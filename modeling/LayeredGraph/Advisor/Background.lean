import LayeredGraph.Graph
import LayeredGraph.Hint.Worker
import LayeredGraph.Queue.Channel

/-! A worker that runs beside the traversals it serves. Both sides share the queue, the epoch and
a stop flag, and every interleaving of their steps is a run of the machine below: a traversal
advises; the worker takes one request, or makes one hint of the request it is at; the stop flag
is raised. -/
namespace LayeredGraph

/-- A request being worked off, and the hints of its plan that are left. -/
structure Task where
  request : Request
  rest : List Hint
  deriving DecidableEq, Repr

/-- The shared state of both sides, and where the worker stands. -/
structure Background (κ : Type) where
  worker : Worker
  channel : Channel κ
  task : Option Task
  stopped : Bool

namespace Background

variable {κ : Type} [RequestCache κ]

def start (options : Options) (outlet : Outlet) : Except Error (Background κ) := do
  return ⟨.ofOptions options outlet, ← Channel.ofConfig? options.queue, none, false⟩

/-- Counts an event with the worker's counters. -/
def count (state : Background κ) (event : Event) : Background κ :=
  { state with worker := { state.worker with outlet := state.worker.outlet.count event } }

/-- Enqueues a request for a node and starts the next epoch, whether there was room or not. -/
def advise (state : Background κ) (maxNodes : Nat) (node : NodeId) (direction : Direction) :
    Except Error Unit × Background κ :=
  if state.stopped then (.error .advisorStopped, state)
  else if maxNodes ≤ node.toNat then (.error (.nodeOutOfRange node maxNodes), state)
  else
    let (answer, channel) := state.channel.enqueue ⟨node, state.channel.epoch, direction⟩
    let event :=
      match answer with
      | .ok _ => Event.enqueued
      | .error _ => .dropped
    (.ok (), { state.count event with channel := channel.incrementEpoch.2 })

/-- Takes the next request from the queue, unless one is being worked off. A request that is too
old is only counted; of any other the plan is drawn up on the snapshot of the moment. -/
def take (state : Background κ) (snapshot : Snapshot) : Background κ :=
  if state.stopped then state
  else
    match state.task with
    | some _ => state
    | none =>
        match state.channel.dequeue with
        | (none, channel) => { state with channel }
        | (some request, channel) =>
            if state.worker.isStale request channel.epoch then
              { state.count .stale with channel }
            else
              { state with
                channel
                task := some ⟨request, state.worker.planner.fullPlan snapshot request⟩ }

/-- Whether the worker goes on with a request: not when it has to stop, and not when the request
has grown too old. -/
def keepGoing (state : Background κ) (request : Request) : Bool :=
  !state.stopped && !state.worker.isStale request state.channel.epoch

/-- Makes the next hint of the request being worked off, or ends it when its plan is finished or
not worth going on with. -/
def hint (state : Background κ) : Background κ :=
  match state.task with
  | none => state
  | some ⟨_, []⟩ => { state with task := none }
  | some ⟨request, next :: rest⟩ =>
      if state.keepGoing request then
        { state with
          worker := { state.worker with
            planner := state.worker.planner.afterHint request.direction next
            outlet := (state.worker.outlet.issue next).2 }
          task := some ⟨request, rest⟩ }
      else { state with task := none }

/-- Raises the stop flag. -/
def stop (state : Background κ) : Background κ := { state with stopped := true }

/-- A step of either side. -/
inductive Step where
  | advise (maxNodes : Nat) (node : NodeId) (direction : Direction)
  | take (snapshot : Snapshot)
  | hint
  | stop
  deriving DecidableEq, Repr

def step (state : Background κ) : Step → Background κ
  | .advise maxNodes node direction => (state.advise maxNodes node direction).2
  | .take snapshot => state.take snapshot
  | .hint => state.hint
  | .stop => state.stop

def run (state : Background κ) (steps : List Step) : Background κ := steps.foldl step state

/-- Works off the request being worked off to its end. -/
def finishTask (state : Background κ) : Background κ :=
  match state.task with
  | none => state
  | some task => Nat.repeat hint (task.rest.length + 1) state

/-- Takes the next request and works it off. -/
def serve (snapshot : Snapshot) (state : Background κ) : Background κ :=
  (state.take snapshot).finishTask

/-- Works off the request being worked off and all requests that are waiting. -/
def settle (snapshot : Snapshot) (state : Background κ) : Background κ :=
  Nat.repeat (serve snapshot) state.channel.queue.length state.finishTask

end Background

end LayeredGraph
