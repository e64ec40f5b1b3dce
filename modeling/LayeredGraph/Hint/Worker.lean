import LayeredGraph.Hint.Planner

/-! Turning requests into hints. Requests that are too old are only counted; for the others the
plan is worked off hint by hint, as long as it is worth going on. -/
namespace LayeredGraph

/-- What became of a request: too old, or the number of hints made and the bytes of those that
worked. -/
inductive Outcome where
  | stale
  | hinted (calls bytes : Nat)
  deriving DecidableEq, Repr

/-- A planner with the outlet for its hints. -/
structure Worker where
  planner : Planner
  outlet : Outlet
  stalenessThreshold : UInt32

namespace Worker

def ofOptions (options : Options) (outlet : Outlet) : Worker :=
  ⟨.ofOptions options, outlet, options.stalenessThreshold⟩

/-- Whether a request is too old in an epoch. -/
def isStale (worker : Worker) (request : Request) (current : UInt32) : Bool :=
  worker.stalenessThreshold < epochAge current request.epoch

/-- A plan being worked off: how often it was asked whether to go on, the hints made, and the
bytes of those that worked. -/
structure Progress where
  outlet : Outlet
  checks : Nat
  calls : Nat
  bytes : Nat

/-- Takes one hint of a plan: asks whether to go on, and if so makes the hint. -/
def Progress.receive (keepGoing : Nat → Bool) (progress : Progress) (hint : Hint) :
    Flow × Progress :=
  if keepGoing progress.checks then
    let (worked, outlet) := progress.outlet.issue hint
    (.more, {
      outlet
      checks := progress.checks + 1
      calls := progress.calls + 1
      bytes := if worked then progress.bytes + hint.bytes else progress.bytes })
  else (.halt, { progress with checks := progress.checks + 1 })

/-- Processes a request in an epoch. Before each hint `keepGoing`, given the number of such
questions so far, says whether the plan goes on. -/
def processWith (worker : Worker) (snapshot : Snapshot) (request : Request) (current : UInt32)
    (keepGoing : Nat → Bool) : Outcome × Worker :=
  if worker.isStale request current then
    (.stale, { worker with outlet := worker.outlet.count .stale })
  else
    let (_, planner, progress) :=
      worker.planner.plan (Progress.receive keepGoing) snapshot request ⟨worker.outlet, 0, 0, 0⟩
    (.hinted progress.calls progress.bytes, { worker with planner, outlet := progress.outlet })

/-- Processes a request to its end. -/
def process (worker : Worker) (snapshot : Snapshot) (request : Request) (current : UInt32) :
    Outcome × Worker :=
  worker.processWith snapshot request current fun _ => true

def stats (worker : Worker) : Stats := worker.outlet.metrics.stats

def recorded (worker : Worker) : Array HintRecord := worker.outlet.recorded

end Worker

end LayeredGraph
