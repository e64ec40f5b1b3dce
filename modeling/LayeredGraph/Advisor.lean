import LayeredGraph.Advisor.Background

/-! The advisor that traversals call. It either does the work of a request before it returns, or
leaves it to a worker in the background. -/
namespace LayeredGraph

inductive Advisor (κ : Type) where
  | inline (worker : Worker) (epoch : UInt32)
  | background (state : Background κ)
  | stopped (worker : Worker)

namespace Advisor

variable {κ : Type} [RequestCache κ]

/-- Starts an advisor whose hints go to an outlet. -/
def start (options : Options) (outlet : Outlet) : Except Error (Advisor κ) := do
  options.validate
  if options.background then return .background (← Background.start options outlet)
  else return .inline (.ofOptions options outlet) 0

/-- An advisor whose hints go to the operating system, with nobody counting. -/
def withOptions (options : Options) : Except Error (Advisor κ) :=
  start options (.ofSink .system .silent)

def ofPolicy (policy : Policy) (background : Bool) : Except Error (Advisor κ) :=
  withOptions { policy, background }

def worker : Advisor κ → Worker
  | inline worker _ => worker
  | background state => state.worker
  | stopped worker => worker

def isRunning : Advisor κ → Bool
  | stopped _ => false
  | _ => true

/-- Asks for advice on a node of the graph. An inline advisor processes the request in the epoch
that it carries, so that it is never too old. -/
def advise (advisor : Advisor κ) (graph : Graph) (node : NodeId) (direction : Direction) :
    Except Error Unit × Advisor κ :=
  match advisor with
  | stopped worker => (.error .advisorStopped, stopped worker)
  | inline worker epoch =>
      if graph.maxNodes ≤ node.toNat then
        (.error (.nodeOutOfRange node graph.maxNodes), inline worker epoch)
      else
        let (_, worker) := worker.process graph.snapshot ⟨node, epoch, direction⟩ epoch
        (.ok (), inline worker (epoch + 1))
  | background state =>
      let (answer, state) := state.advise graph.maxNodes node direction
      (answer, background state)

/-- Stops the advisor. A background worker ends at its next look at the stop flag. -/
def stop : Advisor κ → Except Error Unit × Advisor κ
  | stopped worker => (.error .advisorStopped, stopped worker)
  | inline worker _ => (.ok (), stopped worker)
  | background state => (.ok (), stopped state.stop.finishTask.worker)

end Advisor

end LayeredGraph
