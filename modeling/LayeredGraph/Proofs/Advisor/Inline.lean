import Mathlib.Logic.Basic
import LayeredGraph.Proofs.Advisor.Background
import LayeredGraph.Proofs.Graph.Run

/-! An advisor that does the work of a request before it returns. Until it is stopped it is a worker
that processes each request in the epoch which the request carries: no request is too old, whatever
the threshold, and epochs may as well be any others. Calls that are refused leave everything as it
was. -/
namespace LayeredGraph

variable {κ : Type} [RequestCache κ]

/-- A call on an advisor, or on the graph that it gives advice on. -/
inductive AdvisorCall where
  | advise (node : NodeId) (direction : Direction)
  | stop
  | grow (call : GraphCall)
  deriving DecidableEq, Repr

/-- Advice that was given: on which node, in which direction, and on what snapshot. -/
structure Advice where
  snapshot : Snapshot
  node : NodeId
  direction : Direction
  deriving DecidableEq, Repr

/-- The counters of requests, without those of hints. -/
def Stats.requests (stats : Stats) : UInt64 × UInt64 × UInt64 :=
  (stats.enqueued, stats.dropped, stats.stale)

theorem Outlet.requests_issueAll (outlet : Outlet) (hints : List Hint) :
    (outlet.issueAll hints).2.metrics.stats.requests = outlet.metrics.stats.requests := by
  induction hints generalizing outlet with
  | nil => rfl
  | cons hint hints ih =>
    rw [issueAll, ih, issue]
    cases outlet.metrics with
    | silent => rfl
    | counting stats => cases outlet.sink.succeeds outlet.made hint <;> rfl

namespace Worker

/-- Processes advice as requests of some epochs, each in its own epoch. -/
def processAll (worker : Worker) (epoch : Nat → UInt32) : List Advice → List Outcome × Worker
  | [] => ([], worker)
  | ⟨snapshot, node, direction⟩ :: rest =>
      let (outcome, worker) := worker.process snapshot ⟨node, epoch 0, direction⟩ (epoch 0)
      let (outcomes, worker) := worker.processAll (fun number => epoch (number + 1)) rest
      (outcome :: outcomes, worker)

section Own

variable (worker : Worker)

/-- In its own epoch no request is too old. -/
theorem isStale_own (node : NodeId) (direction : Direction) (epoch : UInt32) :
    worker.isStale ⟨node, epoch, direction⟩ epoch = false := by
  rw [isStale, epochAge, UInt32.sub_self]
  exact decide_eq_false (Nat.not_lt_zero _)

/-- In its own epoch a request comes to the same in any epoch: all hints of its plan are made. -/
theorem process_own (snapshot : Snapshot) (node : NodeId) (direction : Direction)
    (epoch other : UInt32) :
    let hints := worker.planner.fullPlan snapshot ⟨node, other, direction⟩
    let issued := worker.outlet.issueAll hints
    worker.process snapshot ⟨node, epoch, direction⟩ epoch =
      (.hinted hints.length issued.1, {
        worker with
        planner := worker.planner.afterHints direction hints
        outlet := issued.2 }) :=
  process_of_fresh (worker.isStale_own node direction epoch)

theorem requests_process_own (snapshot : Snapshot) (node : NodeId) (direction : Direction)
    (epoch : UInt32) :
    (worker.process snapshot ⟨node, epoch, direction⟩ epoch).2.stats.requests =
      worker.stats.requests := by
  rw [worker.process_own snapshot node direction epoch epoch]
  exact worker.outlet.requests_issueAll _

theorem processAll_append_singleton (epoch : Nat → UInt32) (given : List Advice)
    (advice : Advice) (own : UInt32) :
    (worker.processAll epoch (given ++ [advice])).2 =
      ((worker.processAll epoch given).2.process advice.snapshot
        ⟨advice.node, own, advice.direction⟩ own).2 := by
  induction given generalizing worker epoch with
  | nil =>
    obtain ⟨snapshot, node, direction⟩ := advice
    change (worker.process snapshot ⟨node, epoch 0, direction⟩ (epoch 0)).2 =
      (worker.process snapshot ⟨node, own, direction⟩ own).2
    rw [worker.process_own snapshot node direction (epoch 0) own,
      worker.process_own snapshot node direction own own]
  | cons first given ih => exact ih _ _

/-- Advice is never too old, and changes no counter of requests. -/
theorem processAll_spec (epoch : Nat → UInt32) (given : List Advice) :
    (worker.processAll epoch given).1.length = given.length ∧
      .stale ∉ (worker.processAll epoch given).1 ∧
      (worker.processAll epoch given).2.stats.requests = worker.stats.requests := by
  induction given generalizing worker epoch with
  | nil => exact ⟨rfl, List.not_mem_nil, rfl⟩
  | cons advice given ih =>
    obtain ⟨snapshot, node, direction⟩ := advice
    have first := worker.process_own snapshot node direction (epoch 0) (epoch 0)
    have same := worker.requests_process_own snapshot node direction (epoch 0)
    obtain ⟨length, fresh, requests⟩ := ih
      (worker.process snapshot ⟨node, epoch 0, direction⟩ (epoch 0)).2
      (fun number => epoch (number + 1))
    refine ⟨congrArg (· + 1) length, ?_, requests.trans same⟩
    simp only [processAll, List.mem_cons, not_or]
    refine ⟨?_, fresh⟩
    rw [first]
    nofun

end Own

end Worker

/-- An advisor over a graph that grows, with the advice that it gave. -/
structure AdvisorRun (κ : Type) where
  graph : GraphRun
  advisor : Advisor κ
  given : List Advice

namespace AdvisorRun

def snapshot (run : AdvisorRun κ) : Snapshot := run.graph.graph.snapshot

/-- The answer to a call; of a call on the graph, whether it succeeds. -/
def answer (run : AdvisorRun κ) : AdvisorCall → Except Error Unit
  | .advise node direction => (run.advisor.advise run.graph.graph node direction).1
  | .stop => run.advisor.stop.1
  | .grow call => (run.graph.graph.call call).1.map fun _ => ()

def step (run : AdvisorRun κ) (call : AdvisorCall) : AdvisorRun κ :=
  match call with
  | .advise node direction =>
      { run with
        advisor := (run.advisor.advise run.graph.graph node direction).2
        given :=
          match run.answer call with
          | .ok _ => run.given ++ [⟨run.snapshot, node, direction⟩]
          | .error _ => run.given }
  | .stop => { run with advisor := run.advisor.stop.2 }
  | .grow call => { run with graph := run.graph.step call }

/-- The run that some calls make from the empty graph. -/
def ofCalls (advisor : Advisor κ) (calls : List AdvisorCall) : AdvisorRun κ :=
  calls.foldl step ⟨⟨.empty, []⟩, advisor, []⟩

/-- A call that is refused leaves the graph, the advisor and the record as they are. -/
theorem step_of_error {run : AdvisorRun κ} {call : AdvisorCall} {e : Error}
    (refused : run.answer call = .error e) : run.step call = run := by
  obtain ⟨graph, advisor, given⟩ := run
  cases call with
  | grow call =>
    rcases graph.graph.call_cases call with ⟨_, _, _, _, added⟩ | ⟨_, unchanged⟩
    · rw [answer, added] at refused
      cases refused
    · rw [step, GraphRun.step_of_error unchanged]
  | stop =>
    cases advisor with
    | stopped worker => rfl
    | inline worker epoch => cases refused
    | background state => cases refused
  | advise node direction =>
    have unchanged : (advisor.advise graph.graph node direction).2 = advisor := by
      rw [answer] at refused
      revert refused
      cases advisor with
      | stopped worker => exact fun _ => rfl
      | inline worker epoch =>
        rw [Advisor.advise]
        split
        · exact fun _ => rfl
        · intro refused
          cases refused
      | background state =>
        intro refused
        by_cases accepts : state.stopped = false ∧ node.toNat < graph.graph.maxNodes
        · obtain ⟨event, -, accepted⟩ := Background.advise_of_running accepts.1 accepts.2 direction
          rw [Advisor.advise, accepted] at refused
          cases refused
        · obtain ⟨error, unchanged⟩ := Background.advise_of_refused accepts direction
          rw [Advisor.advise, unchanged]
    simp only [step, unchanged, refused]

/-- A run whose advisor stands as its advice leaves a worker on its own, and runs until it is
stopped. -/
structure Follows (bare : Worker) (stopped : Prop) (run : AdvisorRun κ) : Prop where
  graph : run.graph.Holds
  worker : ∀ epoch, run.advisor.worker = (bare.processAll epoch run.given).2
  ended : stopped → run.advisor = .stopped run.advisor.worker
  running : ¬stopped → ∃ epoch, run.advisor = .inline run.advisor.worker epoch

section Follows

variable {bare : Worker} {stopped : Prop} {run : AdvisorRun κ}

theorem answer_advise_of_inline {worker : Worker} {epoch : UInt32}
    (inline : run.advisor = .inline worker epoch) (node : NodeId) (direction : Direction) :
    run.answer (.advise node direction) =
      if run.graph.graph.maxNodes ≤ node.toNat then
        .error (.nodeOutOfRange node run.graph.graph.maxNodes)
      else .ok () := by
  rw [answer, inline, Advisor.advise]
  split <;> rfl

/-- Advice that is given is what the worker makes of it in its own epoch. -/
theorem step_advise_of_ok {worker : Worker} {epoch : UInt32}
    (inline : run.advisor = .inline worker epoch) {node : NodeId} {direction : Direction}
    (accepted : run.answer (.advise node direction) = .ok ()) :
    run.step (.advise node direction) = {
      run with
      advisor := .inline (worker.process run.snapshot ⟨node, epoch, direction⟩ epoch).2 (epoch + 1)
      given := run.given ++ [⟨run.snapshot, node, direction⟩] } := by
  have inside : ¬run.graph.graph.maxNodes ≤ node.toNat := by
    intro outside
    rw [answer_advise_of_inline inline, if_pos outside] at accepted
    nomatch accepted
  simp only [step, accepted, inline, Advisor.advise, if_neg inside]
  rfl

theorem Follows.answer_of_stopped (h : run.Follows bare stopped) (ended : stopped)
    (node : NodeId) (direction : Direction) :
    run.answer (.advise node direction) = .error .advisorStopped ∧
      run.answer .stop = .error .advisorStopped := by
  rw [answer, answer, h.ended ended]
  exact ⟨rfl, rfl⟩

theorem Follows.step_advise (h : run.Follows bare stopped) (node : NodeId)
    (direction : Direction) : (run.step (.advise node direction)).Follows bare stopped := by
  cases answer : run.answer (.advise node direction) with
  | error e =>
    rw [step_of_error answer]
    exact h
  | ok _ =>
    have going : ¬stopped := by
      intro ended
      rw [(h.answer_of_stopped ended node direction).1] at answer
      nomatch answer
    obtain ⟨epoch, inline⟩ := h.running going
    rw [step_advise_of_ok inline answer]
    refine ⟨h.graph, fun epochs => ?_, fun ended => absurd ended going, fun _ => ⟨_, rfl⟩⟩
    rw [bare.processAll_append_singleton epochs run.given _ epoch, ← h.worker epochs]
    rfl

theorem Follows.step_stop (h : run.Follows bare stopped) : (run.step .stop).Follows bare True := by
  by_cases ended : stopped
  · have refused := (h.answer_of_stopped ended ⟨0⟩ .out).2
    rw [step_of_error refused]
    exact ⟨h.graph, h.worker, fun _ => h.ended ended, fun going => absurd trivial going⟩
  · obtain ⟨epoch, inline⟩ := h.running ended
    rw [step, inline]
    exact ⟨h.graph, h.worker, fun _ => rfl, fun going => absurd trivial going⟩

theorem Follows.step (h : run.Follows bare stopped) (call : AdvisorCall) :
    (run.step call).Follows bare (stopped ∨ call = .stop) := by
  cases call with
  | advise node direction =>
    have same : (stopped ∨ AdvisorCall.advise node direction = .stop) = stopped := by simp
    rw [same]
    exact h.step_advise node direction
  | stop =>
    have now : (stopped ∨ AdvisorCall.stop = .stop) = True := by simp
    rw [now]
    exact h.step_stop
  | grow call =>
    have same : (stopped ∨ AdvisorCall.grow call = .stop) = stopped := by simp
    rw [same]
    exact ⟨h.graph.step call, h.worker, h.ended, h.running⟩

theorem Follows.foldl (h : run.Follows bare stopped) (calls : List AdvisorCall) :
    (calls.foldl AdvisorRun.step run).Follows bare (stopped ∨ .stop ∈ calls) := by
  induction calls generalizing run stopped with
  | nil => simpa using h
  | cons call calls ih =>
    have later := ih (h.step call)
    rw [or_assoc] at later
    simpa [eq_comm] using later

end Follows

/-- A run of an advisor that starts with a worker follows that worker, until it is stopped. -/
theorem follows_ofCalls (bare : Worker) (calls : List AdvisorCall) :
    (ofCalls (.inline bare 0 : Advisor κ) calls).Follows bare (.stop ∈ calls) := by
  have start : Follows bare False (⟨⟨.empty, []⟩, .inline bare 0, []⟩ : AdvisorRun κ) :=
    ⟨Graph.holds_empty, fun _ => rfl, False.elim, fun _ => ⟨0, rfl⟩⟩
  have whole := start.foldl calls
  rw [false_or] at whole
  exact whole

end AdvisorRun

theorem Advisor.start_inline {options : Options} (valid : options.validate = .ok ())
    (inline : options.background = false) (outlet : Outlet) :
    Advisor.start options outlet = .ok (.inline (.ofOptions options outlet) 0 : Advisor κ) := by
  rw [Advisor.start, valid, inline]
  rfl

/-- An advisor without a background worker, under any valid options, with any outlet and however
the calls on it and on its graph are mixed. From the first stop on it refuses all calls; until then
a stop succeeds, and advice is refused exactly on nodes that the graph does not have, whose number
is that of each stack which the advice looks at. A refused call changes nothing. The advice that
was given makes the hints that a worker with these options makes of it, call by call, when it
processes each request in the request's own epoch, in whatever epochs that is; no request is too
old then, and the counters of requests stay as they were. -/
theorem Advisor.inline_serves_as_worker (options : Options) (outlet : Outlet)
    (valid : options.validate = .ok ()) (inline : options.background = false) :
    ∃ advisor : Advisor κ, Advisor.start options outlet = .ok advisor ∧ ∀ calls,
      let run := AdvisorRun.ofCalls advisor calls
      let graph := run.graph.graph
      let worker := run.advisor.worker
      (.stop ∈ calls → ∀ node direction,
        run.answer (.advise node direction) = .error .advisorStopped ∧
        run.answer .stop = .error .advisorStopped) ∧
      (.stop ∉ calls →
        run.answer .stop = .ok () ∧
        ∀ node direction, run.answer (.advise node direction) =
          if graph.maxNodes ≤ node.toNat then .error (.nodeOutOfRange node graph.maxNodes)
          else .ok ()) ∧
      (∀ direction, (run.snapshot.stack direction).maxNodes = graph.maxNodes) ∧
      (∀ call e, run.answer call = .error e → run.step call = run) ∧
      (∀ node direction epoch, run.answer (.advise node direction) = .ok () →
        let later := run.step (.advise node direction)
        let hints := worker.planner.fullPlan run.snapshot ⟨node, epoch, direction⟩
        later.given = run.given ++ [⟨run.snapshot, node, direction⟩] ∧
        worker.process run.snapshot ⟨node, epoch, direction⟩ epoch =
          (.hinted hints.length (worker.outlet.issueAll hints).1, later.advisor.worker) ∧
        later.advisor.worker.outlet = (worker.outlet.issueAll hints).2) ∧
      (∀ epoch,
        let served := (Worker.ofOptions options outlet).processAll epoch run.given
        worker = served.2 ∧ served.1.length = run.given.length ∧ .stale ∉ served.1) ∧
      worker.stats.requests = outlet.metrics.stats.requests := by
  refine ⟨_, Advisor.start_inline valid inline outlet, fun calls => ?_⟩
  intro run graph worker
  have follows := @AdvisorRun.follows_ofCalls κ _ (.ofOptions options outlet) calls
  refine ⟨follows.answer_of_stopped, fun going => ?_, fun direction => ?_,
    fun call e => AdvisorRun.step_of_error, fun node direction epoch accepted => ?_,
    fun epoch => ?_, ?_⟩
  · obtain ⟨epoch, running⟩ := follows.running going
    refine ⟨?_, AdvisorRun.answer_advise_of_inline running⟩
    change run.advisor.stop.1 = _
    rw [running]
    rfl
  · exact (follows.graph.stack_maxNodes_eq direction).trans follows.graph.maxNodes.symm
  · intro later hints
    have going : .stop ∉ calls := by
      intro ended
      rw [(follows.answer_of_stopped ended node direction).1] at accepted
      nomatch accepted
    obtain ⟨current, running⟩ := follows.running going
    have became : later = _ := AdvisorRun.step_advise_of_ok running accepted
    have served := worker.process_own run.snapshot node direction current epoch
    have elsewhere := worker.process_own run.snapshot node direction epoch epoch
    have now : later.advisor.worker =
        (worker.process run.snapshot ⟨node, epoch, direction⟩ epoch).2 := by
      rw [elsewhere, became]
      exact congrArg Prod.snd served
    refine ⟨by rw [became], ?_, ?_⟩
    · rw [now, elsewhere]
    · rw [now, elsewhere]
  · have spec := (Worker.ofOptions options outlet).processAll_spec epoch run.given
    exact ⟨follows.worker epoch, spec.1, spec.2.1⟩
  · have spec := (Worker.ofOptions options outlet).processAll_spec (fun _ => 0) run.given
    have same : worker = _ := follows.worker fun _ => 0
    rw [same]
    exact spec.2.2

/-- No request is too old for the threshold zero, and a node is only known once its level is. -/
theorem Advisor.inline_serves_as_worker_then_stops :
    let options : Options := { background := false, stalenessThreshold := 0 }
    let level : AdvisorCall := .grow (.sealLevel ⟨[⟨.sealed 0, 1⟩], [⟨0⟩]⟩ ⟨[], []⟩)
    let calls : List AdvisorCall := [.advise ⟨0⟩ .out, level, .advise ⟨0⟩ .out, .advise ⟨0⟩ .out]
    ∃ advisor : Advisor LoggedCache,
      Advisor.start options (.ofSink .recording (.counting {})) = .ok advisor ∧
      let run := AdvisorRun.ofCalls advisor calls
      run.answer (.advise ⟨0⟩ .inc) = .ok () ∧
      run.answer (.advise ⟨1⟩ .inc) = .error (.nodeOutOfRange ⟨1⟩ 1) ∧
      run.advisor.worker.recorded = #[⟨0, 0, 8⟩, ⟨0, 0, 8⟩] ∧
      run.advisor.worker.stats.requests = (0, 0, 0) ∧
      (AdvisorRun.ofCalls advisor (calls ++ [.stop])).answer .stop = .error .advisorStopped := by
  intro options level calls
  obtain ⟨advisor, started, serves⟩ := @Advisor.inline_serves_as_worker LoggedCache _ options
    (.ofSink .recording (.counting {})) rfl rfl
  have same := (Advisor.start_inline rfl rfl _).symm.trans started
  injection same with same
  subst same
  have running : .stop ∉ calls := by decide
  have ended : .stop ∈ calls ++ [.stop] := List.mem_append_right _ (List.mem_singleton_self _)
  refine ⟨_, started, ?_, ?_, ?_, (serves calls).2.2.2.2.2.2, ((serves _).1 ended ⟨0⟩ .out).2⟩
  · exact ((serves calls).2.1 running).2 ⟨0⟩ .inc
  · exact ((serves calls).2.1 running).2 ⟨1⟩ .inc
  · decide +kernel

end LayeredGraph
