import LayeredGraph.Proofs.Hint.Windows
import LayeredGraph.Proofs.Hint.Words

/-! What a worker leaves behind over a whole run, with any policy and any limits. The outcomes of
its requests, the hints that the sink got and the counters all tell the same: every hint that was
made is one call of the sink, which worked or did not, and a request that was too old left nothing
but its count. -/
namespace LayeredGraph

namespace Outcome

/-- The hints that were made for a request. -/
def calls : Outcome → Nat
  | stale => 0
  | hinted calls _ => calls

/-- The bytes of those hints that worked. -/
def bytes : Outcome → Nat
  | stale => 0
  | hinted _ bytes => bytes

/-- What is counted of each request, over some of them. -/
def total (count : Outcome → Nat) : List Outcome → Nat
  | [] => 0
  | outcome :: outcomes => count outcome + total count outcomes

theorem total_append_singleton (count : Outcome → Nat) (outcomes : List Outcome)
    (last : Outcome) : total count (outcomes ++ [last]) = total count outcomes + count last := by
  induction outcomes with
  | nil => exact Nat.add_comm (count last) 0
  | cons outcome outcomes ih => rw [List.cons_append, total, ih, total, Nat.add_assoc]

end Outcome

/-- Of the hints that a sink gets, each works or does not. -/
theorem Sink.length_answered (sink : Sink) (hints : List Hint) :
    (sink.answered true hints).length + (sink.answered false hints).length = hints.length := by
  have split := List.length_eq_countP_add_countP
    (fun held : Hint × Nat => sink.succeeds held.2 held.1 == true) (l := hints.zipIdx)
  have refused : ∀ held : Hint × Nat,
      (sink.succeeds held.2 held.1 == false) = !(sink.succeeds held.2 held.1 == true) := by
    intro held
    cases sink.succeeds held.2 held.1 <;> rfl
  rw [List.length_zipIdx] at split
  simp only [answered, List.length_map, ← List.countP_eq_length_filter, refused]
  rw [split]
  simp

/-- Making hints answers the bytes of those that work. -/
theorem Outlet.totalBytes_answered (sink : Sink) (hints more : List Hint)
    (enqueued dropped stale : Nat) :
    Hint.totalBytes (sink.answered true (hints ++ more)) =
      Hint.totalBytes (sink.answered true hints) +
        ((after sink hints enqueued dropped stale).issueAll more).1 := by
  induction more generalizing hints with
  | nil => rw [List.append_nil]; rfl
  | cons hint more ih =>
    have worked : ((after sink hints enqueued dropped stale).issue hint).1 =
        sink.succeeds hints.length hint := rfl
    have joined : hints ++ hint :: more = (hints ++ [hint]) ++ more := by simp
    simp only [joined, ih, issueAll, issue_after, worked, Sink.answered_append_singleton,
      Hint.totalBytes_append]
    cases sink.succeeds hints.length hint with
    | false => rfl
    | true => exact Nat.add_assoc ..

namespace WorkerRun

/-- What becomes of the requests among some calls. -/
def outcomes (run : WorkerRun) : List WorkerCall → List Outcome
  | [] => []
  | .grow call :: calls => (run.step (.grow call)).outcomes calls
  | .process request current :: calls =>
      (run.worker.process run.snapshot request current).1 ::
        (run.step (.process request current)).outcomes calls

/-- The hints that were made, in order. -/
def hints (run : WorkerRun) : List Hint := run.made.map (·.2)

/-- A run after some outcomes: the outlet got the hints that were made, and each request that was
too old was counted. -/
structure Balances (options : Options) (sink : Sink) (outcomes : List Outcome)
    (run : WorkerRun) : Prop where
  graph : run.graph.Holds
  limited : run.worker.planner.Limited
  threshold : run.worker.stalenessThreshold = options.stalenessThreshold
  outlet : run.worker.outlet = .after sink run.hints 0 0 (outcomes.count .stale)
  calls : Outcome.total Outcome.calls outcomes = run.hints.length
  bytes : Outcome.total Outcome.bytes outcomes = Hint.totalBytes (sink.answered true run.hints)

theorem balances_start (options : Options) (sink : Sink) :
    Balances options sink []
      ⟨⟨.empty, []⟩, .ofOptions options (.ofSink sink (.counting {})), .both 0, []⟩ :=
  ⟨Graph.holds_empty, Planner.limited_ofOptions options, rfl, (Outlet.after_nil sink).symm, rfl,
    rfl⟩

section Balances

variable {options : Options} {sink : Sink} {before : List Outcome} {run : WorkerRun}

theorem Balances.process (h : run.Balances options sink before) (request : Request)
    (current : UInt32) :
    (run.step (.process request current)).Balances options sink
      (before ++ [(run.worker.process run.snapshot request current).1]) := by
  cases age : run.worker.isStale request current with
  | true =>
    have outcome : run.worker.process run.snapshot request current = _ :=
      Worker.processWith_of_stale age _
    rw [step_process_of_stale age, outcome]
    refine ⟨h.graph, h.limited, h.threshold, ?_, ?_, ?_⟩
    · rw [List.count_append, List.count_singleton_self, h.outlet]
      exact Outlet.count_stale ..
    · exact (Outcome.total_append_singleton Outcome.calls before .stale).trans h.calls
    · exact (Outcome.total_append_singleton Outcome.bytes before .stale).trans h.bytes
  | false =>
    have outcome : run.worker.process run.snapshot request current = _ :=
      Worker.process_of_fresh age
    have step := step_process_of_fresh age
    generalize run.worker.planner.fullPlan run.snapshot request = plan at outcome step
    have more : (run.step (.process request current)).hints = run.hints ++ plan := by
      rw [step]
      simp [hints, Function.comp_def]
    have fresh : ∀ bytes, (before ++ [Outcome.hinted plan.length bytes]).count .stale =
        before.count .stale := by
      intro bytes
      rw [List.count_append]
      rfl
    rw [outcome]
    refine ⟨?_, ?_, ?_, ?_, ?_, ?_⟩
    · rw [step]
      exact h.graph
    · rw [step]
      exact h.limited.afterHints request.direction plan
    · rw [step]
      exact h.threshold
    · rw [more, fresh, step, h.outlet]
      exact Outlet.issueAll_after ..
    · rw [more, Outcome.total_append_singleton, h.calls, List.length_append]
      rfl
    · rw [more, Outcome.total_append_singleton, h.bytes, h.outlet]
      exact (Outlet.totalBytes_answered ..).symm

/-- Every call keeps the accounts, with what becomes of it if it is a request. -/
theorem Balances.foldl (h : run.Balances options sink before) (calls : List WorkerCall) :
    (calls.foldl WorkerRun.step run).Balances options sink (before ++ run.outcomes calls) := by
  induction calls generalizing run before with
  | nil =>
    rw [outcomes, List.append_nil]
    exact h
  | cons call calls ih =>
    cases call with
    | grow call =>
      exact ih ⟨h.graph.step call, h.limited, h.threshold, h.outlet, h.calls, h.bytes⟩
    | process request current =>
      have later := ih (h.process request current)
      rw [List.append_assoc] at later
      exact later

end Balances

end WorkerRun

/-- A request comes to nothing exactly if it is too old. -/
theorem Worker.process_eq_stale_iff {worker : Worker} {snapshot : Snapshot} {request : Request}
    {current : UInt32} : (worker.process snapshot request current).1 = .stale ↔
      worker.isStale request current = true := by
  cases old : worker.isStale request current with
  | true =>
    have same : worker.process snapshot request current = _ := processWith_of_stale old _
    simp [same]
  | false =>
    have same : worker.process snapshot request current = _ := process_of_fresh old
    simp [same]

/-- A worker under any options, valid or not, with any sink, and over any calls on a graph that
grows meanwhile. What it asks for are edges of the levels that the request is about, at least one
each time, and what is written down of them lies in the table of the level; nothing that it computes
wraps, as long as there are fewer than 2^30 edges in the direction. A request is too old exactly if
more epochs went by than the threshold allows, and then its count is all that changes. Over the
whole run each hint that was made is one call of the sink: those that worked, with their bytes, and
those that did not are counted, and both are what the outcomes say. -/
theorem Worker.hints_lie_in_levels_and_add_up (options : Options) (sink : Sink)
    (calls : List WorkerCall) :
    let worker := Worker.ofOptions options (.ofSink sink (.counting {}))
    let run := WorkerRun.ofCalls worker calls
    let outcomes := (WorkerRun.ofCalls worker []).outcomes calls
    let worked := sink.answered true run.hints
    let refused := sink.answered false run.hints
    let outlet := run.worker.outlet
    (∀ request current,
      let stack := run.snapshot.stack request.direction
      let outcome := (run.worker.process run.snapshot request current).1
      (∀ hint ∈ run.hintsOf request current,
        hint.level ∈ stack.levels.toList ∧
        hint.level.edgeBase ≤ hint.range.start ∧ hint.range.start < hint.range.stop ∧
        hint.range.stop ≤ hint.level.edgeBase + hint.level.edgeCount ∧
        0 < hint.record.length ∧
        hint.record.offset + hint.record.length ≤ 8 * hint.level.edgeCount) ∧
      (stack.edgeCount < 1073741824 →
        InWords.process run.worker run.snapshot request current = some outcome) ∧
      (outcome = .stale ↔ options.stalenessThreshold < current - request.epoch) ∧
      (outcome = .stale →
        run.hintsOf request current = [] ∧
        run.step (.process request current) = { run with
          worker := { run.worker with
            outlet := { outlet with
              metrics := .counting
                { run.worker.stats with stale := run.worker.stats.stale + 1 } } } })) ∧
    (sink.records = true → outlet.recorded.toList = run.hints.map Hint.record) ∧
    outlet.made = run.hints.length ∧
    outlet.made = worked.length + refused.length ∧
    outlet.made = Outcome.total Outcome.calls outcomes ∧
    Outcome.total Outcome.bytes outcomes = Hint.totalBytes worked ∧
    outlet.metrics = .counting {
      stale := UInt64.ofNat (outcomes.count .stale)
      hints := UInt64.ofNat worked.length
      hintedBytes := UInt64.ofNat (Outcome.total Outcome.bytes outcomes)
      failures := UInt64.ofNat refused.length } := by
  intro worker run outcomes worked refused outlet
  have balances : run.Balances options sink outcomes :=
    (WorkerRun.balances_start options sink).foldl calls
  have after : outlet = .after sink run.hints 0 0 (outcomes.count .stale) := balances.outlet
  have made : outlet.made = run.hints.length := by rw [after]; rfl
  have parts : worked.length + refused.length = run.hints.length := sink.length_answered run.hints
  have counting : outlet.metrics = .counting run.worker.stats := by
    change outlet.metrics = .counting outlet.metrics.stats
    rw [after]
    rfl
  refine ⟨fun request current => ?_, fun records => ?_, made, made.trans parts.symm,
    made.trans balances.calls.symm, balances.bytes, ?_⟩
  · intro stack outcome
    have held : stack.Holds _ := balances.graph.levels request.direction
    have age : run.worker.isStale request current = true ↔
        options.stalenessThreshold < current - request.epoch := by
      rw [isStale, balances.threshold, decide_eq_true_iff]
      rfl
    refine ⟨fun hint member => ?_, fun few => ?_, process_eq_stale_iff.trans age,
      fun old => ?_⟩
    · rw [WorkerRun.hintsOf] at member
      split at member
      · exact absurd member List.not_mem_nil
      obtain ⟨listed, inside⟩ := Planner.inside_of_mem_fullPlan held balances.limited member
      exact ⟨listed, inside.start, inside.nonempty, inside.stop, inside.record⟩
    · exact InWords.process_eq held balances.limited few current
    · have old := process_eq_stale_iff.1 old
      refine ⟨if_pos old, ?_⟩
      rw [WorkerRun.step_process_of_stale old, Outlet.count]
      simp only [outlet] at counting
      rw [counting]
      rfl
  · rw [after]
    simp only [Outlet.after, if_pos records]
  · rw [balances.bytes, after]
    rfl

/-- A node that is its own neighbour twice, looked at with neighbours under limits of no bytes at
all, by a sink that takes every other hint. -/
theorem Worker.hints_lie_in_levels_and_add_up_of_loops :
    let options : Options := { policy := .complete, maxHintBytes := 0, stalenessThreshold := 1 }
    let sink : Sink := ⟨fun number _ => number % 2 == 1, true⟩
    let calls : List WorkerCall := [
      .grow (.sealLevel ⟨[⟨.sealed 0, 2⟩], [⟨0⟩, ⟨0⟩]⟩ ⟨[], []⟩),
      .process ⟨⟨0⟩, 4294967295, .out⟩ 0, .process ⟨⟨0⟩, 4294967295, .out⟩ 1]
    let worker := Worker.ofOptions options (.ofSink sink (.counting {}))
    let run := WorkerRun.ofCalls worker calls
    (run.snapshot.stack .out).edgeCount < 1073741824 ∧
    InWords.process run.worker run.snapshot ⟨⟨0⟩, 0, .out⟩ 0 = some (.hinted 3 24) ∧
    run.worker.outlet.recorded.toList = [⟨0, 0, 16⟩, ⟨0, 0, 8⟩, ⟨0, 0, 8⟩] ∧
    run.worker.outlet.metrics =
      .counting { stale := 1, hints := 1, hintedBytes := 8, failures := 2 } := by
  intro options sink calls worker run
  obtain ⟨requests, recorded, -, -, -, -, metrics⟩ :=
    hints_lie_in_levels_and_add_up options sink calls
  have few : (run.snapshot.stack .out).edgeCount < 1073741824 := by decide +kernel
  refine ⟨few, ?_, ?_, ?_⟩
  · rw [(requests ⟨⟨0⟩, 0, .out⟩ 0).2.1 few]
    decide +kernel
  · rw [recorded rfl]
    decide +kernel
  · rw [metrics]
    decide +kernel

end LayeredGraph
