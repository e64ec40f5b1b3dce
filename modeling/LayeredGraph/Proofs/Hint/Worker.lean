import LayeredGraph.Hint.Worker
import LayeredGraph.Proofs.Hint.Plan

/-! What a worker makes of a request. A request that is too old is counted; of any other the first
hints of its plan are made, as many as there were questions answered with yes before the first
answer of no. -/
namespace LayeredGraph

namespace Outlet

/-- Makes some hints; answers the bytes of those that worked. -/
def issueAll (outlet : Outlet) : List Hint → Nat × Outlet
  | [] => (0, outlet)
  | hint :: hints =>
      let (worked, outlet) := outlet.issue hint
      let (bytes, outlet) := outlet.issueAll hints
      (if worked then hint.bytes + bytes else bytes, outlet)

end Outlet

namespace Hint

/-- The bytes that some hints cover. -/
def totalBytes : List Hint → Nat
  | [] => 0
  | hint :: hints => hint.bytes + totalBytes hints

theorem totalBytes_append (first second : List Hint) :
    totalBytes (first ++ second) = totalBytes first + totalBytes second := by
  induction first with
  | nil => exact (Nat.zero_add _).symm
  | cons hint first ih => rw [List.cons_append, totalBytes, ih, totalBytes, Nat.add_assoc]

end Hint

/-- The hints that a sink answers in some way, of all that it gets: those that work, or those that
do not. -/
def Sink.answered (sink : Sink) (worked : Bool) (hints : List Hint) : List Hint :=
  (hints.zipIdx.filter fun held => sink.succeeds held.2 held.1 == worked).map (·.1)

theorem Sink.answered_append_singleton (sink : Sink) (worked : Bool) (hints : List Hint)
    (hint : Hint) :
    sink.answered worked (hints ++ [hint]) = sink.answered worked hints ++
      if sink.succeeds hints.length hint == worked then [hint] else [] := by
  rw [answered, List.zipIdx_append, List.filter_append, List.map_append, ← answered,
    Nat.zero_add, List.zipIdx_singleton, List.filter_cons]
  split <;> rfl

namespace Outlet

/-- The outlet of a sink after some hints, and after some requests were accepted, dropped and
found too old. -/
def after (sink : Sink) (hints : List Hint) (enqueued dropped stale : Nat) : Outlet where
  sink := sink
  made := hints.length
  recorded := if sink.records then (hints.map Hint.record).toArray else #[]
  metrics := .counting {
    enqueued := UInt64.ofNat enqueued
    dropped := UInt64.ofNat dropped
    stale := UInt64.ofNat stale
    hints := UInt64.ofNat (sink.answered true hints).length
    hintedBytes := UInt64.ofNat (Hint.totalBytes (sink.answered true hints))
    failures := UInt64.ofNat (sink.answered false hints).length }

section After

variable (sink : Sink) (hints : List Hint) (enqueued dropped stale : Nat)

theorem after_nil : after sink [] 0 0 0 = ofSink sink (.counting {}) := by
  rw [after, ofSink]
  cases sink.records <;> rfl

theorem count_enqueued : (after sink hints enqueued dropped stale).count .enqueued =
    after sink hints (enqueued + 1) dropped stale := by
  simp only [count, after, Metrics.record, Stats.record, UInt64.ofNat_add]
  rfl

theorem count_dropped : (after sink hints enqueued dropped stale).count .dropped =
    after sink hints enqueued (dropped + 1) stale := by
  simp only [count, after, Metrics.record, Stats.record, UInt64.ofNat_add]
  rfl

theorem count_stale : (after sink hints enqueued dropped stale).count .stale =
    after sink hints enqueued dropped (stale + 1) := by
  simp only [count, after, Metrics.record, Stats.record, UInt64.ofNat_add]
  rfl

/-- Making a hint adds it to those that were made. -/
theorem issue_after (hint : Hint) : ((after sink hints enqueued dropped stale).issue hint).2 =
    after sink (hints ++ [hint]) enqueued dropped stale := by
  rw [issue, after, after, Sink.answered_append_singleton, Sink.answered_append_singleton]
  cases sink.succeeds hints.length hint <;> cases sink.records <;>
    simp [Metrics.record, Stats.record, UInt64.ofNat_add, Hint.totalBytes_append,
      Hint.totalBytes]

theorem issueAll_after (more : List Hint) :
    ((after sink hints enqueued dropped stale).issueAll more).2 =
      after sink (hints ++ more) enqueued dropped stale := by
  induction more generalizing hints with
  | nil => rw [List.append_nil]; rfl
  | cons hint more ih =>
    simp only [issueAll, issue_after, ih, List.append_assoc]
    rfl

end After

end Outlet

namespace Outlet

section IssueAll

variable (outlet : Outlet) (hints : List Hint)

/-- Making hints counts all of them, whether they work or not. -/
theorem made_issueAll : (outlet.issueAll hints).2.made = outlet.made + hints.length := by
  induction hints generalizing outlet with
  | nil => rfl
  | cons hint hints ih =>
    rw [issueAll, ih, List.length_cons, Nat.add_comm hints.length, ← Nat.add_assoc]
    rfl

theorem sink_issueAll : (outlet.issueAll hints).2.sink = outlet.sink := by
  induction hints generalizing outlet with
  | nil => rfl
  | cons hint hints ih =>
    rw [issueAll, ih]
    rfl

theorem recorded_issueAll (records : outlet.sink.records = true) :
    (outlet.issueAll hints).2.recorded.toList =
      outlet.recorded.toList ++ hints.map Hint.record := by
  induction hints generalizing outlet with
  | nil => exact (List.append_nil _).symm
  | cons hint hints ih =>
    have rest : ((outlet.issue hint).2.issueAll hints).2.recorded.toList = _ := ih _ records
    rw [issueAll, rest, recorded_issue records, Array.toList_push, List.append_assoc]
    rfl

end IssueAll

/-- With a sink that never fails all bytes count. -/
theorem issueAll_of_succeeds {outlet : Outlet}
    (works : ∀ number hint, outlet.sink.succeeds number hint = true) (hints : List Hint) :
    (outlet.issueAll hints).1 = Hint.totalBytes hints := by
  induction hints generalizing outlet with
  | nil => rfl
  | cons hint hints ih =>
    have worked : (outlet.issue hint).1 = true := works _ _
    have rest : ((outlet.issue hint).2.issueAll hints).1 = Hint.totalBytes hints := ih works
    rw [issueAll, Hint.totalBytes]
    simp only [worked, if_true, rest]

end Outlet

/-- The number of consecutive questions, from the first on, that are answered with yes before one
is answered with no or there are no more. -/
def admitted (keepGoing : Nat → Bool) (first : Nat) : (count : Nat) → Nat
  | 0 => 0
  | count + 1 => if keepGoing first then admitted keepGoing (first + 1) count + 1 else 0

section Admitted

variable {keepGoing : Nat → Bool}

theorem admitted_le (first count : Nat) : admitted keepGoing first count ≤ count := by
  induction count generalizing first with
  | zero => exact Nat.le_refl 0
  | succ count ih =>
    rw [admitted]
    split
    · exact Nat.succ_le_succ (ih _)
    · exact Nat.zero_le _

theorem admitted_eq {made count : Nat} (within : made ≤ count) (first : Nat)
    (yes : ∀ number < made, keepGoing (first + number) = true)
    (no : made < count → keepGoing (first + made) = false) :
    admitted keepGoing first count = made := by
  induction count generalizing first made with
  | zero => exact (Nat.le_zero.1 within).symm
  | succ count ih =>
    rw [admitted]
    cases made with
    | zero =>
      have refused : keepGoing first = false := no (Nat.succ_pos _)
      rw [refused]
      rfl
    | succ made =>
      have shift : ∀ number, first + 1 + number = first + (number + 1) := by omega
      have agreed : keepGoing first = true := yes 0 (Nat.succ_pos _)
      rw [if_pos agreed, ih (Nat.le_of_succ_le_succ within) (first + 1)]
      · intro number inside
        rw [shift]
        exact yes _ (Nat.succ_lt_succ inside)
      · intro more
        rw [shift]
        exact no (Nat.succ_lt_succ more)

end Admitted

namespace Worker

/-- Visiting hints makes the first ones, up to the first answer of no. -/
theorem visitUntil_receive (keepGoing : Nat → Bool) (progress : Progress) (hints : List Hint) :
    let made := admitted keepGoing progress.checks hints.length
    let issued := progress.outlet.issueAll (hints.take made)
    visitUntil (Progress.receive keepGoing) progress hints =
      (if made = hints.length then .more else .halt, {
        outlet := issued.2
        checks := progress.checks + min (made + 1) hints.length
        calls := progress.calls + made
        bytes := progress.bytes + issued.1 }) := by
  induction hints generalizing progress with
  | nil => rfl
  | cons hint hints ih =>
    intro made issued
    cases answer : keepGoing progress.checks with
    | false =>
      have none : made = 0 := if_neg (by rw [answer]; nofun)
      have one : min (0 + 1) (hints.length + 1) = 1 := by omega
      simp only [visitUntil, Progress.receive, answer, issued, none, List.take_zero,
        Outlet.issueAll, List.length_cons, one]
      rfl
    | true =>
      have some : made = admitted keepGoing (progress.checks + 1) hints.length + 1 :=
        if_pos answer
      simp only [visitUntil, Progress.receive, answer, if_true, issued, some, List.take_succ_cons,
        Outlet.issueAll, List.length_cons, ih, Nat.add_right_cancel_iff]
      generalize admitted keepGoing (progress.checks + 1) hints.length = rest
      have checks : progress.checks + 1 + min (rest + 1) hints.length =
          progress.checks + min (rest + 1 + 1) (hints.length + 1) := by omega
      have calls : progress.calls + 1 + rest = progress.calls + (rest + 1) := by omega
      rw [checks, calls]
      cases (progress.outlet.issue hint).1 with
      | false => rfl
      | true => simp only [if_true, Nat.add_assoc]

section Process

variable {worker : Worker} {snapshot : Snapshot} {request : Request} {current : UInt32}

/-- A request that is too old is counted, and that is all. -/
theorem processWith_of_stale (old : worker.isStale request current = true)
    (keepGoing : Nat → Bool) :
    worker.processWith snapshot request current keepGoing =
      (.stale, { worker with outlet := worker.outlet.count .stale }) :=
  if_pos old

/-- A plan that is broken off leaves the planner as the hints made before leave it: a plan of
several hints does not move it. -/
theorem afterHints_of_broken {made : Nat}
    (broken : made < (worker.planner.fullPlan snapshot request).length) :
    worker.planner.afterHints request.direction
      ((worker.planner.fullPlan snapshot request).take made) = worker.planner := by
  by_cases policy : worker.planner.policy = .sequential
  · have single := Planner.length_fullPlan_le policy snapshot request
    obtain rfl : made = 0 := by omega
    rfl
  · exact Planner.afterHints_of_ne_sequential policy _ _

/-- Of a request that is not too old the first hints are made, as many as were admitted. -/
theorem processWith_of_fresh (fresh : worker.isStale request current = false)
    (keepGoing : Nat → Bool) :
    let plan := worker.planner.fullPlan snapshot request
    let hints := plan.take (admitted keepGoing 0 plan.length)
    let issued := worker.outlet.issueAll hints
    worker.processWith snapshot request current keepGoing =
      (.hinted hints.length issued.1, {
        worker with
        planner := worker.planner.afterHints request.direction hints
        outlet := issued.2 }) := by
  intro plan hints issued
  have within : admitted keepGoing 0 plan.length ≤ plan.length := admitted_le _ _
  have length : hints.length = admitted keepGoing 0 plan.length :=
    (List.length_take ..).trans (Nat.min_eq_left within)
  have visit := visitUntil_receive keepGoing ⟨worker.outlet, 0, 0, 0⟩ plan
  simp only [Nat.zero_add] at visit
  rw [processWith, fresh, Planner.plan_eq, Planner.visitHints, visit, length]
  rcases Nat.eq_or_lt_of_le within with all | broken
  · have whole : hints = plan := List.take_of_length_le (Nat.le_of_eq all.symm)
    rw [if_pos all, whole]
    rfl
  · rw [if_neg (Nat.ne_of_lt broken), afterHints_of_broken broken]
    rfl

/-- If nobody asks, all hints of the plan are made. -/
theorem process_of_fresh (fresh : worker.isStale request current = false) :
    let hints := worker.planner.fullPlan snapshot request
    let issued := worker.outlet.issueAll hints
    worker.process snapshot request current =
      (.hinted hints.length issued.1, {
        worker with
        planner := worker.planner.afterHints request.direction hints
        outlet := issued.2 }) := by
  intro hints issued
  have all : admitted (fun _ => true) 0 hints.length = hints.length :=
    admitted_eq (Nat.le_refl _) 0 (fun _ _ => rfl) fun more => absurd more (Nat.lt_irrefl _)
  have outcome : worker.process snapshot request current = _ :=
    processWith_of_fresh fresh fun _ => true
  simp only [outcome, hints, issued, all, List.take_length]

/-- Only windows move the planner. -/
theorem process_of_ne_sequential (other : worker.planner.policy ≠ .sequential)
    (fresh : worker.isStale request current = false) :
    let hints := worker.planner.fullPlan snapshot request
    let issued := worker.outlet.issueAll hints
    worker.process snapshot request current =
      (.hinted hints.length issued.1, { worker with outlet := issued.2 }) := by
  intro hints issued
  have outcome : worker.process snapshot request current = _ := process_of_fresh fresh
  rw [outcome, Planner.afterHints_of_ne_sequential other]

end Process

end Worker

end LayeredGraph
