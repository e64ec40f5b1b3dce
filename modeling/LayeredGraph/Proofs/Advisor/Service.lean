import LayeredGraph.Proofs.Hint.Worker

/-! What a worker beside the traversals saw of a request, and what it made of it. The hints of a
request are told by the checks between them, at each of which the worker may break off. -/
namespace LayeredGraph

/-- What the worker saw when it asked whether to go on. -/
structure Check where
  stopped : Bool
  epoch : UInt32
  deriving DecidableEq, Repr

/-- A request that the worker took, with the epoch, the snapshot and the worker's planner at that
moment, and what the worker saw since, each time it asked whether to go on. -/
structure Service where
  request : Request
  epoch : UInt32
  snapshot : Snapshot
  planner : Planner
  checks : List Check

namespace Service

section Service

variable (threshold : UInt32) (service : Service)

def isStale : Bool := threshold < epochAge service.epoch service.request.epoch

/-- Whether a check makes the worker break off: it sees the stop flag, or an epoch in which the
request is too old. -/
def refuses (seen : Check) : Bool :=
  seen.stopped || decide (threshold < epochAge seen.epoch service.request.epoch)

/-- All hints that the request asked for. -/
def plan : List Hint := service.planner.fullPlan service.snapshot service.request

/-- The number of checks before the first that made the worker break off. -/
def made : Nat := service.checks.findIdx (service.refuses threshold)

/-- The hints that are due: none if the request was too old when it was taken, else the first of
its plan, as many as there were checks before the worker broke off. -/
def hints : List Hint :=
  if service.isStale threshold then [] else service.plan.take (service.made threshold)

/-- What a worker answers, and what becomes of it, once the hints that are due are made. -/
def result (outlet : Outlet) : Outcome × Worker :=
  if service.isStale threshold then
    (.stale, ⟨service.planner, outlet.count .stale, threshold⟩)
  else
    let issued := outlet.issueAll (service.hints threshold)
    (.hinted (service.hints threshold).length issued.1,
      ⟨service.planner.afterHints service.request.direction (service.hints threshold), issued.2,
        threshold⟩)

/-- A request being worked off: no check has made the worker break off. -/
structure Going : Prop where
  fresh : service.isStale threshold = false
  agreed : ∀ seen ∈ service.checks, service.refuses threshold seen = false
  within : service.checks.length ≤ service.plan.length

/-- A request worked off: if its plan was not finished, a check made the worker break off. -/
structure Over : Prop where
  within : service.made threshold ≤ service.plan.length
  refused : service.isStale threshold = false → service.made threshold < service.plan.length →
    service.made threshold < service.checks.length

end Service

def check (service : Service) (seen : Check) : Service :=
  { service with checks := service.checks ++ [seen] }

section Check

variable {threshold : UInt32} {service : Service}

/-- Before the first check no hint is due. -/
theorem hints_of_unchecked (new : service.checks = []) : service.hints threshold = [] := by
  rw [hints, made, new]
  split <;> rfl

theorem length_check (service : Service) (seen : Check) :
    (service.check seen).checks.length = service.checks.length + 1 := List.length_append

theorem Going.made_eq (h : service.Going threshold) :
    service.made threshold = service.checks.length :=
  List.findIdx_eq_length_of_false h.agreed

theorem Going.hints_eq (h : service.Going threshold) :
    service.hints threshold = service.plan.take service.checks.length := by
  rw [hints, h.fresh, h.made_eq]
  rfl

/-- A request that was too old is over at once. -/
theorem Over.of_stale (old : service.isStale threshold = true) (unchecked : service.checks = []) :
    service.Over threshold := by
  refine ⟨?_, fun fresh => ?_⟩
  · rw [made, unchecked]
    exact Nat.zero_le _
  · rw [old] at fresh
    nomatch fresh

/-- A request whose plan is finished is over. -/
theorem Going.finish (h : service.Going threshold)
    (finished : service.plan.drop service.checks.length = []) : service.Over threshold := by
  have all := List.drop_eq_nil_iff.1 finished
  rw [← h.made_eq] at all
  exact ⟨h.made_eq ▸ h.within, fun _ broken => absurd broken (Nat.not_lt.2 all)⟩

variable {seen : Check}

/-- A check that lets the worker go on adds the next hint of the plan. -/
theorem Going.agree (h : service.Going threshold) {next : Hint} {rest : List Hint}
    (left : service.plan.drop service.checks.length = next :: rest)
    (yes : service.refuses threshold seen = false) :
    (service.check seen).Going threshold ∧
      (service.check seen).hints threshold = service.hints threshold ++ [next] ∧
      (service.check seen).plan.drop (service.check seen).checks.length = rest := by
  have found : service.plan[service.checks.length]? = some next := by
    rw [← List.head?_drop, left, List.head?_cons]
  have plan : (service.check seen).plan = service.plan := rfl
  have going : (service.check seen).Going threshold := by
    refine ⟨h.fresh, fun other mem => ?_, ?_⟩
    · rcases List.mem_append.1 mem with earlier | last
      · exact h.agreed other earlier
      · obtain rfl := List.mem_singleton.1 last
        exact yes
    · rw [length_check]
      exact (List.getElem?_eq_some_iff.1 found).1
  refine ⟨going, ?_, ?_⟩
  · rw [going.hints_eq, h.hints_eq, length_check, plan, List.take_add_one, found]
    rfl
  · rw [length_check, plan, ← List.tail_drop, left, List.tail_cons]

/-- A check that makes the worker break off adds no hint. -/
theorem Going.refuse (h : service.Going threshold)
    (no : service.refuses threshold seen = true) :
    (service.check seen).Over threshold ∧
      (service.check seen).hints threshold = service.hints threshold := by
  have made : (service.check seen).made threshold = service.checks.length := by
    have before := h.made_eq
    rw [Service.made] at before
    change (service.checks ++ [seen]).findIdx (service.refuses threshold) = _
    rw [List.findIdx_append, before, if_neg (Nat.lt_irrefl _), List.findIdx_singleton, if_pos no,
      Nat.zero_add]
  have fresh : (service.check seen).isStale threshold = false := h.fresh
  refine ⟨⟨made ▸ h.within, fun _ _ => ?_⟩, ?_⟩
  · rw [made, length_check]
    exact Nat.lt_succ_self _
  · rw [hints, fresh, made, h.hints_eq]
    rfl

end Check

/-- Walking the plan of a request that is over, with the checks for answers, makes the hints that
are due and no others, whatever would be answered later. -/
theorem Over.processWith_eq {threshold : UInt32} {service : Service}
    (h : service.Over threshold) (outlet : Outlet) {keepGoing : Nat → Bool}
    (answers : ∀ number seen, service.checks[number]? = some seen →
      keepGoing number = !service.refuses threshold seen) :
    Worker.processWith ⟨service.planner, outlet, threshold⟩ service.snapshot service.request
      service.epoch keepGoing = service.result threshold outlet := by
  have same : Worker.isStale ⟨service.planner, outlet, threshold⟩ service.request service.epoch =
      service.isStale threshold := rfl
  cases age : service.isStale threshold with
  | true =>
    rw [result, age]
    exact Worker.processWith_of_stale (same.trans age) keepGoing
  | false =>
    have made : admitted keepGoing 0 service.plan.length = service.made threshold := by
      refine admitted_eq h.within 0 (fun number before => ?_) (fun broken => ?_)
      · have asked := Nat.lt_of_lt_of_le before List.findIdx_le_length
        rw [Nat.zero_add, answers number _ (List.getElem?_eq_getElem asked),
          List.not_of_lt_findIdx before]
        rfl
      · have asked := h.refused age broken
        rw [Nat.zero_add, answers _ _ (List.getElem?_eq_getElem asked)]
        exact congrArg not List.findIdx_getElem
    have due : service.hints threshold =
        service.plan.take (admitted keepGoing 0 service.plan.length) := by
      rw [hints, age, made]
      rfl
    rw [result, age, due]
    exact Worker.processWith_of_fresh (same.trans age) keepGoing

end Service

end LayeredGraph
