import LayeredGraph.Advisor
import LayeredGraph.Proofs.Advisor.Service
import LayeredGraph.Proofs.Queue.Feed
import LayeredGraph.Queue.LoggedCache

/-! Runs of an advisor in the background. A run keeps a record of the requests that were advised and
of what the worker saw of each request that it took. From this record it follows which hints were
made, however the steps of both sides are interleaved. -/
namespace LayeredGraph

variable {κ : Type} [RequestCache κ]

namespace Background

theorem advise_of_running {state : Background κ} {maxNodes : Nat} {node : NodeId}
    (running : state.stopped = false) (inside : node.toNat < maxNodes) (direction : Direction) :
    ∃ event, (event = .enqueued ∨ event = .dropped ∧ state.channel.queue.hasRoom = false) ∧
      state.advise maxNodes node direction = (.ok (), { state.count event with
        channel := (state.channel.enqueue ⟨node, state.channel.epoch, direction⟩).2.incrementEpoch.2
      }) := by
  rw [advise, running, if_neg nofun, if_neg (Nat.not_le.2 inside)]
  cases room : state.channel.queue.hasRoom with
  | true =>
    refine ⟨.enqueued, .inl rfl, ?_⟩
    rw [Channel.enqueue, if_pos room]
  | false =>
    refine ⟨.dropped, .inr ⟨rfl, rfl⟩, ?_⟩
    rw [Channel.enqueue, room]
    rfl

theorem advise_of_refused {state : Background κ} {maxNodes : Nat} {node : NodeId}
    (refused : ¬(state.stopped = false ∧ node.toNat < maxNodes)) (direction : Direction) :
    ∃ error, state.advise maxNodes node direction = (.error error, state) := by
  rw [advise]
  cases stopped : state.stopped with
  | true => exact ⟨_, rfl⟩
  | false =>
    have outside : maxNodes ≤ node.toNat := Nat.le_of_not_lt fun inside => refused ⟨stopped, inside⟩
    rw [if_neg nofun, if_pos outside]
    exact ⟨_, rfl⟩

/-- Everything that taking a request can come to. -/
theorem take_cases (state : Background κ) (snapshot : Snapshot) :
    ((state.stopped = true ∨ state.task.isSome = true) ∧ state.take snapshot = state) ∨
    (state.stopped = false ∧ state.task = none ∧ state.channel.dequeue.1 = none ∧
      state.take snapshot = { state with channel := state.channel.dequeue.2 }) ∨
    ∃ request, state.stopped = false ∧ state.task = none ∧
      state.channel.dequeue.1 = some request ∧ state.take snapshot =
        if state.worker.isStale request state.channel.dequeue.2.epoch then
          { state.count .stale with channel := state.channel.dequeue.2 }
        else { state with
          channel := state.channel.dequeue.2
          task := some ⟨request, state.worker.planner.fullPlan snapshot request⟩ } := by
  unfold take
  cases stopped : state.stopped with
  | true => exact .inl ⟨.inl rfl, rfl⟩
  | false =>
    cases task : state.task with
    | some task => exact .inl ⟨.inr rfl, rfl⟩
    | none =>
      refine .inr ?_
      rw [if_neg nofun]
      cases found : state.channel.dequeue with
      | mk answer channel =>
        cases answer with
        | none => exact .inl ⟨rfl, rfl, rfl, rfl⟩
        | some request => exact .inr ⟨request, rfl, rfl, rfl, rfl⟩

end Background

/-- The state of both sides with a record of the requests that were advised, each under the number
of those before it, of the requests worked off, and of the one being worked off. -/
structure BackgroundRun (κ : Type) where
  state : Background κ
  advised : List Request
  served : List Service
  current : Option Service

namespace BackgroundRun

/-- All requests that the worker took. -/
def services (run : BackgroundRun κ) : List Service := run.served ++ run.current.toList

/-- What is being worked off after the worker looks for the next request. -/
def taken (run : BackgroundRun κ) (snapshot : Snapshot) : Option Service :=
  if run.state.stopped || run.state.task.isSome then run.current
  else
    run.state.channel.dequeue.1.map fun request =>
      ⟨request, run.state.channel.dequeue.2.epoch, snapshot, run.state.worker.planner, []⟩

/-- What is being worked off after the worker asks whether to make the next hint, if one is left. -/
def asked (run : BackgroundRun κ) : Option Service :=
  match run.state.task with
  | some ⟨_, _ :: _⟩ => run.current.map (·.check ⟨run.state.stopped, run.state.channel.epoch⟩)
  | _ => run.current

/-- Puts what was being worked off to the rest, once the worker is done with it. -/
def settle (run : BackgroundRun κ) : BackgroundRun κ :=
  match run.state.task with
  | some _ => run
  | none => { run with served := run.services, current := none }

def step (run : BackgroundRun κ) : Background.Step → BackgroundRun κ
  | .advise maxNodes node direction =>
      match run.state.advise maxNodes node direction with
      | (.ok _, state) =>
          { run with
            state
            advised := run.advised ++ [⟨node, UInt32.ofNat run.advised.length, direction⟩] }
      | (.error _, state) => { run with state }
  | .take snapshot =>
      settle { run with state := run.state.take snapshot, current := run.taken snapshot }
  | .hint => settle { run with state := run.state.hint, current := run.asked }
  | .stop => { run with state := run.state.stop }

def start (state : Background κ) : BackgroundRun κ := ⟨state, [], [], none⟩

/-- The run that some steps of both sides make. -/
def ofSteps (state : Background κ) (steps : List Background.Step) : BackgroundRun κ :=
  steps.foldl step (start state)

/-- A planner after the hints that are due of some requests. -/
def plannerAfter (threshold : UInt32) (planner : Planner) (services : List Service) : Planner :=
  services.foldl (fun planner service =>
    planner.afterHints service.request.direction (service.hints threshold)) planner

theorem plannerAfter_append_singleton (threshold : UInt32) (planner : Planner)
    (services : List Service) (service : Service) :
    plannerAfter threshold planner (services ++ [service]) =
      (plannerAfter threshold planner services).afterHints service.request.direction
        (service.hints threshold) :=
  List.foldl_append

/-- A run whose record accounts for the state: what the worker took was advised, the planner stands
as the hints that are due leave it, and exactly these went to the sink. -/
structure Accounts (options : Options) (sink : Sink) (run : BackgroundRun κ) : Prop where
  fed : run.state.channel.Fed options.queue run.advised
  epochs : ∀ earlier request, run.advised[earlier]? = some request →
    request.epoch = UInt32.ofNat earlier
  requests : ∀ service ∈ run.services, service.request ∈ run.advised
  threshold : run.state.worker.stalenessThreshold = options.stalenessThreshold
  planner : run.state.worker.planner =
    plannerAfter options.stalenessThreshold (.ofOptions options) run.services
  outlet : ∃ enqueued dropped, enqueued + dropped = run.advised.length ∧
    (options.queue.kind ≠ .block → dropped = 0) ∧
    run.state.worker.outlet = .after sink
      (run.services.flatMap (Service.hints options.stalenessThreshold)) enqueued dropped
      (run.services.countP (Service.isStale options.stalenessThreshold))

/-- A run whose record also says where the worker stands. -/
structure Holds (options : Options) (sink : Sink) (run : BackgroundRun κ) : Prop
    extends Accounts options sink run where
  task : run.state.task = run.current.map fun service =>
    ⟨service.request, service.plan.drop service.checks.length⟩
  going : ∀ service, run.current = some service → service.Going options.stalenessThreshold
  ended : ∀ service ∈ run.served, service.Over options.stalenessThreshold

theorem holds_start (options : Options) (sink : Sink) :
    (start (⟨.ofOptions options (.ofSink sink (.counting {})), .ofConfig options.queue, none,
      false⟩ : Background κ)).Holds options sink := by
  refine ⟨⟨Channel.fed_start options.queue, nofun, nofun, rfl, rfl, ?_⟩, rfl, nofun, nofun⟩
  exact ⟨0, 0, rfl, fun _ => rfl, (Outlet.after_nil sink).symm⟩

section Steps

variable {options : Options} {sink : Sink} {run : BackgroundRun κ}

omit [RequestCache κ] in
theorem services_of_none (idle : run.current = none) : run.services = run.served := by
  rw [services, idle]
  exact List.append_nil _

omit [RequestCache κ] in
theorem services_of_some {service : Service} (current : run.current = some service) :
    run.services = run.served ++ [service] := by
  rw [services, current]
  rfl

omit [RequestCache κ] in
@[simp] theorem services_settle (run : BackgroundRun κ) : run.settle.services = run.services := by
  unfold settle
  split
  · rfl
  · exact List.append_nil _

omit [RequestCache κ] in
@[simp] theorem state_settle (run : BackgroundRun κ) : run.settle.state = run.state := by
  unfold settle
  split <;> rfl

omit [RequestCache κ] in
@[simp] theorem advised_settle (run : BackgroundRun κ) : run.settle.advised = run.advised := by
  unfold settle
  split <;> rfl

theorem Accounts.settle (h : run.Accounts options sink) : run.settle.Accounts options sink := by
  constructor <;> simp only [services_settle, state_settle, advised_settle]
  · exact h.fed
  · exact h.epochs
  · exact h.requests
  · exact h.threshold
  · exact h.planner
  · exact h.outlet

/-- Once the worker is done with a request, it is put to the rest. -/
theorem Accounts.settle_of_none (h : run.Accounts options sink) (done : run.state.task = none)
    (ended : ∀ service ∈ run.services, service.Over options.stalenessThreshold) :
    run.settle.Holds options sink := by
  have settled : run.settle = { run with served := run.services, current := none } := by
    rw [BackgroundRun.settle, done]
  refine ⟨h.settle, ?_, ?_, ?_⟩ <;> rw [settled]
  · exact done
  · nofun
  · exact ended

/-- While the worker is at a request, nothing is put to the rest. -/
theorem Accounts.settle_of_some (h : run.Accounts options sink) {service : Service}
    (current : run.current = some service)
    (task : run.state.task = some ⟨service.request, service.plan.drop service.checks.length⟩)
    (going : service.Going options.stalenessThreshold)
    (ended : ∀ service ∈ run.served, service.Over options.stalenessThreshold) :
    run.settle.Holds options sink := by
  have settled : run.settle = run := by
    rw [BackgroundRun.settle, task]
  rw [settled]
  refine ⟨h, ?_, fun other same => ?_, ended⟩
  · rw [task, current]
    rfl
  · rw [current] at same
    exact Option.some.inj same ▸ going

theorem Holds.settle (h : run.Holds options sink) : run.settle.Holds options sink := by
  have task := h.task
  cases current : run.current with
  | none =>
    rw [current] at task
    refine h.settle_of_none task ?_
    rw [services_of_none current]
    exact h.ended
  | some service =>
    rw [current] at task
    exact h.settle_of_some current task (h.going service current) h.ended

theorem Holds.step_advise (h : run.Holds options sink) (maxNodes : Nat) (node : NodeId)
    (direction : Direction) :
    (run.step (.advise maxNodes node direction)).Holds options sink := by
  by_cases accepts : run.state.stopped = false ∧ node.toNat < maxNodes
  · obtain ⟨event, became, answer⟩ :=
      Background.advise_of_running accepts.1 accepts.2 direction
    obtain ⟨enqueued, dropped, total, none, outlet⟩ := h.outlet
    rw [BackgroundRun.step, answer]
    refine ⟨⟨h.fed.enqueue node direction, fun earlier request found => ?_,
      fun service mem => List.mem_append_left _ (h.requests service mem), h.threshold, h.planner,
      ?_⟩, h.task, h.going, h.ended⟩
    · rcases Nat.lt_or_ge earlier run.advised.length with before | last
      · exact h.epochs earlier request (List.getElem?_append_left before ▸ found)
      · have inside := (List.getElem?_eq_some_iff.1 found).1
        rw [List.length_append, List.length_singleton] at inside
        obtain rfl : earlier = run.advised.length := by omega
        rw [List.getElem?_concat_length] at found
        exact Option.some.inj found ▸ rfl
    · rw [List.length_append, List.length_singleton]
      rcases became with rfl | ⟨rfl, full⟩
      · refine ⟨enqueued + 1, dropped, by omega, none, ?_⟩
        exact (congrArg (Outlet.count · .enqueued) outlet).trans (Outlet.count_enqueued ..)
      · refine ⟨enqueued, dropped + 1, by omega, fun unbounded => ?_, ?_⟩
        · have room := h.fed.hasRoom unbounded
          rw [full] at room
          nomatch room
        · exact (congrArg (Outlet.count · .dropped) outlet).trans (Outlet.count_dropped ..)
  · obtain ⟨error, answer⟩ := Background.advise_of_refused accepts direction
    rw [BackgroundRun.step, answer]
    exact h

/-- Taking a request makes no hint yet; a request that is too old is counted. -/
theorem Accounts.take [LawfulRequestCache κ] (h : run.Accounts options sink)
    (idle : run.current = none) {service : Service}
    (found : run.state.channel.dequeue.1 = some service.request)
    (unchecked : service.checks = []) (task : Option Task) :
    Accounts options sink { run with
      state := { run.state with
        worker := { run.state.worker with
          outlet := if service.isStale options.stalenessThreshold then
            run.state.worker.outlet.count .stale else run.state.worker.outlet }
        channel := run.state.channel.dequeue.2
        task }
      current := some service } := by
  have before := services_of_none idle
  have none : service.hints options.stalenessThreshold = [] :=
    Service.hints_of_unchecked unchecked
  obtain ⟨enqueued, dropped, total, unbounded, outlet⟩ := h.outlet
  refine ⟨h.fed.dequeue, h.epochs, fun other mem => ?_, h.threshold, ?_, ?_⟩
  · rcases List.mem_append.1 mem with earlier | last
    · exact h.requests other (before ▸ earlier)
    · obtain rfl := List.mem_singleton.1 last
      exact h.fed.mem found
  · change run.state.worker.planner = plannerAfter _ _ (run.served ++ [service])
    rw [plannerAfter_append_singleton, none, ← before]
    exact h.planner
  · refine ⟨enqueued, dropped, total, unbounded, ?_⟩
    change (if _ then run.state.worker.outlet.count .stale else run.state.worker.outlet) =
      .after sink (List.flatMap _ (run.served ++ [service])) _ _
        (List.countP _ (run.served ++ [service]))
    rw [List.flatMap_append, List.countP_append, List.flatMap_singleton, none, List.append_nil,
      List.countP_singleton, outlet, before]
    split
    · exact Outlet.count_stale ..
    · rfl

/-- What was worked off before is over, and so is a request that is ended now. -/
theorem Holds.ended_append (h : run.Holds options sink) {service : Service}
    (ended : service.Over options.stalenessThreshold) :
    ∀ other ∈ run.served ++ [service], other.Over options.stalenessThreshold := by
  intro other mem
  rcases List.mem_append.1 mem with earlier | last
  · exact h.ended other earlier
  · exact List.mem_singleton.1 last ▸ ended

theorem Holds.current_eq_none (h : run.Holds options sink) (idle : run.state.task = none) :
    run.current = none := by
  rw [h.task] at idle
  exact Option.map_eq_none_iff.1 idle

theorem Holds.step_take [LawfulRequestCache κ] (h : run.Holds options sink) (snapshot : Snapshot) :
    (run.step (.take snapshot)).Holds options sink := by
  rw [BackgroundRun.step]
  rcases run.state.take_cases snapshot with ⟨busy, same⟩ | ⟨running, idle, empty, left⟩ |
    ⟨request, running, idle, found, left⟩
  · have kept : run.taken snapshot = run.current := if_pos (Bool.or_eq_true_iff.2 busy)
    rw [same, kept]
    exact h.settle
  · have kept : run.taken snapshot = run.current := by
      rw [taken, running, idle, empty, h.current_eq_none idle]
      rfl
    rw [kept, left]
    have left : Holds options sink
        { run with state := { run.state with channel := run.state.channel.dequeue.2 } } :=
      ⟨⟨h.fed.dequeue, h.epochs, h.requests, h.threshold, h.planner, h.outlet⟩, h.task, h.going,
        h.ended⟩
    exact left.settle
  · let service : Service :=
      ⟨request, run.state.channel.dequeue.2.epoch, snapshot, run.state.worker.planner, []⟩
    have new : run.taken snapshot = some service := by
      rw [taken, running, idle, found]
      rfl
    have age : run.state.worker.isStale request run.state.channel.dequeue.2.epoch =
        service.isStale options.stalenessThreshold := by
      rw [Worker.isStale, h.threshold]
      rfl
    have asked : run.state.channel.dequeue.1 = some service.request := found
    have account := h.toAccounts.take (h.current_eq_none idle) asked rfl
    rw [new, left, age]
    cases stale : service.isStale options.stalenessThreshold with
    | true =>
      rw [stale] at account
      exact (account run.state.task).settle_of_none idle (h.ended_append (.of_stale stale rfl))
    | false =>
      rw [stale] at account
      exact (account _).settle_of_some rfl rfl ⟨stale, nofun, Nat.zero_le _⟩ h.ended

/-- Going on with a request, or ending it, changes the account by the hints that were made. -/
theorem Accounts.replace (h : run.Accounts options sink) {service later : Service}
    (current : run.current = some service) {added : List Hint}
    (request : later.request = service.request)
    (age : later.isStale options.stalenessThreshold = service.isStale options.stalenessThreshold)
    (hints : later.hints options.stalenessThreshold =
      service.hints options.stalenessThreshold ++ added) (task : Option Task) :
    Accounts options sink { run with
      state := { run.state with
        worker := { run.state.worker with
          planner := run.state.worker.planner.afterHints service.request.direction added
          outlet := (run.state.worker.outlet.issueAll added).2 }
        task }
      current := some later } := by
  have before := services_of_some current
  obtain ⟨enqueued, dropped, total, unbounded, outlet⟩ := h.outlet
  refine ⟨h.fed, h.epochs, fun other mem => ?_, h.threshold, ?_, ?_⟩
  · rcases List.mem_append.1 mem with earlier | last
    · exact h.requests other (before ▸ List.mem_append_left _ earlier)
    · obtain rfl := List.mem_singleton.1 last
      rw [request]
      exact h.requests service (before ▸ List.mem_append_right _ (List.mem_singleton_self _))
  · change run.state.worker.planner.afterHints _ added =
      plannerAfter _ _ (run.served ++ [later])
    rw [plannerAfter_append_singleton, request, hints, Planner.afterHints_append,
      ← plannerAfter_append_singleton, ← before, h.planner]
  · refine ⟨enqueued, dropped, total, unbounded, ?_⟩
    change (run.state.worker.outlet.issueAll added).2 =
      .after sink (List.flatMap _ (run.served ++ [later])) _ _
        (List.countP _ (run.served ++ [later]))
    rw [outlet, Outlet.issueAll_after, before]
    simp only [List.flatMap_append, List.countP_append, List.flatMap_singleton,
      List.countP_singleton, hints, age, List.append_assoc]

/-- The worker's question and the check that records it come to the same. -/
theorem Holds.keepGoing_eq (h : run.Holds options sink) (service : Service) :
    run.state.keepGoing service.request = !service.refuses options.stalenessThreshold
      ⟨run.state.stopped, run.state.channel.epoch⟩ := by
  rw [Background.keepGoing, Worker.isStale, h.threshold, Service.refuses, Bool.not_or]

theorem Holds.step_hint (h : run.Holds options sink) :
    (run.step .hint).Holds options sink := by
  have task := h.task
  rw [BackgroundRun.step]
  cases current : run.current with
  | none =>
    rw [current, Option.map_none] at task
    have same : run.state.hint = run.state := by rw [Background.hint, task]
    have kept : run.asked = run.current := by rw [asked, task]
    rw [same, kept]
    exact h.settle
  | some service =>
    rw [current, Option.map_some] at task
    have going := h.going service current
    cases left : service.plan.drop service.checks.length with
    | nil =>
      rw [left] at task
      have done : run.state.hint = { run.state with task := none } := by
        rw [Background.hint, task]
      have kept : run.asked = some service := by rw [asked, task, current]
      have account := h.replace current rfl rfl (List.append_nil _).symm none
      rw [done, kept]
      exact account.settle_of_none rfl (h.ended_append (going.finish left))
    | cons next rest =>
      rw [left] at task
      let seen : Check := ⟨run.state.stopped, run.state.channel.epoch⟩
      have asks : run.asked = some (service.check seen) := by
        rw [asked, task, current]
        rfl
      have question : run.state.keepGoing service.request =
          !service.refuses options.stalenessThreshold seen := h.keepGoing_eq service
      have request : (service.check seen).request = service.request := rfl
      rw [asks, Background.hint, task]
      simp only [question]
      cases answer : service.refuses options.stalenessThreshold seen with
      | false =>
        obtain ⟨later, hints, behind⟩ := going.agree left answer
        have account := h.replace current request rfl hints (some ⟨service.request, rest⟩)
        exact account.settle_of_some rfl (by rw [behind]; rfl) later h.ended
      | true =>
        obtain ⟨ended, hints⟩ := going.refuse answer
        have account := h.replace current request rfl
          (hints.trans (List.append_nil _).symm) none
        exact account.settle_of_none rfl (h.ended_append ended)

/-- Every step of either side keeps the account. -/
theorem Holds.step [LawfulRequestCache κ] (h : run.Holds options sink)
    (next : Background.Step) : (run.step next).Holds options sink := by
  cases next with
  | advise maxNodes node direction => exact h.step_advise maxNodes node direction
  | take snapshot => exact h.step_take snapshot
  | hint => exact h.step_hint
  | stop =>
    exact ⟨⟨h.fed, h.epochs, h.requests, h.threshold, h.planner, h.outlet⟩, h.task, h.going,
      h.ended⟩

theorem Holds.foldl [LawfulRequestCache κ] (h : run.Holds options sink)
    (steps : List Background.Step) : (steps.foldl BackgroundRun.step run).Holds options sink :=
  List.foldlRecOn (motive := fun run : BackgroundRun κ => run.Holds options sink) steps _ h
    fun _ held next _ => held.step next

end Steps

/-- The record follows the state through every step. -/
theorem state_step (run : BackgroundRun κ) (next : Background.Step) :
    (run.step next).state = run.state.step next := by
  cases next with
  | advise maxNodes node direction =>
    rw [step, Background.step]
    cases run.state.advise maxNodes node direction with
    | mk answer state => cases answer <;> rfl
  | take snapshot => exact state_settle _
  | hint => exact state_settle _
  | stop => rfl

theorem state_foldl (run : BackgroundRun κ) (steps : List Background.Step) :
    (steps.foldl step run).state = run.state.run steps := by
  induction steps generalizing run with
  | nil => rfl
  | cons next steps ih => rw [List.foldl_cons, ih, state_step]; rfl

theorem state_ofSteps (state : Background κ) (steps : List Background.Step) :
    (ofSteps state steps).state = state.run steps := state_foldl (start state) steps

end BackgroundRun

namespace Background

/-- Nothing but raising the stop flag raises it. -/
theorem stopped_step (state : Background κ) {next : Step} (other : next ≠ .stop) :
    (state.step next).stopped = state.stopped := by
  cases next with
  | advise maxNodes node direction =>
    by_cases accepts : state.stopped = false ∧ node.toNat < maxNodes
    · obtain ⟨event, -, answer⟩ := advise_of_running accepts.1 accepts.2 direction
      rw [step, answer]
      rfl
    · obtain ⟨error, answer⟩ := advise_of_refused accepts direction
      rw [step, answer]
  | take snapshot =>
    rw [step]
    rcases state.take_cases snapshot with ⟨-, left⟩ | ⟨-, -, -, left⟩ | ⟨request, -, -, -, left⟩ <;>
      rw [left]
    split <;> rfl
  | hint =>
    rw [step, hint]
    split
    · rfl
    · rfl
    · split <;> rfl
  | stop => exact absurd rfl other

theorem stopped_run (state : Background κ) {steps : List Step} (running : .stop ∉ steps) :
    (state.run steps).stopped = state.stopped := by
  induction steps generalizing state with
  | nil => rfl
  | cons next steps ih =>
    obtain ⟨first, later⟩ := not_or.1 (mt List.mem_cons.2 running)
    exact (ih _ later).trans (state.stopped_step (Ne.symm first))

end Background

/-- A request is counted once, whether it was enqueued or dropped. -/
theorem Stats.record_request {event : Event} (request : event = .enqueued ∨ event = .dropped)
    (stats : Stats) : (stats.record event).enqueued + (stats.record event).dropped =
      stats.enqueued + stats.dropped + 1 := by
  rcases request with rfl | rfl
  · change stats.enqueued + 1 + stats.dropped = stats.enqueued + stats.dropped + 1
    rw [UInt64.add_assoc, UInt64.add_comm 1, ← UInt64.add_assoc]
  · exact (UInt64.add_assoc ..).symm

theorem Options.fault?_of_validate {options : Options} (valid : options.validate = .ok ()) :
    options.fault? = none := by
  cases fault : options.fault? with
  | none => rfl
  | some fault =>
    rw [Options.validate, fault] at valid
    nomatch valid

/-- Valid options of a background advisor have a valid queue. -/
theorem Options.validate_queue {options : Options} (valid : options.validate = .ok ())
    (background : options.background = true) : options.queue.validate = .ok () := by
  have fault := Options.fault?_of_validate valid
  unfold Options.fault? at fault
  split at fault
  · nomatch fault
  split at fault
  · nomatch fault
  split at fault
  · nomatch fault
  rw [QueueConfig.validate, Option.map_eq_none_iff.1 fault]

/-- Under valid options a background advisor starts with a channel of the selected kind. -/
theorem Advisor.start_background {options : Options} (valid : options.validate = .ok ())
    (background : options.background = true) (outlet : Outlet) :
    Advisor.start options outlet = .ok (.background
      (⟨.ofOptions options outlet, .ofConfig options.queue, none, false⟩ : Background κ)) := by
  have channel : Channel.ofConfig? options.queue = .ok (.ofConfig options.queue : Channel κ) := by
    rw [Channel.ofConfig?, Options.validate_queue valid background]
    rfl
  rw [Advisor.start, valid, background, Background.start, channel]
  rfl

/-- An advisor in the background, under any valid options and however the steps of both sides are
interleaved. Until it is stopped it accepts advice for every node of the graph: each call starts
the next epoch and is counted once, and only a queue of blocks drops any. A request carries the
number of the calls before it. What the worker takes is counted if it was too old, and has no hint
then; else its hints are the first of its plan, as many as there were checks before one saw the
stop flag or an epoch in which the request was too old. -/
theorem Advisor.background_serves [LawfulRequestCache κ] (options : Options) (sink : Sink)
    (valid : options.validate = .ok ()) (background : options.background = true) :
    ∃ state : Background κ,
      Advisor.start options (.ofSink sink (.counting {})) = .ok (.background state) ∧
      ∀ steps,
        let run := BackgroundRun.ofSteps state steps
        let threshold := options.stalenessThreshold
        let stats := run.state.worker.stats
        run.state = state.run steps ∧
        (.stop ∉ steps → ∀ graph node direction, node.toNat < graph.maxNodes →
          ∃ later,
            (Advisor.background run.state).advise graph node direction =
              (.ok (), .background later) ∧
            later.channel.epoch = run.state.channel.epoch + 1 ∧
            later.worker.stats.enqueued + later.worker.stats.dropped =
              stats.enqueued + stats.dropped + 1) ∧
        (options.queue.kind ≠ .block → stats.dropped = 0) ∧
        (∀ service ∈ run.services, ∃ earlier : Nat,
          run.advised[earlier]? = some service.request ∧
          service.request.epoch = UInt32.ofNat earlier) ∧
        (∃ enqueued dropped, enqueued + dropped = run.advised.length ∧
          run.state.worker.outlet = .after sink (run.services.flatMap (Service.hints threshold))
            enqueued dropped (run.services.countP (Service.isStale threshold))) ∧
        run.state.worker.planner =
          BackgroundRun.plannerAfter threshold (.ofOptions options) run.services ∧
        (∀ service ∈ run.served, ∀ outlet keepGoing,
          (∀ number seen, service.checks[number]? = some seen →
            keepGoing number = !service.refuses threshold seen) →
          Worker.processWith ⟨service.planner, outlet, threshold⟩ service.snapshot service.request
            service.epoch keepGoing = service.result threshold outlet) ∧
        ∀ service, run.current = some service → service.Going threshold ∧
          run.state.task = some ⟨service.request, service.plan.drop service.checks.length⟩ := by
  refine ⟨_, Advisor.start_background valid background _, fun steps => ?_⟩
  intro run threshold stats
  have holds : run.Holds options sink := (BackgroundRun.holds_start options sink).foldl steps
  obtain ⟨enqueued, dropped, total, unbounded, outlet⟩ := holds.outlet
  have state : run.state = _ := BackgroundRun.state_ofSteps _ steps
  have counting : run.state.worker.outlet.metrics = .counting stats := by
    change _ = Metrics.counting run.state.worker.outlet.metrics.stats
    rw [outlet]
    rfl
  refine ⟨state, fun running graph node direction inside => ?_, fun kind => ?_,
    fun service mem => ?_, ⟨enqueued, dropped, total, outlet⟩, holds.planner,
    fun service mem => ?_, fun service current => ⟨holds.going service current, ?_⟩⟩
  · have accepts : run.state.stopped = false := by
      rw [state]
      exact Background.stopped_run _ running
    obtain ⟨event, became, answer⟩ := Background.advise_of_running accepts inside direction
    refine ⟨_, by rw [Advisor.advise, answer], ?_, ?_⟩
    · exact congrArg (· + 1) (Channel.epoch_enqueue ..)
    · have counted : (run.state.count event).worker.stats = stats.record event := by
        change (run.state.worker.outlet.metrics.record event).stats = _
        rw [counting]
        rfl
      exact (congrArg (fun stats => stats.enqueued + stats.dropped) counted).trans
        (Stats.record_request (became.imp_right And.left) stats)
  · change run.state.worker.outlet.metrics.stats.dropped = 0
    rw [outlet, unbounded kind]
    rfl
  · obtain ⟨earlier, found⟩ := List.getElem?_of_mem (holds.requests service mem)
    exact ⟨earlier, found, holds.epochs earlier _ found⟩
  · intro outlet keepGoing answers
    exact (holds.ended service mem).processWith_eq outlet answers
  · rw [holds.task, current]
    rfl

theorem Advisor.background_serves_stale :
    let options : Options := { stalenessThreshold := 0, queue := { kind := .ring } }
    let steps : List Background.Step := [.advise 3 ⟨1⟩ .out, .take default]
    ∃ state : Background LoggedCache,
      Advisor.start options (.ofSink .recording (.counting {})) = .ok (.background state) ∧
      (BackgroundRun.ofSteps state steps).state.worker.stats.dropped = 0 ∧
      (BackgroundRun.ofSteps state steps).state.worker.stats.stale = 1 := by
  intro options steps
  obtain ⟨state, started, serves⟩ :=
    @Advisor.background_serves LoggedCache _ _ options .recording rfl rfl
  refine ⟨state, started, (serves steps).2.2.1 (by decide), ?_⟩
  have same := (Advisor.start_background rfl rfl _).symm.trans started
  injection same with same
  injection same with same
  subst same
  decide +kernel

end LayeredGraph
