import Mathlib.Logic.Basic
import LayeredGraph.Proofs.Graph.Growth
import LayeredGraph.Proofs.Hint.Worker

/-! Sliding windows. A worker that hands out the oldest level window by window remembers for each
direction how far it came. Whatever is asked for, and however the graph grows meanwhile, the windows
of a direction follow each other without gaps until the level is covered, one for each request of
the direction that counts. -/
namespace LayeredGraph

open LevelData

/-- The first windows of a level, as many as are asked for or as there are. -/
def firstWindows (size count : Nat) (level : Level) : List Hint :=
  (List.range (min count ((level.edgeCount + size - 1) / size))).map fun k =>
    ⟨level, ⟨k * size, min ((k + 1) * size) level.edgeCount⟩⟩

section FirstWindows

variable {size : Nat}

/-- There is one more window exactly if those before it do not cover all edges. -/
theorem lt_windows_iff (pos : 0 < size) (count edges : Nat) :
    count < (edges + size - 1) / size ↔ count * size < edges := by
  rw [Nat.lt_div_iff_mul_lt pos, Nat.mul_comm]
  omega

theorem firstWindows_zero (level : Level) : firstWindows size 0 level = [] := by
  rw [firstWindows, Nat.zero_min]
  rfl

theorem firstWindows_succ (pos : 0 < size) (count : Nat) (level : Level) :
    firstWindows size (count + 1) level = firstWindows size count level ++
      if count * size < level.edgeCount then
        [⟨level, ⟨count * size, min ((count + 1) * size) level.edgeCount⟩⟩]
      else [] := by
  have more := lt_windows_iff pos count level.edgeCount
  rw [firstWindows, firstWindows]
  generalize (level.edgeCount + size - 1) / size = windows at more
  split
  · next inside =>
    have inside := more.2 inside
    rw [Nat.min_eq_left inside, Nat.min_eq_left (Nat.le_of_lt inside), List.range_succ,
      List.map_append]
    rfl
  · next covered =>
    have covered := Nat.le_of_not_lt (mt more.1 covered)
    rw [Nat.min_eq_right covered, Nat.min_eq_right (Nat.le_succ_of_le covered), List.append_nil]

/-- The first windows cover the first edges, each once. -/
theorem numbers_firstWindows (pos : 0 < size) (count : Nat) (level : Level) :
    (firstWindows size count level).flatMap (·.range.numbers) =
      List.range (min (count * size) level.edgeCount) := by
  induction count with
  | zero =>
    rw [firstWindows_zero, Nat.zero_mul, Nat.zero_min]
    rfl
  | succ count ih =>
    have next : (count + 1) * size = count * size + size := Nat.succ_mul count size
    rw [firstWindows_succ pos, List.flatMap_append, ih]
    split
    · next inside =>
      have stop : min ((count + 1) * size) level.edgeCount =
          count * size + (min ((count + 1) * size) level.edgeCount - count * size) := by omega
      rw [Nat.min_eq_left (Nat.le_of_lt inside), stop, List.flatMap_singleton, EdgeRange.numbers,
        EdgeRange.length, List.range_eq_range', List.range_eq_range', ← List.range'_append_1,
        Nat.zero_add, Nat.add_sub_cancel_left]
    · next covered =>
      have all : min (count * size) level.edgeCount = min ((count + 1) * size) level.edgeCount := by
        omega
      rw [all]
      exact List.append_nil _

theorem length_of_mem_firstWindows {count : Nat} {level : Level} {hint : Hint}
    (member : hint ∈ firstWindows size count level) : hint.range.length ≤ size := by
  obtain ⟨k, -, rfl⟩ := List.mem_map.1 member
  change min ((k + 1) * size) level.edgeCount - k * size ≤ size
  rw [Nat.succ_mul]
  omega

end FirstWindows

namespace Planner

section Sequential

variable {planner : Planner} {direction : Direction} {level : Level} {size count : Nat}

/-- A planner that handed out the first windows of a level goes on with the next one, if there is
any. -/
theorem window?_eq (windowEdges : planner.windowEdges = size) (base : level.edgeBase = 0)
    (upto : planner.hintedUpto.get direction = min (count * size) level.edgeCount) :
    planner.window? level direction =
      if count * size < level.edgeCount then
        some ⟨count * size, min ((count + 1) * size) level.edgeCount⟩
      else none := by
  simp only [window?, Level.edgeEnd, base, upto, windowEdges, Nat.max_zero, Nat.zero_add,
    Nat.succ_mul]
  split
  · next covered => rw [if_neg (by omega)]
  · next inside =>
    have here : count * size < level.edgeCount := by omega
    rw [if_pos here, Nat.min_eq_left (Nat.le_of_lt here)]

theorem fullPlan_sequential (policy : planner.policy = .sequential) {snapshot : Snapshot}
    {request : Request} (first : (snapshot.stack request.direction).levels[0]? = some level)
    (inside : request.node.toNat < (snapshot.stack request.direction).maxNodes) :
    planner.fullPlan snapshot request =
      ((planner.window? level request.direction).map (Hint.mk level)).toList := by
  rw [← Array.getElem?_toList] at first
  rw [fullPlan, if_pos inside, policy]
  simp only [windowHints]
  cases levels : (snapshot.stack request.direction).levels.toList with
  | nil => simp [levels] at first
  | cons oldest rest =>
    rw [levels, List.getElem?_cons_zero] at first
    obtain rfl := Option.some.inj first
    rw [List.take_succ_cons, List.take_zero, List.flatMap_singleton]

/-- Handing out the next window, if there is any, brings the planner behind it and leaves the other
direction where it is. -/
theorem slide (policy : planner.policy = .sequential) (windowEdges : planner.windowEdges = size)
    (base : level.edgeBase = 0)
    (upto : planner.hintedUpto.get direction = min (count * size) level.edgeCount) :
    let hints := ((planner.window? level direction).map (Hint.mk level)).toList
    let later := planner.afterHints direction hints
    hints = (if count * size < level.edgeCount then
        [⟨level, ⟨count * size, min ((count + 1) * size) level.edgeCount⟩⟩]
      else []) ∧
    later.policy = .sequential ∧ later.windowEdges = size ∧
    later.hintedUpto.get direction = min ((count + 1) * size) level.edgeCount ∧
    ∀ other, other ≠ direction → later.hintedUpto.get other = planner.hintedUpto.get other := by
  intro hints later
  have next := window?_eq windowEdges base upto
  by_cases inside : count * size < level.edgeCount
  · rw [if_pos inside] at next ⊢
    have one : hints = [⟨level, ⟨count * size, min ((count + 1) * size) level.edgeCount⟩⟩] := by
      simp only [hints, next, Option.map_some, Option.toList_some]
    have moved : later = _ := (congrArg _ one).trans (afterHints_singleton policy direction _)
    rw [moved]
    exact ⟨one, policy, windowEdges, PerDirection.get_set_self _ _ _,
      fun other differ => PerDirection.get_set_of_ne _ _ differ⟩
  · rw [if_neg inside] at next ⊢
    have none : hints = [] := by
      simp only [hints, next, Option.map_none, Option.toList_none]
    have stays : later = planner := congrArg (planner.afterHints direction) none
    have covered : min (count * size) level.edgeCount =
        min ((count + 1) * size) level.edgeCount := by
      rw [Nat.succ_mul]
      omega
    rw [stays]
    exact ⟨none, policy, windowEdges, upto.trans covered, fun _ _ => rfl⟩

end Sequential

end Planner

/-- How far a direction came: the hints that were made are the first windows of the oldest level,
one for each request that counted, and the planner stands behind the last of them. -/
structure Slid (oldest : Option Level) (size asked upto : Nat) (hints : List Hint) : Prop where
  idle : oldest = none → asked = 0
  upto : upto = min (asked * size) (oldest.elim 0 Level.edgeCount)
  made : hints = oldest.toList.flatMap (firstWindows size asked)

section Slid

variable {oldest : Option Level} {level : Level} {size asked upto : Nat} {hints : List Hint}

theorem slid_start (size : Nat) (oldest : Option Level) : Slid oldest size 0 0 [] := by
  refine ⟨fun _ => rfl, ?_, ?_⟩
  · rw [Nat.zero_mul, Nat.zero_min]
  · rw [funext firstWindows_zero]
    exact (List.flatMap_eq_nil_iff.2 fun _ _ => rfl).symm

/-- While there is no level nothing counts, so any level may become the oldest. -/
theorem Slid.grow (h : Slid none size asked upto hints) (oldest : Option Level) :
    Slid oldest size asked upto hints := by
  obtain ⟨idle, upto, made⟩ := h
  obtain rfl := idle rfl
  obtain rfl := upto.trans (Nat.min_zero _)
  obtain rfl := made
  exact slid_start size oldest

theorem Slid.upto_eq (h : Slid (some level) size asked upto hints) :
    upto = min (asked * size) level.edgeCount := h.upto

theorem Slid.made_eq (h : Slid (some level) size asked upto hints) :
    hints = firstWindows size asked level := by
  rw [h.made, Option.toList_some, List.flatMap_singleton]

/-- How far a direction came depends on nothing but the number of requests that counted. -/
theorem Slid.eq_of_asked (h : Slid oldest size asked upto hints) {later : Option Level}
    {upto' : Nat} {hints' : List Hint} (h' : Slid later size asked upto' hints')
    (kept : ∀ level, oldest = some level → later = some level) :
    hints' = hints ∧ upto' = upto := by
  have grown : Slid later size asked upto hints := by
    cases oldest with
    | none => exact h.grow later
    | some level =>
      rw [kept level rfl]
      exact h
  exact ⟨h'.made.trans grown.made.symm, h'.upto.trans grown.upto.symm⟩

/-- One more request that counts brings the next window. -/
theorem Slid.next (h : Slid (some level) size asked upto hints) (pos : 0 < size) :
    Slid (some level) size (asked + 1) (min ((asked + 1) * size) level.edgeCount)
      (hints ++ if asked * size < level.edgeCount then
          [⟨level, ⟨asked * size, min ((asked + 1) * size) level.edgeCount⟩⟩]
        else []) := by
  refine ⟨nofun, rfl, ?_⟩
  rw [h.made_eq, ← firstWindows_succ pos, Option.toList_some, List.flatMap_singleton]

end Slid

/-- A call on a graph that grows, or a request that a worker processes in an epoch. -/
inductive WorkerCall where
  | grow (call : GraphCall)
  | process (request : Request) (current : UInt32)
  deriving DecidableEq, Repr

/-- A worker over a graph that grows. For each direction the requests that count are counted, and
all hints are kept with the direction of their request. -/
structure WorkerRun where
  graph : GraphRun
  worker : Worker
  asked : PerDirection Nat
  made : List (Direction × Hint)

namespace WorkerRun

def snapshot (run : WorkerRun) : Snapshot := run.graph.graph.snapshot

/-- Whether a request counts: it is not too old, and its node is one of the graph. -/
def counts (run : WorkerRun) (request : Request) (current : UInt32) : Bool :=
  !run.worker.isStale request current && request.node.toNat < run.snapshot.maxNodes

/-- Whether a call is a request of a direction that counts. -/
def asks (run : WorkerRun) (direction : Direction) : WorkerCall → Bool
  | .grow _ => false
  | .process request current => request.direction = direction && run.counts request current

/-- What a request makes the worker ask for. -/
def hintsOf (run : WorkerRun) (request : Request) (current : UInt32) : List Hint :=
  if run.worker.isStale request current then []
  else run.worker.planner.fullPlan run.snapshot request

def step (run : WorkerRun) : WorkerCall → WorkerRun
  | .grow call => { run with graph := run.graph.step call }
  | .process request current =>
      { run with
        worker := (run.worker.process run.snapshot request current).2
        asked :=
          if run.counts request current then
            run.asked.set request.direction (run.asked.get request.direction + 1)
          else run.asked
        made := run.made ++ (run.hintsOf request current).map (request.direction, ·) }

/-- The run that some calls make from the empty graph. -/
def ofCalls (worker : Worker) (calls : List WorkerCall) : WorkerRun :=
  calls.foldl step ⟨⟨.empty, []⟩, worker, .both 0, []⟩

/-- The hints that were made for a direction, in order. -/
def hintsFor (run : WorkerRun) (direction : Direction) : List Hint :=
  (run.made.filter (·.1 = direction)).map (·.2)

/-- The oldest level of a direction, if there is any yet. -/
def oldest? (run : WorkerRun) (direction : Direction) : Option Level :=
  (run.snapshot.stack direction).levels[0]?

/-- A run of a worker that hands out windows of some size. -/
structure Slides (run : WorkerRun) (size : Nat) : Prop where
  holds : run.graph.Holds
  policy : run.worker.planner.policy = .sequential
  windowEdges : run.worker.planner.windowEdges = size
  slid : ∀ direction, Slid (run.oldest? direction) size (run.asked.get direction)
    (run.worker.planner.hintedUpto.get direction) (run.hintsFor direction)

section Steps

variable {run : WorkerRun} {size : Nat}

theorem edgeBase_of_oldest? (held : run.graph.Holds) {direction : Direction} {level : Level}
    (first : run.oldest? direction = some level) : level.edgeBase = 0 := by
  rw [oldest?, snapshot, Graph.snapshot, (held.levels direction).getElem?_levels] at first
  obtain ⟨data, -, rfl⟩ := Option.map_eq_some_iff.1 first
  rfl

/-- A graph with a node has a level. -/
theorem exists_oldest? (held : run.graph.Holds) {node : NodeId}
    (inside : node.toNat < run.snapshot.maxNodes) (direction : Direction) :
    ∃ level, run.oldest? direction = some level := by
  have nodes : run.snapshot.maxNodes = largestTable run.graph.added := held.current_maxNodes
  rw [oldest?, snapshot, Graph.snapshot, (held.levels direction).getElem?_levels]
  cases added : run.graph.added with
  | nil =>
    rw [nodes, added] at inside
    exact absurd inside (Nat.not_lt_zero _)
  | cons data rest => exact ⟨_, rfl⟩

theorem counts_iff {request : Request} {current : UInt32} :
    run.counts request current = true ↔
      run.worker.isStale request current = false ∧ request.node.toNat < run.snapshot.maxNodes := by
  simp [counts]

theorem asks_process_iff {request : Request} {current : UInt32} {direction : Direction} :
    run.asks direction (.process request current) = true ↔
      request.direction = direction ∧ run.counts request current = true := by
  simp [asks]

theorem asked_step (run : WorkerRun) (call : WorkerCall) (direction : Direction) :
    (run.step call).asked.get direction =
      run.asked.get direction + if run.asks direction call then 1 else 0 := by
  cases call with
  | grow call => rfl
  | process request current =>
    cases counted : run.counts request current with
    | false => simp [step, asks, counted]
    | true =>
      by_cases same : request.direction = direction
      · simp [step, asks, counted, same]
      · simp [step, asks, counted, same, PerDirection.get_set_of_ne _ _ (Ne.symm same)]

/-- The oldest level stays when the graph grows. -/
theorem oldest?_grow (held : run.graph.Holds) (call : GraphCall) {direction : Direction}
    {level : Level} (first : run.oldest? direction = some level) :
    (run.step (.grow call)).oldest? direction = some level := by
  obtain ⟨more, split⟩ := run.graph.added_isPrefix_step call
  have later : (run.graph.step call).Holds := held.step call
  have grown := later.levels direction
  rw [← split, List.map_append] at grown
  obtain ⟨behind, split⟩ := (held.levels direction).levels_isPrefix grown
  -- The levels that there were are the first ones of the grown stack.
  have first : (run.graph.graph.current.stack direction).levels[0]? = some level := first
  change ((run.graph.step call).graph.current.stack direction).levels[0]? = some level
  rw [← Array.getElem?_toList] at first ⊢
  rw [← split, List.getElem?_append_left (List.getElem?_eq_some_iff.1 first).1, first]

theorem oldest?_step (held : run.graph.Holds) (call : WorkerCall) {direction : Direction}
    {level : Level} (first : run.oldest? direction = some level) :
    (run.step call).oldest? direction = some level := by
  cases call with
  | grow call => exact oldest?_grow held call first
  | process request current => exact first

theorem Slides.grow (h : run.Slides size) (call : GraphCall) :
    (run.step (.grow call)).Slides size := by
  refine ⟨h.holds.step call, h.policy, h.windowEdges, fun direction => ?_⟩
  have slid := h.slid direction
  cases first : run.oldest? direction with
  | some level =>
    rw [oldest?_step h.holds (.grow call) first]
    rw [first] at slid
    exact slid
  | none =>
    rw [first] at slid
    exact slid.grow _

/-- More hints for one direction stand behind those that were made for it before. -/
theorem hintsFor_of_made (run : WorkerRun) {later : WorkerRun} {direction : Direction}
    {hints : List Hint} (made : later.made = run.made ++ hints.map (direction, ·))
    (other : Direction) :
    later.hintsFor other = run.hintsFor other ++ if other = direction then hints else [] := by
  rw [hintsFor, hintsFor, made, List.filter_append, List.map_append, List.filter_map,
    List.map_map]
  split
  · next same =>
    subst same
    simp [Function.comp_def]
  · next differ =>
    simp [Function.comp_def, Ne.symm differ]

section Process

variable {request : Request} {current : UInt32}

theorem step_process_of_stale (old : run.worker.isStale request current = true) :
    run.step (.process request current) = { run with
      worker := { run.worker with outlet := run.worker.outlet.count .stale } } := by
  have outcome : run.worker.process run.snapshot request current = _ :=
    Worker.processWith_of_stale old _
  simp only [step, outcome, counts, hintsOf, old, Bool.not_true, Bool.false_and, if_true,
    List.map_nil, List.append_nil]
  rfl

/-- What becomes of a run when a request that is not too old is processed. -/
theorem step_process_of_fresh (fresh : run.worker.isStale request current = false) :
    let hints := run.worker.planner.fullPlan run.snapshot request
    run.step (.process request current) = { run with
      worker := { run.worker with
        planner := run.worker.planner.afterHints request.direction hints
        outlet := (run.worker.outlet.issueAll hints).2 }
      asked :=
        if request.node.toNat < run.snapshot.maxNodes then
          run.asked.set request.direction (run.asked.get request.direction + 1)
        else run.asked
      made := run.made ++ hints.map (request.direction, ·) } := by
  intro hints
  have outcome : run.worker.process run.snapshot request current = _ :=
    Worker.process_of_fresh fresh
  simp only [step, outcome, counts, hintsOf, fresh, Bool.not_false, Bool.true_and,
    decide_eq_true_eq]
  rfl

/-- The plan of a request for a node of the graph is the next window, if there is any. -/
theorem Slides.plan_eq (h : run.Slides size)
    (inside : request.node.toNat < run.snapshot.maxNodes) {level : Level}
    (first : run.oldest? request.direction = some level) :
    run.worker.planner.fullPlan run.snapshot request =
      ((run.worker.planner.window? level request.direction).map (Hint.mk level)).toList := by
  have held : run.graph.graph.Holds run.graph.added := h.holds
  have covered : request.node.toNat < (run.snapshot.stack request.direction).maxNodes :=
    (held.stack_maxNodes_eq request.direction).symm ▸ inside
  exact Planner.fullPlan_sequential h.policy first covered

theorem Slides.slid_of_oldest? (h : run.Slides size) {direction : Direction} {level : Level}
    (first : run.oldest? direction = some level) :
    Slid (some level) size (run.asked.get direction)
      (run.worker.planner.hintedUpto.get direction) (run.hintsFor direction) :=
  first ▸ h.slid direction

/-- A request that counts brings the next window of its direction, if there is any, and nothing
else. -/
theorem Slides.process_counted (h : run.Slides size) (pos : 0 < size)
    (fresh : run.worker.isStale request current = false)
    (inside : request.node.toNat < run.snapshot.maxNodes) :
    (run.step (.process request current)).Slides size := by
  obtain ⟨level, first⟩ := exists_oldest? h.holds inside request.direction
  have slid := h.slid_of_oldest? first
  obtain ⟨hints, policy, windowEdges, moved, others⟩ :=
    Planner.slide h.policy h.windowEdges (edgeBase_of_oldest? h.holds first) slid.upto_eq
  rw [← h.plan_eq inside first] at hints policy windowEdges moved others
  rw [step_process_of_fresh fresh, if_pos inside]
  refine ⟨h.holds, policy, windowEdges, fun direction => ?_⟩
  rw [hintsFor_of_made run rfl]
  by_cases same : direction = request.direction
  · subst same
    have next := slid.next pos
    rw [← first, ← hints, ← moved] at next
    simp only [PerDirection.get_set_self, if_true]
    exact next
  · simp only [PerDirection.get_set_of_ne _ _ same, others direction same, if_neg same,
      List.append_nil]
    exact h.slid direction

theorem Slides.process (h : run.Slides size) (pos : 0 < size) (request : Request)
    (current : UInt32) : (run.step (.process request current)).Slides size := by
  cases age : run.worker.isStale request current with
  | true =>
    rw [step_process_of_stale age]
    exact ⟨h.holds, h.policy, h.windowEdges, h.slid⟩
  | false =>
    by_cases inside : request.node.toNat < run.snapshot.maxNodes
    · exact h.process_counted pos age inside
    · have held : run.graph.graph.Holds run.graph.added := h.holds
      have nothing : run.worker.planner.fullPlan run.snapshot request = [] := by
        rw [Planner.fullPlan]
        exact if_neg ((held.stack_maxNodes_eq request.direction).symm ▸ inside)
      rw [step_process_of_fresh age, if_neg inside, nothing, List.map_nil, List.append_nil]
      exact ⟨h.holds, h.policy, h.windowEdges, h.slid⟩

end Process

theorem slides_start (options : Options) (outlet : Outlet) (policy : options.policy = .sequential) :
    Slides ⟨⟨.empty, []⟩, .ofOptions options outlet, .both 0, []⟩
      (max 1 (options.windowBytes.toNat / 8)) := by
  refine ⟨Graph.holds_empty, policy, Nat.max_comm _ _, fun direction => ?_⟩
  rw [PerDirection.get_both]
  have upto : (Planner.ofOptions options).hintedUpto.get direction = 0 :=
    PerDirection.get_both 0 direction
  rw [Worker.ofOptions, upto]
  exact slid_start _ _

/-- Every call keeps the windows in place. -/
theorem Slides.step (h : run.Slides size) (pos : 0 < size) (call : WorkerCall) :
    (run.step call).Slides size := by
  cases call with
  | grow call => exact h.grow call
  | process request current => exact h.process pos request current

/-- Only the requests of a direction that count move its window. -/
theorem Slides.eq_of_not_asks (h : run.Slides size) (pos : 0 < size) {call : WorkerCall}
    {direction : Direction} (other : run.asks direction call = false) :
    (run.step call).hintsFor direction = run.hintsFor direction ∧
      (run.step call).worker.planner.hintedUpto.get direction =
        run.worker.planner.hintedUpto.get direction := by
  have later := (h.step pos call).slid direction
  rw [run.asked_step, other] at later
  exact (h.slid direction).eq_of_asked later fun level => oldest?_step h.holds call

theorem Slides.foldl (h : run.Slides size) (pos : 0 < size) (calls : List WorkerCall) :
    (calls.foldl WorkerRun.step run).Slides size := by
  induction calls generalizing run with
  | nil => exact h
  | cons call calls ih => exact ih (h.step pos call)

/-- The outlet of a run got the hints that were made, in this order. -/
structure Tallies (run : WorkerRun) (sink : Sink) : Prop where
  same : run.worker.outlet.sink = sink
  made : run.worker.outlet.made = run.made.length
  recorded : sink.records = true →
    run.worker.outlet.recorded.toList = run.made.map (·.2.record)

theorem tallies_start (options : Options) (sink : Sink) (metrics : Metrics) :
    Tallies ⟨⟨.empty, []⟩, .ofOptions options (.ofSink sink metrics), .both 0, []⟩ sink :=
  ⟨rfl, rfl, fun _ => rfl⟩

theorem Tallies.step {sink : Sink} (h : run.Tallies sink) (call : WorkerCall) :
    (run.step call).Tallies sink := by
  cases call with
  | grow call => exact ⟨h.same, h.made, h.recorded⟩
  | process request current =>
    cases age : run.worker.isStale request current with
    | true =>
      rw [step_process_of_stale age]
      exact ⟨h.same, h.made, h.recorded⟩
    | false =>
      rw [step_process_of_fresh age]
      refine ⟨(Outlet.sink_issueAll _ _).trans h.same, ?_, fun records => ?_⟩
      · simp only [Outlet.made_issueAll, h.made, List.length_append, List.length_map]
      · simp only [Outlet.recorded_issueAll _ _ (h.same.symm ▸ records), h.recorded records,
          List.map_append, List.map_map]
        rfl

theorem Tallies.foldl {sink : Sink} (h : run.Tallies sink) (calls : List WorkerCall) :
    (calls.foldl WorkerRun.step run).Tallies sink := by
  induction calls generalizing run with
  | nil => exact h
  | cons call calls ih => exact ih (h.step call)

end Steps

end WorkerRun

/-- A worker that hands out windows, under any options otherwise, with any sink, and over any calls
on a graph that grows meanwhile: for each direction the hints are the windows of the oldest level,
one after the other, as many as requests counted or as there are. Once there were enough requests
every edge of the level has been handed out, each once; no window exceeds the bytes of the options
unless these are less than an edge takes. The next request that counts brings the next window, or
none if there is none left; no other call moves the window. The sink got all these hints, in this
order. -/
theorem Worker.windows_tile_oldest_level (options : Options) (sink : Sink) (metrics : Metrics)
    (policy : options.policy = .sequential) (calls : List WorkerCall) :
    let run := WorkerRun.ofCalls (.ofOptions options (.ofSink sink metrics)) calls
    let size := max 1 (options.windowBytes.toNat / 8)
    run.worker.outlet.made = run.made.length ∧
    (sink.records = true → run.worker.outlet.recorded.toList = run.made.map (·.2.record)) ∧
    ∀ direction,
      let asked := run.asked.get direction
      let hints := run.hintsFor direction
      (run.oldest? direction = none → asked = 0 ∧ hints = []) ∧
      (∀ level, run.oldest? direction = some level →
        let edges := level.edgeCount
        let windows := (edges + size - 1) / size
        let window (k : Nat) : Hint := ⟨level, ⟨k * size, min ((k + 1) * size) edges⟩⟩
        level.edgeBase = 0 ∧
        hints = (List.range (min asked windows)).map window ∧
        (windows ≤ asked → hints.length = windows ∧
          hints.flatMap (·.range.numbers) = List.range edges) ∧
        (8 ≤ options.windowBytes.toNat →
          ∀ hint ∈ hints, hint.bytes ≤ options.windowBytes.toNat) ∧
        ∀ request current, run.asks direction (.process request current) = true →
          let next := if asked < windows then [window asked] else []
          run.hintsOf request current = next ∧
          (run.step (.process request current)).hintsFor direction = hints ++ next ∧
          ∃ bytes, (run.worker.process run.snapshot request current).1 =
            .hinted next.length bytes) ∧
      ∀ call, run.asks direction call = false →
        (run.step call).hintsFor direction = hints ∧
        (run.step call).worker.planner.hintedUpto.get direction =
          run.worker.planner.hintedUpto.get direction := by
  intro run size
  have pos : 0 < size := Nat.lt_of_lt_of_le Nat.one_pos (Nat.le_max_left _ _)
  have slides : run.Slides size := (WorkerRun.slides_start options _ policy).foldl pos calls
  have tallies : run.Tallies sink := (WorkerRun.tallies_start _ sink metrics).foldl calls
  refine ⟨tallies.made, tallies.recorded, ?_⟩
  intro direction asked hints
  refine ⟨?_, ?_, fun call => slides.eq_of_not_asks pos⟩
  · intro none
    have slid := slides.slid direction
    rw [none] at slid
    exact ⟨slid.idle rfl, slid.made⟩
  · intro level first edges windows window
    have slid := slides.slid_of_oldest? first
    have made : hints = firstWindows size asked level := slid.made_eq
    have base := WorkerRun.edgeBase_of_oldest? slides.holds first
    refine ⟨base, made, fun enough => ⟨?_, ?_⟩, ?_, ?_⟩
    · rw [made, firstWindows, List.length_map, List.length_range]
      exact Nat.min_eq_right enough
    · have covered : edges ≤ asked * size :=
        Nat.le_of_not_lt (mt (lt_windows_iff pos asked edges).2 (Nat.not_lt.2 enough))
      rw [made, numbers_firstWindows pos, Nat.min_eq_right covered]
    · intro whole hint member
      rw [made] at member
      have short : hint.range.length ≤ size := length_of_mem_firstWindows member
      have bytes : hint.bytes = hint.range.length * 8 := rfl
      have size_eq : size = max 1 (options.windowBytes.toNat / 8) := rfl
      omega
    · intro request current asks next
      obtain ⟨rfl, counted⟩ := WorkerRun.asks_process_iff.1 asks
      obtain ⟨fresh, inside⟩ := WorkerRun.counts_iff.1 counted
      obtain ⟨plan, -⟩ := Planner.slide slides.policy slides.windowEdges base slid.upto_eq
      rw [← slides.plan_eq inside first] at plan
      have next_eq : run.worker.planner.fullPlan run.snapshot request = next :=
        plan.trans (if_congr (lt_windows_iff pos asked edges).symm rfl rfl)
      have outcome : run.worker.process run.snapshot request current = _ := process_of_fresh fresh
      have step := WorkerRun.step_process_of_fresh fresh
      rw [next_eq] at outcome step
      refine ⟨?_, ?_, _, congrArg Prod.fst outcome⟩
      · rw [WorkerRun.hintsOf, fresh]
        exact next_eq
      · rw [step, WorkerRun.hintsFor_of_made run rfl, if_pos rfl]

/-- Windows of two edges over three, with a sink that refuses all hints. The first request comes
before there is a level, another one too late, and one for the direction without edges. -/
theorem Worker.windows_tile_oldest_level_of_three_edges :
    let options : Options := { policy := .sequential, windowBytes := 16 }
    let calls : List WorkerCall := [.process ⟨⟨0⟩, 0, .out⟩ 0,
      .grow (.sealLevel ⟨[⟨.sealed 0, 3⟩], [⟨0⟩, ⟨0⟩, ⟨0⟩]⟩ (.empty 1)),
      .process ⟨⟨0⟩, 0, .out⟩ 0, .process ⟨⟨0⟩, 0, .inc⟩ 0, .process ⟨⟨0⟩, 0, .out⟩ 6,
      .grow (.sealLevel (.empty 2) (.empty 2)), .process ⟨⟨1⟩, 0, .out⟩ 0]
    let run := WorkerRun.ofCalls (.ofOptions options (.ofSink .failing .silent)) calls
    run.worker.outlet.recorded.toList = [⟨0, 0, 16⟩, ⟨0, 16, 8⟩] ∧
    (run.hintsFor .out).flatMap (·.range.numbers) = [0, 1, 2] ∧ run.hintsFor .inc = [] ∧
    run.hintsOf ⟨⟨0⟩, 0, .out⟩ 0 = [] := by
  intro options calls
  obtain ⟨-, recorded, directions⟩ := windows_tile_oldest_level options .failing .silent rfl calls
  obtain ⟨-, outward, -⟩ := directions .out
  obtain ⟨-, inward, -⟩ := directions .inc
  obtain ⟨-, -, covered, -, next⟩ := outward
    (.ofData 0 0 ⟨[⟨.sealed 0, 3⟩], [⟨0⟩, ⟨0⟩, ⟨0⟩]⟩) (by decide)
  obtain ⟨-, none, -⟩ := inward (.ofData 0 0 (.empty 1)) (by decide)
  obtain ⟨nothing, -⟩ := next ⟨⟨0⟩, 0, .out⟩ 0 (by decide)
  exact ⟨(recorded rfl).trans (by decide), (covered (by decide)).2, none.trans (by decide),
    nothing.trans (by decide)⟩

end LayeredGraph
