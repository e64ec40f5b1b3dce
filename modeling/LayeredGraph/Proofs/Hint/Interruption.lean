import LayeredGraph.Proofs.Hint.Worker

/-! Plans that are broken off. Until it stops a plan, a receiver is given the same hints, in the
same order, as one that takes all of them, and after that it is given none. A window counts as
handed out only if its receiver went on, so one that was refused comes again. -/
namespace LayeredGraph

section Visit

variable {σ α : Type}

/-- Visits as before, and notes every element together with the answer. -/
def noting (visit : σ → α → Flow × σ) (seen : σ × List (α × Flow)) (a : α) :
    Flow × σ × List (α × Flow) :=
  let (flow, state) := visit seen.1 a
  (flow, state, seen.2 ++ [(a, flow)])

/-- Notes every element and always goes on. -/
def collecting (seen : List α) (a : α) : Flow × List α := (.more, seen ++ [a])

/-- A visit that, given some elements in order, goes on after the first `k` and stops at the next
one, if there is one. -/
inductive BreaksOff (visit : σ → α → Flow × σ) : (k : Nat) → σ → List α → Prop
  | nil {k : Nat} {state : σ} : BreaksOff visit k state []
  | halt {state later : σ} {a : α} {rest : List α} (answer : visit state a = (.halt, later)) :
      BreaksOff visit 0 state (a :: rest)
  | more {k : Nat} {state later : σ} {a : α} {rest : List α}
      (answer : visit state a = (.more, later)) (next : BreaksOff visit k later rest) :
      BreaksOff visit (k + 1) state (a :: rest)

/-- Goes on as often as the state says, and then stops. -/
def countdown : Nat → α → Flow × Nat
  | 0, _ => (.halt, 0)
  | left + 1, _ => (.more, left)

theorem breaksOff_countdown (k : Nat) (list : List α) : BreaksOff countdown k k list := by
  induction list generalizing k with
  | nil => exact .nil
  | cons a list ih =>
    cases k with
    | zero => exact .halt rfl
    | succ k => exact .more rfl (ih k)

/-- The elements that a visit gets before it stops, with its answers. -/
def notes (k : Nat) (list : List α) : List (α × Flow) :=
  (list.take k).map (·, .more) ++ list[k]?.toList.map (·, .halt)

theorem map_fst_notes (k : Nat) (list : List α) : (notes k list).map (·.1) = list.take (k + 1) := by
  rw [notes, List.map_append, List.map_map, List.map_map, List.take_add_one]
  simp [Function.comp_def]

theorem halt_mem_notes_iff (k : Nat) (list : List α) :
    .halt ∈ (notes k list).map (·.2) ↔ k < list.length := by
  rw [notes, List.map_append, List.map_map, List.map_map]
  cases last : list[k]? with
  | none =>
    have past := List.getElem?_eq_none_iff.1 last
    rw [List.take_of_length_le past]
    simp [past]
  | some a =>
    have inside := (List.getElem?_eq_some_iff.1 last).1
    simp [Function.comp_def, inside]

theorem visitUntil_collecting (seen list : List α) :
    visitUntil collecting seen list = (.more, seen ++ list) := by
  induction list generalizing seen with
  | nil => simp [visitUntil]
  | cons a list ih => simp [visitUntil, collecting, ih]

/-- Noting what a visit gets changes nothing for it. -/
theorem visitUntil_noting {visit : σ → α → Flow × σ} {k : Nat} {state : σ} {list : List α}
    (breaks : BreaksOff visit k state list) (log : List (α × Flow)) :
    visitUntil (noting visit) (state, log) list =
      (if k < list.length then .halt else .more, (visitUntil visit state list).2,
        log ++ notes k list) := by
  induction breaks generalizing log with
  | nil => simp [visitUntil, notes]
  | halt answer => simp [visitUntil, noting, answer, notes]
  | more answer next ih => simp [visitUntil, noting, answer, ih, notes]

end Visit

namespace Planner

variable {σ : Type}

/-- A receiver that takes everything gets the whole plan. -/
theorem plan_collecting (planner : Planner) (snapshot : Snapshot) (request : Request) :
    planner.plan collecting snapshot request [] =
      (.more, planner.afterHints request.direction (planner.fullPlan snapshot request),
        planner.fullPlan snapshot request) := by
  rw [plan_eq, visitHints, visitUntil_collecting]
  rfl

/-- A receiver that breaks a plan off gets its first hints, and leaves the planner as it was; if
there are no more hints to refuse, the planner moves on. -/
theorem plan_noting {planner : Planner} {snapshot : Snapshot} {request : Request} {k : Nat}
    {receive : σ → Hint → Flow × σ} {state : σ}
    (breaks : BreaksOff receive k state (planner.fullPlan snapshot request)) :
    planner.plan (noting receive) snapshot request (state, []) =
      (if k < (planner.fullPlan snapshot request).length then .halt else .more,
        if k < (planner.fullPlan snapshot request).length then planner
          else (planner.plan collecting snapshot request []).2.1,
        (planner.plan receive snapshot request state).2.2,
        notes k (planner.fullPlan snapshot request)) := by
  rw [plan_collecting, plan_eq, plan_eq, visitHints, visitHints, visitUntil_noting breaks]
  cases visitUntil receive state (planner.fullPlan snapshot request) with
  | mk flow later =>
    by_cases broken : k < (planner.fullPlan snapshot request).length
    · simp only [broken, if_true]
      cases flow <;> rfl
    · simp only [broken, if_false]
      cases flow <;> rfl

theorem windowHints_eq {planner : Planner} {direction : Direction} {stack other : Stack}
    (oldest : stack.levels[0]? = other.levels[0]?) :
    planner.windowHints direction stack = planner.windowHints direction other := by
  have first : stack.levels.toList.take 1 = other.levels.toList.take 1 := by
    rw [List.take_one, List.take_one, List.head?_eq_getElem?, List.head?_eq_getElem?,
      Array.getElem?_toList, Array.getElem?_toList, oldest]
  rw [windowHints, windowHints, first]

/-- As long as the oldest level of a direction stays, every request for it asks for the same
window. -/
theorem fullPlan_eq_of_oldest {planner : Planner} (policy : planner.policy = .sequential)
    {snapshot newer : Snapshot} {request next : Request}
    (nonempty : planner.fullPlan snapshot request ≠ [])
    (direction : next.direction = request.direction)
    (inside : next.node.toNat < (newer.stack next.direction).maxNodes)
    (oldest : (newer.stack next.direction).levels[0]? =
      (snapshot.stack request.direction).levels[0]?) :
    planner.fullPlan newer next = planner.fullPlan snapshot request := by
  rw [fullPlan, policy] at nonempty ⊢
  split at nonempty
  · next covered =>
    rw [fullPlan, policy, if_pos inside, if_pos covered]
    rw [direction] at oldest ⊢
    exact windowHints_eq oldest
  · exact absurd rfl nonempty

end Planner

/-- A receiver that goes on with the first `k` hints of a plan and stops at the next one is given
these `k + 1` hints, or all that there are, in the order in which a receiver that takes everything
gets them; the plan ends as broken off exactly if the receiver stopped it. A window that was broken
off leaves the planner as it was, and in all other cases it ends up as after the whole plan. So a
worker makes the hints up to the first time it is not to go on, and counts these; a window that it
did not hand out is the plan of the next request for the direction, as long as the oldest level
stays the same. -/
theorem Worker.hints_end_at_first_refusal (worker : Worker) (snapshot : Snapshot)
    (request : Request) :
    let planner := worker.planner
    let whole := planner.plan collecting snapshot request []
    let all := whole.2.2
    (∀ {σ : Type} (receive : σ → Hint → Flow × σ) (state : σ) (k : Nat),
      BreaksOff receive k state all →
      let broken := planner.plan (noting receive) snapshot request (state, [])
      let given := broken.2.2.2
      broken.2.2.1 = (planner.plan receive snapshot request state).2.2 ∧
      given.map (·.1) = all.take (k + 1) ∧
      (broken.1 = .halt ↔ .halt ∈ given.map (·.2)) ∧
      broken.2.1 =
        if planner.policy = .sequential ∧ broken.1 = .halt then planner else whole.2.1) ∧
    ∀ (current : UInt32) (keepGoing : Nat → Bool) (made : Nat),
      worker.isStale request current = false → made ≤ all.length →
      (∀ number < made, keepGoing number = true) → (made < all.length → keepGoing made = false) →
      let issued := worker.outlet.issueAll (all.take made)
      ∃ later, worker.processWith snapshot request current keepGoing =
          (.hinted made issued.1, { worker with planner := later, outlet := issued.2 }) ∧
        (worker.outlet.sink.records = true → issued.2.recorded.toList =
          worker.outlet.recorded.toList ++ (all.take made).map Hint.record) ∧
        (planner.policy = .sequential → made < all.length →
          ∀ (newer : Snapshot) (next : Request), next.direction = request.direction →
          next.node.toNat < (newer.stack next.direction).maxNodes →
          (newer.stack next.direction).levels[0]? =
            (snapshot.stack request.direction).levels[0]? →
          (later.plan collecting newer next []).2.2 = all) := by
  intro planner whole all
  have all_eq : all = worker.planner.fullPlan snapshot request :=
    congrArg (·.2.2) (planner.plan_collecting snapshot request)
  constructor
  · intro σ receive state k breaks broken given
    have answer : broken = (if k < all.length then .halt else .more,
        if k < all.length then planner else whole.2.1,
        (planner.plan receive snapshot request state).2.2, notes k all) := by
      rw [all_eq] at breaks ⊢
      exact Planner.plan_noting breaks
    have given_eq : given = notes k all := congrArg (·.2.2.2) answer
    rw [given_eq, map_fst_notes, halt_mem_notes_iff, answer]
    refine ⟨rfl, rfl, ?_⟩
    by_cases more : k < all.length
    · simp only [more, if_true, and_true, true_and]
      split
      · rfl
      · next other =>
        have whole_eq := congrArg (·.2.1) (planner.plan_collecting snapshot request)
        exact (whole_eq.trans (Planner.afterHints_of_ne_sequential other _ _)).symm
    · simp [more]
  · intro current keepGoing made fresh within yes no issued
    have admits : admitted keepGoing 0 all.length = made :=
      admitted_eq within 0 (by simpa using yes) (by simpa using no)
    have outcome : worker.processWith snapshot request current keepGoing = _ :=
      Worker.processWith_of_fresh fresh keepGoing
    simp only [← all_eq, admits, List.length_take, Nat.min_eq_left within] at outcome
    refine ⟨_, outcome, Outlet.recorded_issueAll _ _, ?_⟩
    intro policy broken newer next direction inside oldest
    have kept : worker.planner.afterHints request.direction (all.take made) = worker.planner := by
      rw [all_eq] at broken ⊢
      exact Worker.afterHints_of_broken broken
    have nonempty : worker.planner.fullPlan snapshot request ≠ [] := by
      rw [← all_eq]
      exact List.length_pos_iff.1 (Nat.zero_lt_of_lt broken)
    rw [kept, Planner.plan_collecting, all_eq]
    exact Planner.fullPlan_eq_of_oldest policy nonempty direction inside oldest

/-- Of three hints for a node and its neighbours the second is refused; the first window of a level
is refused and comes again. -/
theorem Worker.hints_end_at_first_refusal_of_three :
    let data : LevelData :=
      ⟨[⟨.sealed 0, 2⟩, ⟨.sealed 2, 1⟩, ⟨.sealed 3, 1⟩], [⟨1⟩, ⟨2⟩, ⟨0⟩, ⟨0⟩]⟩
    let snapshot : Snapshot := ⟨⟨#[.ofData 0 0 data], 3, 4⟩, .empty⟩
    let request : Request := ⟨⟨0⟩, 0, .out⟩
    let worker := Worker.ofOptions { policy := .complete } (.ofSink .recording .silent)
    let slider := Worker.ofOptions { policy := .sequential, windowBytes := 16 }
      (.ofSink .recording .silent)
    (worker.planner.plan collecting snapshot request []).2.2.map (·.range) =
      [⟨0, 2⟩, ⟨2, 3⟩, ⟨3, 4⟩] ∧
    (worker.planner.plan (noting countdown) snapshot request (1, [])).2.2.2.map (·.1) =
      (worker.planner.plan collecting snapshot request []).2.2.take 2 ∧
    ∃ later, slider.processWith snapshot request 0 (fun _ => false) = (.hinted 0 0, later) ∧
      (later.planner.plan collecting snapshot ⟨⟨2⟩, 1, .out⟩ []).2.2.map (·.range) = [⟨0, 2⟩] := by
  intro data snapshot request worker slider
  obtain ⟨breaking, -⟩ := hints_end_at_first_refusal worker snapshot request
  obtain ⟨-, given, -⟩ := breaking countdown 1 1 (breaksOff_countdown 1 _)
  obtain ⟨-, processing⟩ := hints_end_at_first_refusal slider snapshot request
  obtain ⟨planner, outcome, -, again⟩ :=
    processing 0 (fun _ => false) 0 (by decide) (Nat.zero_le _) nofun fun _ => rfl
  have window := again rfl (by decide) snapshot ⟨⟨2⟩, 1, .out⟩ rfl (by decide) rfl
  refine ⟨by decide, given, _, outcome, ?_⟩
  rw [window]
  decide

end LayeredGraph
