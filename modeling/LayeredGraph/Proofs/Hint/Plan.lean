import LayeredGraph.Hint.Planner

/-! The walk of a plan as a visit of its hints. Whatever the receiver does, and whenever it breaks
off, walking the plan of a request is visiting the list of all its hints in order. -/
namespace LayeredGraph

section Visit

variable {σ α β : Type}

theorem visitUntil_append (visit : σ → α → Flow × σ) (state : σ) (first second : List α) :
    visitUntil visit state (first ++ second) =
      match visitUntil visit state first with
      | (.more, state) => visitUntil visit state second
      | (.halt, state) => (.halt, state) := by
  induction first generalizing state with
  | nil => rfl
  | cons a first ih =>
    rw [List.cons_append, visitUntil, visitUntil]
    cases visit state a with
    | mk flow later =>
      cases flow with
      | more => exact ih later
      | halt => rfl

theorem visitUntil_singleton (visit : σ → α → Flow × σ) (state : σ) (a : α) :
    visitUntil visit state [a] = visit state a := by
  rw [visitUntil]
  cases visit state a with
  | mk flow later => cases flow <;> rfl

/-- Visiting lists one after the other is visiting all of them joined. -/
theorem visitUntil_flatMap (visit : σ → β → Flow × σ) (f : α → List β) (state : σ)
    (list : List α) :
    visitUntil visit state (list.flatMap f) =
      visitUntil (fun state a => visitUntil visit state (f a)) state list := by
  induction list generalizing state with
  | nil => rfl
  | cons a list ih =>
    rw [List.flatMap_cons, visitUntil_append, visitUntil]
    cases visitUntil visit state (f a) with
    | mk flow later =>
      cases flow with
      | more => exact ih later
      | halt => rfl

end Visit

namespace Planner

section Walk

variable {σ : Type} (receive : σ → Hint → Flow × σ)

theorem offerOwn_eq (node : NodeId) (state : σ) (level : Level) :
    offerOwn receive node state level = visitUntil receive state (ownHints node level) := by
  rw [offerOwn, ownHints]
  split
  · rfl
  · exact (visitUntil_singleton _ _ _).symm

theorem visitUntil_neighbors (planner : Planner) (level : Level) (numbers : List Nat)
    (state : σ) :
    visitUntil (fun state number =>
        match planner.neighborRange? level number with
        | none => (.more, state)
        | some range => receive state ⟨level, range⟩) state numbers =
      visitUntil receive state
        ((numbers.filterMap (planner.neighborRange? level)).map (⟨level, ·⟩)) := by
  induction numbers generalizing state with
  | nil => rfl
  | cons number numbers ih =>
    rw [visitUntil, List.filterMap_cons]
    cases planner.neighborRange? level number with
    | none => exact ih state
    | some range =>
      rw [List.map_cons, visitUntil]
      simp only [ih]

theorem offerTwoHop_eq (planner : Planner) (node : NodeId) (state : σ) (level : Level) :
    planner.offerTwoHop receive node state level =
      visitUntil receive state (planner.twoHopHints node level) := by
  rw [offerTwoHop, twoHopHints]
  split
  · rfl
  · rw [visitUntil]
    cases receive state ⟨level, level.edgeRange node⟩ with
    | mk flow later =>
      cases flow with
      | more => exact visitUntil_neighbors receive planner level _ later
      | halt => rfl

/-- The planner after some hints for a direction were made. -/
def afterHints (planner : Planner) (direction : Direction) (hints : List Hint) : Planner :=
  hints.foldl (fun planner => planner.afterHint direction) planner

theorem afterHints_of_ne_sequential {planner : Planner} (other : planner.policy ≠ .sequential)
    (direction : Direction) (hints : List Hint) : planner.afterHints direction hints = planner := by
  have same : ∀ hint, planner.afterHint direction hint = planner := by
    intro hint
    rw [afterHint]
    split
    · next sequential => exact absurd sequential other
    · rfl
  induction hints with
  | nil => rfl
  | cons hint hints ih => rw [afterHints, List.foldl_cons, same, ← afterHints, ih]

theorem afterHints_append (planner : Planner) (direction : Direction) (first second : List Hint) :
    planner.afterHints direction (first ++ second) =
      (planner.afterHints direction first).afterHints direction second :=
  List.foldl_append

theorem afterHints_singleton {planner : Planner} (policy : planner.policy = .sequential)
    (direction : Direction) (hint : Hint) : planner.afterHints direction [hint] =
      { planner with hintedUpto := planner.hintedUpto.set direction hint.range.stop } := by
  rw [afterHints, List.foldl_cons, List.foldl_nil, afterHint, policy]

/-- Visits some hints. The planner counts them as made, unless the visit was broken off. -/
def visitHints (planner : Planner) (direction : Direction) (hints : List Hint) (state : σ) :
    Flow × Planner × σ :=
  match visitUntil receive state hints with
  | (.more, state) => (.more, planner.afterHints direction hints, state)
  | (.halt, state) => (.halt, planner, state)

theorem visitHints_of_ne_sequential {planner : Planner} (other : planner.policy ≠ .sequential)
    (direction : Direction) (hints : List Hint) (state : σ) :
    planner.visitHints receive direction hints state =
      let (flow, state) := visitUntil receive state hints
      (flow, planner, state) := by
  rw [visitHints, afterHints_of_ne_sequential other]
  cases visitUntil receive state hints with
  | mk flow later => cases flow <;> rfl

theorem offerWindow_eq {planner : Planner} (policy : planner.policy = .sequential)
    (direction : Direction) (state : σ) (level : Level) :
    planner.offerWindow receive direction state level =
      planner.visitHints receive direction
        ((planner.window? level direction).map (Hint.mk level)).toList state := by
  rw [offerWindow, visitHints]
  cases planner.window? level direction with
  | none => rfl
  | some range =>
    have moved := afterHints_singleton policy direction ⟨level, range⟩
    simp only [Option.map_some, Option.toList_some, visitUntil_singleton, moved]
    cases receive state ⟨level, range⟩ with
    | mk flow later => cases flow <;> rfl

/-- Walking a plan is visiting all its hints in order. -/
theorem plan_eq (planner : Planner) (snapshot : Snapshot) (request : Request) (state : σ) :
    planner.plan receive snapshot request state =
      planner.visitHints receive request.direction (planner.fullPlan snapshot request) state := by
  rw [plan, fullPlan]
  by_cases inside : request.node.toNat < (snapshot.stack request.direction).maxNodes
  · rw [if_pos inside, Stack.checkNode_eq_ok.2 inside]
    cases policy : planner.policy with
    | nodeOnly =>
      have other : planner.policy ≠ .sequential := by rw [policy]; nofun
      simp only [visitHints_of_ne_sequential receive other, visitUntil_flatMap, ← offerOwn_eq]
    | complete =>
      have other : planner.policy ≠ .sequential := by rw [policy]; nofun
      simp only [visitHints_of_ne_sequential receive other, visitUntil_flatMap, ← offerTwoHop_eq]
    | sequential =>
      simp only [windowHints, ← Array.getElem?_toList]
      cases (snapshot.stack request.direction).levels.toList with
      | nil => rfl
      | cons level rest =>
        simp only [List.getElem?_cons_zero, List.take_succ_cons, List.take_zero,
          List.flatMap_cons, List.flatMap_nil, List.append_nil]
        exact offerWindow_eq receive policy request.direction state level
  · have refused : (snapshot.stack request.direction).checkNode request.node =
        .error (.nodeOutOfRange request.node (snapshot.stack request.direction).maxNodes) :=
      if_neg inside
    rw [if_neg inside, refused]
    rfl

end Walk

theorem selectedLevels_isPrefix (planner : Planner) (stack : Stack) :
    planner.selectedLevels stack <+: stack.levels.toList := by
  rw [selectedLevels]
  split
  · exact List.prefix_refl _
  · exact List.take_prefix _ _

/-- A plan of windows has one hint at most. -/
theorem length_fullPlan_le {planner : Planner} (policy : planner.policy = .sequential)
    (snapshot : Snapshot) (request : Request) :
    (planner.fullPlan snapshot request).length ≤ 1 := by
  rw [fullPlan, policy]
  split
  · rw [windowHints]
    cases (snapshot.stack request.direction).levels.toList with
    | nil => exact Nat.zero_le _
    | cons level rest =>
      rw [List.take_succ_cons, List.take_zero, List.flatMap_cons, List.flatMap_nil,
        List.append_nil]
      exact Option.length_toList_le
  · exact Nat.zero_le _

end Planner

end LayeredGraph
