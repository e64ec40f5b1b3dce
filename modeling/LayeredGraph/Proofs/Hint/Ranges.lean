import Mathlib.Logic.Basic
import LayeredGraph.Proofs.Graph.Layout
import LayeredGraph.Proofs.Hint.Worker
import LayeredGraph.Proofs.Stack.Lookup

/-! Where the ranges of a plan lie. Whatever the policy and its limits are, a hint is for edges of
the level that it names, and for at least one of them. A level brings one hint for the node and one
more for each of its edges at most, which bounds the bytes of a whole plan. -/
namespace LayeredGraph

namespace Level

theorem totalEdges_append (first second : List Level) :
    totalEdges (first ++ second) = totalEdges first + totalEdges second := by
  induction first with
  | nil => exact (Nat.zero_add _).symm
  | cons level first ih => rw [List.cons_append, totalEdges, totalEdges, ih, Nat.add_assoc]

theorem totalEdges_le_of_isPrefix {first all : List Level} (within : first <+: all) :
    totalEdges first ≤ totalEdges all := by
  obtain ⟨rest, rfl⟩ := within
  rw [totalEdges_append]
  exact Nat.le_add_right _ _

end Level

/-- The edges of a level are numbered below the number of all edges. -/
theorem Stack.Holds.edgeEnd_le {stack : Stack} {contents : List LevelData}
    (h : stack.Holds contents) {level : Level} (member : level ∈ stack.levels.toList) :
    level.edgeEnd ≤ stack.edgeCount := by
  obtain ⟨i, found⟩ := List.getElem?_of_mem member
  rw [Array.getElem?_toList, h.getElem?_levels, Option.map_eq_some_iff] at found
  obtain ⟨data, found, rfl⟩ := found
  rw [h.edgeCount]
  exact LevelData.add_edgeCount_le_totalEdges found

/-- A hint for edges that its level has, and for at least one of them. -/
structure Hint.Inside (hint : Hint) : Prop where
  start : hint.level.edgeBase ≤ hint.range.start
  nonempty : hint.range.start < hint.range.stop
  stop : hint.range.stop ≤ hint.level.edgeEnd

/-- What is written down of a hint is a span of its level's table. -/
theorem Hint.Inside.record {hint : Hint} (h : hint.Inside) :
    0 < hint.record.length ∧
      hint.record.offset + hint.record.length ≤ 8 * hint.level.edgeCount := by
  have start := h.start
  have nonempty := h.nonempty
  have stop : hint.range.stop ≤ hint.level.edgeBase + hint.level.edgeCount := h.stop
  have length : hint.record.length = (hint.range.stop - hint.range.start) * 8 := rfl
  have offset : hint.record.offset = (hint.range.start - hint.level.edgeBase) * 8 := rfl
  omega

/-- Hints for edges of one level, not more of them than a node and its neighbours there. -/
structure Level.Hinted (level : Level) (hints : List Hint) : Prop where
  same : ∀ hint ∈ hints, hint.level = level
  inside : ∀ hint ∈ hints, hint.Inside
  few : hints.length ≤ level.edgeCount + 1

namespace Hint

theorem totalBytes_le {hints : List Hint} {most : Nat}
    (each : ∀ hint ∈ hints, hint.bytes ≤ most) : totalBytes hints ≤ hints.length * most := by
  induction hints with
  | nil => exact Nat.zero_le _
  | cons hint hints ih =>
    have first := each hint List.mem_cons_self
    have rest := ih fun other member => each other (List.mem_cons_of_mem _ member)
    rw [totalBytes, List.length_cons, Nat.succ_mul, Nat.add_comm]
    exact Nat.add_le_add rest first

theorem totalBytes_flatMap_le {levels : List Level} {hints : Level → List Hint} {most : Nat}
    (each : ∀ level ∈ levels, totalBytes (hints level) ≤ level.edgeCount * most) :
    totalBytes (levels.flatMap hints) ≤ Level.totalEdges levels * most := by
  induction levels with
  | nil => exact Nat.zero_le _
  | cons level levels ih =>
    have first := each level List.mem_cons_self
    have rest := ih fun other member => each other (List.mem_cons_of_mem _ member)
    rw [List.flatMap_cons, totalBytes_append, Level.totalEdges, Nat.add_mul]
    exact Nat.add_le_add first rest

end Hint

theorem Level.Hinted.totalBytes_le {level : Level} {hints : List Hint} (h : level.Hinted hints) :
    Hint.totalBytes hints ≤ level.edgeCount * (8 * (level.edgeCount + 1)) := by
  have each : ∀ hint ∈ hints, hint.bytes ≤ level.edgeCount * 8 := by
    intro hint member
    obtain ⟨start, -, stop⟩ := h.inside hint member
    rw [h.same hint member] at start stop
    have stop : hint.range.stop ≤ level.edgeBase + level.edgeCount := stop
    have bytes : hint.bytes = (hint.range.stop - hint.range.start) * 8 := rfl
    omega
  calc Hint.totalBytes hints
      ≤ hints.length * (level.edgeCount * 8) := Hint.totalBytes_le each
    _ ≤ (level.edgeCount + 1) * (level.edgeCount * 8) := Nat.mul_le_mul_right _ h.few
    _ = level.edgeCount * (8 * (level.edgeCount + 1)) := by
        rw [Nat.mul_comm, Nat.mul_assoc]

namespace Planner

/-- Limits that leave something of every range, and that stay small as numbers of edges. -/
structure Limited (planner : Planner) : Prop where
  hintPos : 0 < planner.maxHintEdges
  hintSmall : planner.maxHintEdges ≤ 2305843009213693952
  windowPos : 0 < planner.windowEdges
  windowSmall : planner.windowEdges ≤ 2305843009213693952

theorem wholeEdges_bounds (bytes : UInt64) :
    0 < Options.wholeEdges bytes ∧ Options.wholeEdges bytes ≤ 2305843009213693952 := by
  have word : bytes.toNat < 18446744073709551616 := bytes.toNat_lt_size
  have whole : Options.wholeEdges bytes = max (bytes.toNat / 8) 1 := rfl
  omega

/-- Any options give such limits. -/
theorem limited_ofOptions (options : Options) : (ofOptions options).Limited :=
  ⟨(wholeEdges_bounds _).1, (wholeEdges_bounds _).2, (wholeEdges_bounds _).1,
    (wholeEdges_bounds _).2⟩

theorem Limited.afterHints {planner : Planner} (h : planner.Limited) (direction : Direction)
    (hints : List Hint) : (planner.afterHints direction hints).Limited := by
  induction hints generalizing planner with
  | nil => exact h
  | cons hint hints ih =>
    have next : (planner.afterHint direction hint).Limited := by
      rw [afterHint]
      split
      · exact ⟨h.hintPos, h.hintSmall, h.windowPos, h.windowSmall⟩
      · exact h
    exact ih next

/-- The levels that a request looks at. -/
def levelsAsked (planner : Planner) (request : Request) (stack : Stack) : List Level :=
  if request.node.toNat < stack.maxNodes then
    match planner.policy with
    | .sequential => stack.levels.toList.take 1
    | _ => planner.selectedLevels stack
  else []

/-- The hints that a request asks for in a level. -/
def hintsIn (planner : Planner) (request : Request) (level : Level) : List Hint :=
  match planner.policy with
  | .nodeOnly => ownHints request.node level
  | .complete => planner.twoHopHints request.node level
  | .sequential => ((planner.window? level request.direction).map (Hint.mk level)).toList

variable {planner : Planner} {level : Level}

/-- A plan is made level by level. -/
theorem fullPlan_eq (planner : Planner) (snapshot : Snapshot) (request : Request) :
    planner.fullPlan snapshot request =
      (planner.levelsAsked request (snapshot.stack request.direction)).flatMap
        (planner.hintsIn request) := by
  rw [fullPlan, levelsAsked]
  by_cases inside : request.node.toNat < (snapshot.stack request.direction).maxNodes
  · simp only [if_pos inside, funext fun level => hintsIn.eq_1 planner request level]
    cases planner.policy <;> rfl
  · simp only [if_neg inside, List.flatMap_nil]

theorem levelsAsked_isPrefix (planner : Planner) (request : Request) (stack : Stack) :
    planner.levelsAsked request stack <+: stack.levels.toList := by
  have selected := planner.selectedLevels_isPrefix stack
  rw [levelsAsked]
  split
  · split
    · exact List.take_prefix _ _
    · exact selected
  · exact List.nil_prefix

theorem inside_own (sound : level.Sound) {node : NodeId}
    (nonempty : ¬(level.edgeRange node).isEmpty = true) :
    Hint.Inside ⟨level, level.edgeRange node⟩ := by
  obtain ⟨start, stop⟩ := sound node
  have some : ¬(level.edgeRange node).stop ≤ (level.edgeRange node).start :=
    mt decide_eq_true nonempty
  exact ⟨start, Nat.lt_of_not_le some, stop⟩

/-- What is left of a neighbour's range under the limit lies in the level. -/
theorem inside_neighbor (sound : level.Sound) (limited : planner.Limited) {number : Nat}
    {range : EdgeRange} (found : planner.neighborRange? level number = some range) :
    Hint.Inside ⟨level, range⟩ := by
  rw [neighborRange?] at found
  split at found
  · nomatch found
  next neighbor leads =>
  split at found
  · nomatch found
  simp only at found
  split at found
  · nomatch found
  next nonempty =>
  have whole := inside_own sound nonempty
  have start : level.edgeBase ≤ (level.edgeRange neighbor).start := whole.start
  have some : (level.edgeRange neighbor).start < (level.edgeRange neighbor).stop := whole.nonempty
  have stop : (level.edgeRange neighbor).stop ≤ level.edgeEnd := whole.stop
  have positive := limited.hintPos
  obtain rfl := Option.some.inj found
  refine ⟨start, ?_, ?_⟩ <;> simp only <;> omega

theorem inside_window (limited : planner.Limited) {direction : Direction} {range : EdgeRange}
    (found : planner.window? level direction = some range) : Hint.Inside ⟨level, range⟩ := by
  rw [window?] at found
  split at found
  · nomatch found
  next more =>
  have positive := limited.windowPos
  obtain rfl := Option.some.inj found
  refine ⟨?_, ?_, ?_⟩ <;> simp only <;> omega

theorem hinted_nil : level.Hinted [] :=
  ⟨fun _ none => absurd none List.not_mem_nil, fun _ none => absurd none List.not_mem_nil,
    Nat.zero_le _⟩

theorem hinted_ownHints (sound : level.Sound) (node : NodeId) :
    level.Hinted (ownHints node level) := by
  rw [ownHints]
  split
  · exact hinted_nil
  next nonempty =>
  refine ⟨fun hint member => ?_, fun hint member => ?_, Nat.le_add_left _ _⟩
  · rw [List.mem_singleton.1 member]
  · rw [List.mem_singleton.1 member]
    exact inside_own sound nonempty

theorem hinted_twoHopHints (sound : level.Sound) (limited : planner.Limited) (node : NodeId) :
    level.Hinted (planner.twoHopHints node level) := by
  rw [twoHopHints]
  split
  · exact hinted_nil
  next nonempty =>
  refine ⟨fun hint member => ?_, fun hint member => ?_, ?_⟩
  · rcases List.mem_cons.1 member with rfl | member
    · rfl
    · obtain ⟨range, -, rfl⟩ := List.mem_map.1 member
      rfl
  · rcases List.mem_cons.1 member with rfl | member
    · exact inside_own sound nonempty
    · obtain ⟨range, kept, rfl⟩ := List.mem_map.1 member
      obtain ⟨number, -, found⟩ := List.mem_filterMap.1 kept
      exact inside_neighbor sound limited found
  · -- There is one neighbour for each of the node's own edges at most.
    obtain ⟨start, stop⟩ := sound node
    have stop : (level.edgeRange node).stop ≤ level.edgeBase + level.edgeCount := stop
    have numbers : (level.edgeRange node).numbers.length =
        (level.edgeRange node).stop - (level.edgeRange node).start := List.length_range'
    have kept := List.length_filterMap_le (planner.neighborRange? level)
      (level.edgeRange node).numbers
    rw [List.length_cons, List.length_map]
    omega

theorem hinted_hintsIn (sound : level.Sound) (limited : planner.Limited) (request : Request) :
    level.Hinted (planner.hintsIn request level) := by
  rw [hintsIn]
  split
  · exact hinted_ownHints sound request.node
  · exact hinted_twoHopHints sound limited request.node
  · cases found : planner.window? level request.direction with
    | none => exact ⟨nofun, nofun, Nat.zero_le _⟩
    | some range =>
      refine ⟨fun hint member => ?_, fun hint member => ?_, Nat.le_add_left _ _⟩
      · rw [List.mem_singleton.1 member]
      · rw [List.mem_singleton.1 member]
        exact inside_window limited found

section Stack

variable {snapshot : Snapshot} {request : Request} {contents : List LevelData}

/-- A plan asks for edges of the levels that the request is about, and for nothing else. -/
theorem inside_of_mem_fullPlan (held : (snapshot.stack request.direction).Holds contents)
    (limited : planner.Limited) {hint : Hint}
    (member : hint ∈ planner.fullPlan snapshot request) :
    hint.level ∈ (snapshot.stack request.direction).levels.toList ∧ hint.Inside := by
  rw [fullPlan_eq] at member
  obtain ⟨level, asked, member⟩ := List.mem_flatMap.1 member
  have listed := (planner.levelsAsked_isPrefix request _).subset asked
  have hinted := hinted_hintsIn (held.sound level listed) limited request
  rw [hinted.same hint member]
  exact ⟨listed, hinted.inside hint member⟩

/-- The bytes that a plan asks for can be counted in a word: each edge is asked for once for its
own node, and once more for each edge that leads there. -/
theorem totalBytes_fullPlan_lt (held : (snapshot.stack request.direction).Holds contents)
    (limited : planner.Limited)
    (few : (snapshot.stack request.direction).edgeCount < 1073741824) :
    Hint.totalBytes (planner.fullPlan snapshot request) < UInt64.size := by
  have all := held.laid.edgeCount
  have numbered : ∀ level ∈ (snapshot.stack request.direction).levels.toList,
      level.edgeEnd ≤ _ := fun _ member => held.edgeEnd_le member
  generalize (snapshot.stack request.direction).edgeCount = edges at few all numbered
  have asked := Level.totalEdges_le_of_isPrefix
    (planner.levelsAsked_isPrefix request (snapshot.stack request.direction))
  rw [← all] at asked
  have each : ∀ level ∈ planner.levelsAsked request (snapshot.stack request.direction),
      Hint.totalBytes (planner.hintsIn request level) ≤ level.edgeCount * (8 * (edges + 1)) := by
    intro level member
    have listed := (planner.levelsAsked_isPrefix request _).subset member
    have hinted := hinted_hintsIn (held.sound level listed) limited request
    have within : level.edgeBase + level.edgeCount ≤ edges := numbered level listed
    refine Nat.le_trans hinted.totalBytes_le (Nat.mul_le_mul_left _ ?_)
    omega
  rw [fullPlan_eq]
  calc Hint.totalBytes _
      ≤ Level.totalEdges _ * (8 * (edges + 1)) := Hint.totalBytes_flatMap_le each
    _ ≤ 1073741824 * (8 * 1073741824) := Nat.mul_le_mul (by omega) (by omega)
    _ < UInt64.size := by decide

end Stack

end Planner

end LayeredGraph
