import LayeredGraph.Proofs.Level.Packing
import LayeredGraph.Proofs.Stack

/-! Looking up an edge by its number. The levels of a stack start at numbers that never decrease,
so bisection finds the last level that starts at or before an edge, also where levels without
edges start at the same number as others. The edge leads to the target at its place among the
targets of all levels put together. -/
namespace LayeredGraph

/-- Bisection finds the number up to which a test holds. -/
theorem partitionPoint_eq {test : Nat → Bool} {split : Nat}
    (splits : ∀ i, test i = true ↔ i < split) {low count : Nat} (above : low ≤ split)
    (below : split ≤ low + count) : partitionPoint test low count = split := by
  induction low, count using partitionPoint.induct test with
  | case1 low =>
    rw [partitionPoint, if_pos rfl]
    omega
  | case2 low count some half holds ih =>
    have before : low + half < split := (splits _).1 holds
    rw [partitionPoint, if_neg some]
    simp only
    rw [if_pos holds]
    exact ih before (by omega)
  | case3 low count some half fails ih =>
    have behind : split ≤ low + half := Nat.not_lt.1 (mt (splits _).2 fails)
    rw [partitionPoint, if_neg some]
    simp only
    rw [if_neg fails]
    exact ih above behind

namespace LevelData

theorem totalEdges_eq_length (contents : List LevelData) :
    totalEdges contents = (contents.flatMap (·.targets)).length := by
  induction contents with
  | nil => rfl
  | cons data rest ih => rw [totalEdges, ih, List.flatMap_cons, List.length_append, edgeCount]

section Places

variable {contents : List LevelData} {data : LevelData} {i : Nat}

theorem totalEdges_take (contents : List LevelData) (i : Nat) :
    totalEdges (contents.take i) = ((contents.map (·.targets)).take i).flatten.length := by
  rw [totalEdges_eq_length, ← List.map_take, List.flatMap_def]

theorem totalEdges_take_succ (found : contents[i]? = some data) :
    totalEdges (contents.take (i + 1)) = totalEdges (contents.take i) + data.edgeCount := by
  rw [List.take_add_one, found, totalEdges_append]
  rfl

theorem totalEdges_take_le (contents : List LevelData) {i j : Nat} (h : i ≤ j) :
    totalEdges (contents.take i) ≤ totalEdges (contents.take j) := by
  have split := List.take_append_drop i (contents.take j)
  rw [List.take_take, Nat.min_eq_left h] at split
  rw [← split, totalEdges_append]
  exact Nat.le_add_right _ _

/-- The edges of a level are among those of all levels. -/
theorem add_edgeCount_le_totalEdges (found : contents[i]? = some data) :
    totalEdges (contents.take i) + data.edgeCount ≤ totalEdges contents := by
  have within : i + 1 ≤ contents.length := (List.getElem?_eq_some_iff.1 found).1
  have first := totalEdges_take_le contents within
  rwa [totalEdges_take_succ found, List.take_length] at first

/-- Every edge number lies in one of the levels. -/
theorem exists_level_of_lt {number : Nat} (h : number < totalEdges contents) :
    ∃ i data, contents[i]? = some data ∧ totalEdges (contents.take i) ≤ number ∧
      number < totalEdges (contents.take i) + data.edgeCount := by
  rw [totalEdges_eq_length, List.flatMap_def] at h
  obtain ⟨i, targets, found, low, high⟩ := exists_of_lt_length_flatten h
  rw [List.getElem?_map, Option.map_eq_some_iff] at found
  obtain ⟨data, found, rfl⟩ := found
  rw [← totalEdges_take] at low high
  exact ⟨i, data, found, low, high⟩

/-- Among the targets of all levels those of a level stand behind the edges before it. -/
theorem getElem?_flatMap_targets (found : contents[i]? = some data) {slot : Nat}
    (inside : slot < data.edgeCount) :
    (contents.flatMap (·.targets))[totalEdges (contents.take i) + slot]? =
      data.targets[slot]? := by
  have listed : (contents.map (·.targets))[i]? = some data.targets := by
    rw [List.getElem?_map, found]
    rfl
  rw [List.flatMap_def, totalEdges_take, getElem?_flatten listed inside]

end Places

end LevelData

open LevelData

theorem Level.containsEdge_ofData_iff {index base : Nat} {data : LevelData} {edge : EdgeRef} :
    (Level.ofData index base data).containsEdge edge = true ↔
      edge ≠ .nil ∧ base ≤ edge.raw ∧ edge.raw < base + data.edgeCount := by
  simp only [containsEdge, Bool.and_eq_true, bne_iff_ne, decide_eq_true_eq]
  rw [edgeBase_ofData, edgeCount_ofData, and_assoc]
  apply and_congr_right
  intro _
  omega

namespace Stack

section Holds

variable {stack : Stack} {contents : List LevelData} {data : LevelData} {i number : Nat}

/-- Exactly the levels up to the one with an edge start at or before the edge. -/
theorem Holds.levelsStartingBy_eq (h : stack.Holds contents) (found : contents[i]? = some data)
    (low : totalEdges (contents.take i) ≤ number)
    (high : number < totalEdges (contents.take i) + data.edgeCount) :
    stack.levelsStartingBy number = i + 1 := by
  have within : i < contents.length := (List.getElem?_eq_some_iff.1 found).1
  refine partitionPoint_eq ?_ (Nat.zero_le _) (by rw [h.numLevels, Nat.zero_add]; exact within)
  intro j
  rw [h.getElem?_levels]
  by_cases upTo : j < i + 1
  · have before := totalEdges_take_le contents (Nat.le_of_lt_succ upTo)
    have other : contents[j]? = some contents[j] :=
      List.getElem?_eq_getElem (Nat.lt_of_lt_of_le upTo within)
    simp only [other, Option.map_some, Level.edgeBase_ofData, Option.any_some, decide_eq_true_eq]
    omega
  · have behind := totalEdges_take_le contents (Nat.not_lt.1 upTo)
    rw [totalEdges_take_succ found] at behind
    cases contents[j]? with
    | none => simpa using Nat.not_lt.1 upTo
    | some other =>
      simp only [Option.map_some, Level.edgeBase_ofData, Option.any_some, decide_eq_true_eq]
      omega

/-- The level that bisection selects contains the edge, and no other level does. -/
theorem Holds.exists_containsEdge_iff (h : stack.Holds contents) {edge : EdgeRef}
    (notNil : edge ≠ .nil) (index : Nat) :
    (∃ level, stack.levels[index]? = some level ∧ level.containsEdge edge = true) ↔
      edge.raw < stack.edgeCount ∧ stack.levelsStartingBy edge.raw = index + 1 := by
  rw [h.getElem?_levels, h.edgeCount]
  constructor
  · rintro ⟨level, here, contains⟩
    obtain ⟨data, found, rfl⟩ := Option.map_eq_some_iff.1 here
    obtain ⟨-, low, high⟩ := Level.containsEdge_ofData_iff.1 contains
    exact ⟨Nat.lt_of_lt_of_le high (add_edgeCount_le_totalEdges found),
      h.levelsStartingBy_eq found low high⟩
  · rintro ⟨inside, selected⟩
    obtain ⟨i, data, found, low, high⟩ := exists_level_of_lt inside
    obtain rfl : i = index := by
      rw [h.levelsStartingBy_eq found low high] at selected
      exact Nat.succ.inj selected
    rw [found]
    exact ⟨_, rfl, Level.containsEdge_ofData_iff.2 ⟨notNil, low, high⟩⟩

theorem target?_of_edgeCount_le {edge : EdgeRef} (h : stack.edgeCount ≤ edge.raw) :
    stack.target? edge = none := by
  rw [target?, if_pos]
  rw [decide_eq_true h, Bool.or_true]

theorem target?_of_levelsStartingBy (inside : number < stack.edgeCount)
    (selected : stack.levelsStartingBy number = i + 1) :
    stack.target? (.sealed number) = stack.levels[i]?.bind (·.target? (.sealed number)) := by
  have known : ((EdgeRef.sealed number).isNil || (EdgeRef.sealed number).isPending ||
      decide (stack.edgeCount ≤ (EdgeRef.sealed number).raw)) = false :=
    decide_eq_false (Nat.not_le.2 inside)
  have number : (EdgeRef.sealed number).raw = number := rfl
  rw [target?, known, if_neg Bool.false_ne_true, number, selected]

/-- An edge leads to the target at its place among the targets of all levels. -/
theorem Holds.target?_sealed (h : stack.Holds contents) (number : Nat) :
    stack.target? (.sealed number) = (contents.flatMap (·.targets))[number]? := by
  by_cases inside : number < totalEdges contents
  · obtain ⟨i, data, found, low, high⟩ := exists_level_of_lt inside
    obtain ⟨slot, rfl⟩ := Nat.exists_eq_add_of_le low
    have slotInside : slot < data.edgeCount := Nat.lt_of_add_lt_add_left high
    have target := List.getElem?_eq_getElem slotInside
    rw [getElem?_flatMap_targets found slotInside, target,
      target?_of_levelsStartingBy (h.edgeCount ▸ inside) (h.levelsStartingBy_eq found low high),
      h.getElem?_levels, found]
    exact Level.target?_ofData target
  · have outside := Nat.not_lt.1 inside
    have past : stack.edgeCount ≤ (EdgeRef.sealed number).raw := h.edgeCount ▸ outside
    rw [target?_of_edgeCount_le past, List.getElem?_eq_none]
    rwa [← totalEdges_eq_length]

end Holds

/-- In a stack whose edge numbers stay apart from the numbers of pending edges, whichever levels
without edges are among its levels, a reference leads to the target at its number among the
targets of all levels put together, and nowhere if there are not as many. The one level that
contains the edge is the one that bisection selects. -/
theorem target_by_position {contents : List LevelData} {stack : Stack}
    (built : ofContents contents = .ok stack) (few : stack.edgeCount < EdgeRef.pendingBase)
    (edge : EdgeRef) :
    let targets := contents.flatMap (·.targets)
    stack.edgeCount = targets.length ∧
    (∀ target, stack.target? edge = some target ↔
      edge.raw < stack.edgeCount ∧ targets[edge.raw]? = some target) ∧
    (stack.target? edge = none ↔ stack.edgeCount ≤ edge.raw) ∧
    ∀ index, (∃ level, stack.levels[index]? = some level ∧ level.containsEdge edge = true) ↔
      edge.raw < stack.edgeCount ∧ stack.levelsStartingBy edge.raw = index + 1 := by
  intro targets
  have held := holds_ofContents built
  have total : stack.edgeCount = targets.length := by
    rw [held.edgeCount, totalEdges_eq_length]
  -- A reference that is not to a sealed edge has a number past all edges.
  have lookup : stack.target? edge = targets[edge.raw]? := by
    cases edge with
    | sealed number => exact held.target?_sealed number
    | nil =>
      have past : stack.edgeCount ≤ EdgeRef.nil.raw :=
        Nat.le_of_lt (Nat.lt_trans few (by decide))
      rw [target?_of_edgeCount_le past, List.getElem?_eq_none (total ▸ past)]
    | pending position =>
      have past : stack.edgeCount ≤ (EdgeRef.pending position).raw :=
        Nat.le_trans (Nat.le_of_lt few) (Nat.le_add_right _ _)
      rw [target?_of_edgeCount_le past, List.getElem?_eq_none (total ▸ past)]
  refine ⟨total, ?_, ?_, ?_⟩
  · intro target
    rw [lookup, total]
    constructor
    · intro found
      exact ⟨(List.getElem?_eq_some_iff.1 found).1, found⟩
    · exact And.right
  · rw [lookup, total, List.getElem?_eq_none_iff]
  · intro index
    by_cases isNil : edge = .nil
    · subst isNil
      have past : ¬EdgeRef.nil.raw < stack.edgeCount :=
        Nat.not_lt.2 (Nat.le_of_lt (Nat.lt_trans few (by decide)))
      constructor
      · rintro ⟨level, -, contains⟩
        simp [Level.containsEdge] at contains
      · exact fun both => absurd both.1 past
    · exact held.exists_containsEdge_iff isNil index

/-- Levels without edges stand first, in the middle and last. -/
theorem target_by_position_between_empty_levels :
    let contents : List LevelData := [.empty 2, ⟨[⟨.sealed 1, 1⟩], [⟨1⟩, ⟨0⟩]⟩, .empty 1, .empty 0,
      ⟨[.empty, .empty, ⟨.sealed 0, 1⟩], [⟨2⟩]⟩, .empty 3]
    ∃ stack, ofContents contents = .ok stack ∧ stack.edgeCount < EdgeRef.pendingBase ∧
      stack.target? (.sealed 0) = some ⟨1⟩ ∧ stack.target? (.sealed 2) = some ⟨2⟩ ∧
      stack.target? .nil = none ∧ stack.target? (.pending 0) = none ∧
      stack.levelsStartingBy 2 = 4 + 1 := by
  intro contents
  have built : ofContents contents = .ok _ := rfl
  have few : 3 < EdgeRef.pendingBase := by decide
  refine ⟨_, built, few, ?_, ?_, ?_, ?_, ?_⟩
  · exact ((target_by_position built few (.sealed 0)).2.1 _).2 (by decide)
  · exact ((target_by_position built few (.sealed 2)).2.1 _).2 (by decide)
  · exact (target_by_position built few .nil).2.2.1.2 (by decide)
  · exact (target_by_position built few (.pending 0)).2.2.1.2 (by decide)
  · exact (((target_by_position built few (.sealed 2)).2.2.2 4).1 ⟨_, rfl, by decide⟩).2

end Stack

end LayeredGraph
