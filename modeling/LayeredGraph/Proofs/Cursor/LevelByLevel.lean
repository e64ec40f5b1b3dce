import LayeredGraph.Proofs.Cursor.Observers

/-! Walking level by level. A cursor on one level gives what the level has for its node and then
ends, so the walks over single levels, put one after another, are the walk over all of them. Degrees
and the search for the next level with edges say the same of a node as these walks do. -/
namespace LayeredGraph

namespace Stack

variable {stack : Stack} {node : NodeId} {start index : Nat} {level : Level}

/-- A node has edges in the level with an index. -/
def HasEdges (stack : Stack) (node : NodeId) (index : Nat) : Prop :=
  ∃ degree, stack.levelDegree node index = .ok degree ∧ 0 < degree

theorem levelDegree_eq_ok (here : stack.levels[index]? = some level) :
    stack.levelDegree node index = .ok (level.degree node) := by
  rw [levelDegree, level_eq_ok here]
  rfl

theorem hasEdges_iff : stack.HasEdges node index ↔
    ∃ level, stack.levels[index]? = some level ∧ 0 < level.degree node := by
  cases here : stack.levels[index]? with
  | none =>
    have missing := level_eq_error (Array.getElem?_eq_none_iff.1 here)
    simp [HasEdges, levelDegree, missing, bind, Except.bind]
  | some level => simp [HasEdges, levelDegree_eq_ok here]

theorem hasEdges_add_iff {i : Nat} : stack.HasEdges node (start + i) ↔
    ∃ level, (stack.levels.toList.drop start)[i]? = some level ∧ 0 < level.degree node := by
  rw [hasEdges_iff, List.getElem?_drop, Array.getElem?_toList]

theorem nextNonemptyLevel_eq_none_iff : stack.nextNonemptyLevel node start = none ↔
    ∀ i, start ≤ i → ¬stack.HasEdges node i := by
  rw [nextNonemptyLevel, Option.map_eq_none_iff, List.findIdx?_eq_none_iff]
  constructor
  · intro none i behind
    obtain ⟨i, rfl⟩ := Nat.exists_eq_add_of_le behind
    rw [hasEdges_add_iff]
    rintro ⟨level, here, positive⟩
    exact of_decide_eq_false (none level (List.mem_of_getElem? here)) positive
  · intro none level member
    obtain ⟨i, here⟩ := List.getElem?_of_mem member
    have empty := none (start + i) (Nat.le_add_right _ _)
    rw [hasEdges_add_iff] at empty
    exact decide_eq_false fun positive => empty ⟨level, here, positive⟩

theorem first_of_nextNonemptyLevel (found : stack.nextNonemptyLevel node start = some index) :
    start ≤ index ∧ stack.HasEdges node index ∧
      ∀ i, start ≤ i → i < index → ¬stack.HasEdges node i := by
  rw [nextNonemptyLevel, Option.map_eq_some_iff] at found
  obtain ⟨place, found, rfl⟩ := found
  obtain ⟨inside, positive, before⟩ := List.findIdx?_eq_some_iff_getElem.1 found
  refine ⟨Nat.le_add_right _ _, ?_, ?_⟩
  · exact hasEdges_add_iff.2 ⟨_, List.getElem?_eq_getElem inside, of_decide_eq_true positive⟩
  · intro i behind earlier
    obtain ⟨i, rfl⟩ := Nat.exists_eq_add_of_le behind
    have earlier : i < place := Nat.lt_of_add_lt_add_left earlier
    rw [hasEdges_add_iff, List.getElem?_eq_getElem (Nat.lt_trans earlier inside)]
    rintro ⟨level, here, nonempty⟩
    obtain rfl := Option.some.inj here
    exact before i earlier (decide_eq_true nonempty)

/-- The search finds the first level with edges from its start on, wherever it starts. -/
theorem nextNonemptyLevel_eq_some_iff : stack.nextNonemptyLevel node start = some index ↔
    start ≤ index ∧ stack.HasEdges node index ∧
      ∀ i, start ≤ i → i < index → ¬stack.HasEdges node i := by
  constructor
  · exact first_of_nextNonemptyLevel
  · rintro ⟨behind, here, before⟩
    cases found : stack.nextNonemptyLevel node start with
    | none => exact absurd here (nextNonemptyLevel_eq_none_iff.1 found index behind)
    | some other =>
      obtain ⟨otherBehind, there, otherBefore⟩ := first_of_nextNonemptyLevel found
      -- Of two different levels the later one cannot be the first.
      rcases Nat.lt_trichotomy other index with less | rfl | greater
      · exact absurd there (before other otherBehind less)
      · rfl
      · exact absurd here (otherBefore index behind greater)

end Stack

namespace Cursor

section Open

variable {stack : Stack} {node : NodeId} {index : Nat} {level : Level}

/-- On a level of a sound stack a cursor can be opened for every node, and gives what the level has
for it. -/
theorem exists_beginWithinLevel (sound : stack.Sound) (inside : node.toNat < stack.maxNodes)
    (here : stack.levels[index]? = some level) :
    ∃ cursor, beginWithinLevel stack node index = .ok cursor ∧
      cursor.Stands (level.walk node) 0 := by
  have opened : ∃ cursor, beginWithinLevel stack node index = .ok cursor := by
    have checked := Stack.checkNode_eq_ok.2 inside
    have reached := Stack.level_eq_ok here
    by_cases nonempty : 0 < level.degree node
    · simp only [beginWithinLevel, checked, reached, if_pos nonempty,
        positionAt_eq_ok sound here nonempty, bind, Except.bind]
      exact ⟨_, rfl⟩
    · simp only [beginWithinLevel, checked, reached, if_neg nonempty, bind, Except.bind]
      exact ⟨_, rfl⟩
  obtain ⟨cursor, opened⟩ := opened
  obtain ⟨other, there, stands⟩ := stands_of_beginWithinLevel sound opened
  obtain rfl := Option.some.inj (there.symm.trans here)
  exact ⟨cursor, opened, stands⟩

theorem Stands.gives {cursor : Cursor} {walk : List (EdgeRef × NodeId)} (h : cursor.Stands walk 0) :
    cursor.Gives walk := by
  have rest := gives_rest h.ready
  rwa [h.rest, List.drop_zero] at rest

theorem beginWithinLevel_of_unknown (unknown : stack.maxNodes ≤ node.toNat) (index : Nat) :
    beginWithinLevel stack node index = .error (.nodeOutOfRange node stack.maxNodes) := by
  simp only [beginWithinLevel, Stack.checkNode_eq_error unknown, bind, Except.bind]

theorem beginWithinLevel_of_missing (inside : node.toNat < stack.maxNodes)
    (missing : stack.numLevels ≤ index) :
    beginWithinLevel stack node index = .error (.levelOutOfRange index stack.numLevels) := by
  simp only [beginWithinLevel, Stack.checkNode_eq_ok.2 inside, Stack.level_eq_error missing, bind,
    Except.bind]

/-- The node is checked before the level, and nothing else is refused. -/
theorem beginWithinLevel_eq_error_iff (sound : stack.Sound) {e : Error} :
    beginWithinLevel stack node index = .error e ↔
      stack.maxNodes ≤ node.toNat ∧ e = .nodeOutOfRange node stack.maxNodes ∨
      node.toNat < stack.maxNodes ∧ stack.numLevels ≤ index ∧
        e = .levelOutOfRange index stack.numLevels := by
  by_cases inside : node.toNat < stack.maxNodes
  · by_cases present : index < stack.numLevels
    · obtain ⟨cursor, opened, -⟩ :=
        exists_beginWithinLevel sound inside (Array.getElem?_eq_getElem present)
      rw [opened]
      constructor
      · exact nofun
      · rintro (⟨unknown, -⟩ | ⟨-, missing, -⟩)
        · exact absurd inside (Nat.not_lt.2 unknown)
        · exact absurd present (Nat.not_lt.2 missing)
    · have missing := Nat.not_lt.1 present
      rw [beginWithinLevel_of_missing inside missing]
      simp only [Except.error.injEq, inside, missing, Nat.not_le.2 inside, false_and, true_and,
        false_or]
      exact eq_comm
  · have unknown := Nat.not_lt.1 inside
    rw [beginWithinLevel_of_unknown unknown]
    simp only [Except.error.injEq, inside, unknown, false_and, true_and, or_false]
    exact eq_comm

end Open

/-- What the levels of a stack give for one of its nodes, one level after another, is what the whole
stack gives for it. -/
theorem walk_splits_by_level {contents : List LevelData} {stack : Stack}
    (built : Stack.ofContents contents = .ok stack) (node : NodeId) :
    (node.toNat < stack.maxNodes →
      ∃ pieces : List (List (EdgeRef × NodeId)),
        stack.Gives node pieces.flatten ∧ pieces.flatten.length = stack.degree node ∧
        pieces.length = stack.numLevels ∧
        ∀ index piece, pieces[index]? = some piece → ∃ cursor level degree,
          beginWithinLevel stack node index = .ok cursor ∧ cursor.Gives piece ∧
          stack.level index = .ok level ∧
          (∀ pair ∈ piece, ∃ number, pair.1 = .sealed number ∧
            level.edgeBase ≤ number ∧ number < level.edgeEnd) ∧
          stack.levelDegree node index = .ok degree ∧ piece.length = degree.toNat) ∧
    (∀ start index, stack.nextNonemptyLevel node start = some index ↔
      start ≤ index ∧ stack.HasEdges node index ∧
        ∀ i, start ≤ i → i < index → ¬stack.HasEdges node i) ∧
    (∀ start, stack.nextNonemptyLevel node start = none ↔
      ∀ index, start ≤ index → ¬stack.HasEdges node index) ∧
    ∀ index e, beginWithinLevel stack node index = .error e ↔
      stack.maxNodes ≤ node.toNat ∧ e = .nodeOutOfRange node stack.maxNodes ∨
      node.toNat < stack.maxNodes ∧ stack.numLevels ≤ index ∧
        e = .levelOutOfRange index stack.numLevels := by
  have sound : stack.Sound := (Stack.holds_ofContents built).sound
  refine ⟨?_, fun _ _ => Stack.nextNonemptyLevel_eq_some_iff,
    fun _ => Stack.nextNonemptyLevel_eq_none_iff, fun _ _ => beginWithinLevel_eq_error_iff sound⟩
  intro inside
  have whole : (stack.levels.toList.map (·.walk node)).flatten = stack.walk node :=
    List.flatMap_def.symm
  refine ⟨stack.levels.toList.map (·.walk node), ?_, ?_, ?_, ?_⟩
  · exact sound.gives_iff.2 ⟨inside, whole⟩
  · rw [whole, Stack.degree, totalDegree_eq_length]
    rfl
  · rw [List.length_map, Array.length_toList]
    rfl
  · intro index piece found
    rw [List.getElem?_map, Option.map_eq_some_iff, Array.getElem?_toList] at found
    obtain ⟨level, here, rfl⟩ := found
    obtain ⟨cursor, opened, stands⟩ := exists_beginWithinLevel sound inside here
    refine ⟨cursor, level, level.degree node, opened, stands.gives, Stack.level_eq_ok here, ?_,
      Stack.levelDegree_eq_ok here, level.length_walk node⟩
    intro pair member
    obtain ⟨number, first, last, edge⟩ := Level.exists_of_mem_between member
    obtain ⟨base, stop⟩ := sound.of_getElem? here node
    exact ⟨number, edge, Nat.le_trans base first, Nat.lt_of_lt_of_le last stop⟩

/-- A node with edges in the second and the fourth of five levels, between levels that cover it
without edges or do not cover it at all. -/
theorem walk_splits_by_level_around_empty_levels :
    let second : LevelData := ⟨[⟨.sealed 0, 2⟩], [⟨1⟩, ⟨0⟩]⟩
    let fourth : LevelData := ⟨[⟨.sealed 0, 1⟩, .empty, ⟨.sealed 1, 1⟩], [⟨2⟩, ⟨0⟩]⟩
    ∃ stack, Stack.ofContents [.empty 3, second, .empty 0, fourth, .empty 2] = .ok stack ∧
      (∃ pieces : List (List (EdgeRef × NodeId)), stack.Gives ⟨0⟩ pieces.flatten ∧
        pieces.flatten.length = 3 ∧ pieces.length = 5 ∧
        ∀ piece, pieces[2]? = some piece → piece.length = 0) ∧
      stack.nextNonemptyLevel ⟨0⟩ 2 = some 3 ∧ stack.nextNonemptyLevel ⟨0⟩ 4 = none ∧
      beginWithinLevel stack ⟨3⟩ 5 = .error (.nodeOutOfRange ⟨3⟩ 3) ∧
      beginWithinLevel stack ⟨0⟩ 5 = .error (.levelOutOfRange 5 5) := by
  intro second fourth
  have built : Stack.ofContents [.empty 3, second, .empty 0, fourth, .empty 2] = .ok _ := rfl
  obtain ⟨walked, found, none, missing⟩ := walk_splits_by_level built ⟨0⟩
  obtain ⟨-, -, -, unknown⟩ := walk_splits_by_level built ⟨3⟩
  obtain ⟨pieces, gives, length, levels, single⟩ := walked (by decide)
  refine ⟨_, built, ⟨pieces, gives, length, levels, ?_⟩, ?_, ?_, ?_, ?_⟩
  · intro piece here
    obtain ⟨-, -, degree, -, -, -, -, answer, length⟩ := single 2 piece here
    obtain rfl := Except.ok.inj answer
    exact length
  · refine (found 2 3).2 ⟨by decide, ⟨1, rfl, by decide⟩, ?_⟩
    intro i behind before
    obtain rfl : i = 2 := Nat.le_antisymm (Nat.le_of_lt_succ before) behind
    rintro ⟨degree, answer, positive⟩
    obtain rfl := Except.ok.inj answer
    exact absurd positive (by decide)
  · refine (none 4).2 fun index behind => ?_
    rw [Stack.hasEdges_iff]
    rintro ⟨level, here, positive⟩
    have inside : index < 5 := (Array.getElem?_eq_some_iff.1 here).1
    obtain rfl : index = 4 := Nat.le_antisymm (Nat.le_of_lt_succ inside) behind
    obtain rfl := Option.some.inj here
    exact absurd positive (by decide)
  · exact (unknown 5 _).2 (.inl ⟨by decide, rfl⟩)
  · exact (missing 5 _).2 (.inr ⟨by decide, by decide, rfl⟩)

end Cursor

end LayeredGraph
