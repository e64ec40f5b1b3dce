import LayeredGraph.Cursor
import LayeredGraph.Proofs.Stack

/-! What a walk has left to give. Every cursor stands before a list of edges with targets; a call
takes the first of them, and at the end of the list nothing changes any more. A cursor opened on
a stack stands before all edges of its node, level by level. -/
namespace LayeredGraph

namespace Stack

theorem walkFrom_of_getElem? {stack : Stack} {node : NodeId} {index : Nat} {level : Level}
    (h : stack.levels[index]? = some level) :
    stack.walkFrom node index = level.walk node ++ stack.walkFrom node (index + 1) := by
  rw [← Array.getElem?_toList] at h
  obtain ⟨inside, rfl⟩ := List.getElem?_eq_some_iff.1 h
  rw [walkFrom, walkFrom, List.drop_eq_getElem_cons inside, List.flatMap_cons]

theorem flatMap_walk_eq_nil {levels : List Level} {node : NodeId}
    (h : ∀ level ∈ levels, level.degree node = 0) : levels.flatMap (·.walk node) = [] := by
  rw [List.flatMap_eq_nil_iff]
  intro level member
  exact (Level.walk_eq_nil_iff level node).2 (h level member)

/-- Levels in which the node has no edges can be skipped. -/
theorem walkFrom_add {stack : Stack} {node : NodeId} {start count : Nat}
    (h : ∀ level ∈ (stack.levels.toList.drop start).take count, level.degree node = 0) :
    stack.walkFrom node start = stack.walkFrom node (start + count) := by
  have split := List.take_append_drop count (stack.levels.toList.drop start)
  rw [walkFrom, walkFrom, ← split, List.flatMap_append, flatMap_walk_eq_nil h, List.drop_drop,
    List.nil_append]

theorem walkFrom_of_nextNonemptyLevel_none {stack : Stack} {node : NodeId} {start : Nat}
    (h : stack.nextNonemptyLevel node start = none) : stack.walkFrom node start = [] := by
  rw [nextNonemptyLevel, Option.map_eq_none_iff, List.findIdx?_eq_none_iff] at h
  apply flatMap_walk_eq_nil
  intro level member
  have none := h level member
  simpa using none

/-- The level found is the first one in which the node has edges. -/
theorem walkFrom_of_nextNonemptyLevel {stack : Stack} {node : NodeId} {start index : Nat}
    (h : stack.nextNonemptyLevel node start = some index) :
    ∃ level, stack.levels[index]? = some level ∧ 0 < level.degree node ∧
      stack.walkFrom node start = level.walk node ++ stack.walkFrom node (index + 1) := by
  rw [nextNonemptyLevel, Option.map_eq_some_iff] at h
  obtain ⟨i, found, rfl⟩ := h
  rw [List.findIdx?_eq_some_iff_getElem] at found
  obtain ⟨inside, nonempty, before⟩ := found
  have here : stack.levels[start + i]? = some (stack.levels.toList.drop start)[i] := by
    rw [← Array.getElem?_toList, ← List.getElem?_drop]
    exact List.getElem?_eq_getElem inside
  refine ⟨_, here, of_decide_eq_true nonempty, ?_⟩
  rw [← walkFrom_of_getElem? here]
  apply walkFrom_add
  intro level member
  obtain ⟨j, inRange, rfl⟩ := List.mem_take_iff_getElem.1 member
  have small := before j (Nat.lt_of_lt_of_le inRange (Nat.min_le_left _ _))
  simpa using small

end Stack

namespace Cursor

/-- A place in the range of a node in a level of the stack, with an edge still to be given. -/
def Position.Within (position : Position) (stack : Stack) (node : NodeId) : Prop :=
  ∃ level, stack.levels[position.level]? = some level ∧
    level.edgeRange node = ⟨position.start, position.stop⟩ ∧
    position.start ≤ position.next ∧ position.next < position.stop

/-- What a walk needs to go on: sound levels, and a place in a range of one of them. -/
def Source.Ready (node : NodeId) : Source → Prop
  | .levels stack _ (some position) => stack.Sound ∧ position.Within stack node
  | _ => True

/-- The edges from a position up to the end of its range. -/
def Position.rest (position : Position) (stack : Stack) : List (EdgeRef × NodeId) :=
  match stack.levels[position.level]? with
  | some level => level.between position.next position.stop
  | none => []

/-- The edges that a walk goes on to at the end of a range. -/
def Scope.later (stack : Stack) (node : NodeId) (index : Nat) : Scope → List (EdgeRef × NodeId)
  | .allLevels => stack.walkFrom node index
  | .singleLevel => []

/-- The edges still to be given, with their targets. -/
def Source.rest (node : NodeId) : Source → List (EdgeRef × NodeId)
  | .pending edges => edges.map fun first => (first.edge, first.target)
  | .levels _ _ none => []
  | .levels stack scope (some position) =>
      position.rest stack ++ scope.later stack node (position.level + 1)

section Levels

variable {stack : Stack} {node : NodeId}

theorem positionAt_eq_ok {index : Nat} {level : Level} (sound : stack.Sound)
    (found : stack.levels[index]? = some level) (nonempty : 0 < level.degree node) :
    positionAt stack node index =
      .ok ⟨index, (level.edgeRange node).start, (level.edgeRange node).start,
        (level.edgeRange node).stop⟩ := by
  have reached := Stack.level_eq_ok found
  have checked := (sound.of_getElem? found).checkEntry node
  have range : (level.edgeRange node).isEmpty = false := by
    simpa [EdgeRange.isEmpty] using Level.start_lt_stop nonempty
  simp only [positionAt, reached, checked, range, bind, Except.bind]
  rfl

theorem rest_allLevels (position : Option Position) :
    Source.rest node (.levels stack .allLevels position) =
      match position with
      | none => []
      | some position => position.rest stack ++ stack.walkFrom node (position.level + 1) := by
  cases position <;> rfl

/-- The first range from a level on is the start of a walk over all edges from that level on. -/
theorem firstPosition_eq_ok (sound : stack.Sound) (start : Nat) :
    ∃ position, firstPosition stack node start = .ok position ∧
      Source.Ready node (.levels stack .allLevels position) ∧
      Source.rest node (.levels stack .allLevels position) = stack.walkFrom node start := by
  unfold firstPosition
  cases found : stack.nextNonemptyLevel node start with
  | none => exact ⟨none, rfl, trivial, (Stack.walkFrom_of_nextNonemptyLevel_none found).symm⟩
  | some index =>
    obtain ⟨level, here, nonempty, walk⟩ := Stack.walkFrom_of_nextNonemptyLevel found
    refine ⟨some _, congrArg (some <$> ·) (positionAt_eq_ok sound here nonempty), ?_, ?_⟩
    · exact ⟨sound, level, here, rfl, Nat.le_refl _, Level.start_lt_stop nonempty⟩
    · rw [walk, rest_allLevels]
      simp only [Position.rest, here, Level.walk]

/-- An edge of the range before its end, and what stays of the range behind it. -/
theorem rest_of_within {position : Position} (sound : stack.Sound)
    (within : position.Within stack node) :
    ∃ level target, stack.levels[position.level]? = some level ∧
      level.target? (.sealed position.next) = some target ∧
      position.rest stack = (.sealed position.next, target) ::
        level.between (position.next + 1) position.stop := by
  obtain ⟨level, here, range, low, high⟩ := within
  obtain ⟨base, stop⟩ := sound.of_getElem? here node
  rw [range] at base stop
  have target := level.target?_sealed (Nat.le_trans base low) (Nat.lt_of_lt_of_le high stop)
  refine ⟨level, _, here, target, ?_⟩
  simp only [Position.rest, here]
  rw [Level.between_cons level high, target]
  rfl

theorem following_of_lt (scope : Scope) {position : Position}
    (more : position.next + 1 < position.stop) :
    following stack node scope position = some { position with next := position.next + 1 } :=
  if_pos more

theorem following_singleLevel {position : Position}
    (last : ¬position.next + 1 < position.stop) :
    following stack node .singleLevel position = none := if_neg last

theorem following_allLevels {position : Position} {later : Option Position}
    (last : ¬position.next + 1 < position.stop)
    (found : firstPosition stack node (position.level + 1) = .ok later) :
    following stack node .allLevels position = later := by
  simp only [following, if_neg last, found]

/-- Behind an edge the walk stands before what was left behind that edge. -/
theorem following_spec (scope : Scope) {position : Position} (sound : stack.Sound)
    (within : position.Within stack node) {level : Level}
    (here : stack.levels[position.level]? = some level) :
    Source.Ready node (.levels stack scope (following stack node scope position)) ∧
      Source.rest node (.levels stack scope (following stack node scope position)) =
        level.between (position.next + 1) position.stop ++
          scope.later stack node (position.level + 1) := by
  by_cases more : position.next + 1 < position.stop
  · obtain ⟨other, same, range, low, -⟩ := within
    rw [following_of_lt scope more]
    refine ⟨⟨sound, other, same, range, Nat.le_succ_of_le low, more⟩, ?_⟩
    simp only [Source.rest, Position.rest, here]
  · rw [Level.between_eq_nil level (Nat.not_lt.1 more), List.nil_append]
    cases scope with
    | singleLevel =>
      rw [following_singleLevel more]
      exact ⟨trivial, rfl⟩
    | allLevels =>
      obtain ⟨later, found, ready, rest⟩ := firstPosition_eq_ok sound (position.level + 1)
      rw [following_allLevels more found]
      exact ⟨ready, rest⟩

end Levels

/-- A step takes the first of the edges that are left, if there is one. -/
theorem advance_spec {node : NodeId} {source : Source} (ready : source.Ready node) :
    (source.rest node = [] ∧ advance node source = (none, source)) ∨
      ∃ first after, advance node source = (some first, after) ∧ after.Ready node ∧
        source.rest node = first :: after.rest node := by
  match source, ready with
  | .pending [], _ => exact .inl ⟨rfl, rfl⟩
  | .pending (first :: edges), _ => exact .inr ⟨_, .pending edges, rfl, trivial, rfl⟩
  | .levels stack scope none, _ => exact .inl ⟨rfl, rfl⟩
  | .levels stack scope (some position), ⟨sound, within⟩ =>
    obtain ⟨level, target, here, found, rest⟩ := rest_of_within sound within
    obtain ⟨after, later⟩ := following_spec scope sound within here
    refine .inr ⟨(.sealed position.next, target), _, ?_, after, ?_⟩
    · simp only [advance, here, Option.bind_some, found]
    · rw [later, Source.rest, rest]
      rfl

/-- A cursor that can go on. -/
def Ready (cursor : Cursor) : Prop := cursor.source.Ready cursor.node

/-- The edges that a cursor still has to give, with their targets. -/
def rest (cursor : Cursor) : List (EdgeRef × NodeId) := cursor.source.rest cursor.node

section Calls

variable {cursor : Cursor}

/-- At the end a call gives nothing and changes nothing. -/
theorem nextEdge_of_rest_nil (ready : cursor.Ready) (rest : cursor.rest = []) :
    cursor.nextEdge = (none, cursor) := by
  unfold nextEdge
  rcases advance_spec ready with ⟨-, step⟩ | ⟨first, after, -, -, some⟩
  · rw [step]
  · rw [Cursor.rest, some] at rest
    simp at rest

/-- Before the end a call gives the first edge that is left and remembers it. -/
theorem nextEdge_of_rest_cons {edge : EdgeRef} {target : NodeId}
    {later : List (EdgeRef × NodeId)} (ready : cursor.Ready)
    (rest : cursor.rest = (edge, target) :: later) :
    ∃ after : Cursor, cursor.nextEdge = (some edge, after) ∧ after.Ready ∧ after.rest = later ∧
      after.lastEdge = edge ∧ after.lastNode = some target := by
  rcases advance_spec ready with ⟨none, -⟩ | ⟨first, after, step, next, some⟩
  · rw [Cursor.rest, none] at rest
    simp at rest
  · rw [Cursor.rest, some] at rest
    obtain ⟨rfl, rfl⟩ := List.cons.inj rest
    refine ⟨{ cursor with source := after, lastNode := target, lastEdge := edge }, ?_, next, rfl,
      rfl, rfl⟩
    unfold nextEdge
    rw [step]

theorem next_of_rest_nil (ready : cursor.Ready) (rest : cursor.rest = []) :
    cursor.next = (none, cursor) := by
  rw [next, nextEdge_of_rest_nil ready rest]

/-- Either call takes the same edge; they differ in what they show of it. -/
theorem next_of_nextEdge {edge : EdgeRef} {target : NodeId} {after : Cursor}
    (step : cursor.nextEdge = (some edge, after)) (last : after.lastNode = some target) :
    cursor.next = (some target, after) := by
  simp only [next, step, last]

end Calls

/-- After some calls, a cursor that gives a list of edges stands before the rest of the list and
shows the last edge given. -/
structure Stands (cursor : Cursor) (walk : List (EdgeRef × NodeId)) (given : Nat) : Prop where
  ready : cursor.Ready
  rest : cursor.rest = walk.drop given
  lastNode : cursor.lastNode = (walk.take given).getLast?.map (·.2)
  lastEdge : cursor.lastEdge = ((walk.take given).getLast?.map (·.1)).getD .nil

/-- A cursor opened on a sound stack stands before all edges of its node. -/
theorem begin_eq_ok {stack : Stack} {node : NodeId} (sound : stack.Sound)
    (inside : node.toNat < stack.maxNodes) :
    ∃ cursor, begin stack node = .ok cursor ∧ cursor.Stands (stack.walk node) 0 := by
  obtain ⟨position, found, ready, rest⟩ := @firstPosition_eq_ok stack node sound 0
  have checked := Stack.checkNode_eq_ok.2 inside
  refine ⟨⟨node, .levels stack .allLevels position, none, .nil⟩, ?_, ready, rest, rfl, rfl⟩
  simp only [begin, checked, found, bind, Except.bind]
  rfl

/-- A cursor is refused for a node past the last one, and for no other reason. -/
theorem begin_eq_error {stack : Stack} {node : NodeId} (outside : stack.maxNodes ≤ node.toNat) :
    begin stack node = .error (.nodeOutOfRange node stack.maxNodes) := by
  simp only [begin, Stack.checkNode_eq_error outside, bind, Except.bind]

/-- A cursor opened within a level stands before the edges that its node has there. -/
theorem stands_of_beginWithinLevel {stack : Stack} {node : NodeId} {index : Nat} {cursor : Cursor}
    (sound : stack.Sound) (opened : beginWithinLevel stack node index = .ok cursor) :
    ∃ level, stack.levels[index]? = some level ∧ cursor.Stands (level.walk node) 0 := by
  cases checked : stack.checkNode node with
  | error e => simp [beginWithinLevel, checked, bind, Except.bind] at opened
  | ok =>
    cases here : stack.levels[index]? with
    | none => simp [beginWithinLevel, checked, Stack.level, here, bind, Except.bind] at opened
    | some level =>
      have reached := Stack.level_eq_ok here
      refine ⟨level, rfl, ?_⟩
      by_cases nonempty : 0 < level.degree node
      · have placed := positionAt_eq_ok sound here nonempty
        simp only [beginWithinLevel, checked, reached, if_pos nonempty, placed, bind, Except.bind,
          Functor.map, Except.map, pure, Except.pure, Except.ok.injEq] at opened
        subst opened
        refine ⟨⟨sound, level, here, rfl, Nat.le_refl _, Level.start_lt_stop nonempty⟩, ?_, rfl,
          rfl⟩
        simp only [Cursor.rest, Source.rest, Position.rest, here, Scope.later, List.append_nil]
        rfl
      · simp only [beginWithinLevel, checked, reached, if_neg nonempty, bind, Except.bind, pure,
          Except.pure, Except.ok.injEq] at opened
        subst opened
        refine ⟨trivial, ?_, rfl, rfl⟩
        have none : level.walk node = [] := by
          rw [Level.walk_eq_nil_iff]
          exact UInt32.toNat_inj.1 (Nat.eq_zero_of_not_pos nonempty)
        rw [none]
        rfl

section Stands

variable {cursor : Cursor} {walk : List (EdgeRef × NodeId)} {given : Nat}

/-- Both calls answer from the same place of the walk and leave the same cursor, one place on. -/
theorem Stands.step (h : cursor.Stands walk given) :
    cursor.nextEdge.1 = walk[given]?.map (·.1) ∧ cursor.next.1 = walk[given]?.map (·.2) ∧
      cursor.nextEdge.2.Stands walk (given + 1) := by
  cases first : walk[given]? with
  | none =>
    have past := List.getElem?_eq_none_iff.1 first
    have rest : cursor.rest = [] := by rw [h.rest, List.drop_eq_nil_of_le past]
    have same : walk.take (given + 1) = walk.take given := by
      rw [List.take_of_length_le past, List.take_of_length_le (Nat.le_succ_of_le past)]
    rw [nextEdge_of_rest_nil h.ready rest, next_of_rest_nil h.ready rest]
    refine ⟨rfl, rfl, h.ready, ?_, ?_, ?_⟩
    · rw [rest, List.drop_eq_nil_of_le (Nat.le_succ_of_le past)]
    · rw [same, h.lastNode]
    · rw [same, h.lastEdge]
  | some pair =>
    obtain ⟨inside, value⟩ := List.getElem?_eq_some_iff.1 first
    have rest : cursor.rest = (pair.1, pair.2) :: walk.drop (given + 1) := by
      rw [h.rest, List.drop_eq_getElem_cons inside, value]
    obtain ⟨after, step, ready, later, edge, node⟩ := nextEdge_of_rest_cons h.ready rest
    have last : (walk.take (given + 1)).getLast? = some pair := by
      rw [List.take_add_one, first]
      simp
    rw [step, next_of_nextEdge step node]
    refine ⟨rfl, rfl, ready, later, ?_, ?_⟩
    · rw [node, last]
      rfl
    · rw [edge, last]
      rfl

end Stands

section Drain

variable {cursor : Cursor}

theorem totalDegree_eq_length (node : NodeId) (levels : List Level) :
    Level.totalDegree node levels = (levels.flatMap (·.walk node)).length := by
  induction levels with
  | nil => rfl
  | cons level levels ih =>
    rw [Level.totalDegree, List.flatMap_cons, List.length_append, Level.length_walk, ih]

/-- The number that a cursor announces is the number of edges it still has to give. -/
theorem remaining_eq_length_rest (ready : cursor.Ready) :
    cursor.remaining = cursor.rest.length := by
  obtain ⟨node, source, lastNode, lastEdge⟩ := cursor
  match source, ready with
  | .pending edges, _ => exact (List.length_map _).symm
  | .levels stack scope none, _ => cases scope <;> rfl
  | .levels stack scope (some position), ⟨_, level, here, _⟩ =>
    have length : (position.rest stack).length = position.stop - position.next := by
      simp only [Position.rest, here, Level.length_between]
    cases scope with
    | singleLevel =>
      rw [Cursor.rest, Source.rest, List.length_append, length]
      rfl
    | allLevels =>
      rw [Cursor.rest, Source.rest, List.length_append, length]
      exact congrArg _ (totalDegree_eq_length node _)

/-- Taking edges gives the first of those that are left and stands before the others. -/
theorem take_spec (ready : cursor.Ready) (count : Nat) :
    (cursor.take count).1 = cursor.rest.take count ∧ (cursor.take count).2.Ready ∧
      (cursor.take count).2.rest = cursor.rest.drop count := by
  induction count generalizing cursor with
  | zero => exact ⟨rfl, ready, rfl⟩
  | succ count ih =>
    cases rest : cursor.rest with
    | nil =>
      rw [take, nextEdge_of_rest_nil ready rest]
      exact ⟨rfl, ready, rest⟩
    | cons first later =>
      obtain ⟨after, step, next, left, -, target⟩ := nextEdge_of_rest_cons ready rest
      obtain ⟨taken, ready, stays⟩ := ih next
      rw [left] at taken stays
      rw [take, step]
      simp only [target, Option.getD_some, taken]
      exact ⟨rfl, ready, stays⟩

/-- Draining gives every edge that is left, and then there is none. -/
theorem drain_spec (ready : cursor.Ready) :
    cursor.drain.1 = cursor.rest ∧ cursor.drain.2.nextEdge = (none, cursor.drain.2) := by
  obtain ⟨taken, behind, rest⟩ := take_spec ready cursor.rest.length
  rw [List.take_length] at taken
  rw [List.drop_length] at rest
  rw [drain, remaining_eq_length_rest ready]
  exact ⟨taken, nextEdge_of_rest_nil behind rest⟩

end Drain

/-- A cursor gives some edges: every call shows the next edge, with its target as the last node,
and once there is none a call changes nothing. -/
inductive Gives : Cursor → List (EdgeRef × NodeId) → Prop where
  | done {cursor : Cursor} (finished : cursor.nextEdge = (none, cursor)) : Gives cursor []
  | more {cursor after : Cursor} {edge : EdgeRef} {target : NodeId}
      {later : List (EdgeRef × NodeId)} (given : cursor.nextEdge = (some edge, after))
      (lastEdge : after.lastEdge = edge) (lastNode : after.lastNode = some target)
      (rest : Gives after later) : Gives cursor ((edge, target) :: later)

theorem Gives.unique {cursor : Cursor} {xs ys : List (EdgeRef × NodeId)} (first : cursor.Gives xs)
    (second : cursor.Gives ys) : xs = ys := by
  induction first generalizing ys with
  | done finished =>
    cases second with
    | done => rfl
    | more given => simp [finished] at given
  | more given _ lastNode _ ih =>
    cases second with
    | done finished => simp [finished] at given
    | more again _ lastNode' rest =>
      rw [given, Prod.mk.injEq, Option.some.injEq] at again
      obtain ⟨rfl, rfl⟩ := again
      rw [lastNode, Option.some.injEq] at lastNode'
      rw [lastNode', ih rest]

/-- A cursor gives all edges that it has left. -/
theorem gives_rest {cursor : Cursor} (ready : cursor.Ready) : cursor.Gives cursor.rest := by
  generalize left : cursor.rest = edges
  induction edges generalizing cursor with
  | nil => exact .done (nextEdge_of_rest_nil ready left)
  | cons first later ih =>
    obtain ⟨after, step, next, rest, lastEdge, lastNode⟩ := nextEdge_of_rest_cons ready left
    exact .more step lastEdge lastNode (ih next rest)

end Cursor

namespace Stack

/-- A cursor can be opened for a node, and gives some edges. -/
def Gives (stack : Stack) (node : NodeId) (edges : List (EdgeRef × NodeId)) : Prop :=
  ∃ cursor, Cursor.begin stack node = .ok cursor ∧ cursor.Gives edges

/-- The nodes of a sound stack, and no others, give the edges that all levels have for them. -/
theorem Sound.gives_iff {stack : Stack} (sound : stack.Sound) {node : NodeId}
    {edges : List (EdgeRef × NodeId)} :
    stack.Gives node edges ↔ node.toNat < stack.maxNodes ∧ edges = stack.walk node := by
  by_cases inside : node.toNat < stack.maxNodes
  · obtain ⟨cursor, opened, stands⟩ := Cursor.begin_eq_ok sound inside
    have given : cursor.Gives (stack.walk node) := by
      have rest := Cursor.gives_rest stands.ready
      rwa [stands.rest, List.drop_zero] at rest
    constructor
    · rintro ⟨other, again, gives⟩
      obtain rfl := Except.ok.inj (opened.symm.trans again)
      exact ⟨inside, gives.unique given⟩
    · rintro ⟨-, rfl⟩
      exact ⟨cursor, opened, given⟩
  · have refused := Cursor.begin_eq_error (Nat.not_lt.1 inside)
    constructor
    · rintro ⟨cursor, opened, -⟩
      simp [refused] at opened
    · exact fun both => absurd both.1 inside

end Stack

end LayeredGraph
