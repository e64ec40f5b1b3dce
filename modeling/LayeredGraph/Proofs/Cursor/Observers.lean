import Mathlib.Logic.Basic
import LayeredGraph.Proofs.Graph.Traversal
import LayeredGraph.Proofs.Stack.Lookup

/-! What a cursor says of itself. The number of edges to come, whether there is a next one, and the
place in a level are read off the state of a cursor, and at every moment they agree with what later
calls give. A cursor in a level either gave the edge before its place there, or none of the level's
edges. -/
namespace LayeredGraph

/-- The edges of a level are numbered behind those of the levels before it. -/
def Stack.Ordered (stack : Stack) : Prop :=
  ∀ {i j : Nat} {first later : Level}, stack.levels[i]? = some first →
    stack.levels[j]? = some later → i < j → first.edgeEnd ≤ later.edgeBase

theorem Stack.Holds.ordered {stack : Stack} {contents : List LevelData}
    (h : stack.Holds contents) : stack.Ordered := by
  intro i j first later here there before
  rw [h.getElem?_levels, Option.map_eq_some_iff] at here there
  obtain ⟨data, found, rfl⟩ := here
  obtain ⟨other, -, rfl⟩ := there
  rw [Level.edgeEnd, Level.edgeBase_ofData, Level.edgeBase_ofData, Level.edgeCount_ofData,
    ← LevelData.totalEdges_take_succ found]
  exact LevelData.totalEdges_take_le contents before

namespace Level

variable {level : Level} {n : Nat}

theorem containsEdge_sealed_iff :
    level.containsEdge (.sealed n) = true ↔ level.edgeBase ≤ n ∧ n < level.edgeEnd := by
  have notNil : (EdgeRef.sealed n != .nil) = true := rfl
  rw [containsEdge, notNil, Bool.true_and, Bool.and_eq_true, decide_eq_true_iff,
    decide_eq_true_iff, edgeEnd, EdgeRef.raw]
  omega

theorem containsEdge_sealed_eq_false (before : n < level.edgeBase ∨ level.edgeEnd ≤ n) :
    level.containsEdge (.sealed n) = false := by
  rw [← Bool.not_eq_true, containsEdge_sealed_iff]
  omega

theorem exists_of_mem_between {start stop : Nat} {pair : EdgeRef × NodeId}
    (member : pair ∈ level.between start stop) :
    ∃ n, start ≤ n ∧ n < stop ∧ pair.1 = .sealed n := by
  obtain ⟨n, listed, rfl⟩ := List.mem_map.1 member
  obtain ⟨low, high⟩ := List.mem_range'_1.1 listed
  exact ⟨n, low, by omega, rfl⟩

end Level

/-- Whether an answer shows an edge. -/
def CursorAnswer.isSome : CursorAnswer → Bool
  | .target given => given.isSome
  | .edge given => given.isSome

theorem CursorCall.isSome_show (call : CursorCall) (first : Option (EdgeRef × NodeId)) :
    (call.show first).isSome = first.isSome := by
  cases call <;> exact Option.isSome_map ..

/-- As many calls show an edge as there are edges, or all of them. -/
theorem CursorCall.countP_showAll (walk : List (EdgeRef × NodeId)) (calls : List CursorCall) :
    (CursorCall.showAll walk calls).countP (·.isSome) = min calls.length walk.length := by
  induction calls generalizing walk with
  | nil => exact (Nat.zero_min _).symm
  | cons call calls ih =>
    rw [CursorCall.showAll, List.countP_cons, isSome_show, ih]
    cases walk with
    | nil => simp
    | cons pair walk => simp

namespace Cursor

/-- A cursor opened on the levels of a stack that was built level by level, or on an overlay, which
has no levels. -/
inductive Opened : Array Level → Cursor → Prop where
  | allLevels {contents : List LevelData} {stack : Stack} {node : NodeId} {cursor : Cursor}
      (built : Stack.ofContents contents = .ok stack) (opened : begin stack node = .ok cursor) :
      Opened stack.levels cursor
  | oneLevel {contents : List LevelData} {stack : Stack} {node : NodeId} {index : Nat}
      {cursor : Cursor} (built : Stack.ofContents contents = .ok stack)
      (opened : beginWithinLevel stack node index = .ok cursor) : Opened stack.levels cursor
  | pending {overlay : Overlay} {direction : Direction} {node : NodeId} {cursor : Cursor}
      (opened : overlay.begin direction node = .ok cursor) : Opened #[] cursor

/-- A cursor on its way over levels in order. In a level where it gave an edge, the last one is that
before its place; where it only just arrived, it gave none of the level's edges. -/
structure Trails (levels : Array Level) (cursor : Cursor) : Prop where
  ready : cursor.Ready
  source : ∀ {stack scope position}, cursor.source = .levels stack scope position →
    stack.levels = levels ∧ stack.Ordered
  inside : ∀ {stack scope position}, cursor.source = .levels stack scope (some position) →
    position.start < position.next → cursor.lastEdge = .sealed (position.next - 1)
  arrived : ∀ {stack scope position level}, cursor.source = .levels stack scope (some position) →
    position.next = position.start → stack.levels[position.level]? = some level →
    level.containsEdge cursor.lastEdge = false

section Steps

variable {cursor : Cursor} {levels : Array Level}

theorem firstPosition_bounds {stack : Stack} {node : NodeId} {start : Nat} {position : Position}
    (sound : stack.Sound) (found : firstPosition stack node start = .ok (some position)) :
    start ≤ position.level ∧ position.next = position.start := by
  unfold firstPosition at found
  cases next : stack.nextNonemptyLevel node start with
  | none => simp [next] at found
  | some index =>
    obtain ⟨level, here, nonempty, -⟩ := Stack.walkFrom_of_nextNonemptyLevel next
    simp only [next, positionAt_eq_ok sound here nonempty] at found
    obtain rfl := Option.some.inj (Except.ok.inj found)
    rw [Stack.nextNonemptyLevel, Option.map_eq_some_iff] at next
    obtain ⟨i, -, rfl⟩ := next
    exact ⟨Nat.le_add_right _ _, rfl⟩

/-- The step from a place in a level. -/
theorem nextEdge_of_within {node : NodeId} {stack : Stack} {scope : Scope} {position : Position}
    {lastNode : Option NodeId} {lastEdge : EdgeRef} (sound : stack.Sound)
    (within : position.Within stack node) :
    ∃ target, nextEdge ⟨node, .levels stack scope (some position), lastNode, lastEdge⟩ =
      (some (.sealed position.next), ⟨node, .levels stack scope
        (following stack node scope position), some target, .sealed position.next⟩) := by
  obtain ⟨level, target, here, found, -⟩ := rest_of_within sound within
  refine ⟨target, ?_⟩
  simp only [nextEdge, advance, here, Option.bind_some, found]

/-- A step leads to the next place of the range, or to the start of a range in a later level. -/
theorem following_cases {stack : Stack} {node : NodeId} {scope : Scope} {position next : Position}
    (sound : stack.Sound) (found : following stack node scope position = some next) :
    next = { position with next := position.next + 1 } ∨
      position.level < next.level ∧ next.next = next.start := by
  by_cases more : position.next + 1 < position.stop
  · rw [following_of_lt scope more] at found
    exact .inl (Option.some.inj found).symm
  · cases scope with
    | singleLevel =>
      rw [following_singleLevel more] at found
      simp at found
    | allLevels =>
      obtain ⟨later, first, -⟩ := @firstPosition_eq_ok stack node sound (position.level + 1)
      rw [following_allLevels more first] at found
      subst found
      exact .inr (firstPosition_bounds sound first)

theorem Trails.nextEdge (h : cursor.Trails levels) : cursor.nextEdge.2.Trails levels := by
  obtain ⟨node, source, lastNode, lastEdge⟩ := cursor
  match source, h.ready with
  | .pending [], _ => exact h
  | .pending (first :: rest), _ => exact ⟨trivial, nofun, nofun, nofun⟩
  | .levels stack scope none, _ => exact h
  | .levels stack scope (some position), ⟨sound, within⟩ =>
    obtain ⟨same, ordered⟩ := h.source rfl
    obtain ⟨target, step⟩ := @nextEdge_of_within node stack scope position lastNode lastEdge sound
      within
    obtain ⟨level, here, range, low, high⟩ := id within
    have bounds := sound.of_getElem? here node
    rw [range] at bounds
    rw [step]
    refine ⟨(following_spec scope sound within here).1, ?_, ?_, ?_⟩
    · rintro _ _ _ ⟨⟩
      exact ⟨same, ordered⟩
    · rintro _ _ next same moved
      obtain ⟨rfl, rfl, found⟩ := Source.levels.inj same
      rcases following_cases sound found with rfl | ⟨-, arrived⟩
      · rfl
      · exact absurd arrived (Nat.ne_of_gt moved)
    · rintro _ _ next other same arrived there
      obtain ⟨rfl, rfl, found⟩ := Source.levels.inj same
      rcases following_cases sound found with rfl | ⟨later, -⟩
      · exact absurd arrived (Nat.ne_of_gt (Nat.lt_succ_of_le low))
      · have behind := Nat.le_trans bounds.2 (ordered here there later)
        exact Level.containsEdge_sealed_eq_false (.inl (Nat.lt_of_lt_of_le high behind))

/-- Calls keep a cursor on its way, and nothing else touches it. -/
theorem Trails.run (h : cursor.Trails levels) (graph : Graph) (overlay : Overlay)
    (events : List SceneEvent) :
    (Scene.run ⟨graph, overlay, cursor⟩ events).2.cursor.Trails levels := by
  induction events generalizing graph overlay cursor with
  | nil => exact h
  | cons event events ih =>
    cases event with
    | graph call => exact ih h _ _
    | append append => exact ih h _ _
    | checkpoint => exact ih h _ _
    | cursor call =>
      have next : (cursor.call call).2 = cursor.nextEdge.2 := by
        cases call
        · exact cursor.next_eq
        · rfl
      rw [Scene.run_cursor, next]
      exact ih h.nextEdge graph overlay

end Steps

section Open

variable {stack : Stack} {contents : List LevelData} {node : NodeId} {cursor : Cursor}

/-- A cursor over levels starts without a last edge, and at the start of a range. -/
theorem trails_start {scope : Scope} {position : Option Position} (ordered : stack.Ordered)
    (ready : Ready ⟨node, .levels stack scope position, none, .nil⟩)
    (start : ∀ place, position = some place → place.next = place.start) :
    Trails stack.levels ⟨node, .levels stack scope position, none, .nil⟩ := by
  refine ⟨ready, ?_, ?_, ?_⟩
  · rintro _ _ _ ⟨⟩
    exact ⟨rfl, ordered⟩
  · rintro _ _ place same moved
    obtain ⟨-, -, here⟩ := Source.levels.inj same
    exact absurd (start place here) (Nat.ne_of_gt moved)
  · rintro _ _ _ level - - -
    rfl

theorem trails_of_begin (held : stack.Holds contents) (opened : begin stack node = .ok cursor) :
    cursor.Trails stack.levels ∧ ∃ walk, cursor.Stands walk 0 := by
  have inside : node.toNat < stack.maxNodes := by
    refine Nat.lt_of_not_le fun outside => ?_
    rw [begin_eq_error outside] at opened
    simp at opened
  obtain ⟨other, same, stands⟩ := begin_eq_ok held.sound inside
  obtain rfl := Except.ok.inj (same.symm.trans opened)
  obtain ⟨position, found, -⟩ := @firstPosition_eq_ok stack node held.sound 0
  simp only [begin, Stack.checkNode_eq_ok.2 inside, found, bind, Except.bind, pure, Except.pure,
    Except.ok.injEq] at opened
  subst opened
  refine ⟨trails_start held.ordered stands.ready fun place here => ?_, _, stands⟩
  subst here
  exact (firstPosition_bounds held.sound found).2

theorem trails_of_beginWithinLevel {index : Nat} (held : stack.Holds contents)
    (opened : beginWithinLevel stack node index = .ok cursor) :
    cursor.Trails stack.levels ∧ ∃ walk, cursor.Stands walk 0 := by
  obtain ⟨level, here, stands⟩ := stands_of_beginWithinLevel held.sound opened
  have reached := Stack.level_eq_ok here
  refine ⟨?_, _, stands⟩
  have ready := stands.ready
  cases checked : stack.checkNode node with
  | error e => simp [beginWithinLevel, checked, bind, Except.bind] at opened
  | ok =>
    by_cases nonempty : 0 < level.degree node
    · simp only [beginWithinLevel, checked, reached, if_pos nonempty,
        positionAt_eq_ok held.sound here nonempty, bind, Except.bind, Functor.map, Except.map, pure,
        Except.pure, Except.ok.injEq] at opened
      subst opened
      refine trails_start held.ordered ready fun place same => ?_
      obtain rfl := Option.some.inj same
      rfl
    · simp only [beginWithinLevel, checked, reached, if_neg nonempty, bind, Except.bind, pure,
        Except.pure, Except.ok.injEq] at opened
      subst opened
      exact trails_start held.ordered ready fun _ none => absurd none.symm (Option.some_ne_none _)

theorem Opened.trails {levels : Array Level} (h : Opened levels cursor) :
    cursor.Trails levels ∧ ∃ walk, cursor.Stands walk 0 := by
  cases h with
  | allLevels built opened => exact trails_of_begin (Stack.holds_ofContents built) opened
  | oneLevel built opened => exact trails_of_beginWithinLevel (Stack.holds_ofContents built) opened
  | @pending overlay direction node cursor opened =>
    cases checked : overlay.checkNode node with
    | error e => simp [Overlay.begin, checked, bind, Except.bind] at opened
    | ok =>
      simp only [Overlay.begin, checked, bind, Except.bind, pure, Except.pure,
        Except.ok.injEq] at opened
      subst opened
      exact ⟨⟨trivial, nofun, nofun, nofun⟩, _, trivial, rfl, rfl, rfl⟩

end Open

section Observers

variable {cursor : Cursor} {levels : Array Level}

theorem hasNext_eq (ready : cursor.Ready) : cursor.hasNext = !cursor.rest.isEmpty := by
  obtain ⟨node, source, lastNode, lastEdge⟩ := cursor
  match source, ready with
  | .pending [], _ => rfl
  | .pending (first :: rest), _ => rfl
  | .levels stack scope none, _ => rfl
  | .levels stack scope (some position), ⟨sound, within⟩ =>
    obtain ⟨level, target, here, found, rest⟩ := rest_of_within sound within
    rw [Cursor.rest, Source.rest, rest]
    rfl

section Call

variable {walk : List (EdgeRef × NodeId)} {count : Nat}

theorem Stands.isSome_call (h : cursor.Stands walk count) (call : CursorCall) :
    (cursor.call call).1.isSome = cursor.hasNext := by
  have head : walk[count]? = cursor.rest.head? := by rw [h.rest, List.head?_drop]
  rw [(h.call call).1, CursorCall.isSome_show, head, hasNext_eq h.ready]
  cases cursor.rest <;> rfl

theorem Stands.remaining_call (h : cursor.Stands walk count) (more : cursor.hasNext = true)
    (call : CursorCall) : (cursor.call call).2.remaining + 1 = cursor.remaining := by
  have next := (h.call call).2
  have nonempty : walk.drop count ≠ [] := by
    intro none
    rw [hasNext_eq h.ready, h.rest, none] at more
    exact Bool.false_ne_true more
  have positive := List.length_pos_iff.2 nonempty
  rw [List.length_drop] at positive
  rw [remaining_eq_length_rest next.ready, remaining_eq_length_rest h.ready, next.rest, h.rest,
    List.length_drop, List.length_drop]
  omega

end Call

theorem levelSpan_eq_none_iff :
    cursor.levelSpan = none ↔ cursor.isExhausted = true ∨ cursor.isWritable = true := by
  obtain ⟨node, source, lastNode, lastEdge⟩ := cursor
  match source with
  | .pending rest => exact iff_of_true rfl (.inr rfl)
  | .levels stack scope none => exact iff_of_true rfl (.inl rfl)
  | .levels stack scope (some position) => exact iff_of_false nofun (by rintro (⟨⟨⟩⟩ | ⟨⟨⟩⟩))

/-- Of the edges to come those up to the end of the range are of the level of the position. -/
theorem Trails.length_filter_rest (h : cursor.Trails levels) {stack : Stack} {scope : Scope}
    {position : Position} (source : cursor.source = .levels stack scope (some position))
    {level : Level} (here : stack.levels[position.level]? = some level) :
    (cursor.rest.filter fun pair => level.containsEdge pair.1).length =
      position.stop - position.next := by
  obtain ⟨-, ordered⟩ := h.source source
  have ready := h.ready
  rw [Ready, source] at ready
  obtain ⟨sound, other, same, range, low, high⟩ := ready
  obtain rfl := Option.some.inj (same.symm.trans here)
  obtain ⟨base, stop⟩ := sound.of_getElem? here cursor.node
  rw [range] at base stop
  have within : ∀ pair ∈ position.rest stack, other.containsEdge pair.1 = true := by
    intro pair member
    simp only [Position.rest, here] at member
    obtain ⟨n, first, last, edge⟩ := Level.exists_of_mem_between member
    rw [edge, Level.containsEdge_sealed_iff]
    exact ⟨Nat.le_trans base (Nat.le_trans low first), Nat.lt_of_lt_of_le last stop⟩
  have behind : ∀ pair ∈ scope.later stack cursor.node (position.level + 1),
      ¬other.containsEdge pair.1 = true := by
    cases scope with
    | singleLevel => exact fun pair member => absurd member List.not_mem_nil
    | allLevels =>
      intro pair member
      obtain ⟨later, held, walked⟩ := List.mem_flatMap.1 member
      obtain ⟨i, inside, rfl⟩ := List.getElem_of_mem held
      have there := List.getElem?_eq_getElem inside
      rw [List.getElem?_drop, Array.getElem?_toList] at there
      obtain ⟨n, first, -, edge⟩ := Level.exists_of_mem_between walked
      have start := (sound.of_getElem? there cursor.node).1
      have after := ordered here there (by omega)
      rw [edge, Bool.not_eq_true]
      exact Level.containsEdge_sealed_eq_false (.inr (by omega))
  rw [Cursor.rest, source, Source.rest, List.filter_append, List.filter_eq_self.2 within,
    List.filter_eq_nil_iff.2 behind, List.append_nil, Position.rest, here, Level.length_between]

/-- What a cursor in a level says of its place there. -/
theorem Trails.of_levelSpan (h : cursor.Trails levels) {span : LevelSpan}
    (shown : cursor.levelSpan = some span) :
    cursor.level = some span.level ∧ cursor.nextEdge.1 = some span.next ∧
      ∃ level, levels[span.level]? = some level ∧
        1 ≤ span.stop.raw - span.next.raw ∧
        span.stop.raw - span.next.raw =
          (cursor.rest.filter fun pair => level.containsEdge pair.1).length ∧
        span.prev = if level.containsEdge cursor.lastEdge then cursor.lastEdge else .nil := by
  cases source : cursor.source with
  | pending rest => simp [levelSpan, source] at shown
  | levels stack scope position =>
    cases position with
    | none => simp [levelSpan, source] at shown
    | some position =>
      obtain ⟨rfl, -⟩ := h.source source
      have ready := h.ready
      rw [Ready, source] at ready
      obtain ⟨sound, within⟩ := ready
      obtain ⟨level, here, range, low, high⟩ := id within
      obtain ⟨base, stop⟩ := sound.of_getElem? here cursor.node
      rw [range] at base stop
      simp only [levelSpan, source, Option.some.injEq] at shown
      subst shown
      refine ⟨by simp only [Cursor.level, source, Option.map_some], ?_, level, here,
        Nat.sub_pos_of_lt high, (h.length_filter_rest source here).symm, ?_⟩
      · obtain ⟨node, _, lastNode, lastEdge⟩ := cursor
        subst source
        obtain ⟨target, step⟩ := @nextEdge_of_within node stack scope position lastNode lastEdge
          sound within
        rw [step]
      · rcases Nat.eq_or_lt_of_le low with arrived | moved
        · rw [h.arrived source arrived.symm here]
          exact if_neg (Nat.not_lt.2 (Nat.le_of_eq arrived.symm))
        · have inside : level.containsEdge cursor.lastEdge = true := by
            rw [h.inside source moved, Level.containsEdge_sealed_iff]
            exact ⟨Nat.le_trans base (Nat.le_pred_of_lt moved),
              Nat.lt_of_lt_of_le (Nat.lt_of_le_of_lt (Nat.sub_le _ _) high) stop⟩
          rw [inside, if_pos rfl, h.inside source moved]
          exact if_pos moved

end Observers

/-- At every moment after it was opened, whatever calls were made on it, a cursor knows its future:
`edges` are those that it still gives, in whatever mix it is called. Their number is what the cursor
announces; there is a next edge as long as it is positive, and each call that shows one lowers it by
one. The cursor stands in a level unless it is exhausted or walks the edges of an overlay. In a
level it names the next edge, the number of edges of this level to come, and the edge given last if
that was one of this level. -/
theorem observers_agree_with_walk {levels : Array Level} {opened : Cursor}
    (h : Opened levels opened) (graph : Graph) (overlay : Overlay) (events : List SceneEvent) :
    let after := Scene.run ⟨graph, overlay, opened⟩ events
    let cursor := after.2.cursor
    ∃ given edges,
      after.1 = CursorCall.showAll (given ++ edges) (SceneEvent.cursorCalls events) ∧
      cursor.lastEdge = (given.getLast?.map (·.1)).getD .nil ∧
      (∀ graph overlay more, (Scene.run ⟨graph, overlay, cursor⟩ more).1 =
        CursorCall.showAll edges (SceneEvent.cursorCalls more)) ∧
      (∀ graph overlay more, (Scene.run ⟨graph, overlay, cursor⟩ more).1.countP (·.isSome) =
        min (SceneEvent.cursorCalls more).length cursor.remaining) ∧
      cursor.remaining = edges.length ∧
      cursor.sizeHint = (cursor.remaining, some cursor.remaining) ∧
      (cursor.hasNext = true ↔ 0 < cursor.remaining) ∧
      (∀ call, (cursor.call call).1.isSome = cursor.hasNext ∧
        (cursor.hasNext = true → (cursor.call call).2.remaining + 1 = cursor.remaining)) ∧
      (cursor.levelSpan = none ↔ cursor.isExhausted = true ∨ cursor.isWritable = true) ∧
      ∀ span, cursor.levelSpan = some span →
        cursor.level = some span.level ∧ cursor.nextEdge.1 = some span.next ∧
        ∃ level, levels[span.level]? = some level ∧
          1 ≤ span.stop.raw - span.next.raw ∧
          span.stop.raw - span.next.raw =
            (edges.filter fun pair => level.containsEdge pair.1).length ∧
          span.prev = if level.containsEdge cursor.lastEdge then cursor.lastEdge else .nil := by
  intro after cursor
  obtain ⟨trails, walk, start⟩ := h.trails
  have trails : cursor.Trails levels := trails.run graph overlay events
  obtain ⟨answers, stands⟩ := start.run graph overlay events
  rw [Nat.zero_add] at stands
  have rest := stands.rest
  generalize (SceneEvent.cursorCalls events).length = count at stands rest
  have remaining : cursor.remaining = cursor.rest.length := remaining_eq_length_rest trails.ready
  have hasNext : cursor.hasNext = !cursor.rest.isEmpty := hasNext_eq trails.ready
  have later : ∀ graph overlay more, (Scene.run ⟨graph, overlay, cursor⟩ more).1 =
      CursorCall.showAll (walk.drop count) (SceneEvent.cursorCalls more) :=
    fun graph overlay more => (stands.run graph overlay more).1
  refine ⟨walk.take count, walk.drop count, ?_, stands.lastEdge, later, ?_, rest ▸ remaining, rfl,
    ?_, fun call => ⟨stands.isSome_call call, fun more => stands.remaining_call more call⟩,
    levelSpan_eq_none_iff, rest ▸ fun span => trails.of_levelSpan⟩
  · rw [List.take_append_drop]
    exact answers
  · intro graph overlay more
    rw [later, CursorCall.countP_showAll, remaining, rest]
  · rw [hasNext, remaining, List.length_pos_iff]
    simp

/-- A node with two edges in the first and one in the last of three levels. After the second call
the cursor has just come to the last level, past one without nodes. -/
theorem observers_agree_with_walk_past_empty_level :
    let first : LevelData := ⟨[⟨.sealed 0, 2⟩], [⟨0⟩, ⟨0⟩]⟩
    let last : LevelData := ⟨[⟨.sealed 0, 1⟩], [⟨0⟩]⟩
    let stack : Stack :=
      ⟨#[.ofData 0 0 first, .ofData 1 2 (.empty 0), .ofData 2 2 last], 1, 3⟩
    let opened : Cursor := ⟨⟨0⟩, .levels stack .allLevels (some ⟨0, 0, 0, 2⟩), none, .nil⟩
    let before := (Scene.run ⟨.empty, .ofBase 0, opened⟩ [.cursor .next]).2.cursor
    let cursor :=
      (Scene.run ⟨.empty, .ofBase 0, opened⟩ [.cursor .next, .cursor .nextEdge]).2.cursor
    Stack.ofContents [first, .empty 0, last] = .ok stack ∧ begin stack ⟨0⟩ = .ok opened ∧
    before.levelSpan = some ⟨0, .sealed 0, .sealed 1, .sealed 2⟩ ∧
    cursor.levelSpan = some ⟨2, .nil, .sealed 2, .sealed 3⟩ ∧ cursor.lastEdge = .sealed 1 ∧
    cursor.nextEdge.1 = some (.sealed 2) ∧
    ∀ more, (Scene.run ⟨.empty, .ofBase 0, cursor⟩ more).1.countP (·.isSome) =
      min (SceneEvent.cursorCalls more).length 1 := by
  intro first last stack opened before cursor
  have built : Stack.ofContents [first, .empty 0, last] = .ok stack := rfl
  have opens : begin stack ⟨0⟩ = .ok opened := rfl
  obtain ⟨_, _, -, -, -, more, -, -, -, -, -, spans⟩ :=
    observers_agree_with_walk (.allLevels built opens) .empty (.ofBase 0)
      [.cursor .next, .cursor .nextEdge]
  have shown : cursor.levelSpan = some ⟨2, .nil, .sealed 2, .sealed 3⟩ := by decide
  exact ⟨built, opens, by decide, shown, by decide, (spans _ shown).2.1, more .empty (.ofBase 0)⟩

end Cursor

end LayeredGraph
