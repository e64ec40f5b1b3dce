import LayeredGraph.Hint.Sink
import LayeredGraph.Proofs.Cursor.LevelByLevel
import LayeredGraph.Proofs.Graph.Growth

/-! From edge numbers to bytes. A node's byte range, what a sink writes down of a hint and the span
that is asked into memory are computed in three places; on ranges of a level's edges they are the
same bytes of the level's table, and the words in them are the targets that a cursor gives. -/
namespace LayeredGraph

namespace Level

section Span

variable {level : Level} {range : EdgeRange}

/-- The three ways from a range of a level's edges to bytes lead to the same place. -/
theorem byteSpan_eq_record (low : level.edgeBase ≤ range.start) (ordered : range.start ≤ range.stop)
    (high : range.stop ≤ level.edgeEnd) :
    let record := Hint.record ⟨level, range⟩
    level.table.byteSpan (range.start - level.edgeBase) (range.stop - level.edgeBase) =
      (record.offset, record.offset + record.length) := by
  intro record
  have inside : range.stop - level.edgeBase ≤ level.table.slots := Nat.sub_le_iff_le_add'.2 high
  have order : range.start - level.edgeBase ≤ range.stop - level.edgeBase :=
    Nat.sub_le_sub_right ordered _
  have stop : record.offset + record.length =
      (range.stop - level.edgeBase) * EdgeTable.slotBytes := by
    show (range.start - level.edgeBase) * 8 + (range.stop - range.start) * 8 =
      (range.stop - level.edgeBase) * 8
    omega
  rw [EdgeTable.byteSpan, Nat.min_eq_left inside, Nat.min_eq_left order, stop]
  rfl

/-- Nothing is asked for a range without edges, even one whose end lies before its start. -/
theorem advisedSpan?_eq_record (low : level.edgeBase ≤ range.start)
    (high : range.stop ≤ level.edgeEnd) :
    let record := Hint.record ⟨level, range⟩
    level.advisedSpan? range =
      if 0 < record.length then some (record.offset, record.offset + record.length) else none := by
  intro record
  have length : record.length = (range.stop - range.start) * 8 := rfl
  by_cases nonempty : range.start < range.stop
  · have positive : 0 < record.length := by omega
    have span := byteSpan_eq_record low (Nat.le_of_lt nonempty) high
    rw [advisedSpan?, EdgeTable.advisedSpan?, span, if_pos positive]
    exact if_pos (Nat.lt_add_of_pos_right positive)
  · have backwards : range.stop - level.edgeBase ≤ range.start - level.edgeBase :=
      Nat.sub_le_sub_right (Nat.not_lt.1 nonempty) _
    have none : ¬0 < record.length := by omega
    have inside : range.stop - level.edgeBase ≤ level.table.slots := Nat.sub_le_iff_le_add'.2 high
    rw [advisedSpan?, EdgeTable.advisedSpan?, EdgeTable.byteSpan, Nat.min_eq_left inside,
      Nat.min_eq_right backwards, if_neg none]
    exact if_neg (Nat.lt_irrefl _)

theorem byteRange_eq_record (level : Level) (node : NodeId) :
    let record := Hint.record ⟨level, level.edgeRange node⟩
    level.byteRange node = (record.offset, record.length) := rfl

theorem start_le_stop (level : Level) (node : NodeId) :
    (level.edgeRange node).start ≤ (level.edgeRange node).stop := by
  rw [stop_edgeRange]
  exact Nat.le_add_right _ _

/-- The byte range of a node lies in the table. -/
theorem Sound.byteRange_le (sound : level.Sound) (node : NodeId) :
    (level.byteRange node).1 + (level.byteRange node).2 ≤ level.table.byteSize := by
  obtain ⟨low, high⟩ := sound node
  have ordered := level.start_le_stop node
  have stop : (level.edgeRange node).stop ≤ level.edgeBase + level.table.slots := high
  show ((level.edgeRange node).start - level.edgeBase) * 8 +
    ((level.edgeRange node).stop - (level.edgeRange node).start) * 8 ≤ level.table.slots * 8
  omega

theorem byteRange_of_degree_zero {node : NodeId} (none : level.degree node = 0) :
    level.byteRange node = (0, 0) := by
  have empty : (level.entry node).isEmpty = true := (VertexEntry.isEmpty_iff _).2 none
  rw [byteRange, edgeRange_of_isEmpty empty]
  simp [EdgeRange.length]

end Span

section Reads

variable {index base : Nat} {data : LevelData}

/-- The word in the slot of an edge is the edge's target. -/
theorem read_slot (fits : (ofData index base data).table.byteSize < UInt64.size) {number : Nat}
    (low : base ≤ number) (high : number < (ofData index base data).edgeEnd) :
    (ofData index base data).table.read (UInt64.ofNat (number - base)) =
      .ok (some (((ofData index base data).target? (.sealed number)).getD default)) := by
  have inside : number - base < data.targets.length := Nat.sub_lt_left_of_lt_add low high
  have target : (ofData index base data).target? (.sealed (base + (number - base))) = some _ :=
    target?_ofData (List.getElem?_eq_getElem inside)
  rw [Nat.add_sub_cancel' low] at target
  rw [target, Option.getD_some, ← List.getElem?_eq_getElem inside]
  exact EdgeTable.read_ofTargets fits inside

/-- The words in the slots of consecutive edges are the targets of these edges, in order. -/
theorem reads_between (fits : (ofData index base data).table.byteSize < UInt64.size)
    {start stop : Nat} (low : base ≤ start) (high : stop ≤ (ofData index base data).edgeEnd) :
    (List.range' (start - base) (stop - start)).map
        (fun slot => (ofData index base data).table.read (UInt64.ofNat slot)) =
      ((ofData index base data).between start stop).map fun pair => .ok (some pair.2) := by
  rw [← List.map_sub_range' low, between, List.map_map, List.map_map]
  apply List.map_congr_left
  intro number member
  obtain ⟨first, last⟩ := List.mem_range'_1.1 member
  exact read_slot fits (Nat.le_trans low first) (by omega)

/-- The words in a node's byte range are the targets that the node has in the level. -/
theorem reads_byteRange {bound : Nat} (sealable : data.Sealable bound)
    (fits : (ofData index base data).table.byteSize < UInt64.size) (node : NodeId) :
    let level := ofData index base data
    (List.range' ((level.byteRange node).1 / 8) ((level.byteRange node).2 / 8)).map
        (fun slot => level.table.read (UInt64.ofNat slot)) =
      (level.walk node).map fun pair => .ok (some pair.2) := by
  intro level
  have sound : level.Sound := sound_ofData sealable
  obtain ⟨low, high⟩ := sound node
  have first : (level.byteRange node).1 / 8 = (level.edgeRange node).start - base :=
    Nat.mul_div_cancel _ (by decide)
  have count : (level.byteRange node).2 / 8 =
      (level.edgeRange node).stop - (level.edgeRange node).start :=
    Nat.mul_div_cancel _ (by decide)
  rw [first, count]
  exact reads_between fits low high

end Reads

end Level

/-- Every level of a stack was sealed, under its place as index, from contents that could be
sealed. -/
theorem Stack.Holds.exists_ofData {stack : Stack} {contents : List LevelData} {index : Nat}
    {level : Level} (h : stack.Holds contents) (here : stack.levels[index]? = some level) :
    ∃ base data, level = .ofData index base data ∧ data.Sealable stack.maxNodes := by
  rw [h.getElem?_levels, Option.map_eq_some_iff] at here
  obtain ⟨data, member, rfl⟩ := here
  exact ⟨_, data, rfl, h.sealable data (List.mem_of_getElem? member)⟩

namespace Graph

/-- In every level of a snapshot the byte range of a node is a span of whole slots in the level's
table, and the words in these slots are the targets that the node's cursor gives there. A sink
writes down, for a range of the level's edges, the bytes that are asked into memory for it, and for
the edges of a node these are its byte range. -/
theorem byte_spans_agree (calls : List GraphCall) (direction : Direction) (index : Nat) :
    let snapshot := (GraphRun.ofCalls calls).graph.snapshot
    ∀ level, (snapshot.stack direction).levels[index]? = some level →
    (∀ node, node.toNat < snapshot.maxNodes → ∃ offset length cursor edges,
      snapshot.byteRange direction index node = .ok (offset, length) ∧
      8 ∣ offset ∧ 8 ∣ length ∧ offset + length ≤ level.table.byteSize ∧
      (level.degree node = 0 → (offset, length) = (0, 0)) ∧
      snapshot.beginWithinLevel direction node index = .ok cursor ∧ cursor.Gives edges ∧
      (level.table.byteSize < UInt64.size →
        (List.range' (offset / 8) (length / 8)).map
            (fun slot => level.table.read (UInt64.ofNat slot)) =
          edges.map fun pair => .ok (some pair.2)) ∧
      level.edgeBase ≤ (level.edgeRange node).start ∧
      (level.edgeRange node).start ≤ (level.edgeRange node).stop ∧
      (level.edgeRange node).stop ≤ level.edgeEnd) ∧
    ∀ range : EdgeRange, level.edgeBase ≤ range.start → range.stop ≤ level.edgeEnd →
      ∃ offset length,
        (∀ outlet : Outlet, outlet.sink.records = true →
          (outlet.issue ⟨level, range⟩).2.recorded =
            outlet.recorded.push ⟨index, offset, length⟩) ∧
        level.advisedSpan? range =
          (if 0 < length then some (offset, offset + length) else none) ∧
        (range.start ≤ range.stop →
          level.table.byteSpan (range.start - level.edgeBase) (range.stop - level.edgeBase) =
            (offset, offset + length)) ∧
        ∀ node, range = level.edgeRange node → level.byteRange node = (offset, length) := by
  intro snapshot level here
  have run : (GraphRun.ofCalls calls).Holds := GraphRun.holds_ofCalls calls
  have held := run.levels direction
  have sound : level.Sound := held.sound.of_getElem? here
  obtain ⟨base, data, rfl, sealable⟩ := held.exists_ofData here
  constructor
  · intro node known
    have inside : node.toNat < (snapshot.stack direction).maxNodes :=
      (run.stack_maxNodes_eq direction).symm ▸ known
    obtain ⟨cursor, opened, stands⟩ := Cursor.exists_beginWithinLevel held.sound inside here
    obtain ⟨low, high⟩ := sound node
    exact ⟨_, _, cursor, _, Stack.byteRange_eq_ok inside here, Nat.dvd_mul_left _ _,
      Nat.dvd_mul_left _ _, sound.byteRange_le node, Level.byteRange_of_degree_zero, opened,
      stands.gives, fun fits => Level.reads_byteRange sealable fits node, low,
      Level.start_le_stop _ node, high⟩
  · intro range low high
    let record := Hint.record ⟨.ofData index base data, range⟩
    refine ⟨record.offset, record.length, ?_, Level.advisedSpan?_eq_record low high, ?_, ?_⟩
    · intro outlet records
      exact Outlet.recorded_issue records _
    · intro ordered
      exact Level.byteSpan_eq_record low ordered high
    · rintro node rfl
      exact Level.byteRange_eq_record _ node

/-- A node with two edges in the second level, behind one edge of another node there. -/
theorem byte_spans_agree_in_second_level :
    let second : LevelData := ⟨[⟨.sealed 0, 1⟩, ⟨.sealed 1, 2⟩], [⟨1⟩, ⟨0⟩, ⟨1⟩]⟩
    let calls : List GraphCall := [.sealLevel ⟨[⟨.sealed 0, 1⟩], [⟨1⟩]⟩ (.empty 2),
      .sealLevel second (.empty 2)]
    let snapshot := (GraphRun.ofCalls calls).graph.snapshot
    let level : Level := .ofData 1 1 second
    (snapshot.stack .out).levels[1]? = some level ∧ level.edgeRange ⟨1⟩ = ⟨2, 4⟩ ∧
    (∃ cursor edges, snapshot.byteRange .out 1 ⟨1⟩ = .ok (8, 16) ∧
      snapshot.beginWithinLevel .out ⟨1⟩ 1 = .ok cursor ∧ cursor.Gives edges ∧
      (List.range' 1 2).map (fun slot => level.table.read (UInt64.ofNat slot)) =
        edges.map fun pair => .ok (some pair.2)) ∧
    level.advisedSpan? ⟨2, 4⟩ = some (8, 24) := by
  intro second calls snapshot level
  have here : (snapshot.stack .out).levels[1]? = some level := rfl
  have place : level.byteRange ⟨1⟩ = (8, 16) := by decide
  have inside : NodeId.toNat ⟨1⟩ < (snapshot.stack .out).maxNodes := by decide
  have value : snapshot.byteRange .out 1 ⟨1⟩ = .ok (8, 16) :=
    (Stack.byteRange_eq_ok inside here).trans (congrArg Except.ok place)
  obtain ⟨nodes, ranges⟩ := byte_spans_agree calls .out 1 level here
  obtain ⟨_, _, cursor, edges, span, -, -, -, -, opened, gives, reads, -⟩ := nodes ⟨1⟩ inside
  obtain ⟨rfl, rfl⟩ := Prod.mk.inj (Except.ok.inj (value.symm.trans span))
  obtain ⟨_, _, -, asked, -, same⟩ := ranges ⟨2, 4⟩ (by decide) (by decide)
  obtain ⟨rfl, rfl⟩ := Prod.mk.inj (place.symm.trans (same ⟨1⟩ (by decide)))
  exact ⟨here, by decide, ⟨cursor, edges, value, opened, gives, reads (by decide)⟩, asked⟩

end Graph

end LayeredGraph
