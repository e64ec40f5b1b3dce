import LayeredGraph.Level
import LayeredGraph.Proofs.EdgeTable
import LayeredGraph.Proofs.Level.Check

/-! The edges of a node in one sealed level, as numbers with targets. Sealing moves the ranges up
by the base of the level and puts the targets into a table; what is read back for a node are the
targets that the contents recorded for it, numbered in a row from the place of its range. -/
namespace LayeredGraph

/-- The edges that the contents of a level record for a node, with their targets, where the edges
of the level are numbered from `base` on. -/
def LevelData.walk (data : LevelData) (base : Nat) (node : NodeId) : List (EdgeRef × NodeId) :=
  (data.recorded node).mapIdx fun i target =>
    (.sealed (base + (data.entry node).start.raw + i), target)

@[simp] theorem LevelData.targets_walk (data : LevelData) (base : Nat) (node : NodeId) :
    (data.walk base node).map (·.2) = data.recorded node := by
  apply List.ext_getElem?
  intro i
  simp only [walk, List.getElem?_map, List.getElem?_mapIdx]
  cases (data.recorded node)[i]? <;> rfl

namespace Level

/-- The edges numbered from `start` up to `stop`, with their targets. -/
def between (level : Level) (start stop : Nat) : List (EdgeRef × NodeId) :=
  (List.range' start (stop - start)).map fun number =>
    (.sealed number, (level.target? (.sealed number)).getD default)

/-- The edges of a node, with their targets. -/
def walk (level : Level) (node : NodeId) : List (EdgeRef × NodeId) :=
  level.between (level.edgeRange node).start (level.edgeRange node).stop

/-- Every node's range lies among the edges of the level. -/
def Sound (level : Level) : Prop :=
  ∀ node, level.edgeBase ≤ (level.edgeRange node).start ∧
    (level.edgeRange node).stop ≤ level.edgeEnd

theorem Sound.checkEntry {level : Level} (h : level.Sound) (node : NodeId) :
    level.checkEntry node = .ok () := by
  obtain ⟨low, high⟩ := h node
  unfold Level.checkEntry
  exact if_neg (not_or.2 ⟨Nat.not_lt.2 high, Nat.not_lt.2 low⟩)

theorem between_eq_nil (level : Level) {start stop : Nat} (h : stop ≤ start) :
    level.between start stop = [] := by
  rw [between, Nat.sub_eq_zero_of_le h]
  rfl

@[simp] theorem length_between (level : Level) (start stop : Nat) :
    (level.between start stop).length = stop - start := by
  simp [between]

theorem between_cons (level : Level) {start stop : Nat} (h : start < stop) :
    level.between start stop =
      (.sealed start, (level.target? (.sealed start)).getD default) ::
        level.between (start + 1) stop := by
  have count : stop - start = (stop - (start + 1)) + 1 := by omega
  rw [between, between, count, List.range'_succ, List.map_cons]

/-- Every edge number of a level has a target. -/
theorem target?_sealed (level : Level) {number : Nat} (low : level.edgeBase ≤ number)
    (high : number < level.edgeEnd) :
    level.target? (.sealed number) =
      some (level.table.readAt ((number - level.edgeBase) * EdgeTable.slotBytes)) := by
  have slot : number - level.edgeBase < level.edgeCount := by
    unfold edgeEnd at high
    omega
  have contains : level.containsEdge (.sealed number) = true := by
    simp [containsEdge, EdgeRef.raw, low, slot]
  have inside : (EdgeRef.sealed number).raw - level.edgeBase < level.table.slots := slot
  rw [target?, if_pos contains, EdgeTable.target?, if_pos inside]
  rfl

theorem edgeRange_of_isEmpty {level : Level} {node : NodeId}
    (h : (level.entry node).isEmpty = true) :
    level.edgeRange node = ⟨level.edgeBase, level.edgeBase⟩ := by
  unfold edgeRange
  exact if_pos h

theorem edgeRange_of_not_isEmpty {level : Level} {node : NodeId}
    (h : (level.entry node).isEmpty = false) :
    level.edgeRange node = ⟨(level.entry node).start.raw, (level.entry node).stop⟩ := by
  unfold edgeRange
  exact if_neg (by simp [h])

theorem stop_edgeRange (level : Level) (node : NodeId) :
    (level.edgeRange node).stop = (level.edgeRange node).start + (level.degree node).toNat := by
  unfold degree
  cases empty : (level.entry node).isEmpty with
  | true => rw [edgeRange_of_isEmpty empty, VertexEntry.degree_toNat_of_isEmpty empty, Nat.add_zero]
  | false => rw [edgeRange_of_not_isEmpty empty, VertexEntry.stop]

theorem length_edgeRange (level : Level) (node : NodeId) :
    (level.edgeRange node).stop - (level.edgeRange node).start = (level.degree node).toNat := by
  rw [stop_edgeRange, Nat.add_sub_cancel_left]

theorem start_lt_stop {level : Level} {node : NodeId} (nonempty : 0 < level.degree node) :
    (level.edgeRange node).start < (level.edgeRange node).stop := by
  have stop := level.stop_edgeRange node
  have positive : 0 < (level.degree node).toNat := nonempty
  omega

@[simp] theorem length_walk (level : Level) (node : NodeId) :
    (level.walk node).length = (level.degree node).toNat := by
  rw [walk, length_between, length_edgeRange]

theorem walk_eq_nil_iff (level : Level) (node : NodeId) :
    level.walk node = [] ↔ level.degree node = 0 := by
  rw [← List.length_eq_zero_iff, length_walk]
  exact UInt32.toNat_inj (b := 0)

section OfData

variable {index base : Nat} {data : LevelData}

theorem entry_ofData_of_isEmpty {node : NodeId} (h : (data.entry node).isEmpty = true) :
    (ofData index base data).entry node = .empty := by
  rw [entry_ofData]
  exact if_pos h

theorem entry_ofData_of_not_isEmpty {node : NodeId} (h : (data.entry node).isEmpty = false) :
    (ofData index base data).entry node =
      ⟨.sealed (base + (data.entry node).start.raw), (data.entry node).degree⟩ := by
  rw [entry_ofData]
  exact if_neg (by rw [Bool.not_eq_true]; exact h)

/-- The range of a node in a sealed level is that of its contents moved up by the base. -/
theorem edgeRange_ofData_of_not_isEmpty {node : NodeId} (h : (data.entry node).isEmpty = false) :
    (ofData index base data).edgeRange node =
      ⟨base + (data.entry node).start.raw, base + (data.entry node).stop⟩ := by
  have entry : (ofData index base data).entry node = _ := entry_ofData_of_not_isEmpty h
  have nonempty : ((ofData index base data).entry node).isEmpty = false := by
    rw [entry]
    exact h
  rw [edgeRange_of_not_isEmpty nonempty, entry, VertexEntry.stop, VertexEntry.stop,
    ← Nat.add_assoc]
  rfl

theorem edgeRange_ofData_of_isEmpty {node : NodeId} (h : (data.entry node).isEmpty = true) :
    (ofData index base data).edgeRange node = ⟨base, base⟩ := by
  have empty : ((ofData index base data).entry node).isEmpty = true := by
    rw [entry_ofData_of_isEmpty h]
    rfl
  rw [edgeRange_of_isEmpty empty, edgeBase_ofData]

/-- The edge at a slot of a sealed level leads to the target at that place of the contents. -/
theorem target?_ofData {slot : Nat} {target : NodeId} (h : data.targets[slot]? = some target) :
    (ofData index base data).target? (.sealed (base + slot)) = some target := by
  have inside : slot < data.targets.length := (List.getElem?_eq_some_iff.1 h).1
  have high : base + slot < (ofData index base data).edgeEnd :=
    Nat.add_lt_add_left inside base
  rw [target?_sealed _ (Nat.le_add_right base slot) high, edgeBase_ofData,
    Nat.add_sub_cancel_left]
  exact congrArg some (EdgeTable.readAt_ofTargets h)

theorem sound_ofData {bound : Nat} (h : data.Sealable bound) : (ofData index base data).Sound := by
  intro node
  cases empty : (data.entry node).isEmpty with
  | true =>
    rw [edgeRange_ofData_of_isEmpty empty]
    exact ⟨Nat.le_refl _, Nat.le_add_right _ _⟩
  | false =>
    rw [edgeRange_ofData_of_not_isEmpty empty]
    exact ⟨Nat.le_add_right _ _, Nat.add_le_add_left ((h.inside_entry node).stop_le empty) base⟩

/-- Walking a sealed level gives what its contents recorded. -/
theorem walk_ofData {bound : Nat} (h : data.Sealable bound) (node : NodeId) :
    (ofData index base data).walk node = data.walk base node := by
  cases empty : (data.entry node).isEmpty with
  | true =>
    rw [walk, edgeRange_ofData_of_isEmpty empty, between_eq_nil _ (Nat.le_refl _),
      LevelData.walk, LevelData.recorded_of_isEmpty empty]
    rfl
  | false =>
    have stop : base + (data.entry node).stop - (base + (data.entry node).start.raw) =
        (data.entry node).degree.toNat := by
      unfold VertexEntry.stop
      omega
    have length := h.length_recorded node
    rw [walk, edgeRange_ofData_of_not_isEmpty empty, between, stop, LevelData.walk]
    apply List.ext_getElem
    · simp [length]
    intro i left right
    rw [List.length_mapIdx] at right
    have found := LevelData.getElem?_targets_of_recorded (List.getElem?_eq_getElem right)
    simp only [List.getElem_map, List.getElem_range', List.getElem_mapIdx, Nat.one_mul]
    rw [Nat.add_assoc, target?_ofData found]
    rfl

end OfData

end Level

end LayeredGraph
