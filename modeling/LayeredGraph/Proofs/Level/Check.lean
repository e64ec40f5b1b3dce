import LayeredGraph.Level.Data

/-! What the check of level contents accepts. One pass with a running bound finds no fault exactly
when every range that is not empty lies in the target table, later ranges start behind earlier
ones, and all targets are below the bound. Padding with empty entries changes none of this. -/
namespace LayeredGraph

namespace VertexEntry

/-- The position after the last target of an entry. -/
def stop (entry : VertexEntry) : Nat := entry.start.raw + entry.degree.toNat

/-- Two ranges in order: the second starts behind the first, where both are not empty. -/
def Before (a b : VertexEntry) : Prop :=
  a.isEmpty = false → b.isEmpty = false → a.stop ≤ b.start.raw

/-- A range inside a table: empty, or with a start and an end that lies in the table. -/
structure Inside (slots : Nat) (entry : VertexEntry) : Prop where
  start_ne_nil : entry.isEmpty = false → entry.start ≠ .nil
  stop_le : entry.isEmpty = false → entry.stop ≤ slots
  stop_lt_size : entry.isEmpty = false → entry.stop < UInt64.size

theorem inside_empty (slots : Nat) : empty.Inside slots := by
  constructor <;> intro h <;> simp at h

theorem before_empty (entry : VertexEntry) : entry.Before empty := by
  intro _ h
  simp at h

theorem degree_toNat_of_isEmpty {entry : VertexEntry} (h : entry.isEmpty = true) :
    entry.degree.toNat = 0 := by
  rw [(isEmpty_iff entry).1 h]
  rfl

end VertexEntry

namespace LevelData

open VertexEntry

/-- An entry that is not empty passes when its range lies in the table behind the running bound;
the pass goes on behind the range. -/
theorem entryFault?_cons_of_not_isEmpty {slots lastEnd : Nat} {entry : VertexEntry}
    {entries : List VertexEntry} (nonempty : entry.isEmpty = false) :
    entryFault? slots lastEnd (entry :: entries) = none ↔
      entry.Inside slots ∧ lastEnd ≤ entry.start.raw ∧
      entryFault? slots entry.stop entries = none := by
  rw [entryFault?, nonempty, if_neg Bool.false_ne_true]
  constructor
  · intro h
    -- Every guard that answers a fault is false.
    split at h
    · simp at h
    next start =>
    split at h
    · simp at h
    next order =>
    simp only at h
    split at h
    · simp at h
    next small =>
    split at h
    · simp at h
    next fits =>
    exact ⟨⟨fun _ => start, fun _ => Nat.not_lt.1 fits, fun _ => Nat.not_le.1 small⟩,
      Nat.not_lt.1 order, h⟩
  · rintro ⟨inside, order, rest⟩
    have fits := inside.stop_le nonempty
    have small := inside.stop_lt_size nonempty
    unfold stop at fits small
    rw [if_neg (inside.start_ne_nil nonempty), if_neg (Nat.not_lt.2 order)]
    simp only
    rw [if_neg (Nat.not_le.2 small), if_neg (Nat.not_lt.2 fits)]
    exact rest

/-- The pass over the entries finds no fault exactly when all ranges lie in the table behind the
running bound and follow one another. -/
theorem entryFault?_eq_none_iff {slots lastEnd : Nat} {entries : List VertexEntry} :
    entryFault? slots lastEnd entries = none ↔
      (∀ entry ∈ entries, entry.Inside slots) ∧
      (∀ entry ∈ entries, entry.isEmpty = false → lastEnd ≤ entry.start.raw) ∧
      entries.Pairwise Before := by
  induction entries generalizing lastEnd with
  | nil => simp [entryFault?]
  | cons entry entries ih =>
    rw [List.forall_mem_cons, List.forall_mem_cons, List.pairwise_cons]
    cases empty : entry.isEmpty with
    | true =>
      have inside : entry.Inside slots := by constructor <;> simp [empty]
      have before : ∀ other ∈ entries, entry.Before other := by
        intro other _ h
        simp [empty] at h
      rw [entryFault?, if_pos empty, ih]
      constructor
      · rintro ⟨rest, behind, ordered⟩
        exact ⟨⟨inside, rest⟩, ⟨nofun, behind⟩, before, ordered⟩
      · rintro ⟨⟨-, rest⟩, ⟨-, behind⟩, -, ordered⟩
        exact ⟨rest, behind, ordered⟩
    | false =>
      rw [entryFault?_cons_of_not_isEmpty empty, ih]
      constructor
      · rintro ⟨here, order, inside, behind, ordered⟩
        refine ⟨⟨here, inside⟩, ⟨fun _ => order, ?_⟩, ?_, ordered⟩
        · intro other member nonempty
          have := behind other member nonempty
          have : entry.start.raw ≤ entry.stop := Nat.le_add_right _ _
          omega
        · intro other member _ nonempty
          exact behind other member nonempty
      · rintro ⟨⟨here, inside⟩, ⟨order, -⟩, before, ordered⟩
        exact ⟨here, order rfl, inside, fun other member => before other member empty, ordered⟩

/-- Contents that can be sealed where targets have to lie below a bound. -/
structure Sealable (data : LevelData) (bound : Nat) : Prop where
  inside : ∀ entry ∈ data.vertices, entry.Inside data.edgeCount
  ordered : data.vertices.Pairwise Before
  bounded : ∀ target ∈ data.targets, target.toNat < bound

/-- The check accepts exactly the contents that can be sealed. -/
theorem fault?_eq_none_iff {data : LevelData} {bound : Nat} :
    data.fault? bound = none ↔ data.Sealable bound := by
  have targets : (data.targets.any fun t => decide (bound ≤ t.toNat)) = false ↔
      ∀ t ∈ data.targets, t.toNat < bound := by simp
  constructor
  · intro h
    unfold fault? at h
    split at h
    · simp at h
    next entries =>
    split at h
    · simp at h
    next small =>
    obtain ⟨inside, -, ordered⟩ := entryFault?_eq_none_iff.1 entries
    exact ⟨inside, ordered, targets.1 (by simpa using small)⟩
  · intro h
    have entries : entryFault? data.edgeCount 0 data.vertices = none :=
      entryFault?_eq_none_iff.2 ⟨h.inside, fun _ _ _ => Nat.zero_le _, h.ordered⟩
    rw [fault?, entries]
    simp [targets.2 h.bounded]

theorem Sealable.mono {data : LevelData} {bound larger : Nat} (h : data.Sealable bound)
    (le : bound ≤ larger) : data.Sealable larger :=
  ⟨h.inside, h.ordered, fun t member => Nat.lt_of_lt_of_le (h.bounded t member) le⟩

/-- The entry of a node, empty for a node that the contents do not cover. -/
def entry (data : LevelData) (node : NodeId) : VertexEntry :=
  data.vertices.getD node.toNat .empty

theorem recorded_of_isEmpty {data : LevelData} {node : NodeId}
    (h : (data.entry node).isEmpty = true) : data.recorded node = [] := if_pos h

theorem recorded_of_not_isEmpty {data : LevelData} {node : NodeId}
    (h : (data.entry node).isEmpty = false) :
    data.recorded node =
      (data.targets.drop (data.entry node).start.raw).take (data.entry node).degree.toNat :=
  if_neg (by rw [Bool.not_eq_true]; exact h)

/-- What is recorded for a node stands in the target list from the start of its range on. -/
theorem getElem?_targets_of_recorded {data : LevelData} {node target : NodeId} {i : Nat}
    (h : (data.recorded node)[i]? = some target) :
    data.targets[(data.entry node).start.raw + i]? = some target := by
  cases empty : (data.entry node).isEmpty with
  | true => simp [recorded_of_isEmpty empty] at h
  | false =>
    rw [recorded_of_not_isEmpty empty, List.getElem?_take] at h
    split at h
    · rwa [List.getElem?_drop] at h
    · simp at h

theorem Sealable.inside_entry {data : LevelData} {bound : Nat} (h : data.Sealable bound)
    (node : NodeId) : (data.entry node).Inside data.edgeCount := by
  unfold entry
  rw [List.getD_eq_getElem?_getD]
  cases found : data.vertices[node.toNat]? with
  | none => exact inside_empty _
  | some entry => exact h.inside entry (List.mem_of_getElem? found)

/-- A node's targets are as many as its entry says. -/
theorem Sealable.length_recorded {data : LevelData} {bound : Nat} (h : data.Sealable bound)
    (node : NodeId) : (data.recorded node).length = (data.entry node).degree.toNat := by
  cases empty : (data.entry node).isEmpty with
  | true =>
    rw [recorded_of_isEmpty empty, degree_toNat_of_isEmpty empty]
    rfl
  | false =>
    have fits := (h.inside_entry node).stop_le empty
    simp only [stop, edgeCount] at fits
    rw [recorded_of_not_isEmpty empty, List.length_take, List.length_drop]
    omega

@[simp] theorem entry_padTo (data : LevelData) (nodes : Nat) (node : NodeId) :
    (data.padTo nodes).entry node = data.entry node := by
  simp only [entry, padTo, List.getD_eq_getElem?_getD, List.getElem?_append,
    List.getElem?_replicate]
  split
  · rfl
  · next outside =>
    rw [List.getElem?_eq_none (Nat.not_lt.1 outside)]
    split <;> rfl

/-- Padding records nothing for anybody. -/
@[simp] theorem recorded_padTo (data : LevelData) (nodes : Nat) (node : NodeId) :
    (data.padTo nodes).recorded node = data.recorded node := by
  change (data.padTo nodes).slice ((data.padTo nodes).entry node) = data.slice (data.entry node)
  rw [entry_padTo]
  rfl

theorem entryFault?_replicate (slots lastEnd count : Nat) :
    entryFault? slots lastEnd (List.replicate count .empty) = none := by
  induction count with
  | zero => rfl
  | succ count ih =>
    rw [List.replicate_succ, entryFault?, isEmpty_empty, if_pos rfl]
    exact ih

/-- Empty entries behind some others pass. -/
theorem entryFault?_append_replicate (slots lastEnd count : Nat) (entries : List VertexEntry) :
    entryFault? slots lastEnd (entries ++ List.replicate count .empty) =
      entryFault? slots lastEnd entries := by
  induction entries generalizing lastEnd with
  | nil => exact entryFault?_replicate slots lastEnd count
  | cons entry entries ih =>
    rw [List.cons_append, entryFault?, entryFault?]
    simp only [ih]

/-- Padding neither mends contents nor breaks them. -/
@[simp] theorem fault?_padTo (data : LevelData) (nodes bound : Nat) :
    (data.padTo nodes).fault? bound = data.fault? bound := by
  have entries : entryFault? (data.padTo nodes).edgeCount 0 (data.padTo nodes).vertices =
      entryFault? data.edgeCount 0 data.vertices :=
    entryFault?_append_replicate data.edgeCount 0 (nodes - data.nodeCount) data.vertices
  rw [fault?, fault?, entries, targets_padTo]

theorem Sealable.padTo {data : LevelData} {bound : Nat} (h : data.Sealable bound) (nodes : Nat) :
    (data.padTo nodes).Sealable bound := by
  rw [← fault?_eq_none_iff, fault?_padTo, fault?_eq_none_iff]
  exact h

end LevelData

end LayeredGraph
