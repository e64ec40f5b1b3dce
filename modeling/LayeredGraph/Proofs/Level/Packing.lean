import LayeredGraph.Proofs.Level.Check

/-! Packing adjacency lists. Every list takes the place behind those before it, so the entry of a
list describes exactly that list, ranges come in order, and the only way to fail is a list with
more targets than a degree can say. -/
namespace LayeredGraph

/-- The answer to an adjacency list that is too long. -/
def tooLong : Error := .invalid "adjacency list longer than u32::MAX edges"

/-- A list whose length can be written as a degree. -/
def Short (list : List NodeId) : Prop := list.length < UInt32.size

theorem degreeOf_eq_ok {length : Nat} (h : length < UInt32.size) :
    degreeOf length = .ok (UInt32.ofNat length) := if_pos h

theorem degreeOf_eq_error {length : Nat} (h : UInt32.size ≤ length) :
    degreeOf length = .error tooLong := if_neg (Nat.not_lt.2 h)

theorem toNat_ofNat_length {list : List NodeId} (h : Short list) :
    (UInt32.ofNat list.length).toNat = list.length := UInt32.toNat_ofNat_of_lt h

/-- A list of lists falls into what stands before a list, the list, and what stands behind it. -/
theorem flatten_split {lists : List (List NodeId)} {i : Nat} {list : List NodeId}
    (h : lists[i]? = some list) :
    lists.flatten =
      (lists.take i).flatten ++ (list ++ (lists.drop (i + 1)).flatten) := by
  obtain ⟨inside, value⟩ := List.getElem?_eq_some_iff.1 h
  rw [← List.flatten_cons, ← value, ← List.drop_eq_getElem_cons inside, ← List.flatten_append,
    List.take_append_drop]

/-- A place in one of some lists is a place in all of them put together. -/
theorem getElem?_flatten {lists : List (List NodeId)} {i k : Nat} {list : List NodeId}
    (h : lists[i]? = some list) (inside : k < list.length) :
    lists.flatten[(lists.take i).flatten.length + k]? = list[k]? := by
  rw [flatten_split h, List.getElem?_append_right (Nat.le_add_right _ _),
    Nat.add_sub_cancel_left, List.getElem?_append_left inside]

/-- Every place in lists put together lies in one of them. -/
theorem exists_of_lt_length_flatten {lists : List (List NodeId)} {n : Nat}
    (h : n < lists.flatten.length) :
    ∃ i list, lists[i]? = some list ∧ (lists.take i).flatten.length ≤ n ∧
      n < (lists.take i).flatten.length + list.length := by
  induction lists generalizing n with
  | nil => simp at h
  | cons first rest ih =>
    by_cases here : n < first.length
    · exact ⟨0, first, rfl, Nat.zero_le n, by simpa using here⟩
    · rw [List.flatten_cons, List.length_append] at h
      obtain ⟨i, list, found, low, high⟩ := @ih (n - first.length) (by omega)
      refine ⟨i + 1, list, found, ?_, ?_⟩
      · rw [List.take_succ_cons, List.flatten_cons, List.length_append]
        omega
      · rw [List.take_succ_cons, List.flatten_cons, List.length_append]
        omega

namespace VertexEntry

/-- The entry of a list that lies in the target table from `start` on. -/
def ofList (start : Nat) : List NodeId → VertexEntry
  | [] => .empty
  | first :: rest => ⟨.sealed start, UInt32.ofNat (first :: rest).length⟩

theorem isEmpty_ofList (start : Nat) {list : List NodeId} (h : Short list) :
    (ofList start list).isEmpty = list.isEmpty := by
  cases list with
  | nil => rfl
  | cons first rest =>
    have degree : (UInt32.ofNat (first :: rest).length).toNat ≠ 0 := by
      rw [toNat_ofNat_length h]
      exact Nat.succ_ne_zero _
    rw [ofList, isEmpty, List.isEmpty_cons]
    exact beq_false_of_ne fun zero => degree (congrArg UInt32.toNat zero)

theorem ofList_of_not_isEmpty (start : Nat) {list : List NodeId} (h : Short list)
    (nonempty : (ofList start list).isEmpty = false) :
    (ofList start list).start = .sealed start ∧
      (ofList start list).degree.toNat = list.length ∧ 0 < list.length := by
  cases list with
  | nil => simp [ofList] at nonempty
  | cons first rest => exact ⟨rfl, toNat_ofNat_length h, Nat.succ_pos _⟩

theorem stop_ofList (start : Nat) {list : List NodeId} (h : Short list)
    (nonempty : (ofList start list).isEmpty = false) :
    (ofList start list).stop = start + list.length := by
  obtain ⟨begins, degree, -⟩ := ofList_of_not_isEmpty start h nonempty
  rw [stop, begins, degree]
  rfl

end VertexEntry

namespace LevelData

open VertexEntry

/-- The entries of lists that lie one after another from `start` on. -/
def entriesOf (start : Nat) : List (List NodeId) → List VertexEntry
  | [] => []
  | list :: lists => .ofList start list :: entriesOf (start + list.length) lists

@[simp] theorem length_entriesOf (start : Nat) (lists : List (List NodeId)) :
    (entriesOf start lists).length = lists.length := by
  induction lists generalizing start with
  | nil => rfl
  | cons list lists ih => rw [entriesOf, List.length_cons, ih, List.length_cons]

theorem entriesFrom_cons (start : Nat) (list : List NodeId) (lists : List (List NodeId)) :
    entriesFrom start (list :: lists) =
      if list = [] then (entriesFrom start lists).map (.empty :: ·)
      else (degreeOf list.length).bind fun degree =>
        (entriesFrom (start + list.length) lists).map (⟨.sealed start, degree⟩ :: ·) := by
  cases list with
  | nil =>
    rw [entriesFrom, if_pos rfl]
    cases entriesFrom start lists <;> rfl
  | cons first rest =>
    rw [entriesFrom, if_neg (List.cons_ne_nil _ _)]
    · cases degreeOf (first :: rest).length with
      | error e => rfl
      | ok degree => cases entriesFrom (start + (first :: rest).length) lists <;> rfl
    · exact List.cons_ne_nil first rest

theorem entriesFrom_eq_ok {start : Nat} {lists : List (List NodeId)}
    (h : ∀ list ∈ lists, Short list) : entriesFrom start lists = .ok (entriesOf start lists) := by
  induction lists generalizing start with
  | nil => rfl
  | cons list lists ih =>
    have rest := fun other member => h other (List.mem_cons_of_mem list member)
    rw [entriesFrom_cons, ih rest, ih rest, degreeOf_eq_ok (h list List.mem_cons_self)]
    cases list <;> rfl

theorem entriesFrom_eq_error {start : Nat} {lists : List (List NodeId)}
    (h : ¬∀ list ∈ lists, Short list) : entriesFrom start lists = .error tooLong := by
  induction lists generalizing start with
  | nil => exact absurd nofun h
  | cons list lists ih =>
    rw [entriesFrom_cons]
    by_cases short : Short list
    · have rest : ¬∀ other ∈ lists, Short other := by
        intro all
        exact h (List.forall_mem_cons.2 ⟨short, all⟩)
      rw [ih rest, ih rest, degreeOf_eq_ok short]
      split <;> rfl
    · have nonempty : list ≠ [] := by
        rintro rfl
        exact short (Nat.zero_lt_succ _)
      rw [if_neg nonempty, degreeOf_eq_error (Nat.not_lt.1 short)]
      rfl

/-- Packed lists: their entries over their concatenation. -/
def packed (lists : List (List NodeId)) : LevelData := ⟨entriesOf 0 lists, lists.flatten⟩

theorem ofAdjacency_eq_ok {lists : List (List NodeId)} (h : ∀ list ∈ lists, Short list) :
    ofAdjacency lists = .ok (packed lists) := by
  rw [ofAdjacency, entriesFrom_eq_ok h]
  rfl

theorem ofAdjacency_eq_error {lists : List (List NodeId)} (h : ¬∀ list ∈ lists, Short list) :
    ofAdjacency lists = .error tooLong := by
  rw [ofAdjacency, entriesFrom_eq_error h]
  rfl

/-- The answer of packing, whatever the lists are. -/
theorem ofAdjacency_eq_ok_iff {lists : List (List NodeId)} {data : LevelData} :
    ofAdjacency lists = .ok data ↔ (∀ list ∈ lists, Short list) ∧ data = packed lists := by
  by_cases h : ∀ list ∈ lists, Short list
  · rw [ofAdjacency_eq_ok h, Except.ok.injEq, eq_comm]
    exact ⟨fun same => ⟨h, same⟩, And.right⟩
  · rw [ofAdjacency_eq_error h]
    exact ⟨nofun, fun both => absurd both.1 h⟩

section Packed

variable {lists : List (List NodeId)}

@[simp] theorem nodeCount_packed : (packed lists).nodeCount = lists.length :=
  length_entriesOf 0 lists

/-- A list is described by the entry at its place. -/
theorem getElem?_entriesOf (start i : Nat) :
    (entriesOf start lists)[i]? =
      lists[i]?.map (.ofList (start + (lists.take i).flatten.length)) := by
  induction lists generalizing start i with
  | nil => rfl
  | cons list lists ih =>
    cases i with
    | zero => rfl
    | succ i =>
      rw [entriesOf, List.getElem?_cons_succ, ih, List.getElem?_cons_succ, List.take_succ_cons,
        List.flatten_cons, List.length_append, Nat.add_assoc]

theorem entry_packed (node : NodeId) :
    (packed lists).entry node =
      (lists[node.toNat]?.map (.ofList (lists.take node.toNat).flatten.length)).getD .empty := by
  rw [LevelData.entry, List.getD_eq_getElem?_getD, packed, getElem?_entriesOf, Nat.zero_add]

/-- The entry of a list describes that list. -/
theorem slice_ofList {i : Nat} {list : List NodeId} (short : Short list)
    (found : lists[i]? = some list) :
    (packed lists).slice (.ofList (lists.take i).flatten.length list) = list := by
  have same := isEmpty_ofList (lists.take i).flatten.length short
  rw [slice]
  split
  · next empty => exact (List.isEmpty_iff.1 (same.symm.trans empty)).symm
  · next nonempty =>
    obtain ⟨start, degree, -⟩ := ofList_of_not_isEmpty _ short (Bool.not_eq_true _ ▸ nonempty)
    rw [start, degree, packed]
    simp only [EdgeRef.raw]
    rw [flatten_split found, List.drop_left, List.take_left]

/-- What is recorded for a node is the list at its place. -/
theorem recorded_packed (h : ∀ list ∈ lists, Short list) (node : NodeId) :
    (packed lists).recorded node = lists[node.toNat]?.getD [] := by
  change (packed lists).slice ((packed lists).entry node) = _
  rw [entry_packed]
  cases found : lists[node.toNat]? with
  | none => rfl
  | some list => exact slice_ofList (h list (List.mem_of_getElem? found)) found

theorem entriesOf_bounds {start : Nat} (h : ∀ list ∈ lists, Short list) {entry : VertexEntry}
    (member : entry ∈ entriesOf start lists) (nonempty : entry.isEmpty = false) :
    entry.start ≠ .nil ∧ start ≤ entry.start.raw ∧ entry.stop ≤ start + lists.flatten.length := by
  obtain ⟨i, found⟩ := List.mem_iff_getElem?.1 member
  rw [getElem?_entriesOf, Option.map_eq_some_iff] at found
  obtain ⟨list, found, rfl⟩ := found
  have short := h list (List.mem_of_getElem? found)
  obtain ⟨begins, -, -⟩ := ofList_of_not_isEmpty _ short nonempty
  have split := congrArg List.length (flatten_split found)
  rw [List.length_append, List.length_append] at split
  rw [stop_ofList _ short nonempty, begins]
  refine ⟨nofun, ?_, ?_⟩
  · simp only [EdgeRef.raw]
    omega
  · omega

theorem pairwise_before_entriesOf {start : Nat} (h : ∀ list ∈ lists, Short list) :
    (entriesOf start lists).Pairwise Before := by
  induction lists generalizing start with
  | nil => exact .nil
  | cons list lists ih =>
    have rest := fun other member => h other (List.mem_cons_of_mem list member)
    refine List.pairwise_cons.2 ⟨?_, ih rest⟩
    intro later member first second
    obtain ⟨-, low, -⟩ := entriesOf_bounds rest member second
    rw [stop_ofList _ (h list List.mem_cons_self) first]
    exact low

/-- Packed lists pass the check wherever their targets lie below the bound. -/
theorem sealable_packed {bound : Nat} (h : ∀ list ∈ lists, Short list)
    (size : lists.flatten.length < UInt64.size)
    (bounded : ∀ target ∈ lists.flatten, target.toNat < bound) :
    (packed lists).Sealable bound := by
  refine ⟨?_, pairwise_before_entriesOf h, bounded⟩
  intro entry member
  have bounds := entriesOf_bounds h member
  simp only [Nat.zero_add] at bounds
  exact ⟨fun nonempty => (bounds nonempty).1, fun nonempty => (bounds nonempty).2.2,
    fun nonempty => Nat.lt_of_le_of_lt (bounds nonempty).2.2 size⟩

end Packed

end LevelData

end LayeredGraph
