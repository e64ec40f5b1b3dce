import LayeredGraph.Proofs.Level.Grouping

/-! What packed contents say of the lists that they were packed from. Reading the entries back
gives the lists, and the targets are the lists put together. Where the lists were grouped from edge
pairs, the targets are those of the pairs sorted by owner, pairs of one owner in the order that they
had. -/
namespace LayeredGraph

/-- A list sorted by a key, elements with one key in the order that they had. -/
structure SortedBy {α : Type} (key : α → Nat) (list sorted : List α) : Prop where
  perm : sorted.Perm list
  ordered : sorted.Pairwise fun a b => key a ≤ key b
  stable : ∀ k, (sorted.filter fun a => key a = k) = list.filter fun a => key a = k

section Buckets

variable {α : Type} (key : α → Nat) (list : List α)

/-- The elements with keys below a number, those of each key together and lower keys first. -/
def buckets (count : Nat) : List α :=
  (List.range count).flatMap fun k => list.filter fun a => key a = k

theorem buckets_succ (count : Nat) :
    buckets key list (count + 1) =
      buckets key list count ++ list.filter fun a => key a = count := by
  simp [buckets, List.range_succ]

theorem perm_buckets (count : Nat) :
    (buckets key list count).Perm (list.filter fun a => key a < count) := by
  induction count with
  | zero => simp [buckets]
  | succ count ih =>
    let below := list.filter fun a => key a < count + 1
    have before : (below.filter fun a => key a < count) = list.filter fun a => key a < count := by
      rw [List.filter_filter]
      refine List.filter_congr fun a _ => ?_
      simp only [← Bool.decide_and, decide_eq_decide]
      omega
    have last : (below.filter fun a => !decide (key a < count)) =
        list.filter fun a => key a = count := by
      rw [List.filter_filter]
      refine List.filter_congr fun a _ => ?_
      simp only [← decide_not, ← Bool.decide_and, decide_eq_decide]
      omega
    rw [buckets_succ]
    calc buckets key list count ++ list.filter (fun a => key a = count)
      _ |>.Perm ((list.filter fun a => key a < count) ++ list.filter fun a => key a = count) :=
          ih.append_right _
      _ |>.Perm below := by
          rw [← before, ← last]
          exact List.filter_append_perm _ below

/-- A bucket is found again among all of them. -/
theorem filter_buckets (count k : Nat) :
    ((buckets key list count).filter fun a => key a = k) =
      if k < count then list.filter fun a => key a = k else [] := by
  induction count with
  | zero => rfl
  | succ count ih =>
    rw [buckets_succ, List.filter_append, ih, List.filter_filter]
    by_cases here : k = count
    · subst here
      simp
    · have other : (list.filter fun a => decide (key a = k) && decide (key a = count)) = [] := by
        simp only [List.filter_eq_nil_iff, Bool.and_eq_true, decide_eq_true_eq]
        omega
      have before : k < count + 1 ↔ k < count := by omega
      simp only [other, before, List.append_nil]

theorem sortedBy_buckets {count : Nat} (all : ∀ a ∈ list, key a < count) :
    SortedBy key list (buckets key list count) := by
  refine ⟨?_, ?_, fun k => ?_⟩
  · have whole : (list.filter fun a => key a < count) = list := by
      simpa [List.filter_eq_self] using all
    rw [← whole]
    exact whole.symm ▸ perm_buckets key list count
  · rw [buckets, List.pairwise_flatMap]
    constructor
    · intro k _
      refine List.pairwise_of_forall_mem_list fun a first b second => ?_
      simp_all
    · refine List.pairwise_lt_range.imp fun {i j} less a first b second => ?_
      simp only [List.mem_filter, decide_eq_true_eq] at first second
      omega
  · rw [filter_buckets]
    split
    · rfl
    · next past =>
      symm
      simp only [List.filter_eq_nil_iff, decide_eq_true_eq]
      rintro a member rfl
      exact past (all a member)

end Buckets

namespace LevelData

/-- Contents that hold some lists one after another: the entries describe the lists, in order, and
an entry that describes no target is the empty one. They can be sealed over all their targets. -/
structure Stores (data : LevelData) (lists : List (List NodeId)) : Prop where
  slices : data.vertices.map data.slice = lists
  targets : data.targets = lists.flatten
  empty : ∀ entry ∈ data.vertices, data.slice entry = [] → entry = ⟨.nil, 0⟩
  accepted : data.edgeCount < UInt64.size → ∀ bound,
    (∀ target ∈ data.targets, target.toNat < bound) → data.fault? bound = none

theorem stores_packed {lists : List (List NodeId)} (short : ∀ list ∈ lists, Short list) :
    (packed lists).Stores lists := by
  have entry (i : Nat) : (packed lists).vertices[i]? =
      lists[i]?.map (.ofList (lists.take i).flatten.length) := by
    rw [packed, getElem?_entriesOf, Nat.zero_add]
  refine ⟨List.ext_getElem? fun i => ?_, rfl, fun entry' member none => ?_, fun size bound small =>
    fault?_eq_none_iff.2 (sealable_packed short size small)⟩
  · rw [List.getElem?_map, entry]
    cases found : lists[i]? with
    | none => rfl
    | some list =>
      exact congrArg some (slice_ofList (short list (List.mem_of_getElem? found)) found)
  · obtain ⟨i, here⟩ := List.mem_iff_getElem?.1 member
    rw [entry, Option.map_eq_some_iff] at here
    obtain ⟨list, found, rfl⟩ := here
    rw [slice_ofList (short list (List.mem_of_getElem? found)) found] at none
    subst none
    rfl

section Pairs

variable {direction : Direction} {edges : List (NodeId × NodeId)}

theorem row_toNat (node : NodeId) : row direction edges node.toNat =
    (edges.filter fun edge => owner direction edge = node).map (target direction) := by
  simp only [row, NodeId.toNat_inj]

/-- Rows are short if no node owns too many pairs, for numbers past all nodes have empty rows. -/
theorem forall_short_row : (∀ i, Short (row direction edges i)) ↔
    ∀ node, (edges.countP fun edge => owner direction edge = node) < UInt32.size := by
  have length (node : NodeId) : (row direction edges node.toNat).length =
      edges.countP fun edge => owner direction edge = node := by
    rw [row_toNat, List.length_map, List.countP_eq_length_filter]
  constructor
  · intro short node
    rw [← length]
    exact short node.toNat
  · intro few i
    by_cases named : i < UInt64.size
    · have short := few (.ofNat i)
      rwa [← length, NodeId.toNat_ofNat named] at short
    · have empty : row direction edges i = [] := by
        apply row_eq_nil
        rintro edge - rfl
        exact named (NodeId.toNat_lt _)
      rw [empty]
      exact Nat.zero_lt_succ _

/-- A level of pairs covers the declared nodes and those up to the largest owner. -/
theorem span_eq_max (nodes : Nat) : span nodes direction edges =
    (edges.map fun edge => (owner direction edge).toNat).max?.elim nodes
      fun largest => max nodes (largest + 1) := by
  induction edges with
  | nil => rfl
  | cons edge edges ih =>
    rw [span, ih, List.map_cons, List.max?_cons]
    cases (edges.map fun edge => (owner direction edge).toNat).max? with
    | none => exact Nat.max_comm _ _
    | some largest =>
      simp only [Option.elim]
      omega

/-- Rows put together are the targets of the pairs sorted by owner. -/
theorem flatten_rows (count : Nat) : (rows direction edges count).flatten =
    (buckets (fun edge => (owner direction edge).toNat) edges count).map (target direction) := by
  rw [rows, ← List.flatMap_def, buckets, List.map_flatMap]
  rfl

end Pairs

/-- The plain sum that prolongs the lists leaves the words exactly where the last node owns a pair:
there a grouping over any number of nodes that a word can hold faults. Where the last node owns
none, grouping pairs by owner works if no node owns more of them than a degree can say. The level
then covers the declared nodes and all owners, and it holds for each node the other ends of its
pairs, in the order of the pairs; so its targets are those of all pairs, sorted by owner without
changing the order of one owner's pairs. Packing lists works if no list is longer than a degree can
say, and reading the entries back gives the lists. A longer list is refused in both cases. -/
theorem packing_keeps_lists (nodes : Nat) (edges : List (NodeId × NodeId)) (direction : Direction)
    (lists : List (List NodeId)) :
    let tooLong : Error := .invalid "adjacency list longer than u32::MAX edges"
    ((∀ edge ∈ edges, owner direction edge ≠ .last) →
      ((∀ node, (edges.countP fun edge => owner direction edge = node) < UInt32.size) →
        ∃ data, ofEdges nodes edges direction = .ok (.ok data) ∧
          data.nodeCount = ((edges.map fun edge => (owner direction edge).toNat).max?.elim nodes
            fun largest => max nodes (largest + 1)) ∧
          (∀ node, data.recorded node =
            (edges.filter fun edge => owner direction edge = node).map (target direction)) ∧
          data.Stores (rows direction edges data.nodeCount) ∧
          data.edgeCount = edges.length ∧
          ∃ sorted, SortedBy (fun edge => (owner direction edge).toNat) edges sorted ∧
            data.targets = sorted.map (target direction)) ∧
      ((∃ node, UInt32.size ≤ edges.countP fun edge => owner direction edge = node) →
        ofEdges nodes edges direction = .ok (.error tooLong))) ∧
    (nodes < UInt64.size → (∃ edge ∈ edges, owner direction edge = .last) →
      ofEdges nodes edges direction = .error .sum) ∧
    ((∀ list ∈ lists, list.length < UInt32.size) →
      ∃ data, ofAdjacency lists = .ok data ∧ data.nodeCount = lists.length ∧ data.Stores lists) ∧
    ((∃ list ∈ lists, UInt32.size ≤ list.length) → ofAdjacency lists = .error tooLong) := by
  intro tooLong
  refine ⟨fun named => ⟨fun few => ?_, ?_⟩, ?_, fun short => ?_, ?_⟩
  · have short := forall_short_row.2 few
    have covered : (grouped nodes direction edges).nodeCount = span nodes direction edges :=
      nodeCount_grouped
    refine ⟨grouped nodes direction edges,
      ofEdges_eq_ok_iff.2 ⟨countable_of_ne_last named, short, rfl⟩,
      covered.trans (span_eq_max nodes), fun node => ?_, ?_, edgeCount_grouped, _,
      sortedBy_buckets _ edges fun edge => owner_lt_span nodes, flatten_rows _⟩
    · rw [recorded_grouped short, row_toNat]
    · rw [covered]
      exact stores_packed (forall_mem_rows.2 short)
  · rintro ⟨node, many⟩
    have long : ¬∀ i, Short (row direction edges i) := fun short =>
      Nat.not_lt.2 many (forall_short_row.1 short node)
    have grouped := @ofEdges_eq_packRows nodes _ _ (countable_of_ne_last named)
    rwa [packRows_eq_error long] at grouped
  · exact fun word owned => ofEdges_eq_error word owned
  · exact ⟨packed lists, ofAdjacency_eq_ok short, nodeCount_packed, stores_packed short⟩
  · rintro ⟨list, member, long⟩
    exact ofAdjacency_eq_error fun short => Nat.not_lt.2 long (short list member)

/-- Three pairs of an owner past the declared nodes, with a pair of another owner among them; lists
with an empty one between them; an owner and a list with one edge too many; and a pair of the last
node but one. -/
theorem packing_keeps_lists_past_declared_nodes :
    let edges : List (NodeId × NodeId) := [(⟨2⟩, ⟨0⟩), (⟨0⟩, ⟨1⟩), (⟨2⟩, ⟨1⟩), (⟨2⟩, ⟨0⟩)]
    let lists : List (List NodeId) := [[⟨1⟩, ⟨2⟩], [], [⟨0⟩]]
    (∃ data, ofEdges 1 edges .out = .ok (.ok data) ∧ data.nodeCount = 3 ∧
      data.recorded ⟨2⟩ = [⟨0⟩, ⟨1⟩, ⟨0⟩] ∧ data.targets = [⟨1⟩, ⟨0⟩, ⟨1⟩, ⟨0⟩] ∧
      data.fault? 2 = none) ∧
    (∃ data, ofAdjacency lists = .ok data ∧ data.vertices.map data.slice = lists) ∧
    (∃ e, ofEdges 0 (List.replicate UInt32.size (⟨7⟩, ⟨0⟩)) .out = .ok (.error e)) ∧
    (∃ e, ofAdjacency [List.replicate UInt32.size ⟨0⟩] = .error e) ∧
    ∃ data, ofEdges 0 [(⟨0xfffffffffffffffe⟩, .last)] .out = .ok (.ok data) ∧
      data.nodeCount = 0xffffffffffffffff := by
  intro edges lists
  obtain ⟨grouping, -, packing, -⟩ := packing_keeps_lists 1 edges .out lists
  obtain ⟨owns, -, -, long⟩ := packing_keeps_lists 0 (List.replicate UInt32.size (⟨7⟩, ⟨0⟩)) .out
    [List.replicate UInt32.size ⟨0⟩]
  refine ⟨?_, ?_, ⟨_, (owns ?_).2 ⟨⟨7⟩, ?_⟩⟩, ⟨_, long ⟨_, List.mem_singleton_self _, ?_⟩⟩, ?_⟩
  · obtain ⟨data, built, nodes, recorded, stores, count, -⟩ := (grouping (by decide)).1 fun node =>
      Nat.lt_of_le_of_lt List.countP_le_length (by decide)
    have targets := stores.targets
    rw [nodes] at targets
    have targets : data.targets = [⟨1⟩, ⟨0⟩, ⟨1⟩, ⟨0⟩] := targets.trans (by decide)
    refine ⟨data, built, nodes, (recorded ⟨2⟩).trans (by decide), targets, ?_⟩
    refine stores.accepted (count ▸ by decide) 2 ?_
    rw [targets]
    decide
  · obtain ⟨data, built, -, stores⟩ := packing (by decide)
    exact ⟨data, built, stores.slices⟩
  · intro edge member
    rw [List.eq_of_mem_replicate member]
    decide
  · rw [List.countP_replicate]
    exact Nat.le_refl _
  · exact Nat.le_of_eq List.length_replicate.symm
  · obtain ⟨data, built, nodes, -⟩ := (packing_keeps_lists 0 [(⟨0xfffffffffffffffe⟩, .last)] .out
      []).1 (by decide) |>.1 fun node => Nat.lt_of_le_of_lt List.countP_le_length (by decide)
    exact ⟨data, built, nodes⟩

/-- Already a single pair of the last node makes a grouping fault instead of covering the node. -/
theorem grouping_overflows_on_last_node :
    let edges : List (NodeId × NodeId) := [(.last, ⟨0⟩)]
    (∀ node, (edges.countP fun edge => owner .out edge = node) < UInt32.size) ∧
    ofEdges 0 edges .out = .error .sum ∧
    ¬∀ (nodes : Nat) (edges : List (NodeId × NodeId)) (direction : Direction),
      (∀ node, (edges.countP fun edge => owner direction edge = node) < UInt32.size) →
        ∃ data, ofEdges nodes edges direction = .ok (.ok data) := by
  intro edges
  have few (node : NodeId) : (edges.countP fun edge => owner .out edge = node) < UInt32.size :=
    Nat.lt_of_le_of_lt List.countP_le_length (by decide)
  have fault : ofEdges 0 edges .out = .error .sum := rfl
  refine ⟨few, fault, fun always => ?_⟩
  obtain ⟨data, built⟩ := always 0 edges .out few
  exact absurd (fault.symm.trans built) (by simp)

end LevelData

end LayeredGraph
