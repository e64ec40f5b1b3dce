import LayeredGraph.Proofs.Level.Packing

/-! Grouping edge pairs by the node that owns them in a direction. The lists that are filled pair
by pair end up as the rows of the pairs: for every node the other ends of its pairs, in the order
of the pairs. Rows hold every pair once, in either direction. The filling faults exactly where the
last node owns a pair and has no list. -/
namespace LayeredGraph

namespace LevelData

/-- The node whose list an edge belongs to. -/
def owner (direction : Direction) (edge : NodeId × NodeId) : NodeId :=
  (ownerAndTarget direction edge).1

/-- The other end of an edge. -/
def target (direction : Direction) (edge : NodeId × NodeId) : NodeId :=
  (ownerAndTarget direction edge).2

/-- The targets of the edges that the node with a number owns. -/
def row (direction : Direction) (edges : List (NodeId × NodeId)) (i : Nat) : List NodeId :=
  (edges.filter fun edge => (owner direction edge).toNat = i).map (target direction)

/-- The number of lists: as many as declared, or up to the largest owner. -/
def span (nodes : Nat) (direction : Direction) : List (NodeId × NodeId) → Nat
  | [] => nodes
  | edge :: edges => max ((owner direction edge).toNat + 1) (span nodes direction edges)

/-- The rows of all nodes up to a number. -/
def rows (direction : Direction) (edges : List (NodeId × NodeId)) (count : Nat) :
    List (List NodeId) :=
  (List.range count).map (row direction edges)

section Fill

variable {lists : Array (Array NodeId)}

/-- The list at a place, empty past the last one. -/
def listAt (lists : Array (Array NodeId)) (i : Nat) : List NodeId :=
  (lists[i]?.getD #[]).toList

/-- The lists with a target in its owner's, whatever the number of lists comes to. -/
def placed (lists : Array (Array NodeId)) (owner target : NodeId) : Array (Array NodeId) :=
  (lists ++ Array.replicate (owner.toNat + 1 - lists.size) #[]).modify owner.toNat (·.push target)

/-- A target is placed unless its owner is the last node and the lists do not reach it. -/
theorem addTo_eq (owner target : NodeId) :
    addTo lists owner target =
      if owner = .last → UInt64.size ≤ lists.size then .ok (placed lists owner target)
      else .error .sum := by
  rw [addTo, reach]
  split
  · next inside =>
    have reached : owner = .last → UInt64.size ≤ lists.size := by
      rintro rfl
      exact inside
    have none : owner.toNat + 1 - lists.size = 0 := Nat.sub_eq_zero_of_le inside
    rw [if_pos reached, placed, none, Array.replicate_zero, Array.append_empty]
    rfl
  · next outside =>
    split
    · next fits =>
      rw [if_pos fun same => absurd same (NodeId.succ_toNat_lt_iff.1 fits)]
      rfl
    · next wraps =>
      have last : owner = .last := Classical.not_not.1 (mt NodeId.succ_toNat_lt_iff.2 wraps)
      have short : ¬UInt64.size ≤ lists.size := by
        subst last
        exact outside
      rw [if_neg fun reached => short (reached last)]
      rfl

theorem size_placed (owner target : NodeId) :
    (placed lists owner target).size = max lists.size (owner.toNat + 1) := by
  simp only [placed, Array.size_modify, Array.size_append, Array.size_replicate]
  omega

/-- Growing the lists adds empty ones only. -/
theorem listAt_grow (count i : Nat) :
    listAt (lists ++ Array.replicate count #[]) i = listAt lists i := by
  unfold listAt
  rw [Array.getElem?_append]
  split
  · rfl
  · next outside =>
    rw [Array.getElem?_replicate, Array.getElem?_eq_none (Nat.not_lt.1 outside)]
    split <;> rfl

theorem listAt_modify_push {i : Nat} (inside : i < lists.size) (target : NodeId) (j : Nat) :
    listAt (lists.modify i (·.push target)) j =
      listAt lists j ++ if i = j then [target] else [] := by
  unfold listAt
  rw [Array.getElem?_modify]
  by_cases same : i = j
  · subst same
    rw [if_pos rfl, if_pos rfl, Array.getElem?_eq_getElem inside]
    exact Array.toList_push
  · rw [if_neg same, if_neg same, List.append_nil]

theorem listAt_placed (owner target : NodeId) (i : Nat) :
    listAt (placed lists owner target) i =
      listAt lists i ++ if owner.toNat = i then [target] else [] := by
  have inside : owner.toNat <
      (lists ++ Array.replicate (owner.toNat + 1 - lists.size) #[]).size := by
    rw [Array.size_append, Array.size_replicate]
    omega
  rw [placed, listAt_modify_push inside, listAt_grow]

/-- The lists filled with the pairs of a list. -/
def fill (direction : Direction) (lists : Array (Array NodeId))
    (edges : List (NodeId × NodeId)) : Array (Array NodeId) :=
  edges.foldl (fun lists edge => placed lists (owner direction edge) (target direction edge)) lists

/-- Owners that some lists can be prolonged for: the last node owns no pair, unless it has a list
already. -/
def Countable (count : Nat) (direction : Direction) (edges : List (NodeId × NodeId)) : Prop :=
  ∀ edge ∈ edges, owner direction edge = .last → UInt64.size ≤ count

instance (count : Nat) (direction : Direction) (edges : List (NodeId × NodeId)) :
    Decidable (Countable count direction edges) :=
  inferInstanceAs (Decidable (∀ edge ∈ edges, _ → _))

/-- Placing a pair neither gives nor takes the last node its list. -/
theorem countable_placed {direction : Direction} {edge : NodeId × NodeId}
    (first : owner direction edge = .last → UInt64.size ≤ lists.size)
    (edges : List (NodeId × NodeId)) :
    Countable (placed lists (owner direction edge) (target direction edge)).size direction edges ↔
      Countable lists.size direction edges := by
  have same : UInt64.size ≤ (placed lists (owner direction edge) (target direction edge)).size ↔
      UInt64.size ≤ lists.size := by
    rw [size_placed]
    by_cases last : owner direction edge = .last
    · exact iff_of_true (Nat.le_trans (first last) (Nat.le_max_left _ _)) (first last)
    · have fits := NodeId.succ_toNat_lt_iff.2 last
      omega
  simp only [Countable, same]

/-- The checked filling is the plain one, or it faults. -/
theorem foldlM_addTo (direction : Direction) (edges : List (NodeId × NodeId)) :
    edges.foldlM (fun lists edge => addTo lists (owner direction edge) (target direction edge))
        lists =
      if Countable lists.size direction edges then .ok (fill direction lists edges)
      else .error .sum := by
  induction edges generalizing lists with
  | nil => exact (if_pos nofun).symm
  | cons edge edges ih =>
    rw [List.foldlM_cons, addTo_eq]
    by_cases first : owner direction edge = .last → UInt64.size ≤ lists.size
    · rw [if_pos first]
      refine ih.trans (ite_congr (propext ?_) (fun _ => rfl) fun _ => rfl)
      rw [countable_placed first, Countable, Countable, List.forall_mem_cons]
      exact (and_iff_right first).symm
    · rw [if_neg first, if_neg fun all => first (all edge (List.mem_cons_self ..))]
      rfl

theorem row_cons (direction : Direction) (edge : NodeId × NodeId)
    (edges : List (NodeId × NodeId)) (i : Nat) :
    row direction (edge :: edges) i =
      (if (owner direction edge).toNat = i then [target direction edge] else []) ++
        row direction edges i := by
  unfold row
  rw [List.filter_cons]
  split <;> simp_all

theorem row_append (direction : Direction) (xs ys : List (NodeId × NodeId)) (i : Nat) :
    row direction (xs ++ ys) i = row direction xs i ++ row direction ys i := by
  rw [row, List.filter_append, List.map_append]
  rfl

theorem listAt_fill (direction : Direction) (edges : List (NodeId × NodeId)) (i : Nat) :
    listAt (fill direction lists edges) i = listAt lists i ++ row direction edges i := by
  induction edges generalizing lists with
  | nil => exact (List.append_nil _).symm
  | cons edge edges ih =>
    rw [fill, List.foldl_cons, ← fill, ih, listAt_placed, List.append_assoc, ← row_cons]

theorem span_max (nodes more : Nat) (direction : Direction) (edges : List (NodeId × NodeId)) :
    span (max nodes more) direction edges = max more (span nodes direction edges) := by
  induction edges with
  | nil => exact Nat.max_comm nodes more
  | cons edge edges ih => rw [span, span, ih, Nat.max_left_comm]

theorem size_fill (direction : Direction) (edges : List (NodeId × NodeId)) :
    (fill direction lists edges).size = span lists.size direction edges := by
  induction edges generalizing lists with
  | nil => rfl
  | cons edge edges ih => rw [fill, List.foldl_cons, ← fill, ih, size_placed, span_max, span]

theorem listAt_replicate (nodes i : Nat) : listAt (Array.replicate nodes #[]) i = [] := by
  unfold listAt
  rw [Array.getElem?_replicate]
  split <;> rfl

/-- Filled from empty lists, the lists are the rows of the pairs. -/
theorem toList_fill (nodes : Nat) (direction : Direction) (edges : List (NodeId × NodeId)) :
    (fill direction (Array.replicate nodes #[]) edges).toList.map Array.toList =
      rows direction edges (span nodes direction edges) := by
  have size := @size_fill (Array.replicate nodes #[]) direction edges
  rw [Array.size_replicate] at size
  apply List.ext_getElem
  · rw [List.length_map, Array.length_toList, size, rows, List.length_map, List.length_range]
  · intro i left right
    rw [List.length_map, Array.length_toList] at left
    have list := @listAt_fill (Array.replicate nodes #[]) direction edges i
    rw [listAt_replicate, List.nil_append, listAt, Array.getElem?_eq_getElem left] at list
    simp only [List.getElem_map, Array.getElem_toList, rows, List.getElem_range]
    exact list

end Fill

/-- Packs the rows of all nodes up to the largest owner. -/
def packRows (nodes : Nat) (edges : List (NodeId × NodeId)) (direction : Direction) :
    Except Error LevelData :=
  ofAdjacency (rows direction edges (span nodes direction edges))

/-- Grouping pairs is packing their rows, unless it faults. -/
theorem ofEdges_eq (nodes : Nat) (edges : List (NodeId × NodeId)) (direction : Direction) :
    ofEdges nodes edges direction =
      if Countable nodes direction edges then .ok (packRows nodes edges direction)
      else .error .sum := by
  have filled := @foldlM_addTo (Array.replicate nodes #[]) direction edges
  rw [Array.size_replicate] at filled
  simp only [ofEdges]
  change (edges.foldlM (fun lists edge => addTo lists (owner direction edge)
    (target direction edge)) _ >>= _) = _
  rw [filled, packRows, ← toList_fill]
  split <;> rfl

section Rows

variable {direction : Direction} {edges : List (NodeId × NodeId)}

theorem owner_lt_span (nodes : Nat) {edge : NodeId × NodeId} (h : edge ∈ edges) :
    (owner direction edge).toNat < span nodes direction edges := by
  induction edges with
  | nil => simp at h
  | cons first edges ih =>
    rw [span]
    rcases List.mem_cons.1 h with rfl | h
    · exact Nat.le_max_left _ _
    · exact Nat.lt_of_lt_of_le (ih h) (Nat.le_max_right _ _)

/-- Where all owners are declared, nothing is enlarged. -/
theorem span_eq {nodes : Nat} (h : ∀ edge ∈ edges, (owner direction edge).toNat < nodes) :
    span nodes direction edges = nodes := by
  induction edges with
  | nil => rfl
  | cons edge edges ih =>
    rw [List.forall_mem_cons] at h
    rw [span, ih h.2]
    exact Nat.max_eq_right h.1

theorem row_eq_nil {i : Nat} (h : ∀ edge ∈ edges, (owner direction edge).toNat ≠ i) :
    row direction edges i = [] := by
  rw [row, List.map_eq_nil_iff, List.filter_eq_nil_iff]
  intro edge member
  simpa using h edge member

theorem countable_of_ne_last {nodes : Nat} (h : ∀ edge ∈ edges, owner direction edge ≠ .last) :
    Countable nodes direction edges :=
  fun edge member last => absurd last (h edge member)

/-- Declared owners can be counted up to. -/
theorem countable_of_lt {nodes : Nat} (h : ∀ edge ∈ edges, (owner direction edge).toNat < nodes) :
    Countable nodes direction edges := by
  intro edge member last
  have inside := h edge member
  rw [last] at inside
  exact inside

theorem short_row (h : edges.length < UInt32.size) (i : Nat) : Short (row direction edges i) := by
  rw [Short, row, List.length_map]
  exact Nat.lt_of_le_of_lt (List.length_filter_le _ _) h

theorem getD_rows {count i : Nat} (h : ∀ edge ∈ edges, (owner direction edge).toNat < count) :
    (rows direction edges count)[i]?.getD [] = row direction edges i := by
  rw [rows, List.getElem?_map]
  by_cases inside : i < count
  · rw [List.getElem?_range inside]
    rfl
  · have outside : (List.range count)[i]? = none := by
      rw [List.getElem?_eq_none_iff, List.length_range]
      exact Nat.not_lt.1 inside
    have none : row direction edges i = [] := by
      apply row_eq_nil
      intro edge member same
      exact inside (same ▸ h edge member)
    rw [outside, none]
    rfl

theorem mem_flatten_rows {count : Nat} {node : NodeId}
    (h : node ∈ (rows direction edges count).flatten) :
    ∃ edge ∈ edges, target direction edge = node := by
  obtain ⟨list, member, inside⟩ := List.mem_flatten.1 h
  obtain ⟨i, -, rfl⟩ := List.mem_map.1 member
  obtain ⟨edge, owned, same⟩ := List.mem_map.1 inside
  exact ⟨edge, (List.mem_filter.1 owned).1, same⟩

/-- The rows up to a number hold as many targets as there are pairs with an owner below it. -/
theorem length_flatten_rows (count : Nat) :
    (rows direction edges count).flatten.length =
      edges.countP fun edge => (owner direction edge).toNat < count := by
  induction count with
  | zero => simp [rows]
  | succ count ih =>
    have split : rows direction edges (count + 1) =
        rows direction edges count ++ [row direction edges count] := by
      rw [rows, rows, List.range_succ, List.map_append]
      rfl
    rw [split, List.flatten_append, List.length_append, ih, List.flatten_singleton, row,
      List.length_map, ← List.countP_eq_length_filter]
    clear ih split
    induction edges with
    | nil => rfl
    | cons edge edges ih =>
      simp only [List.countP_cons, decide_eq_true_eq]
      split <;> split <;> split <;> omega

/-- A target stands in a node's row as often as the pairs of the two. -/
theorem count_row (node other : NodeId) :
    (row direction edges node.toNat).count other =
      edges.countP fun edge => owner direction edge = node ∧ target direction edge = other := by
  rw [row, List.count_eq_countP, List.countP_map, List.countP_filter]
  apply List.countP_congr
  intro edge _
  simp only [Function.comp_apply, beq_iff_eq, Bool.and_eq_true, decide_eq_true_eq,
    NodeId.toNat_inj]
  exact and_comm

theorem count_row_out (u v : NodeId) : (row .out edges u.toNat).count v = edges.count (u, v) := by
  rw [count_row, List.count_eq_countP]
  apply List.countP_congr
  intro edge _
  simp only [decide_eq_true_eq, beq_iff_eq, Prod.ext_iff]
  rfl

theorem count_row_inc (u v : NodeId) : (row .inc edges v.toNat).count u = edges.count (u, v) := by
  rw [count_row, List.count_eq_countP]
  apply List.countP_congr
  intro edge _
  simp only [decide_eq_true_eq, beq_iff_eq, Prod.ext_iff]
  exact and_comm

end Rows

/-- Pairs that fit in a level: a slice of them has a 64-bit length, and no node has more of them
in either direction than a degree can say. -/
structure Fits (edges : List (NodeId × NodeId)) : Prop where
  short : ∀ direction i, Short (row direction edges i)
  size : edges.length < UInt64.size

theorem fits_of_length_lt {edges : List (NodeId × NodeId)} (h : edges.length < UInt32.size) :
    Fits edges :=
  ⟨fun _ => short_row h, Nat.lt_trans h (by decide)⟩

/-- The contents that pairs are grouped into. -/
def grouped (nodes : Nat) (direction : Direction) (edges : List (NodeId × NodeId)) : LevelData :=
  packed (rows direction edges (span nodes direction edges))

section Grouped

variable {nodes : Nat} {direction : Direction} {edges : List (NodeId × NodeId)}

theorem forall_mem_rows :
    (∀ list ∈ rows direction edges (span nodes direction edges), Short list) ↔
      ∀ i, Short (row direction edges i) := by
  constructor
  · intro h i
    by_cases inside : i < span nodes direction edges
    · exact h _ (List.mem_map.2 ⟨i, List.mem_range.2 inside, rfl⟩)
    · have none : row direction edges i = [] := by
        apply row_eq_nil
        rintro edge member rfl
        exact inside (owner_lt_span nodes member)
      rw [none]
      exact Nat.zero_lt_succ _
  · intro h list member
    obtain ⟨i, -, rfl⟩ := List.mem_map.1 member
    exact h i

/-- Rows cannot be packed exactly when a node owns more pairs than a degree can say. -/
theorem packRows_eq_ok_iff {data : LevelData} :
    packRows nodes edges direction = .ok data ↔
      (∀ i, Short (row direction edges i)) ∧ data = grouped nodes direction edges := by
  rw [packRows, ofAdjacency_eq_ok_iff, forall_mem_rows, grouped]

theorem packRows_eq_error (h : ¬∀ i, Short (row direction edges i)) :
    packRows nodes edges direction = .error tooLong :=
  ofAdjacency_eq_error (mt forall_mem_rows.1 h)

theorem ofEdges_eq_packRows (h : Countable nodes direction edges) :
    ofEdges nodes edges direction = .ok (packRows nodes edges direction) := by
  rw [ofEdges_eq, if_pos h]

/-- The last node has no list that lists up to a word's number of nodes could hold. -/
theorem ofEdges_eq_error (word : nodes < UInt64.size)
    (owned : ∃ edge ∈ edges, owner direction edge = .last) :
    ofEdges nodes edges direction = .error .sum := by
  obtain ⟨edge, member, last⟩ := owned
  rw [ofEdges_eq, if_neg fun countable => Nat.not_lt.2 (countable edge member last) word]

theorem ofEdges_eq_ok_iff {data : LevelData} :
    ofEdges nodes edges direction = .ok (.ok data) ↔ Countable nodes direction edges ∧
      (∀ i, Short (row direction edges i)) ∧ data = grouped nodes direction edges := by
  rw [ofEdges_eq]
  split
  · next countable => rw [Except.ok.injEq, packRows_eq_ok_iff, and_iff_right countable]
  · next wraps => exact ⟨nofun, fun h => absurd h.1 wraps⟩

@[simp] theorem nodeCount_grouped :
    (grouped nodes direction edges).nodeCount = span nodes direction edges := by
  rw [grouped, nodeCount_packed, rows, List.length_map, List.length_range]

/-- Every pair becomes one edge. -/
@[simp] theorem edgeCount_grouped : (grouped nodes direction edges).edgeCount = edges.length := by
  change (rows direction edges (span nodes direction edges)).flatten.length = _
  rw [length_flatten_rows, List.countP_eq_length]
  intro edge member
  exact decide_eq_true (owner_lt_span nodes member)

/-- What is recorded for a node are the other ends of its pairs, in order. -/
theorem recorded_grouped (short : ∀ i, Short (row direction edges i)) (node : NodeId) :
    (grouped nodes direction edges).recorded node = row direction edges node.toNat := by
  rw [grouped, recorded_packed (forall_mem_rows.2 short),
    getD_rows fun edge member => owner_lt_span nodes member]

theorem sealable_grouped {bound : Nat} (short : ∀ i, Short (row direction edges i))
    (size : edges.length < UInt64.size)
    (bounded : ∀ edge ∈ edges, (target direction edge).toNat < bound) :
    (grouped nodes direction edges).Sealable bound := by
  refine sealable_packed (forall_mem_rows.2 short) ?_ ?_
  · have count : (grouped nodes direction edges).edgeCount < UInt64.size := by
      rw [edgeCount_grouped]
      exact size
    exact count
  · intro node member
    obtain ⟨edge, inside, rfl⟩ := mem_flatten_rows member
    exact bounded edge inside

end Grouped

section Both

variable {nodes : Nat} {pairs : List (NodeId × NodeId)}

/-- Packs the rows of pairs for both directions. -/
def groupBoth (nodes : Nat) (pairs : List (NodeId × NodeId)) :
    Except Error (PerDirection LevelData) := do
  let out ← packRows nodes pairs .out
  let inc ← packRows nodes pairs .inc
  return ⟨out, inc⟩

/-- The contents that pairs are grouped into for both directions. -/
def groupedBoth (nodes : Nat) (pairs : List (NodeId × NodeId)) : PerDirection LevelData :=
  ⟨grouped nodes .out pairs, grouped nodes .inc pairs⟩

theorem get_groupedBoth (direction : Direction) :
    (groupedBoth nodes pairs).get direction = grouped nodes direction pairs := by
  cases direction <;> rfl

/-- Grouping for both directions succeeds exactly when all rows are short. -/
theorem groupBoth_eq_ok_iff {data : PerDirection LevelData} :
    groupBoth nodes pairs = .ok data ↔
      (∀ direction i, Short (row direction pairs i)) ∧ data = groupedBoth nodes pairs := by
  constructor
  · intro h
    unfold groupBoth at h
    cases first : packRows nodes pairs .out with
    | error e => simp [first, bind, Except.bind] at h
    | ok out =>
      cases second : packRows nodes pairs .inc with
      | error e => simp [first, second, bind, Except.bind] at h
      | ok inc =>
        obtain ⟨outward, rfl⟩ := packRows_eq_ok_iff.1 first
        obtain ⟨inward, rfl⟩ := packRows_eq_ok_iff.1 second
        simp only [first, second, bind, Except.bind, pure, Except.pure, Except.ok.injEq] at h
        refine ⟨?_, h.symm⟩
        rintro (_ | _)
        · exact outward
        · exact inward
  · rintro ⟨short, rfl⟩
    rw [groupBoth, packRows_eq_ok_iff.2 ⟨short .out, rfl⟩, packRows_eq_ok_iff.2 ⟨short .inc, rfl⟩]
    rfl

/-- The only answer of a grouping that fails is that a row is too long. -/
theorem groupBoth_eq_error_iff {e : Error} :
    groupBoth nodes pairs = .error e ↔
      (¬∀ direction i, Short (row direction pairs i)) ∧ e = tooLong := by
  by_cases short : ∀ direction i, Short (row direction pairs i)
  · rw [groupBoth_eq_ok_iff.2 ⟨short, rfl⟩]
    exact ⟨nofun, fun long => absurd short long.1⟩
  · have answer : groupBoth nodes pairs = .error tooLong := by
      by_cases outward : ∀ i, Short (row .out pairs i)
      · have inward : ¬∀ i, Short (row .inc pairs i) := by
          intro inward
          refine short ?_
          rintro (_ | _)
          · exact outward
          · exact inward
        rw [groupBoth, packRows_eq_ok_iff.2 ⟨outward, rfl⟩, packRows_eq_error inward]
        rfl
      · rw [groupBoth, packRows_eq_error outward]
        rfl
    rw [answer, Except.error.injEq, eq_comm]
    exact ⟨fun same => ⟨short, same⟩, And.right⟩

end Both

end LevelData

end LayeredGraph
