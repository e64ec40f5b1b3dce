import LayeredGraph.Proofs.Cursor
import LayeredGraph.Proofs.Overlay
import LayeredGraph.Proofs.Stack.Lookup

/-! Which node an edge belongs to. The numbers of a node's edges run upwards through its range in
each level and from level to level, and no two nodes share a number, since the ranges of a level
lie apart and the levels behind one another. Contents may leave places in no range; where they are
packed from lists, pairs or overlays they do not, and every edge then belongs to one node. -/
namespace LayeredGraph

namespace LevelData

/-- The numbers of a node's edges, where the edges of the level are numbered from `base` on. -/
def numbers (data : LevelData) (base : Nat) (node : NodeId) : List Nat :=
  List.range' (base + (data.entry node).start.raw) (data.entry node).degree.toNat

/-- The numbers of a node's edges in some levels, those of later levels behind earlier ones. -/
def numbersAll (base : Nat) (node : NodeId) : List LevelData → List Nat
  | [] => []
  | data :: rest => data.numbers base node ++ numbersAll (base + data.edgeCount) node rest

section Numbers

variable {data : LevelData} {base bound n : Nat} {node a b : NodeId}

theorem mem_numbers : n ∈ data.numbers base node ↔
    base + (data.entry node).start.raw ≤ n ∧ n < base + (data.entry node).stop := by
  rw [numbers, List.mem_range'_1, VertexEntry.stop, Nat.add_assoc]

theorem isEmpty_of_mem_numbers (h : n ∈ data.numbers base node) :
    (data.entry node).isEmpty = false := by
  cases empty : (data.entry node).isEmpty with
  | false => rfl
  | true =>
    rw [numbers, VertexEntry.degree_toNat_of_isEmpty empty] at h
    simp at h

theorem lt_nodeCount_of_mem_numbers (h : n ∈ data.numbers base node) :
    node.toNat < data.nodeCount := by
  apply Nat.lt_of_not_le
  intro past
  have nonempty := isEmpty_of_mem_numbers h
  rw [entry, List.getD_eq_getElem?_getD, List.getElem?_eq_none past] at nonempty
  simp at nonempty

/-- The edges of a node are those with its numbers. -/
theorem Sealable.edges_walk (h : data.Sealable bound) (base : Nat) (node : NodeId) :
    (data.walk base node).map (·.1) = (data.numbers base node).map .sealed := by
  apply List.ext_getElem
  · simp only [walk, numbers, List.length_map, List.length_mapIdx, List.length_range',
      h.length_recorded]
  · intro i left right
    simp only [walk, numbers, List.getElem_map, List.getElem_mapIdx, List.getElem_range',
      Nat.one_mul]

theorem Sealable.bounds_of_mem_numbers (h : data.Sealable bound)
    (member : n ∈ data.numbers base node) : base ≤ n ∧ n < base + data.edgeCount := by
  have fits := (h.inside_entry node).stop_le (isEmpty_of_mem_numbers member)
  rw [mem_numbers] at member
  omega

theorem Sealable.before (h : data.Sealable bound) (order : a.toNat < b.toNat) :
    (data.entry a).Before (data.entry b) := by
  by_cases inside : b.toNat < data.vertices.length
  · have apart := List.pairwise_iff_getElem.1 h.ordered a.toNat b.toNat
      (Nat.lt_trans order inside) inside order
    simpa only [entry, List.getD_eq_getElem?_getD, List.getElem?_eq_getElem inside,
      List.getElem?_eq_getElem (Nat.lt_trans order inside), Option.getD_some] using apart
  · have empty : data.entry b = .empty := by
      rw [entry, List.getD_eq_getElem?_getD, List.getElem?_eq_none (Nat.not_lt.1 inside)]
      rfl
    rw [empty]
    exact VertexEntry.before_empty _

/-- No two nodes share an edge of a level. -/
theorem Sealable.owner_unique (h : data.Sealable bound) (first : n ∈ data.numbers base a)
    (second : n ∈ data.numbers base b) : a = b := by
  have nonemptyA := isEmpty_of_mem_numbers first
  have nonemptyB := isEmpty_of_mem_numbers second
  rw [mem_numbers] at first second
  rw [← NodeId.toNat_inj]
  rcases Nat.lt_trichotomy a.toNat b.toNat with less | same | more
  · have apart := h.before less nonemptyA nonemptyB
    omega
  · exact same
  · have apart := h.before more nonemptyB nonemptyA
    omega

end Numbers

section NumbersAll

variable {contents : List LevelData} {base bound n : Nat} {node a b : NodeId}

theorem edges_walkAll (h : ∀ data ∈ contents, data.Sealable bound) (base : Nat) (node : NodeId) :
    (walkAll base node contents).map (·.1) = (numbersAll base node contents).map .sealed := by
  induction contents generalizing base with
  | nil => rfl
  | cons data rest ih =>
    rw [List.forall_mem_cons] at h
    rw [walkAll, numbersAll, List.map_append, List.map_append, h.1.edges_walk, ih h.2]

theorem bounds_of_mem_numbersAll (h : ∀ data ∈ contents, data.Sealable bound)
    (member : n ∈ numbersAll base node contents) : base ≤ n ∧ n < base + totalEdges contents := by
  induction contents generalizing base with
  | nil => simp [numbersAll] at member
  | cons data rest ih =>
    rw [List.forall_mem_cons] at h
    rw [totalEdges]
    rcases List.mem_append.1 member with member | member
    · have within := h.1.bounds_of_mem_numbers member
      omega
    · have within := ih h.2 member
      omega

/-- The numbers of a node's edges increase, also from one level to the next. -/
theorem pairwise_numbersAll (h : ∀ data ∈ contents, data.Sealable bound) (base : Nat)
    (node : NodeId) : (numbersAll base node contents).Pairwise (· < ·) := by
  induction contents generalizing base with
  | nil => exact .nil
  | cons data rest ih =>
    rw [List.forall_mem_cons] at h
    refine List.pairwise_append.2 ⟨List.pairwise_lt_range' 1, ih h.2 _, ?_⟩
    intro x here y later
    exact Nat.lt_of_lt_of_le (h.1.bounds_of_mem_numbers here).2
      (bounds_of_mem_numbersAll h.2 later).1

/-- No two nodes share an edge of any level. -/
theorem owner_unique_numbersAll (h : ∀ data ∈ contents, data.Sealable bound)
    (first : n ∈ numbersAll base a contents) (second : n ∈ numbersAll base b contents) :
    a = b := by
  induction contents generalizing base with
  | nil => simp [numbersAll] at first
  | cons data rest ih =>
    rw [List.forall_mem_cons] at h
    rcases List.mem_append.1 first with first | first
    · rcases List.mem_append.1 second with second | second
      · exact h.1.owner_unique first second
      · have here := (h.1.bounds_of_mem_numbers first).2
        have later := (bounds_of_mem_numbersAll h.2 second).1
        omega
    · rcases List.mem_append.1 second with second | second
      · have here := (h.1.bounds_of_mem_numbers second).2
        have later := (bounds_of_mem_numbersAll h.2 first).1
        omega
      · exact ih h.2 first second

theorem lt_coveredNodes_of_mem_numbersAll (member : n ∈ numbersAll base node contents) :
    node.toNat < coveredNodes contents := by
  induction contents generalizing base with
  | nil => simp [numbersAll] at member
  | cons data rest ih =>
    rw [coveredNodes]
    rcases List.mem_append.1 member with member | member
    · exact Nat.lt_of_lt_of_le (lt_nodeCount_of_mem_numbers member) (Nat.le_max_left _ _)
    · exact Nat.lt_of_lt_of_le (ih member) (Nat.le_max_right _ _)

/-- The edges of different nodes are different, so together they are no more than there are. -/
theorem length_flatMap_numbersAll_le (h : ∀ data ∈ contents, data.Sealable bound)
    {nodes : List NodeId} (distinct : nodes.Nodup) :
    (nodes.flatMap (numbersAll 0 · contents)).length ≤ totalEdges contents := by
  have apart : (nodes.flatMap (numbersAll 0 · contents)).Nodup := by
    refine List.pairwise_flatMap.2 ⟨?_, distinct.imp ?_⟩
    · intro node _
      exact (pairwise_numbersAll h 0 node).imp Nat.ne_of_lt
    · intro a b differ x inA y inB same
      exact differ (owner_unique_numbersAll h inA (same ▸ inB))
  have within : nodes.flatMap (numbersAll 0 · contents) ⊆ List.range (totalEdges contents) := by
    intro n member
    obtain ⟨node, -, inside⟩ := List.mem_flatMap.1 member
    have high := (bounds_of_mem_numbersAll h inside).2
    rw [Nat.zero_add] at high
    exact List.mem_range.2 high
  have length := apart.length_le_of_subset within
  rwa [List.length_range] at length

end NumbersAll

section Targets

variable {base : Nat} {node : NodeId} {pair : EdgeRef × NodeId}

theorem exists_of_mem_walk {data : LevelData} (h : pair ∈ data.walk base node) :
    ∃ slot, pair.1 = .sealed (base + slot) ∧ data.targets[slot]? = some pair.2 := by
  obtain ⟨i, inside, rfl⟩ := List.mem_mapIdx.1 h
  have target := getElem?_targets_of_recorded (List.getElem?_eq_getElem inside)
  exact ⟨_, by rw [Nat.add_assoc], target⟩

/-- An edge of a walk stands among the targets of all levels at its number. -/
theorem exists_of_mem_walkAll {contents : List LevelData} (h : pair ∈ walkAll base node contents) :
    ∃ place, pair.1 = .sealed (base + place) ∧
      (contents.flatMap (·.targets))[place]? = some pair.2 := by
  induction contents generalizing base with
  | nil => simp [walkAll] at h
  | cons data rest ih =>
    rw [List.flatMap_cons]
    rcases List.mem_append.1 h with here | later
    · obtain ⟨slot, edge, target⟩ := exists_of_mem_walk here
      have inside := (List.getElem?_eq_some_iff.1 target).1
      exact ⟨slot, edge, by rw [List.getElem?_append_left inside, target]⟩
    · obtain ⟨place, edge, target⟩ := ih later
      refine ⟨data.edgeCount + place, by rw [edge, Nat.add_assoc], ?_⟩
      rw [edgeCount, List.getElem?_append_right (Nat.le_add_right _ _), Nat.add_sub_cancel_left,
        target]

end Targets

/-- Contents in which every place of the target list belongs to a node. -/
def Gapless (data : LevelData) : Prop :=
  ∀ slot, slot < data.edgeCount → ∃ node, slot ∈ data.numbers 0 node

section Gapless

variable {contents : List LevelData} {base n : Nat}

/-- Packed lists leave no gaps, where every list that is not empty is the list of a node. -/
theorem gapless_packed {lists : List (List NodeId)} (short : ∀ list ∈ lists, Short list)
    (named : ∀ i list, lists[i]? = some list → list ≠ [] → i < UInt64.size) :
    (packed lists).Gapless := by
  intro slot inside
  obtain ⟨i, list, found, low, high⟩ := exists_of_lt_length_flatten inside
  have here := short list (List.mem_of_getElem? found)
  have nonempty : list ≠ [] := by
    rintro rfl
    rw [List.length_nil] at high
    omega
  have entry := @entry_packed lists (.ofNat i)
  rw [NodeId.toNat_ofNat (named i list found nonempty), found, Option.map_some,
    Option.getD_some] at entry
  have filled : (VertexEntry.ofList (lists.take i).flatten.length list).isEmpty = false := by
    rwa [VertexEntry.isEmpty_ofList _ here, List.isEmpty_eq_false_iff]
  refine ⟨.ofNat i, ?_⟩
  rw [mem_numbers, entry, VertexEntry.stop_ofList _ here filled,
    (VertexEntry.ofList_of_not_isEmpty _ here filled).1, Nat.zero_add, Nat.zero_add]
  exact ⟨low, high⟩

theorem gapless_grouped {nodes : Nat} {direction : Direction} {edges : List (NodeId × NodeId)}
    (short : ∀ i, Short (row direction edges i)) : (grouped nodes direction edges).Gapless := by
  refine gapless_packed (forall_mem_rows.2 short) ?_
  intro i list found nonempty
  rw [rows, List.getElem?_map, Option.map_eq_some_iff] at found
  obtain ⟨place, same, rfl⟩ := found
  obtain ⟨within, rfl⟩ := List.getElem?_eq_some_iff.1 same
  rw [List.getElem_range] at nonempty
  apply Nat.lt_of_not_le
  intro past
  apply nonempty
  apply row_eq_nil
  rintro edge - rfl
  exact Nat.not_lt.2 past (owner direction edge).toNat_lt

theorem Gapless.padTo {data : LevelData} (h : data.Gapless) (nodes : Nat) :
    (data.padTo nodes).Gapless := by
  intro slot inside
  obtain ⟨node, member⟩ := h slot inside
  rw [mem_numbers] at member
  refine ⟨node, ?_⟩
  rw [mem_numbers, entry_padTo]
  exact member

theorem Gapless.exists_mem_numbers {data : LevelData} (h : data.Gapless) (low : base ≤ n)
    (high : n < base + data.edgeCount) : ∃ node, n ∈ data.numbers base node := by
  obtain ⟨node, member⟩ := h (n - base) (by omega)
  rw [mem_numbers] at member
  refine ⟨node, ?_⟩
  rw [mem_numbers]
  omega

/-- Where no level leaves a gap, every edge belongs to a node. -/
theorem exists_mem_numbersAll (h : ∀ data ∈ contents, data.Gapless) (low : base ≤ n)
    (high : n < base + totalEdges contents) : ∃ node, n ∈ numbersAll base node contents := by
  induction contents generalizing base with
  | nil =>
    rw [totalEdges] at high
    omega
  | cons data rest ih =>
    rw [List.forall_mem_cons] at h
    rw [totalEdges] at high
    by_cases here : n < base + data.edgeCount
    · obtain ⟨node, member⟩ := h.1.exists_mem_numbers low here
      exact ⟨node, List.mem_append_left _ member⟩
    · obtain ⟨node, member⟩ := ih h.2 (Nat.not_lt.1 here) (by omega)
      exact ⟨node, List.mem_append_right _ member⟩

end Gapless

/-- Contents that were packed from adjacency lists, from pairs, or from an overlay, with tables
that may have been padded since. There are no more lists than a word can name nodes. -/
inductive Assembled : LevelData → Prop where
  | lists {lists : List (List NodeId)} {data : LevelData} (few : lists.length ≤ UInt64.size)
      (built : ofAdjacency lists = .ok data) : Assembled data
  | pairs {nodes : Nat} {pairs : List (NodeId × NodeId)} {direction : Direction}
      {data : LevelData} (built : ofEdges nodes pairs direction = .ok (.ok data)) : Assembled data
  | overlay {base : Nat} {appends : List Overlay.Append} {both : PerDirection LevelData}
      (direction : Direction)
      (built : ((Overlay.ofBase base).appendAll appends).levelData = .ok both) :
      Assembled (both.get direction)
  | padded {data : LevelData} (nodes : Nat) (h : Assembled data) : Assembled (data.padTo nodes)

theorem Assembled.gapless {data : LevelData} (h : data.Assembled) : data.Gapless := by
  induction h with
  | lists few built =>
    obtain ⟨short, rfl⟩ := ofAdjacency_eq_ok_iff.1 built
    refine gapless_packed short ?_
    intro i list found _
    exact Nat.lt_of_lt_of_le (List.getElem?_eq_some_iff.1 found).1 few
  | pairs built =>
    obtain ⟨-, short, rfl⟩ := ofEdges_eq_ok_iff.1 built
    exact gapless_grouped short
  | @overlay base appends both direction built =>
    rw [(Overlay.gathers_appendAll base appends).levelData] at built
    obtain ⟨short, rfl⟩ := groupBoth_eq_ok_iff.1 built
    rw [get_groupedBoth]
    exact gapless_grouped (short direction)
  | padded nodes _ ih => exact ih.padTo nodes

end LevelData

open LevelData

namespace Stack

/-- The number of edges of some nodes together. -/
def totalDegree (stack : Stack) : List NodeId → Nat
  | [] => 0
  | node :: nodes => stack.degree node + stack.totalDegree nodes

section Holds

variable {stack : Stack} {contents : List LevelData}

theorem Holds.gives_iff (h : stack.Holds contents) {node : NodeId}
    {edges : List (EdgeRef × NodeId)} :
    stack.Gives node edges ↔ node.toNat < stack.maxNodes ∧ edges = walkAll 0 node contents := by
  rw [h.sound.gives_iff, h.walk]

theorem Holds.degree (h : stack.Holds contents) (node : NodeId) :
    stack.degree node = (walkAll 0 node contents).length := by
  rw [← h.walk, Stack.degree, Cursor.totalDegree_eq_length, Stack.walk, walkFrom, List.drop_zero]

theorem Holds.totalDegree (h : stack.Holds contents) (nodes : List NodeId) :
    stack.totalDegree nodes = (nodes.flatMap (numbersAll 0 · contents)).length := by
  induction nodes with
  | nil => rfl
  | cons node nodes ih =>
    have edges := congrArg List.length (edges_walkAll h.sealable 0 node)
    rw [List.length_map, List.length_map] at edges
    rw [Stack.totalDegree, ih, h.degree, edges, List.flatMap_cons, List.length_append]

/-- The edges that a node gives are those with its numbers. -/
theorem Holds.edges_of_gives (h : stack.Holds contents) {node : NodeId}
    {edges : List (EdgeRef × NodeId)} (gives : stack.Gives node edges) :
    edges.map (·.1) = (numbersAll 0 node contents).map .sealed := by
  rw [(h.gives_iff.1 gives).2, edges_walkAll h.sealable]

theorem Holds.increasing_of_gives (h : stack.Holds contents) {node : NodeId}
    {edges : List (EdgeRef × NodeId)} (gives : stack.Gives node edges) :
    (edges.map (·.1)).Pairwise (fun earlier later => earlier.raw < later.raw) := by
  rw [h.edges_of_gives gives]
  exact List.Pairwise.map _ (fun _ _ less => less) (pairwise_numbersAll h.sealable 0 node)

theorem Holds.gives_of_mem_numbersAll (h : stack.Holds contents) {node : NodeId} {n : Nat}
    (member : n ∈ numbersAll 0 node contents) :
    stack.Gives node (walkAll 0 node contents) := by
  refine h.gives_iff.2 ⟨?_, rfl⟩
  rw [h.maxNodes]
  exact lt_coveredNodes_of_mem_numbersAll member

end Holds

/-- In a stack that was built level by level every node gives edges in increasing order, each with
the target that its reference leads to, and no two nodes give the same edge, so that different
nodes together have at most as many edges as the stack. Where every level was packed from lists,
pairs or an overlay, every edge of the stack is given by one node and given once. -/
theorem edges_have_one_owner {contents : List LevelData} {stack : Stack}
    (built : ofContents contents = .ok stack) :
    (∀ node, node.toNat < stack.maxNodes → ∃ edges, stack.Gives node edges ∧
      (edges.map (·.1)).Pairwise (fun earlier later => earlier.raw < later.raw) ∧
      ∀ pair ∈ edges, stack.target? pair.1 = some pair.2) ∧
    (∀ a b inA inB edge, stack.Gives a inA → stack.Gives b inB → edge ∈ inA.map (·.1) →
      edge ∈ inB.map (·.1) → a = b) ∧
    (∀ nodes : List NodeId, nodes.Nodup → stack.totalDegree nodes ≤ stack.edgeCount) ∧
    ((∀ data ∈ contents, data.Assembled) → ∀ number, number < stack.edgeCount →
      ∃ node edges, stack.Gives node edges ∧ (edges.map (·.1)).count (.sealed number) = 1 ∧
        ∀ other given, stack.Gives other given → .sealed number ∈ given.map (·.1) →
          other = node) := by
  have held := holds_ofContents built
  have owner : ∀ a b inA inB edge, stack.Gives a inA → stack.Gives b inB →
      edge ∈ inA.map (·.1) → edge ∈ inB.map (·.1) → a = b := by
    intro a b inA inB edge givesA givesB memberA memberB
    rw [held.edges_of_gives givesA] at memberA
    rw [held.edges_of_gives givesB] at memberB
    obtain ⟨n, ofA, rfl⟩ := List.mem_map.1 memberA
    obtain ⟨m, ofB, same⟩ := List.mem_map.1 memberB
    obtain rfl := EdgeRef.sealed.inj same
    exact owner_unique_numbersAll held.sealable ofA ofB
  refine ⟨?_, owner, ?_, ?_⟩
  · intro node inside
    have gives := held.gives_iff.2 ⟨inside, rfl⟩
    refine ⟨_, gives, ?_, ?_⟩
    · exact held.increasing_of_gives gives
    · intro pair member
      obtain ⟨place, edge, target⟩ := exists_of_mem_walkAll member
      rw [edge, Nat.zero_add, held.target?_sealed, target]
  · intro nodes distinct
    rw [held.totalDegree, held.edgeCount]
    exact length_flatMap_numbersAll_le held.sealable distinct
  · intro assembled number inside
    have gapless := fun data member => (assembled data member).gapless
    rw [held.edgeCount] at inside
    obtain ⟨node, member⟩ := exists_mem_numbersAll gapless (Nat.zero_le number)
      (by rw [Nat.zero_add]; exact inside)
    have gives := held.gives_of_mem_numbersAll member
    have listed : EdgeRef.sealed number ∈ (walkAll 0 node contents).map (·.1) := by
      rw [held.edges_of_gives gives]
      exact List.mem_map_of_mem member
    refine ⟨node, _, gives, ?_, ?_⟩
    · have distinct : ((walkAll 0 node contents).map (·.1)).Nodup :=
        (held.increasing_of_gives gives).imp fun less same =>
          Nat.ne_of_lt less (congrArg EdgeRef.raw same)
      rw [distinct.count, if_pos listed]
    · intro other given again shared
      exact owner other node given _ _ again gives shared listed

/-- A node with edges in two levels, with a level without nodes between them. -/
theorem edges_have_one_owner_across_levels :
    let contents : List LevelData := [⟨[⟨.sealed 0, 1⟩, .empty, ⟨.sealed 1, 2⟩], [⟨1⟩, ⟨0⟩, ⟨2⟩]⟩,
      .empty 0, ⟨[⟨.sealed 0, 1⟩, .empty, .empty], [⟨2⟩]⟩]
    let walk : List (EdgeRef × NodeId) := [(.sealed 0, ⟨1⟩), (.sealed 3, ⟨2⟩)]
    (∀ data ∈ contents, data.Assembled) ∧
    ∃ stack, ofContents contents = .ok stack ∧ stack.Gives ⟨0⟩ walk ∧
      (∃ edges, stack.Gives ⟨2⟩ edges ∧
        (edges.map (·.1)).Pairwise (fun earlier later => earlier.raw < later.raw)) ∧
      (∀ edges, stack.Gives ⟨2⟩ edges → .sealed 3 ∉ edges.map (·.1)) ∧
      stack.totalDegree [⟨0⟩, ⟨2⟩] ≤ stack.edgeCount ∧
      ∃ node edges, stack.Gives node edges ∧ (edges.map (·.1)).count (.sealed 2) = 1 := by
  intro contents walk
  have assembled : ∀ data ∈ contents, data.Assembled := by
    simp only [contents, List.forall_mem_cons]
    refine ⟨?_, ?_, ?_, nofun⟩
    · exact @Assembled.lists [[⟨1⟩], [], [⟨0⟩, ⟨2⟩]] _ (by decide) rfl
    · exact @Assembled.pairs 0 [] .out _ rfl
    · exact @Assembled.overlay 3 [.edge ⟨0⟩ ⟨2⟩] _ .out rfl
  have built : ofContents contents = .ok _ := rfl
  have gives : Stack.Gives _ ⟨0⟩ walk :=
    (holds_ofContents built).gives_iff.2 ⟨by decide, by decide⟩
  obtain ⟨ordered, owner, degrees, once⟩ := edges_have_one_owner built
  refine ⟨assembled, _, built, gives, ?_, ?_, degrees _ (by decide), ?_⟩
  · obtain ⟨edges, given, increasing, -⟩ := ordered ⟨2⟩ (by decide)
    exact ⟨edges, given, increasing⟩
  · intro edges given shared
    exact absurd (owner ⟨0⟩ ⟨2⟩ _ _ _ gives given (by decide) shared) (by decide)
  · obtain ⟨node, edges, given, count, -⟩ := once assembled 2 (by decide)
    exact ⟨node, edges, given, count⟩

end Stack

end LayeredGraph
