import LayeredGraph.Proofs.Graph.Checkpoint

/-! References of pending edges. The edges that an overlay accepts are numbered in the order in
which they come; each stands under its reference in the list of its source and in the list of its
target and nowhere else. A cursor keeps the list that its node had when the cursor was opened. -/
namespace LayeredGraph

open LevelData

/-- Where keys are distinct, a key singles out the element that has it. -/
theorem filter_key_eq {α β : Type} [DecidableEq β] {key : α → β} {list : List α} {a : α}
    (distinct : (list.map key).Nodup) (member : a ∈ list) :
    (list.filter fun b => key b = key a) = [a] := by
  induction list with
  | nil => exact absurd member List.not_mem_nil
  | cons b rest ih =>
    obtain ⟨fresh, distinct⟩ := List.nodup_cons.1 distinct
    rcases List.mem_cons.1 member with rfl | member
    · have none : (rest.filter fun b => key b = key a) = [] := by
        rw [List.filter_eq_nil_iff]
        intro b later same
        exact fresh (of_decide_eq_true same ▸ List.mem_map_of_mem later)
      rw [List.filter_cons_of_pos (by simp), none]
    · have other : key b ≠ key a := fun same => fresh (same ▸ List.mem_map_of_mem member)
      rw [List.filter_cons_of_neg (by simpa using other), ih distinct member]

/-- A pushed edge goes to the end of its owner's list and to no other. -/
theorem PendingLists.edges_push {lists : PendingLists} (h : lists.Ordered) (owner node : NodeId)
    (edge : PendingEdge) :
    (lists.push owner edge).edges node =
      lists.edges node ++ if owner = node then [edge] else [] := by
  rw [edges_eq_edgesAt, edgesAt_push h, ← edges_eq_edgesAt]
  simp only [NodeId.toNat_inj]

namespace Overlay

/-- An edge that was added, with the reference that was answered for it. -/
structure Added where
  edge : EdgeRef
  ends : NodeId × NodeId
  deriving DecidableEq, Repr

/-- The edge that an append adds, none if it is refused. -/
def added (overlay : Overlay) : Append → List Added
  | .node => []
  | .edge source target =>
      match (overlay.addEdge source target).1 with
      | .ok edge => [⟨edge, source, target⟩]
      | .error _ => []

/-- The edges that appends add, in order. -/
def addedAll (overlay : Overlay) : List Append → List Added
  | [] => []
  | first :: rest => overlay.added first ++ (overlay.append first).addedAll rest

/-- What some added edges put into the list of a node. -/
def listed (direction : Direction) (edges : List Added) (node : NodeId) : List PendingEdge :=
  (edges.filter fun e => owner direction e.ends = node).map fun e =>
    ⟨target direction e.ends, e.edge⟩

theorem listed_append (direction : Direction) (xs ys : List Added) (node : NodeId) :
    listed direction (xs ++ ys) node = listed direction xs node ++ listed direction ys node := by
  rw [listed, List.filter_append, List.map_append]
  rfl

theorem listed_singleton (direction : Direction) (e : Added) (node : NodeId) :
    listed direction [e] node =
      if owner direction e.ends = node then [⟨target direction e.ends, e.edge⟩] else [] := by
  by_cases here : owner direction e.ends = node
  · simp [listed, here]
  · simp [listed, here]

/-- An overlay that holds some edges, numbered in the order in which they were added, each in the
list of its owner in either direction. -/
structure Lists (overlay : Overlay) (edges : List Added) : Prop where
  gathers : overlay.Gathers (edges.map (·.ends))
  numbered : edges.map (·.edge) = (List.range edges.length).map .pending
  edges_eq : ∀ direction node, overlay.edges direction node = listed direction edges node

theorem lists_ofBase (base : Nat) : (ofBase base).Lists [] := by
  refine ⟨gathers_ofBase base, rfl, ?_⟩
  rintro (_ | _) node
  · rfl
  · rfl

section Append

variable {overlay : Overlay} {edges : List Added}

theorem added_edge_of_ok {source target : NodeId} {edge : EdgeRef}
    (h : (overlay.addEdge source target).1 = .ok edge) :
    overlay.added (.edge source target) = [⟨edge, source, target⟩] := by
  simp only [added, h]

theorem added_edge_of_error {source target : NodeId} {e : Error}
    (h : (overlay.addEdge source target).1 = .error e) :
    overlay.added (.edge source target) = [] := by
  simp only [added, h]

theorem ends_added (overlay : Overlay) (append : Append) :
    (overlay.added append).map (·.ends) = overlay.accepted append := by
  cases append with
  | node => rfl
  | edge source target =>
    cases answer : (overlay.addEdge source target).1 with
    | ok edge =>
      rw [added_edge_of_ok answer, accepted_edge_of_ok answer]
      rfl
    | error e =>
      rw [added_edge_of_error answer, accepted_edge_of_error answer]
      rfl

theorem Lists.length (h : overlay.Lists edges) : edges.length = overlay.edgeCount := by
  rw [h.gathers.edgeCount, List.length_map]

theorem Lists.append (h : overlay.Lists edges) (append : Append) :
    (overlay.append append).Lists (edges ++ overlay.added append) := by
  have gathers : (overlay.append append).Gathers
      ((edges ++ overlay.added append).map (·.ends)) := by
    rw [List.map_append, ends_added]
    exact h.gathers.append append
  cases append with
  | node =>
    rw [added, List.append_nil] at gathers ⊢
    exact ⟨gathers, h.numbered, h.edges_eq⟩
  | edge source target =>
    obtain ⟨-, -, accepted⟩ | ⟨e, refused⟩ := overlay.addEdge_cases source target
    · rw [added_edge_of_ok (congrArg Prod.fst accepted)] at gathers ⊢
      refine ⟨gathers, ?_, ?_⟩
      · rw [List.map_append, h.numbered, List.length_append, List.length_singleton,
          List.range_succ, List.map_append, ← h.length]
        rfl
      · intro direction node
        have pushed : ((overlay.append (.edge source target)).lists.get direction) =
            (overlay.lists.get direction).push (owner direction (source, target))
              ⟨LevelData.target direction (source, target), .pending overlay.edgeCount⟩ := by
          rw [Overlay.append, accepted]
          cases direction <;> rfl
        rw [Overlay.edges, pushed, PendingLists.edges_push (h.gathers.ordered direction),
          ← Overlay.edges, h.edges_eq, listed_append, listed_singleton]
    · rw [added_edge_of_error (congrArg Prod.fst refused), List.append_nil] at gathers ⊢
      rw [Overlay.append, refused]
      exact h

theorem Lists.appendAll (h : overlay.Lists edges) (appends : List Append) :
    (overlay.appendAll appends).Lists (edges ++ overlay.addedAll appends) := by
  induction appends generalizing overlay edges with
  | nil =>
    rw [addedAll, List.append_nil]
    exact h
  | cons first rest ih =>
    rw [addedAll, ← List.append_assoc]
    exact ih (h.append first)

/-- After any appends an overlay holds the edges that they added. -/
theorem lists_appendAll (base : Nat) (appends : List Append) :
    ((ofBase base).appendAll appends).Lists ((ofBase base).addedAll appends) :=
  (lists_ofBase base).appendAll appends

end Append

section Lists

variable {overlay : Overlay} {edges : List Added}

theorem Lists.edge_eq (h : overlay.Lists edges) {k : Nat} {e : Added} (here : edges[k]? = some e) :
    e.edge = .pending k := by
  obtain ⟨inside, rfl⟩ := List.getElem?_eq_some_iff.1 here
  have number := congrArg (·[k]?) h.numbered
  simpa [inside] using number

theorem Lists.increasing (h : overlay.Lists edges) :
    edges.Pairwise fun a b => a.edge.raw < b.edge.raw := by
  rw [← List.pairwise_map (f := Added.edge) (R := fun a b => a.raw < b.raw), h.numbered,
    List.pairwise_map]
  exact List.pairwise_lt_range.imp fun less => Nat.add_lt_add_left less _

theorem Lists.distinct (h : overlay.Lists edges) : (edges.map (·.edge)).Nodup := by
  rw [List.nodup_iff_pairwise_ne, List.pairwise_map]
  exact h.increasing.imp fun less same => Nat.ne_of_lt less (congrArg EdgeRef.raw same)

/-- An added edge stands once in the list of its owner, and in no other list of the direction. -/
theorem Lists.filter_edges (h : overlay.Lists edges) (direction : Direction) (node : NodeId)
    {e : Added} (member : e ∈ edges) :
    (overlay.edges direction node).filter (fun p => p.edge = e.edge) =
      if owner direction e.ends = node then [⟨target direction e.ends, e.edge⟩] else [] := by
  have alone := filter_key_eq h.distinct member
  -- The filters by owner and by reference may change places, and one edge has this reference.
  rw [h.edges_eq, ← listed_singleton, ← alone, listed, listed, List.filter_map, List.filter_filter,
    List.filter_filter]
  simp only [Function.comp_def, Bool.and_comm]

theorem Lists.inside (h : overlay.Lists edges) (direction : Direction) {e : Added}
    (member : e ∈ edges) : (owner direction e.ends).toNat < overlay.maxNodes :=
  h.gathers.inside direction _ (List.mem_map_of_mem member)

/-- In the list of a node references increase. -/
theorem Lists.increasing_edges (h : overlay.Lists edges) (direction : Direction) (node : NodeId) :
    ((overlay.edges direction node).map (·.edge.raw)).Pairwise (· < ·) := by
  rw [h.edges_eq, listed, List.map_map, List.pairwise_map]
  exact h.increasing.filter _

/-- A cursor stands before the edges that its node has when it is opened. -/
theorem begin_eq_ok (overlay : Overlay) (direction : Direction) {node : NodeId}
    (inside : node.toNat < overlay.maxNodes) :
    ∃ cursor, overlay.begin direction node = .ok cursor ∧
      cursor.Stands ((overlay.edges direction node).map fun p => (p.edge, p.target)) 0 := by
  refine ⟨.beginPending node (overlay.edges direction node), ?_, trivial, rfl, rfl, rfl⟩
  rw [begin, checkNode_eq_ok inside]
  rfl

/-- All nodes of an overlay in order. -/
def nodes (overlay : Overlay) : List NodeId := (List.range overlay.maxNodes).map .ofNat

/-- The number of pending edges of some nodes together. -/
def totalPending (overlay : Overlay) (direction : Direction) : List NodeId → Nat
  | [] => 0
  | node :: rest => overlay.pendingDegree direction node + overlay.totalPending direction rest

theorem totalPending_eq_length {pairs : List (NodeId × NodeId)} (h : overlay.Gathers pairs)
    (direction : Direction) {numbers : List Nat} (fits : ∀ n ∈ numbers, n < UInt64.size) :
    overlay.totalPending direction (numbers.map .ofNat) =
      (numbers.map (row direction pairs)).flatten.length := by
  induction numbers with
  | nil => rfl
  | cons n rest ih =>
    obtain ⟨first, others⟩ := List.forall_mem_cons.1 fits
    rw [List.map_cons, totalPending, ih others, h.pendingDegree, NodeId.toNat_ofNat first,
      List.map_cons, List.flatten_cons, List.length_append]

/-- The pending edges of all nodes are the edges of the overlay. -/
theorem Gathers.totalPending {pairs : List (NodeId × NodeId)} (h : overlay.Gathers pairs)
    (direction : Direction) (fits : overlay.maxNodes < UInt64.size) :
    overlay.totalPending direction overlay.nodes = overlay.edgeCount := by
  have small : ∀ n ∈ List.range overlay.maxNodes, n < UInt64.size := fun n member =>
    Nat.lt_trans (List.mem_range.1 member) fits
  have owned : ∀ pair ∈ pairs, decide ((owner direction pair).toNat < overlay.maxNodes) = true :=
    fun pair member => decide_eq_true (h.inside direction pair member)
  rw [nodes, totalPending_eq_length h direction small, ← rows, length_flatten_rows, h.edgeCount,
    List.countP_eq_length.2 owned]

end Lists

/-- Over whatever base and after any appends, accepted or refused, the accepted edges have the
references from the first pending one on, in the order in which they came, and each stands under
its reference once in the list of its source and once in the list of its target, and nowhere else.
None of these references is that of no edge, and none leads anywhere in a stack. The pending edges
of all nodes are in either direction as many as were added. A cursor gives what its node had when
the cursor was opened, in the order in which it was added, whatever becomes of the overlay. -/
theorem pending_edges_keep_references (base : Nat) (appends : List Append)
    (few : ((ofBase base).appendAll appends).edgeCount < 0x7fffffffffffffff)
    (fits : ((ofBase base).appendAll appends).maxNodes < UInt64.size) :
    let overlay := (ofBase base).appendAll appends
    let edges := (ofBase base).addedAll appends
    edges.length = overlay.edgeCount ∧
    (∀ k edge source target, edges[k]? = some ⟨edge, source, target⟩ →
      edge.raw = 0x8000000000000000 + k ∧ EdgeRef.ofRaw (0x8000000000000000 + k) = edge ∧
      edge.isNil = false ∧ (∀ stack : Stack, stack.target? edge = none) ∧
      source.toNat < overlay.maxNodes ∧ target.toNat < overlay.maxNodes ∧
      ∀ node,
        (overlay.edges .out node).filter (fun p => p.edge = edge) =
          (if source = node then [⟨target, edge⟩] else []) ∧
        (overlay.edges .inc node).filter (fun p => p.edge = edge) =
          (if target = node then [⟨source, edge⟩] else [])) ∧
    ∀ direction,
      overlay.totalPending direction overlay.nodes = overlay.edgeCount ∧
      ∀ node,
        overlay.edges direction node = listed direction edges node ∧
        ((overlay.edges direction node).map (·.edge.raw)).Pairwise (· < ·) ∧
        (node.toNat < overlay.maxNodes → ∃ cursor, overlay.begin direction node = .ok cursor ∧
          ∀ graph events, (Scene.run ⟨graph, overlay, cursor⟩ events).1 =
            CursorCall.showAll ((overlay.edges direction node).map fun p => (p.edge, p.target))
              (SceneEvent.cursorCalls events)) := by
  intro overlay edges
  have held : overlay.Lists edges := lists_appendAll base appends
  refine ⟨held.length, ?_, fun direction => ⟨held.gathers.totalPending direction fits, ?_⟩⟩
  · intro k edge source target here
    have member := List.mem_of_getElem? here
    obtain rfl : edge = .pending k := held.edge_eq here
    have small : EdgeRef.pendingBase + k < EdgeRef.nilNumber := by
      have inside := (List.getElem?_eq_some_iff.1 here).1
      rw [held.length] at inside
      have few : overlay.edgeCount < 0x7fffffffffffffff := few
      simp only [EdgeRef.pendingBase, EdgeRef.nilNumber]
      omega
    exact ⟨rfl, EdgeRef.ofRaw_raw_pending small, rfl, fun _ => rfl, held.inside .out member,
      held.inside .inc member, fun node => ⟨held.filter_edges .out node member,
        held.filter_edges .inc node member⟩⟩
  · intro node
    refine ⟨held.edges_eq direction node, held.increasing_edges direction node, ?_⟩
    intro inside
    obtain ⟨cursor, opened, stands⟩ := overlay.begin_eq_ok direction inside
    exact ⟨cursor, opened, fun graph events => (stands.run graph overlay events).1⟩

/-- A refused edge, a new node, a loop and a repeated pair, and a cursor that is open while its
node gets another edge and the overlay is sealed. -/
theorem pending_edges_keep_references_of_loop :
    let appends : List Append := [.edge ⟨1⟩ ⟨0⟩, .edge ⟨2⟩ ⟨0⟩, .node, .edge ⟨1⟩ ⟨1⟩, .edge ⟨1⟩ ⟨0⟩,
      .edge ⟨0⟩ ⟨2⟩]
    let overlay := (ofBase 2).appendAll appends
    overlay.edgeCount < 0x7fffffffffffffff ∧ overlay.maxNodes < UInt64.size ∧
    (overlay.edges .out ⟨1⟩).filter (fun p => p.edge = .pending 1) = [⟨⟨1⟩, .pending 1⟩] ∧
    (overlay.edges .inc ⟨0⟩).filter (fun p => p.edge = .pending 1) = [] ∧
    overlay.totalPending .inc overlay.nodes = 4 ∧
    ∃ cursor, overlay.begin .out ⟨1⟩ = .ok cursor ∧
      (Scene.run ⟨.empty, overlay, cursor⟩ [.cursor .next, .append (.edge ⟨1⟩ ⟨2⟩),
        .cursor .nextEdge, .checkpoint, .cursor .next, .cursor .next]).1 =
          [.target (some ⟨0⟩), .edge (some (.pending 1)), .target (some ⟨0⟩), .target none] := by
  intro appends overlay
  have few : overlay.edgeCount < 0x7fffffffffffffff := by decide
  have fits : overlay.maxNodes < UInt64.size := by decide
  obtain ⟨-, references, lists⟩ := pending_edges_keep_references 2 appends few fits
  obtain ⟨-, -, -, -, -, -, places⟩ := references 1 (.pending 1) ⟨1⟩ ⟨1⟩ rfl
  obtain ⟨-, -, cursors⟩ := (lists .out).2 ⟨1⟩
  obtain ⟨cursor, opened, answers⟩ := cursors (by decide)
  refine ⟨few, fits, (places ⟨1⟩).1, (places ⟨0⟩).2, (lists .inc).1, cursor, opened, ?_⟩
  rw [answers]
  decide

end Overlay

end LayeredGraph
