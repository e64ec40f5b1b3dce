import LayeredGraph.Proofs.Graph.Traversal

/-! How the levels of a graph lie. In each direction edges are numbered through, level by level;
ranges lie in node order inside their level; and all targets are nodes of the graph. Both
directions and the graph itself agree on the number of nodes, so a walk never leaves it. -/
namespace LayeredGraph

open LevelData

namespace Level

/-- The number of edges of some levels together. -/
def totalEdges : List Level → Nat
  | [] => 0
  | level :: rest => level.edgeCount + totalEdges rest

/-- The number of entries in the largest of some vertex tables. -/
def largestTable : List Level → Nat
  | [] => 0
  | level :: rest => max level.nodeCount (largestTable rest)

/-- A level over some nodes: ranges that are not empty lie among its edges, in node order and
apart from each other, and every edge leads to one of the nodes. -/
structure Laid (level : Level) (nodes : Nat) : Prop where
  inside : ∀ entry ∈ level.entries.toList, entry.isEmpty = false →
    entry.start ≠ .nil ∧ level.edgeBase ≤ entry.start.raw ∧ entry.stop ≤ level.edgeEnd
  ordered : level.entries.toList.Pairwise VertexEntry.Before
  targets : ∀ slot, slot < level.edgeCount →
    ∃ target, level.table.target? slot = some target ∧ target.toNat < nodes

theorem rebase_of_not_isEmpty {base : Nat} {entry : VertexEntry} (h : entry.isEmpty = false) :
    rebase base entry = ⟨.sealed (base + entry.start.raw), entry.degree⟩ :=
  if_neg (by rw [Bool.not_eq_true]; exact h)

@[simp] theorem isEmpty_rebase (base : Nat) (entry : VertexEntry) :
    (rebase base entry).isEmpty = entry.isEmpty := by
  cases empty : entry.isEmpty with
  | true =>
    rw [rebase, if_pos empty]
    rfl
  | false =>
    rw [rebase_of_not_isEmpty empty]
    exact empty

theorem stop_rebase {base : Nat} {entry : VertexEntry} (h : entry.isEmpty = false) :
    (rebase base entry).stop = base + entry.stop := by
  rw [rebase_of_not_isEmpty h, VertexEntry.stop, VertexEntry.stop, ← Nat.add_assoc]
  rfl

/-- Sealing moves all ranges by the same distance, so they stay apart. -/
theorem before_rebase {base : Nat} {a b : VertexEntry} (h : a.Before b) :
    (rebase base a).Before (rebase base b) := by
  intro first second
  rw [isEmpty_rebase] at first second
  rw [stop_rebase first, rebase_of_not_isEmpty second]
  exact Nat.add_le_add_left (h first second) base

theorem laid_ofData {index base nodes : Nat} {data : LevelData} (h : data.Sealable nodes) :
    (ofData index base data).Laid nodes := by
  have entries : (ofData index base data).entries.toList = data.vertices.map (rebase base) :=
    rfl
  refine ⟨?_, ?_, ?_⟩
  · intro entry member nonempty
    rw [entries] at member
    obtain ⟨packed, held, rfl⟩ := List.mem_map.1 member
    rw [isEmpty_rebase] at nonempty
    have fits := (h.inside packed held).stop_le nonempty
    rw [stop_rebase nonempty, rebase_of_not_isEmpty nonempty]
    exact ⟨nofun, Nat.le_add_right _ _, Nat.add_le_add_left fits base⟩
  · rw [entries]
    exact List.Pairwise.map _ (fun _ _ => before_rebase) h.ordered
  · intro slot inside
    have inside : slot < data.targets.length := inside
    refine ⟨data.targets[slot], ?_, h.bounded _ (List.getElem_mem inside)⟩
    rw [← List.getElem?_eq_getElem inside]
    exact EdgeTable.target?_ofTargets data.targets slot

section Laid

variable {level : Level} {nodes : Nat}

theorem Laid.sound (h : level.Laid nodes) : level.Sound := by
  intro node
  cases empty : (level.entry node).isEmpty with
  | true =>
    rw [edgeRange_of_isEmpty empty]
    exact ⟨Nat.le_refl _, Nat.le_add_right _ _⟩
  | false =>
    have member : level.entry node ∈ level.entries.toList := by
      cases found : level.entries[node.toNat]? with
      | none =>
        rw [Level.entry, found] at empty
        simp at empty
      | some entry =>
        rw [Level.entry, found, Option.getD_some]
        rw [← Array.getElem?_toList] at found
        exact List.mem_of_getElem? found
    obtain ⟨-, low, high⟩ := h.inside _ member empty
    rw [edgeRange_of_not_isEmpty empty]
    exact ⟨low, high⟩

/-- A walk through a level leads to nodes only. -/
theorem Laid.lt_of_mem_walk (h : level.Laid nodes) {node : NodeId} {pair : EdgeRef × NodeId}
    (member : pair ∈ level.walk node) : pair.2.toNat < nodes := by
  obtain ⟨low, high⟩ := h.sound node
  obtain ⟨number, inside, rfl⟩ := List.mem_map.1 member
  rw [List.mem_range'_1] at inside
  have first : level.edgeBase ≤ number := Nat.le_trans low inside.1
  have last : number < level.edgeEnd := by omega
  have slot : number - level.edgeBase < level.edgeCount := by
    unfold edgeEnd at last
    omega
  obtain ⟨target, found, bound⟩ := h.targets _ slot
  have stored : number - level.edgeBase < level.table.slots := slot
  rw [EdgeTable.target?, if_pos stored] at found
  rw [level.target?_sealed first last, Option.getD_some, Option.some.inj found]
  exact bound

end Laid

theorem totalEdges_layers (index base : Nat) (contents : List LevelData) :
    totalEdges (layers index base contents) = LevelData.totalEdges contents := by
  induction contents generalizing index base with
  | nil => rfl
  | cons data rest ih =>
    rw [layers, totalEdges, ih, LevelData.totalEdges, edgeCount_ofData]

theorem largestTable_layers (index base : Nat) (contents : List LevelData) :
    largestTable (layers index base contents) = coveredNodes contents := by
  induction contents generalizing index base with
  | nil => rfl
  | cons data rest ih => rw [layers, largestTable, ih, coveredNodes, nodeCount_ofData]

theorem nodeCount_le_largestTable {levels : List Level} {level : Level} (h : level ∈ levels) :
    level.nodeCount ≤ largestTable levels := by
  induction levels with
  | nil => nomatch h
  | cons first rest ih =>
    rw [largestTable]
    rcases List.mem_cons.1 h with rfl | h
    · exact Nat.le_max_left _ _
    · exact Nat.le_trans (ih h) (Nat.le_max_right _ _)

theorem take_layers (index base : Nat) (contents : List LevelData) (count : Nat) :
    (layers index base contents).take count = layers index base (contents.take count) := by
  induction contents generalizing index base count with
  | nil => rw [List.take_nil, layers, List.take_nil]
  | cons data rest ih =>
    cases count with
    | zero => rfl
    | succ count => rw [layers, List.take_succ_cons, ih, List.take_succ_cons, layers]

end Level

namespace Stack

/-- A stack over some nodes: levels are numbered in order, the edges of each one behind those of
the levels before it, and the largest vertex table covers the nodes. -/
structure Laid (stack : Stack) (nodes : Nat) : Prop where
  index : ∀ (i : Nat) (level : Level), stack.levels[i]? = some level → level.index = i
  edgeBase : ∀ (i : Nat) (level : Level), stack.levels[i]? = some level →
    level.edgeBase = Level.totalEdges (stack.levels.toList.take i)
  edgeCount : stack.edgeCount = Level.totalEdges stack.levels.toList
  maxNodes : stack.maxNodes = nodes
  largest : Level.largestTable stack.levels.toList = nodes
  levels : ∀ level ∈ stack.levels.toList, level.Laid nodes

theorem Holds.laid {stack : Stack} {contents : List LevelData} (h : stack.Holds contents) :
    stack.Laid stack.maxNodes := by
  have place : ∀ (i : Nat) (level : Level), stack.levels[i]? = some level → level.index = i ∧
      level.edgeBase = Level.totalEdges (stack.levels.toList.take i) := by
    intro i level found
    rw [h.getElem?_levels, Option.map_eq_some_iff] at found
    obtain ⟨data, -, rfl⟩ := found
    rw [h.levels, Level.take_layers, Level.totalEdges_layers, Level.edgeBase_ofData]
    exact ⟨rfl, rfl⟩
  refine ⟨fun i level found => (place i level found).1,
    fun i level found => (place i level found).2, ?_, rfl, ?_, ?_⟩
  · rw [h.edgeCount, h.levels, Level.totalEdges_layers]
  · rw [h.levels, Level.largestTable_layers, h.maxNodes]
  · intro level member
    rw [h.levels] at member
    obtain ⟨i, b, data, held, rfl⟩ := Level.exists_of_mem_layers member
    exact Level.laid_ofData (h.sealable data held)

section Laid

variable {stack : Stack} {nodes : Nat}

theorem Laid.sound (h : stack.Laid nodes) : stack.Sound :=
  fun level member => (h.levels level member).sound

theorem Laid.lt_of_mem_walk (h : stack.Laid nodes) {node : NodeId} {pair : EdgeRef × NodeId}
    (member : pair ∈ stack.walk node) : pair.2.toNat < nodes := by
  obtain ⟨level, held, inside⟩ := List.mem_flatMap.1 member
  rw [List.drop_zero] at held
  exact (h.levels level held).lt_of_mem_walk inside

end Laid

end Stack

/-- A cursor that was opened on a snapshot, over all levels or within one. -/
def Snapshot.Opens (snapshot : Snapshot) (direction : Direction) (node : NodeId)
    (cursor : Cursor) : Prop :=
  snapshot.begin direction node = .ok cursor ∨
    ∃ index, snapshot.beginWithinLevel direction node index = .ok cursor

/-- A graph over some nodes: both directions have as many levels, and everything that counts
nodes agrees. -/
structure Graph.Laid (graph : Graph) (nodes : Nat) : Prop where
  levels : ∀ direction, (graph.snapshot.stack direction).Laid nodes
  numLevels : graph.snapshot.out.numLevels = graph.snapshot.inc.numLevels
  snapshot : graph.snapshot.maxNodes = nodes
  maxNodes : graph.maxNodes = nodes

namespace Graph

theorem Holds.laid {graph : Graph} {contents : List (PerDirection LevelData)}
    (h : graph.Holds contents) : graph.Laid (largestTable contents) := by
  refine ⟨?_, ?_, h.current_maxNodes, h.maxNodes.trans h.current_maxNodes⟩
  · intro direction
    rw [← h.stack_maxNodes direction]
    exact (h.levels direction).laid
  · exact (h.stack_numLevels .out).trans (h.stack_numLevels .inc).symm

section Laid

variable {graph : Graph} {nodes : Nat}

theorem Laid.begin_eq_ok (h : graph.Laid nodes) (direction : Direction) {node : NodeId}
    (inside : node.toNat < nodes) :
    ∃ cursor, graph.snapshot.begin direction node = .ok cursor := by
  have stack := h.levels direction
  rw [← stack.maxNodes] at inside
  obtain ⟨cursor, opened, -⟩ := Cursor.begin_eq_ok stack.sound inside
  exact ⟨cursor, opened⟩

/-- An opened cursor stands before edges that lead to nodes of the graph. -/
theorem Laid.stands (h : graph.Laid nodes) {direction : Direction} {node : NodeId}
    {cursor : Cursor} (opened : graph.snapshot.Opens direction node cursor) :
    ∃ walk, cursor.Stands walk 0 ∧ ∀ pair ∈ walk, pair.2.toNat < nodes := by
  have stack := h.levels direction
  rcases opened with opened | ⟨index, opened⟩
  · have inside : node.toNat < (graph.snapshot.stack direction).maxNodes := by
      refine Nat.lt_of_not_le fun outside => ?_
      have refused : graph.snapshot.begin direction node = _ := Cursor.begin_eq_error outside
      rw [refused] at opened
      simp at opened
    obtain ⟨other, same, stands⟩ := Cursor.begin_eq_ok stack.sound inside
    obtain rfl := Except.ok.inj (same.symm.trans opened)
    exact ⟨_, stands, fun pair member => stack.lt_of_mem_walk member⟩
  · obtain ⟨level, here, stands⟩ := Cursor.stands_of_beginWithinLevel stack.sound opened
    rw [← Array.getElem?_toList] at here
    have laid := stack.levels level (List.mem_of_getElem? here)
    exact ⟨_, stands, fun pair member => laid.lt_of_mem_walk member⟩

end Laid

theorem exists_of_mem_showAll {walk : List (EdgeRef × NodeId)} {calls : List CursorCall}
    {node : NodeId} (h : .target (some node) ∈ CursorCall.showAll walk calls) :
    ∃ pair ∈ walk, pair.2 = node := by
  induction calls generalizing walk with
  | nil => simp [CursorCall.showAll] at h
  | cons call calls ih =>
    rcases List.mem_cons.1 h with first | later
    · cases call with
      | nextEdge => simp [CursorCall.show] at first
      | next =>
        have found := CursorAnswer.target.inj first
        obtain ⟨pair, head, same⟩ := Option.map_eq_some_iff.1 found.symm
        exact ⟨pair, List.mem_of_mem_head? head, same⟩
    · obtain ⟨pair, member, same⟩ := ih later
      exact ⟨pair, List.mem_of_mem_tail member, same⟩

/-- After any calls the levels of both directions lie as described, over as many nodes as the
largest table has that any of them was sealed with. Every node that a cursor gives can be opened in
both directions, and a call that succeeds answers with the newest level. -/
theorem layout_of_calls (calls : List GraphCall) :
    let run := GraphRun.ofCalls calls
    let snapshot := run.graph.snapshot
    run.graph.Laid (largestTable run.added) ∧
    (∀ direction node cursor, snapshot.Opens direction node cursor →
      ∀ graph overlay events target,
        .target (some target) ∈ (Scene.run ⟨graph, overlay, cursor⟩ events).1 →
        ∀ other, ∃ opened, snapshot.begin other target = .ok opened) ∧
    (∀ call handle, (run.graph.call call).1 = .ok handle →
      handle = ⟨(run.graph.call call).2.numLevels - 1, (run.graph.call call).2.maxNodes⟩) := by
  intro run snapshot
  have held : run.graph.Holds run.added := GraphRun.holds_ofCalls calls
  refine ⟨held.laid, ?_, ?_⟩
  · intro direction node cursor opened graph overlay events target given other
    obtain ⟨walk, stands, bounded⟩ := held.laid.stands opened
    rw [(stands.run graph overlay events).1] at given
    obtain ⟨pair, member, rfl⟩ := exists_of_mem_showAll given
    exact held.laid.begin_eq_ok other (bounded pair member)
  · intro call handle answer
    rcases run.graph.call_cases call with ⟨data, next, -, -, same⟩ | ⟨e, same⟩
    · rw [same] at answer ⊢
      exact (Except.ok.inj answer).symm
    · rw [same] at answer
      simp at answer

theorem layout_of_one_level :
    let calls : List GraphCall := [
      .sealLevel ⟨[⟨.sealed 0, 1⟩], [⟨1⟩]⟩ ⟨[.empty, ⟨.sealed 0, 1⟩], [⟨0⟩]⟩]
    let run := GraphRun.ofCalls calls
    (∀ other, ∃ opened, run.graph.snapshot.begin other ⟨1⟩ = .ok opened) ∧
    ∃ handle, (run.graph.call (.checkpoint (.ofBase 2))).1 = .ok handle ∧ handle = ⟨1, 2⟩ := by
  intro calls run
  obtain ⟨-, closed, handles⟩ := layout_of_calls calls
  refine ⟨closed .out ⟨0⟩ _ (.inl rfl) .empty (.ofBase 0) [.cursor .next] ⟨1⟩ (by decide), ?_⟩
  exact ⟨_, rfl, handles (.checkpoint (.ofBase 2)) _ rfl⟩

end Graph

end LayeredGraph
