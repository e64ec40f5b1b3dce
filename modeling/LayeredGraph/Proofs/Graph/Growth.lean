import LayeredGraph.Proofs.Graph.Run
import LayeredGraph.Proofs.Stack.Ownership

/-! What a later snapshot keeps of an earlier one. A run only ever adds levels behind those there
are, so the contents of an earlier snapshot are the first ones of every later snapshot. Levels,
edge references, byte spans and the edges that a node gives all stay where they were; what comes
later stands behind them. -/
namespace LayeredGraph

open LevelData

theorem LevelData.walkAll_append (base : Nat) (node : NodeId) (xs ys : List LevelData) :
    walkAll base node (xs ++ ys) =
      walkAll base node xs ++ walkAll (base + totalEdges xs) node ys := by
  induction xs generalizing base with
  | nil => rfl
  | cons data xs ih =>
    rw [List.cons_append, walkAll, walkAll, totalEdges, ih, List.append_assoc, Nat.add_assoc]

namespace Stack

theorem byteRange_eq_ok {stack : Stack} {node : NodeId} {index : Nat} {level : Level}
    (known : node.toNat < stack.maxNodes) (here : stack.levels[index]? = some level) :
    stack.byteRange index node = .ok (level.byteRange node) := by
  rw [byteRange, checkNode_eq_ok.2 known, level_eq_ok here]
  rfl

theorem exists_sealed_of_target? {stack : Stack} {edge : EdgeRef} {target : NodeId}
    (h : stack.target? edge = some target) : ∃ number, edge = .sealed number := by
  cases edge with
  | nil => simp [target?, EdgeRef.isNil] at h
  | pending position => simp [target?, EdgeRef.isNil, EdgeRef.isPending] at h
  | sealed number => exact ⟨number, rfl⟩

/-- A stack that has all levels of another one, in their places, and maybe more behind them. -/
structure Extends (later earlier : Stack) : Prop where
  levels : earlier.levels.toList <+: later.levels.toList
  maxNodes : earlier.maxNodes ≤ later.maxNodes
  edgeCount : earlier.edgeCount ≤ later.edgeCount
  targets : ∀ edge target, earlier.target? edge = some target → later.target? edge = some target
  gives : ∀ node, node.toNat < earlier.maxNodes →
    ∃ edges more, earlier.Gives node edges ∧ later.Gives node (edges ++ more)
  degree : ∀ node, earlier.degree node ≤ later.degree node
  byteRange : ∀ index node, index < earlier.numLevels → node.toNat < earlier.maxNodes →
    ∃ span, earlier.byteRange index node = .ok span ∧ later.byteRange index node = .ok span

section Holds

variable {earlier later : Stack} {contents more : List LevelData}

theorem Holds.maxNodes_le (held : earlier.Holds contents) (grown : later.Holds (contents ++ more)) :
    earlier.maxNodes ≤ later.maxNodes := by
  rw [held.maxNodes, grown.maxNodes, coveredNodes_append]
  exact Nat.le_max_left _ _

theorem Holds.levels_isPrefix (held : earlier.Holds contents)
    (grown : later.Holds (contents ++ more)) :
    earlier.levels.toList <+: later.levels.toList := by
  rw [held.levels, grown.levels, Level.layers_append]
  exact List.prefix_append _ _

theorem Holds.target?_of_append (held : earlier.Holds contents)
    (grown : later.Holds (contents ++ more)) {edge : EdgeRef} {target : NodeId}
    (found : earlier.target? edge = some target) : later.target? edge = some target := by
  obtain ⟨number, rfl⟩ := exists_sealed_of_target? found
  rw [held.target?_sealed] at found
  have inside := (List.getElem?_eq_some_iff.1 found).1
  rw [grown.target?_sealed, List.flatMap_append, List.getElem?_append_left inside, found]

/-- A stack that holds more contents behind those of another one extends it. -/
theorem Holds.extends (held : earlier.Holds contents) (grown : later.Holds (contents ++ more)) :
    later.Extends earlier := by
  have nodes := held.maxNodes_le grown
  have walks := fun node => walkAll_append 0 node contents more
  refine ⟨held.levels_isPrefix grown, nodes, ?_, fun _ _ => held.target?_of_append grown, ?_, ?_,
    ?_⟩
  · rw [held.edgeCount, grown.edgeCount, totalEdges_append]
    exact Nat.le_add_right _ _
  · intro node known
    exact ⟨_, _, held.gives_iff.2 ⟨known, rfl⟩,
      grown.gives_iff.2 ⟨Nat.lt_of_lt_of_le known nodes, (walks node).symm⟩⟩
  · intro node
    rw [held.degree, grown.degree, walks, List.length_append]
    exact Nat.le_add_right _ _
  · intro index node inside known
    have here : earlier.levels[index]? = some earlier.levels[index] :=
      Array.getElem?_eq_getElem inside
    have there : later.levels[index]? = some earlier.levels[index] := by
      rw [← Array.getElem?_toList] at here ⊢
      obtain ⟨behind, split⟩ := held.levels_isPrefix grown
      have within := (List.getElem?_eq_some_iff.1 here).1
      rw [← split, List.getElem?_append_left within, here]
    exact ⟨_, byteRange_eq_ok known here,
      byteRange_eq_ok (Nat.lt_of_lt_of_le known nodes) there⟩

end Holds

end Stack

namespace GraphRun

theorem added_isPrefix_step (run : GraphRun) (call : GraphCall) :
    run.added <+: (run.step call).added := by
  rcases run.graph.call_cases call with ⟨data, next, offered, -, answer⟩ | ⟨e, answer⟩
  · rw [step_of_ok answer offered]
    exact List.prefix_append _ _
  · exact ⟨[], by rw [step_of_error answer, List.append_nil]⟩

/-- Calls add contents behind those that were there. -/
theorem added_isPrefix_foldl (run : GraphRun) (calls : List GraphCall) :
    run.added <+: (calls.foldl step run).added := by
  induction calls generalizing run with
  | nil => exact List.prefix_rfl
  | cons call calls ih => exact (run.added_isPrefix_step call).trans (ih (run.step call))

end GraphRun

namespace Graph

theorem Holds.snapshot_degree {graph : Graph} {contents : List (PerDirection LevelData)}
    (h : graph.Holds contents) (direction : Direction) {node : NodeId}
    (known : node.toNat < graph.snapshot.maxNodes) :
    graph.snapshot.degree direction node =
      .ok ((graph.snapshot.stack direction).degree node) := by
  have inside : node.toNat < (graph.snapshot.stack direction).maxNodes :=
    (h.stack_maxNodes_eq direction).symm ▸ known
  rw [Snapshot.degree, Stack.checkNode_eq_ok.2 inside]
  rfl

/-- Of any two snapshots of a run the later one has the levels of the earlier one as its first
levels, each unchanged, and as many nodes and edges or more. Every edge reference keeps its target;
every node of the earlier snapshot gives the same edges as before, in the same order, and perhaps
more behind them; its edges in every earlier level keep their place in the level's table. -/
theorem later_snapshot_extends (calls later : List GraphCall) (direction : Direction) :
    let earlier := (GraphRun.ofCalls calls).graph.snapshot
    let grown := (GraphRun.ofCalls (calls ++ later)).graph.snapshot
    let old := earlier.stack direction
    let new := grown.stack direction
    old.levels.toList <+: new.levels.toList ∧
    (earlier.maxNodes ≤ grown.maxNodes ∧ old.maxNodes ≤ new.maxNodes ∧
      old.edgeCount ≤ new.edgeCount) ∧
    (∀ edge target, earlier.target? direction edge = some target →
      grown.target? direction edge = some target) ∧
    ∀ node, node.toNat < earlier.maxNodes →
      (∃ edges more, old.Gives node edges ∧ new.Gives node (edges ++ more)) ∧
      (∃ few many, earlier.degree direction node = .ok few ∧
        grown.degree direction node = .ok many ∧ few ≤ many) ∧
      ∀ index, index < old.numLevels → ∃ span,
        earlier.byteRange direction index node = .ok span ∧
        grown.byteRange direction index node = .ok span := by
  intro earlier grown old new
  have held : (GraphRun.ofCalls calls).Holds := GraphRun.holds_ofCalls calls
  have heldLater : (GraphRun.ofCalls (calls ++ later)).Holds :=
    GraphRun.holds_ofCalls (calls ++ later)
  obtain ⟨more, added⟩ := (GraphRun.ofCalls calls).added_isPrefix_foldl later
  have continued : GraphRun.ofCalls (calls ++ later) =
      later.foldl GraphRun.step (GraphRun.ofCalls calls) := List.foldl_append
  have extension : new.Extends old := by
    have first := held.levels direction
    have last := heldLater.levels direction
    rw [continued, ← added, List.map_append, ← continued] at last
    exact first.extends last
  have oldNodes : old.maxNodes = earlier.maxNodes := held.stack_maxNodes_eq direction
  have newNodes : new.maxNodes = grown.maxNodes := heldLater.stack_maxNodes_eq direction
  have nodes := extension.maxNodes
  rw [oldNodes, newNodes] at nodes
  refine ⟨extension.levels, ⟨nodes, extension.maxNodes, extension.edgeCount⟩, extension.targets,
    ?_⟩
  intro node known
  refine ⟨extension.gives node (oldNodes ▸ known), ?_, ?_⟩
  · exact ⟨_, _, held.snapshot_degree direction known,
      heldLater.snapshot_degree direction (Nat.lt_of_lt_of_le known nodes),
      extension.degree node⟩
  · intro index inside
    exact extension.byteRange index node inside (oldNodes ▸ known)

/-- A level that is refused, one without edges, and one that brings new nodes. -/
theorem later_snapshot_extends_over_refusal :
    let calls : List GraphCall := [.sealLevel ⟨[⟨.sealed 0, 1⟩], [⟨1⟩]⟩ (.empty 2)]
    let later : List GraphCall := [.sealLevel ⟨[⟨.sealed 0, 4⟩], [⟨0⟩]⟩ (.empty 1),
      .sealLevel (.empty 1) (.empty 1), .sealLevel ⟨[⟨.sealed 0, 1⟩], [⟨2⟩]⟩ (.empty 3)]
    let earlier := (GraphRun.ofCalls calls).graph.snapshot
    let grown := (GraphRun.ofCalls (calls ++ later)).graph.snapshot
    earlier.target? .out (.sealed 0) = some ⟨1⟩ ∧ grown.target? .out (.sealed 0) = some ⟨1⟩ ∧
    (∃ edges more, (earlier.stack .out).Gives ⟨0⟩ edges ∧
      (grown.stack .out).Gives ⟨0⟩ (edges ++ more)) ∧
    ∃ span, earlier.byteRange .out 0 ⟨0⟩ = .ok span ∧ grown.byteRange .out 0 ⟨0⟩ = .ok span := by
  intro calls later earlier grown
  have held : (GraphRun.ofCalls calls).Holds := GraphRun.holds_ofCalls calls
  have found : earlier.target? .out (.sealed 0) = some ⟨1⟩ :=
    ((held.levels .out).target?_sealed 0).trans (by decide)
  obtain ⟨-, -, targets, nodes⟩ := later_snapshot_extends calls later .out
  obtain ⟨gives, -, spans⟩ := nodes ⟨0⟩ (by decide)
  exact ⟨found, targets _ _ found, gives, spans 0 (by decide)⟩

end Graph

end LayeredGraph
