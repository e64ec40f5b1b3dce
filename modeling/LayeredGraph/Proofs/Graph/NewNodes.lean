import LayeredGraph.Proofs.Graph.Layout
import LayeredGraph.Proofs.Graph.Refusal

/-! New nodes. An overlay numbers its new nodes from its base on, and the graph takes them only
while the base is still its number of nodes. However many overlays there are, and whatever is sealed
in between, the nodes that a checkpoint publishes are therefore unknown to the graph until then, and
no node is published twice. -/
namespace LayeredGraph

open LevelData

namespace Overlay

/-- An overlay gave out some new nodes: those from its base on, in order. -/
structure Gave (overlay : Overlay) (nodes : List NodeId) : Prop where
  nodeCount : overlay.nodeCount = overlay.baseNodes + nodes.length
  numbers : nodes.map NodeId.toNat = List.range' overlay.baseNodes nodes.length

theorem gave_ofBase (base : Nat) : (ofBase base).Gave [] := ⟨rfl, rfl⟩

section Gave

variable {overlay : Overlay} {nodes : List NodeId}

theorem Gave.addsNodes_iff (h : overlay.Gave nodes) : overlay.addsNodes = true ↔ nodes ≠ [] := by
  rw [addsNodes, decide_eq_true_iff, h.nodeCount, ← List.length_pos_iff]
  omega

/-- A new node is numbered behind those that were given out before. -/
theorem Gave.addNode (h : overlay.Gave nodes) (small : overlay.nodeCount < UInt64.size) :
    overlay.addNode.2.Gave (nodes ++ [overlay.addNode.1]) := by
  have number : overlay.addNode.1.toNat = overlay.baseNodes + nodes.length :=
    (NodeId.toNat_ofNat small).trans h.nodeCount
  have base : overlay.addNode.2.baseNodes = overlay.baseNodes := rfl
  have count : overlay.addNode.2.nodeCount = overlay.nodeCount + 1 := rfl
  constructor
  · rw [count, base, h.nodeCount, List.length_append, List.length_singleton, Nat.add_assoc]
  · rw [base, List.map_append, List.map_singleton, h.numbers, number, List.length_append,
      List.length_singleton, List.range'_1_concat]

theorem Gave.addEdge (h : overlay.Gave nodes) (source target : NodeId) :
    (overlay.addEdge source target).2.Gave nodes := by
  rcases overlay.addEdge_cases source target with ⟨-, -, added⟩ | ⟨e, refused⟩
  · rw [added]
    exact ⟨h.nodeCount, h.numbers⟩
  · rw [refused]
    exact h

theorem Gave.nodup (h : overlay.Gave nodes) : nodes.Nodup := by
  have numbers : (nodes.map NodeId.toNat).Nodup := by
    rw [h.numbers]
    exact List.nodup_range'
  exact (List.pairwise_map.1 numbers).imp fun differ same => differ (congrArg NodeId.toNat same)

/-- What was given out lies between the base and the number of nodes. -/
theorem Gave.bounds (h : overlay.Gave nodes) {node : NodeId} (member : node ∈ nodes) :
    overlay.baseNodes ≤ node.toNat ∧ node.toNat < overlay.nodeCount := by
  have number : node.toNat ∈ nodes.map NodeId.toNat := List.mem_map_of_mem member
  rw [h.numbers, List.mem_range'_1] at number
  rw [h.nodeCount]
  exact number

end Gave

end Overlay

namespace Graph

section Publishing

variable {graph : Graph} {contents : List (PerDirection LevelData)}

/-- One more level covers the nodes that were covered before, and its own. -/
theorem Holds.maxNodes_publishing (held : graph.Holds contents) {data : PerDirection LevelData}
    {next : Snapshot} (built : nextSnapshot graph.current data.out data.inc = .ok next) :
    (Graph.publishing next).maxNodes = max graph.maxNodes (coverage data) := by
  have later := held.publishing built
  rw [later.maxNodes, later.current_maxNodes, held.maxNodes, held.current_maxNodes,
    largestTable_append, largestTable, largestTable, Nat.max_zero]

/-- A node past the last one has no entry in any level and is no target there. -/
theorem Laid.unused {nodes : Nat} (laid : graph.Laid nodes) {node : NodeId}
    (past : nodes ≤ node.toNat) (direction : Direction) {level : Level}
    (member : level ∈ (graph.snapshot.stack direction).levels.toList) :
    level.nodeCount ≤ node.toNat ∧ ∀ slot, level.table.target? slot ≠ some node := by
  have stack := laid.levels direction
  constructor
  · refine Nat.le_trans ?_ past
    rw [← stack.largest]
    exact Level.nodeCount_le_largestTable member
  · intro slot found
    by_cases inside : slot < level.edgeCount
    · obtain ⟨target, here, bound⟩ := (stack.levels level member).targets slot inside
      rw [here] at found
      obtain rfl := Option.some.inj found
      exact Nat.not_lt.2 past bound
    · have none : level.table.target? slot = none := if_neg inside
      rw [none] at found
      nomatch found

end Publishing

end Graph

/-- New nodes that became nodes of a graph by a checkpoint, with the graph before and after it. -/
structure Publication where
  nodes : List NodeId
  before : Graph
  after : Graph

/-- What is published is new: the graph had no such nodes, so no level has an entry for one or an
edge to one, and afterwards it has them. -/
structure Publication.Fresh (publication : Publication) : Prop where
  new : ∀ node ∈ publication.nodes, publication.before.maxNodes ≤ node.toNat
  known : ∀ node ∈ publication.nodes, node.toNat < publication.after.maxNodes
  unused : ∀ node ∈ publication.nodes, ∀ direction,
    ∀ level ∈ (publication.before.snapshot.stack direction).levels.toList,
      level.nodeCount ≤ node.toNat ∧ ∀ slot, level.table.target? slot ≠ some node

namespace Graph

/-- A checkpoint is refused for a collision exactly if there is one. Lists that are too long and
faulty levels get other answers. -/
theorem Holds.checkpoint_eq_collision_iff {graph : Graph}
    {contents : List (PerDirection LevelData)} {overlay : Overlay}
    {pairs : List (NodeId × NodeId)} (held : graph.Holds contents)
    (gathers : overlay.Gathers pairs) :
    (graph.checkpoint overlay).1 = .error collision ↔ graph.Collides overlay := by
  have outcome := graph.checkpoint_outcome overlay
  generalize graph.checkpoint overlay = answer at outcome ⊢
  cases outcome with
  | collides collides => simp [collides]
  | unpacked apart refused =>
    obtain ⟨-, rfl⟩ := gathers.levelData_eq_error_iff.1 refused
    simp [apart, collision, tooLong]
  | @unsealed data e apart packed refused =>
    have sealed := sealLevel_of_error refused
    obtain ⟨fault, -, rfl⟩ := held.sealLevel_eq_error_iff.1 (congrArg Prod.fst sealed)
    simp [apart, collision]
  | added apart => simp [apart]

/-- A checkpoint that is accepted publishes the new nodes of the overlay. -/
theorem Holds.fresh_of_checkpoint {graph after : Graph} {contents : List (PerDirection LevelData)}
    {overlay left : Overlay} {nodes : List NodeId} {pairs : List (NodeId × NodeId)}
    {handle : LevelHandle} (held : graph.Holds contents) (gathers : overlay.Gathers pairs)
    (gave : overlay.Gave nodes)
    (accepted : graph.checkpoint overlay = (.ok handle, after, left)) :
    Publication.Fresh ⟨nodes, graph, after⟩ ∧ graph.maxNodes ≤ after.maxNodes ∧
      left = .ofBase after.maxNodes := by
  have outcome := graph.checkpoint_outcome overlay
  rw [accepted] at outcome
  cases outcome with
  | @added data next apart packed built =>
    obtain ⟨-, rfl⟩ := groupBoth_eq_ok_iff.1 (gathers.levelData.symm.trans packed)
    -- The level has an entry for every node of the overlay, also for those without edges.
    have covered : overlay.nodeCount ≤ coverage (groupedBoth overlay.nodeCount pairs) := by
      refine Nat.le_trans (Nat.le_of_eq ?_) (nodeCount_get_le_coverage _ .out)
      rw [get_groupedBoth, nodeCount_grouped, span_eq (gathers.inside .out)]
    have grown := held.maxNodes_publishing built
    have new : ∀ node ∈ nodes, graph.maxNodes ≤ node.toNat := by
      intro node member
      have current : overlay.baseNodes = graph.maxNodes := by
        refine Decidable.not_not.1 fun other => apart ⟨gave.addsNodes_iff.2 ?_, other⟩
        exact List.ne_nil_of_mem member
      rw [← current]
      exact (gave.bounds member).1
    refine ⟨⟨new, ?_, ?_⟩, ?_, rfl⟩
    · intro node member
      have high := (gave.bounds member).2
      simp only
      omega
    · intro node member direction level inside
      have laid := held.laid
      rw [← laid.maxNodes] at laid
      exact laid.unused (new node member) direction inside
    · omega

end Graph

/-- A store with the new nodes that each overlay gave out and still keeps back, and with all that
were published. -/
structure StoreRun where
  store : Store
  given : Nat → List NodeId
  published : List Publication

namespace StoreRun

/-- A node that an overlay gives out is kept back until a checkpoint of the overlay is accepted. If
the overlay is opened anew, what it kept back is gone. -/
def step (run : StoreRun) (call : StoreCall) : StoreRun :=
  match call, run.store.step call with
  | .addNode name, (.ok (.node node), store) =>
      { run with store, given := Function.update run.given name (run.given name ++ [node]) }
  | .openOverlay name _, (.ok _, store) =>
      { run with store, given := Function.update run.given name [] }
  | .checkpoint name, (.ok _, store) =>
      { store
        given := Function.update run.given name []
        published := run.published ++ [⟨run.given name, run.store.graph, store.graph⟩] }
  | _, (_, store) => { run with store }

/-- The run that some calls make from the empty graph. -/
def ofCalls (calls : List StoreCall) : StoreRun :=
  calls.foldl step ⟨.empty, fun _ => [], []⟩

theorem store_step (run : StoreRun) (call : StoreCall) :
    (run.step call).store = (run.store.step call).2 := by
  unfold step
  split <;> simp only [*]

/-- A call that is refused leaves no trace in the record either. -/
theorem step_of_error {run : StoreRun} {call : StoreCall} {e : Error}
    (refused : (run.store.step call).1 = .error e) : run.step call = run := by
  have answer : run.store.step call = (.error e, run.store) :=
    Prod.ext refused (Store.eq_of_step_error refused)
  simp only [step, answer]

/-- The state of a run is what the calls leave. -/
theorem store_foldl (run : StoreRun) (calls : List StoreCall) :
    (calls.foldl step run).store = (run.store.run calls).2 := by
  induction calls generalizing run with
  | nil => rfl
  | cons call calls ih => rw [List.foldl_cons, ih, store_step, Store.run]

/-- The record of a run accounts for its state: what an overlay keeps back are its new nodes, and
all that was published was new then and is apart from each other. -/
structure Accounts (run : StoreRun) : Prop where
  gave : ∀ name, (run.store.overlays name).Gave (run.given name)
  fresh : ∀ publication ∈ run.published, publication.Fresh
  grown : ∀ publication ∈ run.published, publication.after.maxNodes ≤ run.store.graph.maxNodes
  apart : (run.published.flatMap (·.nodes)).Nodup

theorem accounts_start : Accounts ⟨.empty, fun _ => [], []⟩ :=
  ⟨fun _ => Overlay.gave_ofBase 0, nofun, nofun, List.nodup_nil⟩

section Steps

variable {run : StoreRun} {count : Nat}

theorem Accounts.put (h : run.Accounts) (name : Nat) {overlay : Overlay} {nodes : List NodeId}
    (gave : overlay.Gave nodes) :
    Accounts { run with
      store := run.store.put name overlay
      given := Function.update run.given name nodes } := by
  refine ⟨fun other => ?_, h.fresh, h.grown, h.apart⟩
  by_cases same : other = name
  · subst same
    simp only [Store.overlays_put_self, Function.update_self]
    exact gave
  · simp only [run.store.overlays_put_of_ne same, Function.update_of_ne same]
    exact h.gave other

/-- A graph that grows keeps what was published. -/
theorem Accounts.grow (h : run.Accounts) {graph : Graph}
    (grown : run.store.graph.maxNodes ≤ graph.maxNodes) :
    Accounts { run with store := { run.store with graph } } :=
  ⟨h.gave, h.fresh, fun publication member => Nat.le_trans (h.grown publication member) grown,
    h.apart⟩

/-- One more publication, of nodes that the graph did not have, is apart from all earlier ones. -/
theorem Accounts.publish (h : run.Accounts) {nodes : List NodeId} (distinct : nodes.Nodup)
    {graph : Graph} (fresh : Publication.Fresh ⟨nodes, run.store.graph, graph⟩)
    (grown : run.store.graph.maxNodes ≤ graph.maxNodes) :
    Accounts { run with
      store := { run.store with graph }
      published := run.published ++ [⟨nodes, run.store.graph, graph⟩] } := by
  have later := h.grow grown
  refine ⟨h.gave, ?_, ?_, ?_⟩
  · exact List.forall_mem_append.2 ⟨h.fresh, List.forall_mem_singleton.2 fresh⟩
  · exact List.forall_mem_append.2 ⟨later.grown, List.forall_mem_singleton.2 (Nat.le_refl _)⟩
  · rw [List.flatMap_append, List.flatMap_singleton, List.nodup_append]
    refine ⟨h.apart, distinct, ?_⟩
    -- What was published before is known by now, and these nodes are not.
    rintro node earlier _ member rfl
    obtain ⟨publication, held, inside⟩ := List.mem_flatMap.1 earlier
    have low := (h.fresh publication held).known node inside
    have bound := h.grown publication held
    have high := fresh.new node member
    simp only at high
    omega

theorem Accounts.step (h : run.Accounts) (sound : run.store.Sound count)
    (small : ∀ name, (run.store.overlays name).maxNodes < UInt64.size) (call : StoreCall) :
    (run.step call).Accounts := by
  obtain ⟨contents, held⟩ := sound.graph
  cases call with
  | sealLevel out inc =>
    have grown : run.store.graph.maxNodes ≤ (run.store.graph.sealLevel out inc).2.maxNodes := by
      rcases run.store.graph.sealLevel_cases out inc with ⟨next, built, sealed⟩ | ⟨e, -, refused⟩
      · rw [sealed, @Graph.Holds.maxNodes_publishing _ _ held ⟨out, inc⟩ _ built]
        exact Nat.le_max_left _ _
      · exact Nat.le_of_eq (congrArg (·.2.maxNodes) refused.symm)
    exact h.grow grown
  | checkpoint name =>
    obtain ⟨pairs, gathers, -⟩ := sound.overlays name
    rcases answer : run.store.graph.checkpoint (run.store.overlays name) with
      ⟨e | handle, after, left⟩
    · have refused : (run.store.step (.checkpoint name)).1 = .error e := by
        simp only [Store.step, answer]
        rfl
      rw [run.step_of_error refused]
      exact h
    · obtain ⟨fresh, grown, rfl⟩ := held.fresh_of_checkpoint gathers (h.gave name) answer
      have later := (h.publish (h.gave name).nodup fresh grown).put name
        (Overlay.gave_ofBase after.maxNodes)
      simp only [StoreRun.step, Store.step, answer]
      exact later
  | openOverlay name base =>
    cases base with
    | none => exact h.put name (Overlay.gave_ofBase _)
    | some nodes => exact h.put name (Overlay.gave_ofBase nodes)
  | addNode name => exact h.put name ((h.gave name).addNode (small name))
  | addEdge name source target =>
    have later := h.put name ((h.gave name).addEdge source target)
    rw [Function.update_eq_self] at later
    exact later
  | look name => exact h

end Steps

/-- While no overlay runs out of numbers, the record of a run accounts for its state. -/
theorem Accounts.foldl {run : StoreRun} {count : Nat} (h : run.Accounts)
    (sound : run.store.Sound count) (calls : List StoreCall)
    (small : ∀ made, made <+: calls → ∀ name,
      ((run.store.run made).2.overlays name).maxNodes < UInt64.size) :
    (calls.foldl StoreRun.step run).Accounts := by
  induction calls generalizing run count with
  | nil => exact h
  | cons call calls ih =>
    -- The first call needs the bound for the run so far, the others for it and what follows.
    have here := h.step sound (small [] List.nil_prefix) call
    have later := sound.step call
    rw [← store_step] at later
    refine ih here later fun made made_prefix name => ?_
    rw [store_step]
    exact small (call :: made) (List.cons_prefix_cons.2 ⟨rfl, made_prefix⟩) name

end StoreRun

/-- However calls on a graph and on its overlays interleave, as long as no overlay runs out of
numbers: a checkpoint is refused for its new nodes exactly if the overlay gave out some over a base
that is not the number of nodes of the graph; what a checkpoint publishes was unknown to the graph
and to all its levels until then, and is known afterwards; and nothing is published twice. -/
theorem Store.published_nodes_are_new (calls : List StoreCall)
    (small : ∀ made, made <+: calls → ∀ name,
      ((Store.empty.run made).2.overlays name).maxNodes < UInt64.size) :
    let run := StoreRun.ofCalls calls
    run.store = (Store.empty.run calls).2 ∧
    (∀ name, (run.store.step (.checkpoint name)).1 = .error Graph.collision ↔
      run.given name ≠ [] ∧ (run.store.overlays name).baseNodes ≠ run.store.graph.maxNodes) ∧
    (∀ publication ∈ run.published, publication.Fresh) ∧
    (run.published.flatMap (·.nodes)).Nodup := by
  intro run
  have left : run.store = (Store.empty.run calls).2 := StoreRun.store_foldl _ calls
  have accounts : run.Accounts := StoreRun.accounts_start.foldl Store.sound_empty calls small
  refine ⟨left, fun name => ?_, accounts.fresh, accounts.apart⟩
  have sound : run.store.Sound (0 + calls.length) := left ▸ Store.sound_empty.run calls
  obtain ⟨contents, held⟩ := sound.graph
  obtain ⟨pairs, gathers, -⟩ := sound.overlays name
  rw [← (accounts.gave name).addsNodes_iff]
  exact (Store.map_eq_error_iff _ _).trans (held.checkpoint_eq_collision_iff gathers)

/-- Two overlays give out the same first node. The second has to be opened anew before it can
publish one, and by then the first, which is used further, is behind. -/
theorem Store.published_nodes_are_new_of_two_overlays :
    let calls : List StoreCall := [.addNode 0, .addNode 1, .checkpoint 0, .checkpoint 1,
      .openOverlay 1 none, .addNode 1, .checkpoint 1, .addNode 0]
    let run := StoreRun.ofCalls calls
    run.published.map (·.nodes) = [[⟨0⟩], [⟨1⟩]] ∧
    (∀ publication ∈ run.published, publication.Fresh) ∧
    run.given 0 = [⟨1⟩] ∧ (run.store.step (.checkpoint 0)).1 = .error Graph.collision := by
  intro calls run
  have small : ∀ made, made <+: calls → ∀ name,
      ((Store.empty.run made).2.overlays name).maxNodes < UInt64.size := by
    intro made made_prefix name
    simp only [calls, List.prefix_cons_iff, List.prefix_nil] at made_prefix
    obtain rfl | ⟨_, rfl, rfl | ⟨_, rfl, rfl | ⟨_, rfl, rfl | ⟨_, rfl, rfl | ⟨_, rfl,
      rfl | ⟨_, rfl, rfl | ⟨_, rfl, rfl | ⟨_, rfl, rfl⟩⟩⟩⟩⟩⟩⟩⟩ := made_prefix
    all_goals
      match name with
      | 0 | 1 => decide
      | _ + 2 => exact Nat.zero_lt_succ _
  obtain ⟨-, collides, fresh, -⟩ := published_nodes_are_new calls small
  exact ⟨rfl, fresh, rfl, (collides 0).2 ⟨by decide, by decide⟩⟩

end LayeredGraph
