import LayeredGraph.Proofs.Graph.Checkpoint
import Mathlib.Logic.Function.Basic

/-! Refused calls. A graph and the overlays over it either take a call as a whole or answer with an
error and stay as they were, whichever check fails: that of the contents for either direction, that
of an overlay's new nodes or of its lists, that of either end of an edge. A run therefore answers as
if its refused calls had never been made. -/
namespace LayeredGraph

open LevelData

namespace Overlay

/-- Why an edge is refused: its source is not a node of the overlay, or else its target is not. -/
def Refuses (overlay : Overlay) (source target : NodeId) (e : Error) : Prop :=
  overlay.nodeCount ≤ source.toNat ∧ e = .nodeOutOfRange source overlay.nodeCount ∨
  source.toNat < overlay.nodeCount ∧ overlay.nodeCount ≤ target.toNat ∧
    e = .nodeOutOfRange target overlay.nodeCount

theorem addEdge_eq_error_iff {overlay : Overlay} {source target : NodeId} {e : Error} :
    (overlay.addEdge source target).1 = .error e ↔ overlay.Refuses source target e := by
  unfold addEdge Refuses
  by_cases first : source.toNat < overlay.nodeCount
  · by_cases second : target.toNat < overlay.nodeCount
    · rw [checkNode_eq_ok first, checkNode_eq_ok second]
      simp [Nat.not_le.2 first, Nat.not_le.2 second]
    · rw [checkNode_eq_ok first, checkNode_eq_error second]
      simp [first, Nat.not_le.2 first, Nat.not_lt.1 second, eq_comm]
  · rw [checkNode_eq_error first]
    simp [first, Nat.not_lt.1 first, eq_comm]

theorem length_accepted_le (overlay : Overlay) (append : Append) :
    (overlay.accepted append).length ≤ 1 := by
  cases append with
  | node => exact Nat.zero_le 1
  | edge source target =>
    rw [accepted]
    split
    · exact Nat.le_refl 1
    · exact Nat.zero_le 1

/-- An overlay is packed unless it holds too many edges for some node. -/
theorem Gathers.levelData_eq_error_iff {overlay : Overlay} {pairs : List (NodeId × NodeId)}
    (h : overlay.Gathers pairs) {e : Error} :
    overlay.levelData = .error e ↔
      (∃ direction node, UInt32.size ≤ overlay.pendingDegree direction node) ∧ e = tooLong := by
  rw [h.levelData, groupBoth_eq_error_iff, h.not_short_iff]

end Overlay

namespace Graph

variable {graph : Graph} {contents : List (PerDirection LevelData)} {e : Error}

section Seal

variable {out inc : LevelData}

/-- What is wrong with contents that are to become the next level. Those for outgoing edges are
looked at first. -/
def fault? (graph : Graph) (data : PerDirection LevelData) : Option LevelFault :=
  let bound := max graph.maxNodes (coverage data)
  (data.out.fault? bound).or (data.inc.fault? bound)

/-- Every stack looks for faults in what was offered for its direction, with the nodes of the
graph and of the new level as the bound. -/
theorem Holds.fault?_sealedAs (h : graph.Holds contents) (data : PerDirection LevelData)
    (direction : Direction) :
    (sealedAs direction data).fault? (max (graph.current.stack direction).maxNodes
        (sealedAs direction data).nodeCount) =
      (data.get direction).fault? (max graph.maxNodes (coverage data)) := by
  rw [nodeCount_sealedAs, h.stack_maxNodes_eq, ← h.maxNodes, sealedAs, fault?_padTo]

theorem Holds.nextSnapshot_of_fault (h : graph.Holds contents) {fault : LevelFault}
    (found : graph.fault? ⟨out, inc⟩ = some fault) :
    nextSnapshot graph.current out inc = .error (.corruption fault.message) := by
  have outward := h.fault?_sealedAs ⟨out, inc⟩ .out
  have inward := h.fault?_sealedAs ⟨out, inc⟩ .inc
  rcases Option.or_eq_some_iff.1 found with first | ⟨sound, second⟩
  · have refused : graph.current.out.withLevel (out.padTo (max out.nodeCount inc.nodeCount)) =
        .error (.corruption fault.message) := Stack.withLevel_of_fault (outward.trans first)
    rw [nextSnapshot, refused]
    rfl
  · -- The outgoing level is built by the time the other one is refused.
    obtain ⟨grown, built⟩ := Stack.withLevel_eq_ok_iff.2
      (fault?_eq_none_iff.1 (outward.trans sound))
    have built : graph.current.out.withLevel (out.padTo (max out.nodeCount inc.nodeCount)) =
        .ok grown := built
    have refused : graph.current.inc.withLevel (inc.padTo (max out.nodeCount inc.nodeCount)) =
        .error (.corruption fault.message) := Stack.withLevel_of_fault (inward.trans second)
    rw [nextSnapshot, built, refused]
    rfl

theorem Holds.exists_nextSnapshot_of_sound (h : graph.Holds contents)
    (sound : graph.fault? ⟨out, inc⟩ = none) :
    ∃ next, nextSnapshot graph.current out inc = .ok next := by
  obtain ⟨outSound, incSound⟩ := Option.or_eq_none_iff.1 sound
  apply exists_nextSnapshot
  intro direction
  rw [Stack.withLevel_eq_ok_iff, ← fault?_eq_none_iff, h.fault?_sealedAs]
  cases direction
  · exact outSound
  · exact incSound

/-- Sealing is refused for the first fault of the contents, and for nothing else. -/
theorem Holds.sealLevel_eq_error_iff (h : graph.Holds contents) :
    (graph.sealLevel out inc).1 = .error e ↔
      ∃ fault, graph.fault? ⟨out, inc⟩ = some fault ∧ e = .corruption fault.message := by
  cases found : graph.fault? ⟨out, inc⟩ with
  | none =>
    obtain ⟨next, built⟩ := h.exists_nextSnapshot_of_sound found
    simp [sealLevel_of_ok built]
  | some fault => simp [sealLevel_of_error (h.nextSnapshot_of_fault found), eq_comm]

end Seal

section Checkpoint

variable {overlay : Overlay} {pairs : List (NodeId × NodeId)}

/-- Why a checkpoint is refused: the new nodes of the overlay collide, or else it holds more edges
for some node than a degree can say. -/
def Refuses (graph : Graph) (overlay : Overlay) (e : Error) : Prop :=
  graph.Collides overlay ∧ e = collision ∨
  ¬graph.Collides overlay ∧
    (∃ direction node, UInt32.size ≤ overlay.pendingDegree direction node) ∧ e = tooLong

/-- What an overlay packs can be sealed over any graph. -/
theorem exists_nextSnapshot_of_levelData (h : overlay.Gathers pairs)
    (few : pairs.length < UInt64.size) {data : PerDirection LevelData}
    (packed : overlay.levelData = .ok data) (snapshot : Snapshot) :
    ∃ next, nextSnapshot snapshot data.out data.inc = .ok next := by
  obtain ⟨short, rfl⟩ := groupBoth_eq_ok_iff.1 (h.levelData.symm.trans packed)
  exact exists_nextSnapshot_grouped snapshot ⟨short, few⟩

/-- A checkpoint of an overlay that was built from pairs is refused for a collision or for a list
that is too long, and for nothing else. -/
theorem checkpoint_eq_error_iff (gathers : overlay.Gathers pairs)
    (few : pairs.length < UInt64.size) :
    (graph.checkpoint overlay).1 = .error e ↔ graph.Refuses overlay e := by
  have outcome := graph.checkpoint_outcome overlay
  generalize graph.checkpoint overlay = answer at outcome ⊢
  cases outcome with
  | collides collides => simp [Refuses, collides, eq_comm]
  | unpacked apart refused =>
    obtain ⟨long, rfl⟩ := gathers.levelData_eq_error_iff.1 refused
    simp only [Refuses, apart, long]
    simp [eq_comm]
  | unsealed apart packed refused =>
    obtain ⟨next, built⟩ := exists_nextSnapshot_of_levelData gathers few packed graph.current
    simp [built] at refused
  | added apart packed built =>
    have short : ¬∃ direction node, UInt32.size ≤ overlay.pendingDegree direction node := by
      intro long
      have refused := gathers.levelData_eq_error_iff.2 ⟨long, rfl⟩
      simp [packed] at refused
    simp [Refuses, apart, short]

end Checkpoint

end Graph

/-- A graph and overlays over it, each under a name. -/
structure Store where
  graph : Graph
  overlays : Nat → Overlay

/-- A call on a graph or on one of its overlays. Looking shows all there is to see of both. -/
inductive StoreCall where
  | sealLevel (out inc : LevelData)
  | checkpoint (name : Nat)
  | openOverlay (name : Nat) (base : Option Nat)
  | addNode (name : Nat)
  | addEdge (name : Nat) (source target : NodeId)
  | look (name : Nat)
  deriving DecidableEq, Repr

inductive StoreAnswer where
  | level (handle : LevelHandle)
  | opened
  | node (node : NodeId)
  | edge (edge : EdgeRef)
  | seen (snapshot : Snapshot) (maxNodes : Nat) (overlay : Overlay)
  deriving DecidableEq, Repr

namespace Store

def empty : Store := ⟨.empty, fun _ => .ofBase 0⟩

def put (store : Store) (name : Nat) (overlay : Overlay) : Store :=
  { store with overlays := Function.update store.overlays name overlay }

/-- The answer to a call, and what the call leaves. Whatever becomes of it, an overlay that was
handed to the graph is put back as the graph left it. -/
def step (store : Store) : StoreCall → Except Error StoreAnswer × Store
  | .sealLevel out inc =>
      let (answer, graph) := store.graph.sealLevel out inc
      (answer.map .level, { store with graph })
  | .checkpoint name =>
      let (answer, graph, overlay) := store.graph.checkpoint (store.overlays name)
      (answer.map .level, { store with graph }.put name overlay)
  | .openOverlay name none => (.ok .opened, store.put name store.graph.overlay)
  | .openOverlay name (some nodes) => (.ok .opened, store.put name (.ofBase nodes))
  | .addNode name =>
      let (node, overlay) := (store.overlays name).addNode
      (.ok (.node node), store.put name overlay)
  | .addEdge name source target =>
      let (answer, overlay) := (store.overlays name).addEdge source target
      (answer.map .edge, store.put name overlay)
  | .look name =>
      (.ok (.seen store.graph.snapshot store.graph.maxNodes (store.overlays name)), store)

def run (store : Store) : List StoreCall → List (Except Error StoreAnswer) × Store
  | [] => ([], store)
  | call :: calls =>
      let (first, store) := store.step call
      let (rest, store) := store.run calls
      (first :: rest, store)

/-- The calls that are not refused, where each is made on what those before it left. -/
def successful (store : Store) : List StoreCall → List StoreCall
  | [] => []
  | call :: calls =>
      let (answer, store) := store.step call
      if answer.isOk then call :: store.successful calls else store.successful calls

/-- Why a call is refused. -/
def Refuses (store : Store) (e : Error) : StoreCall → Prop
  | .sealLevel out inc =>
      ∃ fault, store.graph.fault? ⟨out, inc⟩ = some fault ∧ e = .corruption fault.message
  | .checkpoint name => store.graph.Refuses (store.overlays name) e
  | .addEdge name source target => (store.overlays name).Refuses source target e
  | .openOverlay _ _ | .addNode _ | .look _ => False

theorem overlays_put_self (store : Store) (name : Nat) (overlay : Overlay) :
    (store.put name overlay).overlays name = overlay := Function.update_self ..

theorem overlays_put_of_ne (store : Store) {name other : Nat} (differ : other ≠ name)
    (overlay : Overlay) : (store.put name overlay).overlays other = store.overlays other :=
  Function.update_of_ne differ ..

theorem put_overlays (store : Store) (name : Nat) :
    store.put name (store.overlays name) = store := by
  rw [put, Function.update_eq_self]

section Step

variable {store : Store} {call : StoreCall} {e : Error}

/-- A call that is refused changes neither the graph nor any overlay. -/
theorem eq_of_step_error (refused : (store.step call).1 = .error e) :
    (store.step call).2 = store := by
  cases call with
  | sealLevel out inc =>
    rcases store.graph.sealLevel_cases out inc with ⟨next, -, sealed⟩ | ⟨fault, -, answer⟩
    · simp [step, sealed, Except.map] at refused
    · rw [step, answer]
  | checkpoint name =>
    have outcome := store.graph.checkpoint_outcome (store.overlays name)
    simp only [step] at refused ⊢
    generalize store.graph.checkpoint (store.overlays name) = answer at outcome refused ⊢
    cases outcome with
    | collides => exact store.put_overlays name
    | unpacked => exact store.put_overlays name
    | unsealed => exact store.put_overlays name
    | added => simp [Except.map] at refused
  | openOverlay name base => cases base <;> simp [step] at refused
  | addNode name => simp [step] at refused
  | addEdge name source target =>
    rcases (store.overlays name).addEdge_cases source target with ⟨-, -, added⟩ | ⟨_, answer⟩
    · simp [step, added, Except.map] at refused
    · rw [step, answer]
      exact store.put_overlays name
  | look name => rfl

theorem run_cons_of_error (refused : (store.step call).1 = .error e) (later : List StoreCall) :
    store.run (call :: later) = (.error e :: (store.run later).1, (store.run later).2) := by
  rw [run]
  simp only [refused, eq_of_step_error refused]

end Step

/-- Without the calls that are refused, a run gives the other answers and ends alike. -/
theorem run_successful (store : Store) (calls : List StoreCall) :
    store.run (store.successful calls) =
      ((store.run calls).1.filter (·.isOk), (store.run calls).2) := by
  induction calls generalizing store with
  | nil => rfl
  | cons call calls ih =>
    cases answer : (store.step call).1 with
    | error e =>
      rw [run_cons_of_error answer, successful]
      simp only [answer, eq_of_step_error answer]
      exact ih store
    | ok value =>
      rw [successful, run]
      simp only [answer, Except.isOk, Except.toBool, if_pos, run, ih, List.filter_cons]

/-- After so many calls the graph holds the contents of its levels, and every overlay the pairs
that were added to it, of which there are no more than calls. -/
structure Sound (store : Store) (calls : Nat) : Prop where
  graph : ∃ contents, store.graph.Holds contents
  overlays : ∀ name, ∃ pairs, (store.overlays name).Gathers pairs ∧ pairs.length ≤ calls

theorem sound_empty : empty.Sound 0 :=
  ⟨⟨[], Graph.holds_empty⟩, fun _ => ⟨[], Overlay.gathers_ofBase 0, Nat.le_refl 0⟩⟩

section Sound

variable {store : Store} {calls : Nat}

theorem Sound.succ (h : store.Sound calls) : store.Sound (calls + 1) := by
  refine ⟨h.graph, fun name => ?_⟩
  obtain ⟨pairs, gathers, few⟩ := h.overlays name
  exact ⟨pairs, gathers, Nat.le_succ_of_le few⟩

theorem Sound.put (h : store.Sound calls) (name : Nat) {overlay : Overlay}
    {pairs : List (NodeId × NodeId)} (gathers : overlay.Gathers pairs)
    (few : pairs.length ≤ calls) : (store.put name overlay).Sound calls := by
  refine ⟨h.graph, fun other => ?_⟩
  by_cases same : other = name
  · subst same
    rw [overlays_put_self]
    exact ⟨pairs, gathers, few⟩
  · rw [store.overlays_put_of_ne same]
    exact h.overlays other

theorem Sound.fresh (h : store.Sound calls) (name nodes : Nat) :
    (store.put name (.ofBase nodes)).Sound calls :=
  h.put name (Overlay.gathers_ofBase nodes) (Nat.zero_le calls)

/-- An append to one of the overlays brings one pair at most. -/
theorem Sound.append (h : store.Sound calls) (name : Nat) (append : Overlay.Append) :
    (store.put name ((store.overlays name).append append)).Sound (calls + 1) := by
  obtain ⟨pairs, gathers, few⟩ := h.overlays name
  refine h.succ.put name (gathers.append append) ?_
  rw [List.length_append]
  exact Nat.add_le_add few ((store.overlays name).length_accepted_le append)

theorem Sound.publishing (h : store.Sound calls) {data : PerDirection LevelData}
    {next : Snapshot}
    (built : Graph.nextSnapshot store.graph.current data.out data.inc = .ok next) :
    Sound { store with graph := .publishing next } calls := by
  obtain ⟨contents, held⟩ := h.graph
  exact ⟨⟨_, held.publishing built⟩, h.overlays⟩

theorem Sound.step (h : store.Sound calls) (call : StoreCall) :
    (store.step call).2.Sound (calls + 1) := by
  cases answer : (store.step call).1 with
  | error e =>
    rw [eq_of_step_error answer]
    exact h.succ
  | ok value =>
    cases call with
    | sealLevel out inc =>
      rcases store.graph.sealLevel_cases out inc with ⟨next, built, sealed⟩ | ⟨e, -, refused⟩
      · rw [Store.step, sealed]
        exact (@Sound.publishing _ _ h ⟨out, inc⟩ _ built).succ
      · simp [Store.step, refused, Except.map] at answer
    | checkpoint name =>
      have outcome := store.graph.checkpoint_outcome (store.overlays name)
      simp only [Store.step] at answer ⊢
      generalize store.graph.checkpoint (store.overlays name) = result at outcome answer ⊢
      cases outcome with
      | collides => simp [Except.map] at answer
      | unpacked => simp [Except.map] at answer
      | unsealed => simp [Except.map] at answer
      | added _ _ built => exact ((h.publishing built).fresh name _).succ
    | openOverlay name base =>
      cases base with
      | none => exact (h.fresh name _).succ
      | some nodes => exact (h.fresh name nodes).succ
    | addNode name => exact h.append name .node
    | addEdge name source target => exact h.append name (.edge source target)
    | look name => exact h.succ

theorem Sound.run (h : store.Sound calls) (later : List StoreCall) :
    (store.run later).2.Sound (calls + later.length) := by
  induction later generalizing store calls with
  | nil => exact h
  | cons call later ih =>
    have rest := ih (h.step call)
    rw [Nat.add_assoc, Nat.add_comm 1] at rest
    exact rest

/-- Showing an answer keeps its error. -/
theorem map_eq_error_iff {α : Type} (answer : Except Error α) (shown : α → StoreAnswer)
    {e : Error} : answer.map shown = .error e ↔ answer = .error e := by
  cases answer <;> simp [Except.map]

/-- A call is refused for the reasons that there are, and for nothing else. -/
theorem Sound.step_eq_error_iff (h : store.Sound calls) (few : calls < UInt64.size)
    {call : StoreCall} {e : Error} : (store.step call).1 = .error e ↔ store.Refuses e call := by
  cases call with
  | sealLevel out inc =>
    obtain ⟨contents, held⟩ := h.graph
    exact (map_eq_error_iff _ _).trans held.sealLevel_eq_error_iff
  | checkpoint name =>
    obtain ⟨pairs, gathers, short⟩ := h.overlays name
    exact (map_eq_error_iff _ _).trans
      (Graph.checkpoint_eq_error_iff gathers (Nat.lt_of_le_of_lt short few))
  | openOverlay name base => cases base <;> simp [Store.step, Refuses]
  | addNode name => simp [Store.step, Refuses]
  | addEdge name source target => exact (map_eq_error_iff _ _).trans Overlay.addEdge_eq_error_iff
  | look name => simp [Store.step, Refuses]

end Sound

/-- After any calls on a graph and its overlays, leaving out those that were refused would have
given the other answers and the same state. A call that is refused leaves the graph and all
overlays as they are, so all later calls are answered as if it had not been made; and it is refused
exactly for a fault of what it seals in either direction, for new nodes of an overlay that collide,
for a list that is too long, or for an end of an edge that is not a node of the overlay. -/
theorem refused_calls_leave_no_trace (calls : List StoreCall) :
    let made := empty.run calls
    let store := made.2
    empty.run (empty.successful calls) = (made.1.filter (·.isOk), store) ∧
    (∀ call e, (store.step call).1 = .error e →
      (store.step call).2 = store ∧ ∀ later,
        store.run (call :: later) = (.error e :: (store.run later).1, (store.run later).2)) ∧
    (calls.length < UInt64.size →
      ∀ call e, (store.step call).1 = .error e ↔ store.Refuses e call) := by
  intro made store
  refine ⟨empty.run_successful calls, ?_, ?_⟩
  · intro call e refused
    exact ⟨eq_of_step_error refused, run_cons_of_error refused⟩
  · intro few call e
    have sound : store.Sound (0 + calls.length) := sound_empty.run calls
    rw [Nat.zero_add] at sound
    exact sound.step_eq_error_iff few

/-- Contents whose incoming table reaches past its edges behind a good outgoing one, an overlay
whose new node was given out by a level as well, and an edge to an unknown node. -/
theorem refused_calls_leave_no_trace_over_level :
    let sealable : LevelData := ⟨[⟨.sealed 0, 1⟩, .empty, .empty], [⟨2⟩]⟩
    let pastTable : LevelData := ⟨[⟨.sealed 0, 4⟩], [⟨0⟩]⟩
    let store := (empty.run [.openOverlay 0 (some 2), .addNode 0, .addEdge 0 ⟨2⟩ ⟨0⟩,
      .addEdge 0 ⟨0⟩ ⟨3⟩, .sealLevel sealable (.empty 0), .sealLevel sealable pastTable]).2
    store.graph.numLevels = 1 ∧ (store.overlays 0).edgeCount = 1 ∧
    (store.step (.sealLevel sealable pastTable)).2 = store ∧
    (store.step (.checkpoint 0)).2 = store ∧
    (store.step (.addEdge 0 ⟨0⟩ ⟨3⟩)).2 = store ∧
    store.Refuses Graph.collision (.checkpoint 0) := by
  intro sealable pastTable store
  obtain ⟨-, unchanged, reasons⟩ := refused_calls_leave_no_trace
    [.openOverlay 0 (some 2), .addNode 0, .addEdge 0 ⟨2⟩ ⟨0⟩, .addEdge 0 ⟨0⟩ ⟨3⟩,
      .sealLevel sealable (.empty 0), .sealLevel sealable pastTable]
  have collides : (store.step (.checkpoint 0)).1 = .error Graph.collision := rfl
  exact ⟨rfl, rfl, (unchanged _ (.corruption LevelFault.pastTable.message) rfl).1,
    (unchanged _ _ collides).1, (unchanged _ (.nodeOutOfRange ⟨3⟩ 3) rfl).1,
    (reasons (by decide) _ _).1 collides⟩

end Store

end LayeredGraph
