import LayeredGraph.Proofs.Level.Grouping
import LayeredGraph.Proofs.PendingLists

/-! Overlays as the pairs that were added to them. After any appends, accepted or refused, the
lists of an overlay are the rows of the accepted pairs in both directions, and packing the overlay
is grouping those pairs. -/
namespace LayeredGraph

open LevelData

namespace Overlay

/-- What can be added to an overlay. -/
inductive Append where
  | node
  | edge (source target : NodeId)
  deriving DecidableEq, Repr

def append (overlay : Overlay) : Append → Overlay
  | .node => overlay.addNode.2
  | .edge source target => (overlay.addEdge source target).2

/-- The pair that an append adds, none if it is refused. -/
def accepted (overlay : Overlay) : Append → List (NodeId × NodeId)
  | .node => []
  | .edge source target =>
      match (overlay.addEdge source target).1 with
      | .ok _ => [(source, target)]
      | .error _ => []

def appendAll (overlay : Overlay) (appends : List Append) : Overlay := appends.foldl append overlay

/-- The pairs that appends add, in order. -/
def acceptedAll (overlay : Overlay) : List Append → List (NodeId × NodeId)
  | [] => []
  | first :: rest => overlay.accepted first ++ (overlay.append first).acceptedAll rest

/-- An overlay that holds some pairs, each in the list of its owner in either direction. -/
structure Gathers (overlay : Overlay) (pairs : List (NodeId × NodeId)) : Prop where
  inside : ∀ direction, ∀ pair ∈ pairs, (owner direction pair).toNat < overlay.nodeCount
  edgeCount : overlay.edgeCount = pairs.length
  ordered : ∀ direction, (overlay.lists.get direction).Ordered
  keys : ∀ direction, ∀ entry ∈ overlay.lists.get direction, entry.1.toNat < overlay.nodeCount
  targets : ∀ direction, (overlay.lists.get direction).targetsAt = row direction pairs

theorem gathers_ofBase (base : Nat) : (ofBase base).Gathers [] := by
  have none : ∀ direction, (ofBase base).lists.get direction = [] :=
    PerDirection.get_both ([] : PendingLists)
  refine ⟨nofun, rfl, ?_, ?_, ?_⟩
  · intro direction
    rw [none]
    exact .nil
  · intro direction entry member
    rw [none] at member
    exact absurd member List.not_mem_nil
  · intro direction
    rw [none]
    rfl

theorem checkNode_eq_ok {overlay : Overlay} {node : NodeId} (h : node.toNat < overlay.nodeCount) :
    overlay.checkNode node = .ok () := if_pos h

theorem checkNode_eq_error {overlay : Overlay} {node : NodeId}
    (h : ¬node.toNat < overlay.nodeCount) :
    overlay.checkNode node = .error (.nodeOutOfRange node overlay.nodeCount) := if_neg h

/-- An edge is added exactly when both ends are nodes of the overlay; it then enters one list of
each direction, under the next reference. -/
theorem addEdge_cases (overlay : Overlay) (source target : NodeId) :
    (source.toNat < overlay.nodeCount ∧ target.toNat < overlay.nodeCount ∧
      overlay.addEdge source target = (.ok (.pending overlay.edgeCount), {
        overlay with
        edgeCount := overlay.edgeCount + 1
        lists := {
          out := overlay.lists.out.push source ⟨target, .pending overlay.edgeCount⟩
          inc := overlay.lists.inc.push target ⟨source, .pending overlay.edgeCount⟩ } })) ∨
    ∃ e, overlay.addEdge source target = (.error e, overlay) := by
  unfold addEdge
  by_cases first : source.toNat < overlay.nodeCount
  · by_cases second : target.toNat < overlay.nodeCount
    · left
      rw [checkNode_eq_ok first, checkNode_eq_ok second]
      exact ⟨first, second, rfl⟩
    · right
      rw [checkNode_eq_ok first, checkNode_eq_error second]
      exact ⟨_, rfl⟩
  · right
    rw [checkNode_eq_error first]
    exact ⟨_, rfl⟩

theorem accepted_edge_of_ok {overlay : Overlay} {source target : NodeId} {edge : EdgeRef}
    (h : (overlay.addEdge source target).1 = .ok edge) :
    overlay.accepted (.edge source target) = [(source, target)] := by
  simp only [accepted, h]

theorem accepted_edge_of_error {overlay : Overlay} {source target : NodeId} {e : Error}
    (h : (overlay.addEdge source target).1 = .error e) :
    overlay.accepted (.edge source target) = [] := by
  simp only [accepted, h]

section Append

variable {overlay : Overlay} {pairs : List (NodeId × NodeId)}

/-- The list that an accepted pair enters in a direction. -/
theorem Gathers.push (h : overlay.Gathers pairs) (direction : Direction)
    (pair : NodeId × NodeId) (edge : EdgeRef) :
    ((overlay.lists.get direction).push (owner direction pair)
      ⟨target direction pair, edge⟩).targetsAt = row direction (pairs ++ [pair]) := by
  funext i
  have before := congrFun (h.targets direction) i
  rw [PendingLists.targetsAt] at before
  rw [PendingLists.targetsAt, PendingLists.edgesAt_push (h.ordered direction), List.map_append,
    before, row_append, row_cons]
  split <;> rfl

theorem Gathers.append (h : overlay.Gathers pairs) (append : Append) :
    (overlay.append append).Gathers (pairs ++ overlay.accepted append) := by
  cases append with
  | node =>
    rw [accepted, List.append_nil]
    exact ⟨fun direction pair member => Nat.lt_succ_of_lt (h.inside direction pair member),
      h.edgeCount, h.ordered,
      fun direction entry member => Nat.lt_succ_of_lt (h.keys direction entry member), h.targets⟩
  | edge source target =>
    obtain ⟨first, second, added⟩ | ⟨e, refused⟩ := overlay.addEdge_cases source target
    · have ends : ∀ direction,
          (owner direction (source, target)).toNat < overlay.nodeCount := by
        rintro (_ | _)
        · exact first
        · exact second
      rw [accepted_edge_of_ok (congrArg Prod.fst added), Overlay.append, added]
      refine ⟨?_, ?_, ?_, ?_, ?_⟩
      · intro direction pair member
        rcases List.mem_append.1 member with member | member
        · exact h.inside direction pair member
        · rw [List.mem_singleton.1 member]
          exact ends direction
      · rw [List.length_append, ← h.edgeCount]
        rfl
      · rintro (_ | _)
        · exact (h.ordered .out).push
        · exact (h.ordered .inc).push
      · intro direction entry member
        have either : entry.1 = owner direction (source, target) ∨
            ∃ other ∈ overlay.lists.get direction, other.1 = entry.1 := by
          cases direction <;> exact PendingLists.owner_of_mem_push member
        rcases either with same | ⟨other, held, same⟩
        · rw [same]
          exact ends direction
        · rw [← same]
          exact h.keys direction other held
      · rintro (_ | _)
        · exact h.push .out (source, target) _
        · exact h.push .inc (source, target) _
    · rw [accepted_edge_of_error (congrArg Prod.fst refused), List.append_nil, Overlay.append,
        refused]
      exact h

theorem Gathers.appendAll (h : overlay.Gathers pairs) (appends : List Append) :
    (overlay.appendAll appends).Gathers (pairs ++ overlay.acceptedAll appends) := by
  induction appends generalizing overlay pairs with
  | nil =>
    rw [acceptedAll, List.append_nil]
    exact h
  | cons first rest ih =>
    rw [acceptedAll, ← List.append_assoc]
    exact ih (h.append first)

/-- After any appends an overlay holds the accepted pairs. -/
theorem gathers_appendAll (base : Nat) (appends : List Append) :
    ((ofBase base).appendAll appends).Gathers ((ofBase base).acceptedAll appends) :=
  (gathers_ofBase base).appendAll appends

end Append

section LevelData

variable {overlay : Overlay} {pairs : List (NodeId × NodeId)}

theorem Gathers.pack (h : overlay.Gathers pairs) (direction : Direction) :
    (overlay.lists.get direction).pack overlay.nodeCount =
      packRows overlay.nodeCount pairs direction := by
  rw [PendingLists.pack_eq (h.ordered direction) (h.keys direction), packRows,
    span_eq (h.inside direction), PendingLists.rowsFrom, h.targets direction, rows,
    List.range_eq_range']

/-- Packing an overlay groups the pairs that it holds in both directions. -/
theorem Gathers.levelData (h : overlay.Gathers pairs) :
    overlay.levelData = groupBoth overlay.nodeCount pairs := by
  rw [groupBoth, ← h.pack .out, ← h.pack .inc]
  rfl

end LevelData

end Overlay

end LayeredGraph
