import LayeredGraph.Overlay
import LayeredGraph.Proofs.Level.Packing

/-! The lists of an overlay and their packing. Owners come in increasing order, each with one
list; packing writes their entries into a table of empty ones, and gives what packing the lists of
all nodes one after another would give. -/
namespace LayeredGraph

namespace PendingLists

/-- Owners in increasing order. -/
def Ordered (lists : PendingLists) : Prop := lists.Pairwise fun a b => a.1.toNat < b.1.toNat

/-- The edges in the list of the node with a number. -/
def edgesAt : PendingLists → Nat → List PendingEdge
  | [], _ => []
  | (owner, edges) :: rest, i => if owner.toNat = i then edges else edgesAt rest i

/-- The targets in the list of the node with a number. -/
def targetsAt (lists : PendingLists) (i : Nat) : List NodeId := (lists.edgesAt i).map (·.target)

theorem edgesAt_eq_nil {lists : PendingLists} {i : Nat} (h : ∀ entry ∈ lists, entry.1.toNat ≠ i) :
    edgesAt lists i = [] := by
  induction lists with
  | nil => rfl
  | cons first rest ih =>
    rw [List.forall_mem_cons] at h
    rw [edgesAt, if_neg h.1, ih h.2]

section Push

variable {owner : NodeId} {edge : PendingEdge}

theorem owner_of_mem_push {lists : PendingLists} {entry : NodeId × List PendingEdge}
    (h : entry ∈ push lists owner edge) : entry.1 = owner ∨ ∃ other ∈ lists, other.1 = entry.1 := by
  induction lists with
  | nil =>
    rw [push, List.mem_singleton] at h
    exact .inl (congrArg Prod.fst h)
  | cons first rest ih =>
    rw [push] at h
    split at h
    · rcases List.mem_cons.1 h with rfl | h
      · exact .inl rfl
      · exact .inr ⟨entry, h, rfl⟩
    · split at h
      · rcases List.mem_cons.1 h with rfl | h
        · exact .inr ⟨first, List.mem_cons_self, rfl⟩
        · exact .inr ⟨entry, List.mem_cons_of_mem _ h, rfl⟩
      · rcases List.mem_cons.1 h with rfl | h
        · exact .inr ⟨first, List.mem_cons_self, rfl⟩
        · rcases ih h with same | ⟨other, member, same⟩
          · exact .inl same
          · exact .inr ⟨other, List.mem_cons_of_mem _ member, same⟩

theorem Ordered.push {lists : PendingLists} (h : lists.Ordered) :
    (lists.push owner edge).Ordered := by
  induction lists with
  | nil => exact List.pairwise_singleton _ _
  | cons first rest ih =>
    obtain ⟨first_lt, ordered⟩ := List.pairwise_cons.1 h
    rw [PendingLists.push]
    split
    · next below =>
      have below : owner.toNat < first.1.toNat := below
      refine List.pairwise_cons.2 ⟨?_, h⟩
      intro entry member
      rcases List.mem_cons.1 member with rfl | member
      · exact below
      · exact Nat.lt_trans below (first_lt entry member)
    · next notBelow =>
      split
      · exact List.pairwise_cons.2 ⟨first_lt, ordered⟩
      · next other =>
        have above : first.1.toNat < owner.toNat := by
          have notBelow : ¬owner.toNat < first.1.toNat := notBelow
          have differ : owner.toNat ≠ first.1.toNat := fun same => other (NodeId.toNat_inj.1 same)
          omega
        refine List.pairwise_cons.2 ⟨?_, ih ordered⟩
        intro entry member
        rcases owner_of_mem_push member with same | ⟨held, inside, same⟩
        · rw [same]
          exact above
        · rw [← same]
          exact first_lt held inside

/-- A pushed edge goes to the end of its owner's list and to no other. -/
theorem edgesAt_push {lists : PendingLists} (h : lists.Ordered) (i : Nat) :
    edgesAt (lists.push owner edge) i =
      edgesAt lists i ++ if owner.toNat = i then [edge] else [] := by
  induction lists with
  | nil =>
    change (if owner.toNat = i then [edge] else []) = [] ++ _
    rw [List.nil_append]
  | cons first rest ih =>
    obtain ⟨first_lt, ordered⟩ := List.pairwise_cons.1 h
    rw [PendingLists.push]
    split
    · next below =>
      have below : owner.toNat < first.1.toNat := below
      rw [edgesAt]
      split
      · next same =>
        have none : edgesAt (first :: rest) i = [] := by
          apply edgesAt_eq_nil
          intro entry member
          rcases List.mem_cons.1 member with rfl | member
          · omega
          · have := first_lt entry member
            omega
        rw [none]
        rfl
      · exact (List.append_nil _).symm
    · split
      · next same =>
        rw [edgesAt, edgesAt, same]
        split
        · rfl
        · exact (List.append_nil _).symm
      · next differ =>
        rw [edgesAt, edgesAt, ih ordered]
        split
        · next here =>
          have elsewhere : owner.toNat ≠ i := by
            rintro rfl
            exact differ (NodeId.toNat_inj.1 here.symm)
          rw [if_neg elsewhere, List.append_nil]
        · rfl

end Push

section Pack

open LevelData

/-- The targets of so many nodes from one on, list by list. -/
def rowsFrom (lists : PendingLists) (start count : Nat) : List (List NodeId) :=
  (List.range' start count).map lists.targetsAt

theorem rowsFrom_of_lt {lists : PendingLists} {start count : Nat}
    (h : ∀ entry ∈ lists, start + count ≤ entry.1.toNat) :
    rowsFrom lists start count = List.replicate count [] := by
  rw [List.eq_replicate_iff]
  refine ⟨by rw [rowsFrom, List.length_map, List.length_range'], ?_⟩
  intro row member
  obtain ⟨i, inside, rfl⟩ := List.mem_map.1 member
  rw [List.mem_range'_1] at inside
  rw [targetsAt, edgesAt_eq_nil]
  · rfl
  · intro entry member same
    have := h entry member
    omega

theorem rowsFrom_add (lists : PendingLists) (start a b : Nat) :
    rowsFrom lists start (a + b) = rowsFrom lists start a ++ rowsFrom lists (start + a) b := by
  rw [rowsFrom, ← List.range'_append_1, List.map_append]
  rfl

/-- The rows of lists fall into empty ones before the first owner, its own, and the rows of the
other lists behind it. -/
theorem rowsFrom_cons {owner : NodeId} {edges : List PendingEdge} {rest : PendingLists}
    (ordered : Ordered ((owner, edges) :: rest)) {start bound : Nat}
    (low : start ≤ owner.toNat) (high : owner.toNat < bound) :
    rowsFrom ((owner, edges) :: rest) start (bound - start) =
      List.replicate (owner.toNat - start) [] ++
        edges.map (·.target) :: rowsFrom rest (owner.toNat + 1) (bound - (owner.toNat + 1)) := by
  obtain ⟨first_lt, -⟩ := List.pairwise_cons.1 ordered
  have before : rowsFrom ((owner, edges) :: rest) start (owner.toNat - start) =
      List.replicate (owner.toNat - start) [] := by
    apply rowsFrom_of_lt
    intro entry member
    rcases List.mem_cons.1 member with rfl | member
    · simp only
      omega
    · have := first_lt entry member
      simp only at this
      omega
  have here : targetsAt ((owner, edges) :: rest) owner.toNat = edges.map (·.target) := by
    rw [targetsAt, edgesAt, if_pos rfl]
  have behind : ∀ count, rowsFrom ((owner, edges) :: rest) (owner.toNat + 1) count =
      rowsFrom rest (owner.toNat + 1) count := by
    intro count
    apply List.map_congr_left
    intro i inside
    rw [List.mem_range'_1] at inside
    rw [targetsAt, targetsAt, edgesAt, if_neg (by omega)]
  have split : bound - start =
      (owner.toNat - start) + ((bound - (owner.toNat + 1)) + 1) := by omega
  rw [split, rowsFrom_add, before, Nat.add_sub_cancel' low, rowsFrom, List.range'_succ,
    List.map_cons, here]
  exact congrArg (fun rows => _ ++ _ :: rows) (behind _)

theorem entriesFrom_replicate (start count : Nat) (lists : List (List NodeId)) :
    entriesFrom start (List.replicate count [] ++ lists) =
      (entriesFrom start lists).map (List.replicate count VertexEntry.empty ++ ·) := by
  induction count with
  | zero =>
    change entriesFrom start lists = _
    cases entriesFrom start lists <;> rfl
  | succ count ih =>
    rw [List.replicate_succ, List.cons_append, entriesFrom_cons, if_pos rfl, ih]
    cases entriesFrom start lists <;> rfl

/-- The entries up to an owner: those written so far, empty ones for the nodes between, and the
entry of the owner. -/
def upTo (written : List VertexEntry) (owner : Nat) (entry : VertexEntry) : List VertexEntry :=
  written ++ (List.replicate (owner - written.length) .empty ++ [entry])

/-- Entries with empty ones behind them up to a bound. -/
def padded (written : List VertexEntry) (bound : Nat) : List VertexEntry :=
  written ++ List.replicate (bound - written.length) .empty

theorem length_upTo {written : List VertexEntry} {owner : Nat} (low : written.length ≤ owner)
    (entry : VertexEntry) : (upTo written owner entry).length = owner + 1 := by
  simp only [upTo, List.length_append, List.length_replicate, List.length_singleton]
  omega

section Padded

variable {written : List VertexEntry} {owner bound : Nat}

theorem padded_eq (low : written.length ≤ owner) (high : owner < bound) :
    padded written bound = padded (upTo written owner .empty) bound := by
  have split : bound - written.length =
      (owner - written.length) + ((bound - (owner + 1)) + 1) := by omega
  rw [padded, padded, length_upTo low, split, ← List.replicate_append_replicate,
    List.replicate_succ, upTo]
  simp only [List.append_assoc, List.cons_append, List.nil_append]

/-- Writing the entry of an owner into the padding. -/
theorem set_padded (low : written.length ≤ owner) (high : owner < bound) (entry : VertexEntry) :
    (padded written bound).set owner entry = padded (upTo written owner entry) bound := by
  have between :
      (written ++ List.replicate (owner - written.length) VertexEntry.empty).length = owner := by
    rw [List.length_append, List.length_replicate]
    omega
  have place : ∀ entry, padded (upTo written owner entry) bound =
      (written ++ List.replicate (owner - written.length) .empty) ++
        entry :: List.replicate (bound - (owner + 1)) .empty := by
    intro entry
    rw [padded, length_upTo low, upTo]
    simp only [List.append_assoc, List.cons_append, List.nil_append]
  rw [padded_eq low high, place, place, List.set_append_right _ _ (Nat.le_of_eq between), between,
    Nat.sub_self, List.set_cons_zero]

end Padded

theorem size_appendTargets (targets : Array NodeId) (edges : List PendingEdge) :
    (targets ++ edges.map (·.target)).size = targets.size + edges.length := by
  rw [← Array.length_toList, Array.toList_appendList, List.length_append, List.length_map,
    Array.length_toList]

theorem appendTargets_append (targets : Array NodeId) (xs ys : List NodeId) :
    targets ++ xs ++ ys = targets ++ (xs ++ ys) := by
  apply Array.ext'
  simp only [Array.toList_appendList, List.append_assoc]

/-- What packing the rows of the nodes behind the entries written so far gives. -/
def packedFrom (written : List VertexEntry) (bound : Nat) (targets : Array NodeId)
    (lists : PendingLists) : Except Error (Array VertexEntry × Array NodeId) :=
  let rows := rowsFrom lists written.length (bound - written.length)
  (entriesFrom targets.size rows).map fun entries =>
    ((written ++ entries).toArray, targets ++ rows.flatten)

section PackedFrom

variable {written : List VertexEntry} {bound : Nat} {targets : Array NodeId}

theorem packedFrom_nil :
    packedFrom written bound targets [] = .ok ((padded written bound).toArray, targets) := by
  have rows : rowsFrom [] written.length (bound - written.length) =
      List.replicate (bound - written.length) [] :=
    rowsFrom_of_lt fun entry member => absurd member List.not_mem_nil
  have entries := entriesFrom_replicate targets.size (bound - written.length) []
  rw [List.append_nil] at entries
  rw [packedFrom, rows, entries, List.flatten_replicate_nil]
  simp [entriesFrom, Except.map, padded]

variable {owner : NodeId} {edges : List PendingEdge} {rest : PendingLists}

/-- An owner without edges has an empty entry. -/
theorem packedFrom_cons_nil (ordered : Ordered ((owner, []) :: rest))
    (low : written.length ≤ owner.toNat) (high : owner.toNat < bound) :
    packedFrom written bound targets ((owner, []) :: rest) =
      packedFrom (upTo written owner.toNat .empty) bound targets rest := by
  simp only [packedFrom]
  rw [rowsFrom_cons ordered low high, entriesFrom_replicate, entriesFrom_cons, length_upTo low,
    List.map_nil, if_pos rfl]
  cases entriesFrom targets.size (rowsFrom rest (owner.toNat + 1) (bound - (owner.toNat + 1))) with
  | error e => rfl
  | ok entries => simp [Except.map, upTo]

/-- An owner with edges has the entry of the targets that are packed next. -/
theorem packedFrom_cons (ordered : Ordered ((owner, edges) :: rest))
    (low : written.length ≤ owner.toNat) (high : owner.toNat < bound) (nonempty : edges ≠ []) :
    packedFrom written bound targets ((owner, edges) :: rest) =
      (degreeOf edges.length).bind fun degree =>
        packedFrom (upTo written owner.toNat ⟨.sealed targets.size, degree⟩) bound
          (targets ++ edges.map (·.target)) rest := by
  have targetsNonempty : edges.map (·.target) ≠ [] := mt List.map_eq_nil_iff.1 nonempty
  simp only [packedFrom]
  rw [rowsFrom_cons ordered low high, entriesFrom_replicate, entriesFrom_cons, List.length_map,
    if_neg targetsNonempty, size_appendTargets]
  cases degreeOf edges.length with
  | error e => rfl
  | ok degree =>
    simp only [Except.bind, length_upTo low]
    cases entriesFrom (targets.size + edges.length)
        (rowsFrom rest (owner.toNat + 1) (bound - (owner.toNat + 1))) with
    | error e => rfl
    | ok entries =>
      simp only [Except.map, upTo, List.append_assoc, List.flatten_append,
        List.flatten_replicate_nil, List.nil_append, List.flatten_cons, appendTargets_append,
        List.cons_append]

end PackedFrom

/-- Packing list by list gives what packing the rows of the nodes gives. -/
theorem packInto_eq {lists : PendingLists} (ordered : lists.Ordered) {bound : Nat}
    {written : List VertexEntry}
    (keys : ∀ entry ∈ lists, written.length ≤ entry.1.toNat ∧ entry.1.toNat < bound)
    (targets : Array NodeId) :
    packInto (padded written bound).toArray targets lists =
      packedFrom written bound targets lists := by
  induction lists generalizing written targets with
  | nil => exact packedFrom_nil.symm
  | cons first rest ih =>
    obtain ⟨owner, edges⟩ := first
    obtain ⟨low, high⟩ := keys _ List.mem_cons_self
    obtain ⟨first_lt, behind⟩ := List.pairwise_cons.1 ordered
    -- Once the entry of the owner stands, the lists behind it are packed in the same way.
    have later : ∀ entry targets,
        packInto (padded (upTo written owner.toNat entry) bound).toArray targets rest =
          packedFrom (upTo written owner.toNat entry) bound targets rest := by
      intro entry targets
      refine ih behind (fun other member => ?_) targets
      rw [length_upTo low]
      exact ⟨first_lt other member, (keys other (List.mem_cons_of_mem _ member)).2⟩
    have write : ∀ entry, (padded written bound).toArray.setIfInBounds owner.toNat entry =
        (padded (upTo written owner.toNat entry) bound).toArray := by
      intro entry
      rw [List.setIfInBounds_toArray, set_padded low high]
    cases edges with
    | nil => rw [packInto, padded_eq low high, later, packedFrom_cons_nil ordered low high]
    | cons edge edges =>
      rw [packedFrom_cons ordered low high (List.cons_ne_nil edge edges), packInto]
      · simp only [write, later]
        rfl
      · exact List.cons_ne_nil edge edges

/-- Packing ordered lists is packing the rows of all nodes. -/
theorem pack_eq {lists : PendingLists} (ordered : lists.Ordered) {nodes : Nat}
    (keys : ∀ entry ∈ lists, entry.1.toNat < nodes) :
    lists.pack nodes = ofAdjacency (rowsFrom lists 0 nodes) := by
  have packed := @packInto_eq lists ordered nodes []
    (fun entry member => ⟨Nat.zero_le _, keys entry member⟩) #[]
  have blank : (padded [] nodes).toArray = Array.replicate nodes VertexEntry.empty := by
    simp [padded]
  rw [blank] at packed
  rw [pack, packed, ofAdjacency, packedFrom]
  simp only [List.length_nil, Nat.sub_zero, List.nil_append]
  cases entriesFrom 0 (rowsFrom lists 0 nodes) with
  | error e => rfl
  | ok entries => simp [Except.map, bind, Except.bind, pure, Except.pure]

end Pack

end PendingLists

end LayeredGraph
