import LayeredGraph.Proofs.Stack

/-! Which contents a stack takes as a new level, what it is then, and what it answers to others. The
pass over a
vertex table remembers only where the last range ended; still its answer is that of checking every
entry against all entries before it, and of taking the first one with a fault. Where an empty entry
claims to start makes no difference to anything. -/
namespace LayeredGraph

namespace VertexEntry

/-- The fault of an entry behind some others, in a table with some slots. -/
def fault? (slots : Nat) (earlier : List VertexEntry) (entry : VertexEntry) : Option LevelFault :=
  if entry.degree = 0 then none
  else if entry.start = .nil then some .noRange
  else if earlier.any fun other => other.degree ≠ 0 ∧ entry.start.raw < other.stop then
    some .disorder
  else if UInt64.size ≤ entry.stop then some .overflow
  else if slots < entry.stop then some .pastTable
  else none

/-- The ranges of some entries reach up to a position: they end there at the latest, and one of them
does unless the position is zero. -/
def ReachTo (entries : List VertexEntry) (position : Nat) : Prop :=
  ∀ start, (∃ other ∈ entries, other.degree ≠ 0 ∧ start < other.stop) ↔ start < position

theorem reachTo_nil : ReachTo [] 0 := by
  intro start
  simp

theorem ReachTo.append_empty {entries : List VertexEntry} {position : Nat}
    (h : ReachTo entries position) {entry : VertexEntry} (empty : entry.degree = 0) :
    ReachTo (entries ++ [entry]) position := by
  intro start
  rw [← h start]
  simp [empty, or_and_right, exists_or]

/-- A range that starts behind all others becomes the last one. -/
theorem ReachTo.append {entries : List VertexEntry} {position : Nat}
    (h : ReachTo entries position) {entry : VertexEntry} (nonempty : entry.degree ≠ 0)
    (behind : position ≤ entry.start.raw) : ReachTo (entries ++ [entry]) entry.stop := by
  intro start
  have longer : entry.start.raw ≤ entry.stop := Nat.le_add_right _ _
  have before := h start
  simp only [List.mem_append, List.mem_singleton, or_and_right, exists_or, before, exists_eq_left,
    and_iff_right nonempty]
  omega

section Step

variable {slots position : Nat} {earlier : List VertexEntry} {entry : VertexEntry}

/-- The range of an entry without a fault starts behind all before it. -/
theorem ReachTo.next (reach : ReachTo earlier position)
    (sound : entry.fault? slots earlier = none) :
    ReachTo (earlier ++ [entry]) (if entry.degree = 0 then position else entry.stop) := by
  split
  · next empty => exact reach.append_empty empty
  · next nonempty =>
    refine reach.append nonempty (Nat.not_lt.1 fun overlap => ?_)
    have overlaps : (earlier.any fun other => other.degree ≠ 0 ∧ entry.start.raw < other.stop) =
        true := by simpa using (reach _).2 overlap
    rw [fault?, if_neg nonempty, if_pos overlaps] at sound
    split at sound <;> nomatch sound

end Step

/-- A fault of an entry, all entries before it being without. -/
def FirstFault (slots : Nat) (earlier entries : List VertexEntry) (fault : LevelFault) : Prop :=
  ∃ (i : Nat) (entry : VertexEntry), entries[i]? = some entry ∧
    entry.fault? slots (earlier ++ entries.take i) = some fault ∧
    ∀ (j : Nat) (other : VertexEntry), j < i → entries[j]? = some other →
      other.fault? slots (earlier ++ entries.take j) = none

section First

variable {slots : Nat} {earlier entries : List VertexEntry} {entry : VertexEntry}
  {first fault : LevelFault}

theorem firstFault_cons_of_some (own : entry.fault? slots earlier = some first) :
    FirstFault slots earlier (entry :: entries) fault ↔ first = fault := by
  constructor
  · rintro ⟨i, other, found, fault, before⟩
    cases i with
    | zero => simp_all
    | succ i =>
      have none := before 0 entry (Nat.succ_pos i) rfl
      simp [own] at none
  · rintro rfl
    exact ⟨0, entry, rfl, by simpa using own, nofun⟩

theorem firstFault_cons_of_none (own : entry.fault? slots earlier = none) :
    FirstFault slots earlier (entry :: entries) fault ↔
      FirstFault slots (earlier ++ [entry]) entries fault := by
  constructor
  · rintro ⟨i, other, found, fault, before⟩
    cases i with
    | zero => simp_all
    | succ i =>
      refine ⟨i, other, found, by simpa using fault, fun j another less here => ?_⟩
      simpa using before (j + 1) another (Nat.succ_lt_succ less) here
  · rintro ⟨i, other, found, fault, before⟩
    refine ⟨i + 1, other, found, by simpa using fault, fun j another less here => ?_⟩
    cases j with
    | zero => simp_all
    | succ j => simpa using before j another (Nat.lt_of_succ_lt_succ less) here

end First

end VertexEntry

namespace LevelData

open VertexEntry

section Table

variable {slots position : Nat} {earlier entries : List VertexEntry} {entry : VertexEntry}
  {fault : LevelFault}

/-- One step of the pass: the position where the last range ended says enough about all entries
before. -/
theorem entryFault?_cons (reach : ReachTo earlier position) :
    entryFault? slots position (entry :: entries) =
      (entry.fault? slots earlier).or
        (entryFault? slots (if entry.degree = 0 then position else entry.stop) entries) := by
  have overlaps : (earlier.any fun other => other.degree ≠ 0 ∧ entry.start.raw < other.stop) =
      decide (entry.start.raw < position) := by
    rw [Bool.eq_iff_iff, decide_eq_true_iff, ← reach]
    simp
  rw [entryFault?, VertexEntry.fault?, overlaps]
  simp only [VertexEntry.isEmpty_iff, decide_eq_true_eq]
  split
  · rfl
  split
  · rfl
  split
  · rfl
  change (if UInt64.size ≤ entry.stop then _ else if slots < entry.stop then _ else _) = _
  split
  · rfl
  split
  · rfl
  · rfl

/-- The answer of the pass is the fault of the first entry that has one. -/
theorem entryFault?_eq_some_iff (reach : ReachTo earlier position) :
    entryFault? slots position entries = some fault ↔ FirstFault slots earlier entries fault := by
  induction entries generalizing earlier position with
  | nil => simp [entryFault?, FirstFault]
  | cons entry entries ih =>
    rw [entryFault?_cons reach]
    cases own : entry.fault? slots earlier with
    | some first => simp [firstFault_cons_of_some own]
    | none => rw [Option.none_or, ih (reach.next own), firstFault_cons_of_none own]

end Table

/-- The fault of some contents is that of the first entry with one, or else a target past the
bound. -/
theorem fault?_eq_some_iff {data : LevelData} {bound : Nat} {fault : LevelFault} :
    data.fault? bound = some fault ↔
      FirstFault data.edgeCount [] data.vertices fault ∨
      (∀ first, ¬FirstFault data.edgeCount [] data.vertices first) ∧
        (∃ target ∈ data.targets, bound ≤ target.toNat) ∧ fault = .targetPastBound := by
  simp only [← entryFault?_eq_some_iff reachTo_nil]
  rw [LevelData.fault?]
  cases entryFault? data.edgeCount 0 data.vertices with
  | some first => simp
  | none =>
    have last : LevelFault.targetPastBound = fault ↔ fault = .targetPastBound := eq_comm
    simp [last]

end LevelData

namespace VertexEntry

/-- An entry with its start left out where it is empty. -/
def settled (entry : VertexEntry) : VertexEntry := if entry.isEmpty then .empty else entry

@[simp] theorem isEmpty_settled (entry : VertexEntry) :
    entry.settled.isEmpty = entry.isEmpty := by
  rw [settled]
  split <;> simp_all

theorem settled_of_not_isEmpty {entry : VertexEntry} (h : entry.isEmpty = false) :
    entry.settled = entry := by simp [settled, h]

theorem settled_eq {a b : VertexEntry} (degree : a.degree = b.degree)
    (start : a.degree ≠ 0 → a.start = b.start) : a.settled = b.settled := by
  have empty : a.isEmpty = b.isEmpty := by rw [isEmpty, isEmpty, degree]
  rw [settled, settled, empty]
  split
  · rfl
  · next nonempty =>
    have same := start fun zero => nonempty (empty ▸ (isEmpty_iff a).2 zero)
    cases a
    cases b
    simp_all

end VertexEntry

theorem Level.rebase_settled (base : Nat) (entry : VertexEntry) :
    rebase base entry.settled = rebase base entry := by
  cases empty : entry.isEmpty with
  | true => simp [rebase, empty]
  | false => rw [VertexEntry.settled_of_not_isEmpty empty]

namespace LevelData

/-- Contents with the starts of empty entries left out. -/
def settled (data : LevelData) : LevelData :=
  { data with vertices := data.vertices.map VertexEntry.settled }

theorem entryFault?_settled (slots position : Nat) (entries : List VertexEntry) :
    entryFault? slots position (entries.map VertexEntry.settled) =
      entryFault? slots position entries := by
  induction entries generalizing position with
  | nil => rfl
  | cons entry entries ih =>
    rw [List.map_cons, entryFault?, entryFault?, VertexEntry.isEmpty_settled, ih]
    cases empty : entry.isEmpty with
    | true => rfl
    | false =>
      rw [VertexEntry.settled_of_not_isEmpty empty]
      simp only [ih]

theorem ofData_settled (index base : Nat) (data : LevelData) :
    Level.ofData index base data.settled = Level.ofData index base data := by
  simp [Level.ofData, settled, Level.rebase_settled]

theorem withLevel_settled (stack : Stack) (data : LevelData) :
    stack.withLevel data.settled = stack.withLevel data := by
  have nodes : data.settled.nodeCount = data.nodeCount := List.length_map _
  have fault (bound : Nat) : data.settled.fault? bound = data.fault? bound := by
    have entries := entryFault?_settled data.edgeCount 0 data.vertices
    rw [LevelData.fault?, LevelData.fault?, ← entries]
    rfl
  rw [Stack.withLevel, Stack.withLevel, nodes, fault, ofData_settled]
  rfl

/-- Contents that differ at most in where empty entries claim to start. -/
structure Alike (data other : LevelData) : Prop where
  targets : data.targets = other.targets
  nodeCount : data.nodeCount = other.nodeCount
  entries : ∀ (i : Nat) (a b : VertexEntry), data.vertices[i]? = some a →
    other.vertices[i]? = some b → a.degree = b.degree ∧ (a.degree ≠ 0 → a.start = b.start)

theorem Alike.settled_eq {data other : LevelData} (h : data.Alike other) :
    data.settled = other.settled := by
  have vertices : data.vertices.map VertexEntry.settled =
      other.vertices.map VertexEntry.settled := by
    refine List.ext_getElem ?_ fun i left right => ?_
    · rw [List.length_map, List.length_map]
      exact h.nodeCount
    rw [List.length_map] at left right
    obtain ⟨degree, start⟩ := h.entries i _ _ (List.getElem?_eq_getElem left)
      (List.getElem?_eq_getElem right)
    simpa using VertexEntry.settled_eq degree start
  rw [settled, settled, vertices, h.targets]

end LevelData

namespace Level

/-- A level that holds some contents, with an index and a base: the range of an entry moves up by
the base, an empty entry has no range, and the targets lie in the slots in their order. -/
structure Seals (level : Level) (index base : Nat) (data : LevelData) : Prop where
  index : level.index = index
  edgeBase : level.edgeBase = base
  entries : ∀ i : Nat, level.entries[i]? = data.vertices[i]?.map fun entry =>
    if entry.degree = 0 then .empty else ⟨.sealed (base + entry.start.raw), entry.degree⟩
  targets : ∀ slot, level.table.target? slot = data.targets[slot]?

theorem seals_ofData (index base : Nat) (data : LevelData) :
    (ofData index base data).Seals index base data where
  index := rfl
  edgeBase := rfl
  entries i := by
    have moved : rebase base = fun entry =>
        if entry.degree = 0 then .empty else ⟨.sealed (base + entry.start.raw), entry.degree⟩ := by
      funext entry
      simp only [rebase, VertexEntry.isEmpty_iff]
    rw [ofData, List.getElem?_toArray, List.getElem?_map, moved]
  targets slot := EdgeTable.target?_ofTargets data.targets slot

end Level

namespace Stack

open LevelData VertexEntry

theorem withLevel_eq_error_iff {stack : Stack} {data : LevelData} {e : Error} :
    stack.withLevel data = .error e ↔
      ∃ fault, data.fault? (max stack.maxNodes data.nodeCount) = some fault ∧
        e = .corruption fault.message := by
  rw [withLevel]
  cases data.fault? (max stack.maxNodes data.nodeCount) <;> simp [eq_comm]

/-- A stack takes exactly the contents whose ranges lie in the target table, each behind those of
earlier nodes, and whose targets are nodes covered then. They become one more level, whose edges are
numbered behind all others. Other contents are refused for the first entry that has a fault, looked
at in table order: it has no range, or overlaps an earlier range or lies before it, or ends past all
words, or past the table; only if no entry has a fault, for a target. Where empty entries claim to
start makes no difference. -/
theorem first_fault_refuses_level (stack : Stack) (data : LevelData)
    (size : data.edgeCount < UInt64.size) :
    let nodes := max stack.maxNodes data.vertices.length
    ((∃ grown, stack.withLevel data = .ok grown) ↔
      (∀ entry ∈ data.vertices, entry.degree ≠ 0 →
        entry.start ≠ .nil ∧ entry.start.raw + entry.degree.toNat ≤ data.targets.length) ∧
      (data.vertices.Pairwise fun first second => first.degree ≠ 0 → second.degree ≠ 0 →
        first.start.raw + first.degree.toNat ≤ second.start.raw) ∧
      ∀ target ∈ data.targets, target.toNat < nodes) ∧
    (∀ grown, stack.withLevel data = .ok grown →
      grown.maxNodes = nodes ∧ grown.edgeCount = stack.edgeCount + data.targets.length ∧
      ∃ level, grown.levels = stack.levels.push level ∧
        level.Seals stack.levels.size stack.edgeCount data) ∧
    (∀ e, stack.withLevel data = .error e ↔
      (∃ fault, FirstFault data.targets.length [] data.vertices fault ∧
        e = .corruption fault.message) ∨
      (∀ fault, ¬FirstFault data.targets.length [] data.vertices fault) ∧
        (∃ target ∈ data.targets, nodes ≤ target.toNat) ∧
        e = .corruption "edge target past max_nodes") ∧
    ∀ other, data.Alike other → stack.withLevel other = stack.withLevel data := by
  intro nodes
  have nonempty (entry : VertexEntry) : entry.isEmpty = false ↔ entry.degree ≠ 0 := by
    rw [← Bool.not_eq_true, VertexEntry.isEmpty_iff]
  refine ⟨?_, fun grown taken => ?_, fun e => ?_, fun other alike => ?_⟩
  · rw [withLevel_eq_ok_iff]
    constructor
    · intro sealable
      refine ⟨fun entry member some => ?_, sealable.ordered.imp fun before first second => ?_,
        sealable.bounded⟩
      · have inside := sealable.inside entry member
        have filled := (nonempty entry).2 some
        exact ⟨inside.start_ne_nil filled, inside.stop_le filled⟩
      · exact before ((nonempty _).2 first) ((nonempty _).2 second)
    · rintro ⟨inside, ordered, bounded⟩
      refine ⟨fun entry member => ⟨fun some => ?_, fun some => ?_, fun some => ?_⟩,
        ordered.imp fun before first second => ?_, bounded⟩
      · exact (inside entry member ((nonempty entry).1 some)).1
      · exact (inside entry member ((nonempty entry).1 some)).2
      · exact Nat.lt_of_le_of_lt (inside entry member ((nonempty entry).1 some)).2 size
      · exact before ((nonempty _).1 first) ((nonempty _).1 second)
  · rw [eq_of_withLevel taken]
    exact ⟨rfl, rfl, _, rfl, Level.seals_ofData _ _ _⟩
  · rw [withLevel_eq_error_iff]
    simp only [fault?_eq_some_iff]
    constructor
    · rintro ⟨fault, first | ⟨sound, past, rfl⟩, rfl⟩
      · exact .inl ⟨fault, first, rfl⟩
      · exact .inr ⟨sound, past, rfl⟩
    · rintro (⟨fault, first, rfl⟩ | ⟨sound, past, rfl⟩)
      · exact ⟨fault, .inl first, rfl⟩
      · exact ⟨.targetPastBound, .inr ⟨sound, past, rfl⟩, rfl⟩
  · rw [← withLevel_settled, ← alike.settled_eq, withLevel_settled]

/-- An empty entry that claims to start past the table does no harm, and the level forgets the
claim. Of a range that overlaps an earlier one, ends past the table and leads to no node, the
overlap is reported. -/
theorem first_fault_refuses_level_of_overlap :
    let targets : List NodeId := [⟨0⟩, ⟨1⟩, ⟨7⟩]
    let odd : LevelData := ⟨[⟨.sealed 0, 1⟩, ⟨.sealed 9, 0⟩, ⟨.sealed 1, 2⟩], targets⟩
    let plain : LevelData := ⟨[⟨.sealed 0, 1⟩, .empty, ⟨.sealed 1, 2⟩], targets⟩
    let bad : LevelData := ⟨[⟨.sealed 0, 2⟩, .empty, ⟨.sealed 1, 9⟩], targets⟩
    let wide : Stack := ⟨#[], 8, 0⟩
    odd.edgeCount < UInt64.size ∧ bad.edgeCount < UInt64.size ∧
    (∃ grown level, wide.withLevel odd = .ok grown ∧ grown.levels = #[level] ∧
      grown.maxNodes = 8 ∧ grown.edgeCount = 3 ∧ level.entries[1]? = some .empty ∧
      level.table.target? 2 = some ⟨7⟩) ∧
    wide.withLevel plain = wide.withLevel odd ∧
    empty.withLevel bad = .error (.corruption "adjacency ranges overlap or are out of order") := by
  intro targets odd plain bad wide
  have few : odd.edgeCount < UInt64.size := by decide
  have few' : bad.edgeCount < UInt64.size := by decide
  obtain ⟨taken, becomes, -, alike⟩ := first_fault_refuses_level wide odd few
  obtain ⟨-, -, refused, -⟩ := first_fault_refuses_level empty bad few'
  obtain ⟨grown, ok⟩ := taken.2 (by decide)
  obtain ⟨nodes, edges, level, levels, seals⟩ := becomes grown ok
  refine ⟨few, few', ⟨grown, level, ok, levels, nodes, edges, seals.entries 1, seals.targets 2⟩,
    alike plain ⟨rfl, rfl, ?_⟩,
    (refused _).2 (.inl ⟨.disorder, ⟨2, ⟨.sealed 1, 9⟩, rfl, by decide, ?_⟩, rfl⟩)⟩
  · intro i a b first second
    match i with
    | 0 | 1 | 2 =>
      obtain rfl := Option.some.inj first
      obtain rfl := Option.some.inj second
      decide
    | i + 3 => nomatch first
  · intro j other before found
    match j with
    | 0 | 1 =>
      obtain rfl := Option.some.inj found
      decide
    | j + 2 => omega

end Stack

end LayeredGraph
