import LayeredGraph.Proofs.Hint.Ranges

/-! Planning in words. Numbers of edges, their limits and counts of bytes are words of 64 bits.
Here everything that a plan computes is computed once more, and comes to nothing as soon as a sum,
a difference or a product would wrap. For a stack with fewer than 2^30 edges nothing wraps, whatever
the options are. -/
namespace LayeredGraph

namespace Word

/-- A sum that fits in a word. -/
def add? (a b : Nat) : Option Nat := if a + b < UInt64.size then some (a + b) else none

/-- A difference that is not negative. -/
def sub? (a b : Nat) : Option Nat := if b ≤ a then some (a - b) else none

/-- A product that fits in a word. -/
def mul? (a b : Nat) : Option Nat := if a * b < UInt64.size then some (a * b) else none

variable {a b : Nat}

theorem add?_eq (fits : a + b < UInt64.size) : add? a b = some (a + b) := if_pos fits

theorem sub?_eq (le : b ≤ a) : sub? a b = some (a - b) := if_pos le

theorem mul?_eq (fits : a * b < UInt64.size) : mul? a b = some (a * b) := if_pos fits

end Word

/-- If every element of a list has a value, so has the list. -/
theorem mapM_eq_some {α β : Type} {list : List α} {f : α → Option β} {value : α → β}
    (each : ∀ a ∈ list, f a = some (value a)) : list.mapM f = some (list.map value) := by
  induction list with
  | nil => rfl
  | cons a list ih =>
    have first := each a List.mem_cons_self
    have rest := ih fun b member => each b (List.mem_cons_of_mem _ member)
    rw [List.mapM_cons, first, rest]
    rfl

namespace InWords

/-- The edges of a node. -/
def edgeRange (level : Level) (node : NodeId) : Option EdgeRange :=
  let entry := level.entry node
  if entry.isEmpty then some ⟨level.edgeBase, level.edgeBase⟩
  else do
    let stop ← Word.add? entry.start.raw entry.degree.toNat
    return ⟨entry.start.raw, stop⟩

/-- The target of the edge with a number. -/
def target (level : Level) (number : Nat) : Option (Option NodeId) :=
  if number = EdgeRef.nilNumber ∨ number < level.edgeBase then some none
  else do
    let slot ← Word.sub? number level.edgeBase
    if slot < level.edgeCount then
      let start ← Word.mul? slot EdgeTable.slotBytes
      let stop ← Word.add? start EdgeTable.slotBytes
      return if stop ≤ level.table.byteSize then some (level.table.readAt start) else none
    else return none

def neighborRange (planner : Planner) (level : Level) (number : Nat) :
    Option (Option EdgeRange) := do
  match ← target level number with
  | none => return none
  | some neighbor =>
      if level.degree neighbor < planner.minNeighborDegree then return none
      else
        let range ← edgeRange level neighbor
        if range.isEmpty then return none
        else
          let limit ← Word.add? range.start planner.maxHintEdges
          return some ⟨range.start, min range.stop limit⟩

def window (planner : Planner) (level : Level) (direction : Direction) :
    Option (Option EdgeRange) := do
  let tableEnd ← Word.add? level.edgeBase level.edgeCount
  let start := max (planner.hintedUpto.get direction) level.edgeBase
  if tableEnd ≤ start then return none
  else
    let stop ← Word.add? start planner.windowEdges
    return some ⟨start, min stop tableEnd⟩

/-- The hints that a request asks for in a level. -/
def hintsIn (planner : Planner) (request : Request) (level : Level) : Option (List Hint) :=
  match planner.policy with
  | .nodeOnly => do
      let own ← edgeRange level request.node
      return if own.isEmpty then [] else [⟨level, own⟩]
  | .complete => do
      let own ← edgeRange level request.node
      if own.isEmpty then return []
      else
        let ranges ← own.numbers.mapM (neighborRange planner level)
        return ⟨level, own⟩ :: (ranges.filterMap id).map (⟨level, ·⟩)
  | .sequential => do
      let range ← window planner level request.direction
      return (range.map (Hint.mk level)).toList

def fullPlan (planner : Planner) (snapshot : Snapshot) (request : Request) :
    Option (List Hint) := do
  let levels := planner.levelsAsked request (snapshot.stack request.direction)
  let hints ← levels.mapM (hintsIn planner request)
  return hints.flatten

/-- The bytes that a hint covers. -/
def bytes (hint : Hint) : Option Nat := do
  let length ← Word.sub? hint.range.stop hint.range.start
  Word.mul? length EdgeTable.slotBytes

/-- Makes some hints, and adds the bytes of those that work to a sum. -/
def issueAll (outlet : Outlet) (sum : Nat) : List Hint → Option Nat
  | [] => some sum
  | hint :: hints => do
      let covered ← bytes hint
      let (worked, outlet) := outlet.issue hint
      let sum ← if worked then Word.add? sum covered else some sum
      issueAll outlet sum hints

/-- What becomes of a request. -/
def process (worker : Worker) (snapshot : Snapshot) (request : Request) (current : UInt32) :
    Option Outcome :=
  if worker.isStale request current then some .stale
  else do
    let hints ← fullPlan worker.planner snapshot request
    let bytes ← issueAll worker.outlet 0 hints
    return .hinted hints.length bytes

section Level

variable {level : Level} {planner : Planner}

theorem edgeRange_eq (sound : level.Sound) (few : level.edgeEnd < 1073741824) (node : NodeId) :
    edgeRange level node = some (level.edgeRange node) := by
  rw [edgeRange]
  cases empty : (level.entry node).isEmpty with
  | true => rw [Level.edgeRange_of_isEmpty empty, if_pos rfl]
  | false =>
    have stop := (sound node).2
    rw [Level.edgeRange_of_not_isEmpty empty] at stop ⊢
    have fits : (level.entry node).start.raw + (level.entry node).degree.toNat < UInt64.size :=
      Nat.lt_of_le_of_lt stop (Nat.lt_trans few (by decide))
    rw [Word.add?_eq fits]
    rfl

/-- The table is read at the slot of the edge. -/
theorem target_eq (few : level.edgeEnd < 1073741824) {number : Nat}
    (low : level.edgeBase ≤ number) (high : number < level.edgeEnd) :
    target level number = some (level.target? (.sealed number)) := by
  have places : level.edgeEnd = level.edgeBase + level.edgeCount := rfl
  have size : UInt64.size = 18446744073709551616 := rfl
  have here : ¬(number = EdgeRef.nilNumber ∨ number < level.edgeBase) := by
    have nil : EdgeRef.nilNumber = 18446744073709551615 := rfl
    omega
  have inside : number - level.edgeBase < level.edgeCount := by omega
  have start : (number - level.edgeBase) * EdgeTable.slotBytes =
      (number - level.edgeBase) * 8 := rfl
  have table : level.table.byteSize = level.edgeCount * 8 := rfl
  have slot : EdgeTable.slotBytes = 8 := rfl
  have stop : (number - level.edgeBase) * EdgeTable.slotBytes + EdgeTable.slotBytes ≤
      level.table.byteSize := by omega
  rw [target, if_neg here, Word.sub?_eq low, level.target?_sealed low high]
  simp only [Option.bind_eq_bind, Option.bind_some, if_pos inside]
  rw [Word.mul?_eq (by omega)]
  simp only [Option.bind_some]
  rw [Word.add?_eq (by omega)]
  simp only [Option.bind_some, if_pos stop]
  rfl

theorem neighborRange_eq (sound : level.Sound) (few : level.edgeEnd < 1073741824)
    (limited : planner.Limited) {number : Nat} (low : level.edgeBase ≤ number)
    (high : number < level.edgeEnd) :
    neighborRange planner level number = some (planner.neighborRange? level number) := by
  rw [neighborRange, target_eq few low high, Planner.neighborRange?]
  simp only [Option.bind_eq_bind, Option.bind_some]
  cases level.target? (.sealed number) with
  | none => rfl
  | some neighbor =>
    simp only [edgeRange_eq sound few, Option.bind_some]
    split
    · rfl
    split
    · rfl
    next nonempty =>
    have whole := Planner.inside_own sound nonempty
    have start := whole.nonempty
    have stop := whole.stop
    have small := limited.hintSmall
    have size : UInt64.size = 18446744073709551616 := rfl
    simp only at start stop
    rw [Word.add?_eq (by omega)]
    rfl

theorem window_eq (few : level.edgeEnd < 1073741824) (limited : planner.Limited)
    (direction : Direction) :
    window planner level direction = some (planner.window? level direction) := by
  have size : UInt64.size = 18446744073709551616 := rfl
  have places : level.edgeEnd = level.edgeBase + level.edgeCount := rfl
  have small := limited.windowSmall
  rw [window, Planner.window?, Word.add?_eq (by omega)]
  simp only [Option.bind_eq_bind, Option.bind_some, ← places]
  split
  · rfl
  next more =>
  rw [Word.add?_eq (by omega)]
  rfl

theorem hintsIn_eq (sound : level.Sound) (few : level.edgeEnd < 1073741824)
    (limited : planner.Limited) (request : Request) :
    hintsIn planner request level = some (planner.hintsIn request level) := by
  rw [hintsIn, Planner.hintsIn]
  cases planner.policy with
  | nodeOnly =>
    simp only [edgeRange_eq sound few, Option.bind_eq_bind, Option.bind_some]
    rfl
  | sequential =>
    simp only [window_eq few limited, Option.bind_eq_bind, Option.bind_some]
    rfl
  | complete =>
    simp only [edgeRange_eq sound few, Option.bind_eq_bind, Option.bind_some,
      Planner.twoHopHints]
    split
    · rfl
    next nonempty =>
    have own := Planner.inside_own sound nonempty
    have each : ∀ number ∈ (level.edgeRange request.node).numbers,
        neighborRange planner level number = some (planner.neighborRange? level number) := by
      intro number member
      obtain ⟨low, high⟩ := EdgeRange.mem_numbers.1 member
      exact neighborRange_eq sound few limited (Nat.le_trans own.start low)
        (Nat.lt_of_lt_of_le high own.stop)
    rw [mapM_eq_some each]
    simp only [Option.bind_some, List.filterMap_map, Function.id_comp]
    rfl

end Level

theorem fullPlan_eq {planner : Planner} {snapshot : Snapshot} {request : Request}
    {contents : List LevelData} (held : (snapshot.stack request.direction).Holds contents)
    (limited : planner.Limited)
    (few : (snapshot.stack request.direction).edgeCount < 1073741824) :
    fullPlan planner snapshot request = some (planner.fullPlan snapshot request) := by
  have each : ∀ level ∈ planner.levelsAsked request (snapshot.stack request.direction),
      hintsIn planner request level = some (planner.hintsIn request level) := by
    intro level member
    have listed := (planner.levelsAsked_isPrefix request _).subset member
    exact hintsIn_eq (held.sound level listed) (Nat.lt_of_le_of_lt (held.edgeEnd_le listed) few)
      limited request
  rw [fullPlan, mapM_eq_some each, Planner.fullPlan_eq, List.flatMap_def]
  rfl

theorem issueAll_eq {hints : List Hint} (inside : ∀ hint ∈ hints, hint.Inside)
    (outlet : Outlet) {sum : Nat} (fits : sum + Hint.totalBytes hints < UInt64.size) :
    issueAll outlet sum hints = some (sum + (outlet.issueAll hints).1) := by
  induction hints generalizing outlet sum with
  | nil => rfl
  | cons hint hints ih =>
    have total : Hint.totalBytes (hint :: hints) = hint.bytes + Hint.totalBytes hints := rfl
    have ordered := (inside hint List.mem_cons_self).nonempty
    have rest : ∀ other ∈ hints, other.Inside :=
      fun other member => inside other (List.mem_cons_of_mem _ member)
    have covered : bytes hint = some hint.bytes := by
      have fits : hint.bytes < UInt64.size := by omega
      rw [bytes, Word.sub?_eq (Nat.le_of_lt ordered)]
      exact Word.mul?_eq fits
    rw [issueAll, covered, Outlet.issueAll]
    simp only [Option.bind_eq_bind, Option.bind_some]
    cases (outlet.issue hint).1 with
    | false =>
      simp only [Bool.false_eq_true, if_false]
      exact ih rest _ (by omega)
    | true =>
      simp only [if_true]
      rw [Word.add?_eq (by omega)]
      simp only [Option.bind_some]
      rw [ih rest _ (by omega), Nat.add_assoc]

/-- Nothing wraps while a request is processed, and its outcome is the one without words. -/
theorem process_eq {worker : Worker} {snapshot : Snapshot} {request : Request}
    {contents : List LevelData} (held : (snapshot.stack request.direction).Holds contents)
    (limited : worker.planner.Limited)
    (few : (snapshot.stack request.direction).edgeCount < 1073741824) (current : UInt32) :
    process worker snapshot request current =
      some (worker.process snapshot request current).1 := by
  rw [process]
  cases age : worker.isStale request current with
  | true =>
    have outcome : worker.process snapshot request current = _ :=
      Worker.processWith_of_stale age _
    rw [outcome]
    rfl
  | false =>
    have inside : ∀ hint ∈ worker.planner.fullPlan snapshot request, hint.Inside :=
      fun hint member => (Planner.inside_of_mem_fullPlan held limited member).2
    have fits := Planner.totalBytes_fullPlan_lt held limited few
    rw [fullPlan_eq held limited few, Worker.process_of_fresh age]
    simp only [Option.bind_eq_bind, Option.bind_some]
    rw [issueAll_eq inside _ (by omega), Nat.zero_add]
    rfl

end InWords

end LayeredGraph
