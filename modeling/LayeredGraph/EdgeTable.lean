import LayeredGraph.Error

/-! The packed target table of one level: every target takes one slot of eight bytes, least
significant byte first. A table is read by slot, and ranges of slots are turned into byte spans
so that part of the table can be asked into memory. -/
namespace LayeredGraph

/-- The eight bytes of a word, least significant first. -/
def wordBytes (word : UInt64) : List UInt8 :=
  (List.range 8).map fun i => (word.toNat >>> (8 * i)).toUInt8

/-- The word whose bytes are given least significant first. -/
def wordOfBytes (bytes : List UInt8) : UInt64 :=
  UInt64.ofNat (bytes.foldr (fun byte high => byte.toNat + 256 * high) 0)

@[simp] theorem length_wordBytes (word : UInt64) : (wordBytes word).length = 8 := by
  simp [wordBytes]

theorem wordOfBytes_wordBytes (word : UInt64) : wordOfBytes (wordBytes word) = word := by
  have bound := word.toNat_lt
  apply UInt64.toNat_inj.1
  simp only [wordOfBytes, wordBytes, List.range, List.range.loop, List.map_cons, List.map_nil,
    List.foldr_cons, List.foldr_nil, Nat.toUInt8_eq, UInt8.toNat_ofNat', UInt64.toNat_ofNat',
    Nat.shiftRight_eq_div_pow]
  omega

/-- Targets in slots of eight bytes. -/
structure EdgeTable where
  slots : Nat
  bytes : Array UInt8
  deriving DecidableEq, Repr

namespace EdgeTable

/-- Bytes of one slot. -/
def slotBytes : Nat := 8

def ofTargets (targets : List NodeId) : EdgeTable :=
  ⟨targets.length, (targets.flatMap fun t => wordBytes t.number).toArray⟩

def isEmpty (table : EdgeTable) : Bool := table.slots == 0

def byteSize (table : EdgeTable) : Nat := table.slots * slotBytes

/-- The target that starts at a byte position. -/
def readAt (table : EdgeTable) (start : Nat) : NodeId :=
  ⟨wordOfBytes (table.bytes.extract start (start + slotBytes)).toList⟩

/-- The target in a slot of the table. -/
def target? (table : EdgeTable) (slot : Nat) : Option NodeId :=
  if slot < table.slots then some (table.readAt (slot * slotBytes)) else none

/-- The byte span of a slot in 64-bit arithmetic. The product is checked, and the end is formed
by a plain sum. -/
def slotSpan? (slot : UInt64) : Option (UInt64 × UInt64) :=
  if slot.toNat * slotBytes < UInt64.size then some (slot * 8, slot * 8 + 8) else none

/-- The target in a slot named by any 64-bit number: a span that does not lie in the table reads
nothing. -/
def get (table : EdgeTable) (slot : UInt64) : Option NodeId := do
  let (start, stop) ← slotSpan? slot
  if start ≤ stop ∧ stop.toNat ≤ table.bytes.size then some (table.readAt start.toNat) else none

/-- Whether the end of a slot's span leaves the words, so that it wraps around to before the
start. For an empty table no span is formed. -/
def overflows (table : EdgeTable) (slot : UInt64) : Bool :=
  !table.isEmpty && (slotSpan? slot).any fun (start, stop) => stop < start

/-- The target in a slot, where a sum that leaves the words is a fault instead of wrapping
around. -/
def read (table : EdgeTable) (slot : UInt64) : Except Overflow (Option NodeId) :=
  if table.overflows slot then .error .sum else .ok (table.get slot)

/-- The byte span of a range of slots, cut to the table. -/
def byteSpan (table : EdgeTable) (start stop : Nat) : Nat × Nat :=
  let stop := min stop table.slots
  let start := min start stop
  (start * slotBytes, stop * slotBytes)

/-- The byte span that is asked into memory for a range of slots; nothing is asked for an empty
one. -/
def advisedSpan? (table : EdgeTable) (start stop : Nat) : Option (Nat × Nat) :=
  let span := table.byteSpan start stop
  if span.1 < span.2 then some span else none

def text (table : EdgeTable) : String :=
  "EdgeRegion \x7b slots: " ++ toString table.slots ++ ", mapped: "
    ++ (if table.isEmpty then "false" else "true") ++ " \x7d"

@[simp] theorem slots_ofTargets (targets : List NodeId) :
    (ofTargets targets).slots = targets.length := rfl

end EdgeTable

example : wordBytes 0x0102 = [2, 1, 0, 0, 0, 0, 0, 0] := by decide

end LayeredGraph
