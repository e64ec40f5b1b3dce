import LayeredGraph.Queue.Request
import LayeredGraph.Queue.Slots

/-! A ring that never refuses a request: a new one overwrites the oldest. Every slot carries a word
that names the position of the request it holds, so the reader sees when it has been overtaken,
skips what was overwritten and counts it as dropped. -/
namespace LayeredGraph

/-- The words of a request, and the word that names the position it was written at. -/
structure RingSlot where
  state : UInt64
  words : RequestWords
  deriving DecidableEq, Repr

/-- The state word of a slot that holds the request of a position: the position above two bits, of
which the higher one says that the slot is full. -/
def RingSlot.fullState (position : Nat) : UInt64 := UInt64.ofNat (4 * position + 2)

/-- Slots as far as they have been written, the next positions to write and to read, and the number
of requests that the reader found overwritten. -/
structure RingQueue where
  capacity : Nat
  slots : Array RingSlot
  tail : Nat
  head : Nat
  dropped : Nat
  deriving DecidableEq, Repr

namespace RingQueue

/-- An empty ring; a capacity of zero counts as one. -/
def empty (capacity : Nat) : RingQueue := ⟨max capacity 1, #[], 0, 0, 0⟩

/-- The number of requests that are waiting and were not overwritten. -/
def length (ring : RingQueue) : Nat := min (ring.tail - ring.head) ring.capacity

def enqueue (ring : RingQueue) (request : Request) : RingQueue :=
  { ring with
    slots := writeSlot ring.slots (ring.tail % ring.capacity)
      ⟨RingSlot.fullState ring.tail, .ofRequest request⟩
    tail := ring.tail + 1 }

/-- Moves the reader past requests that were overwritten. -/
def catchUp (ring : RingQueue) : RingQueue :=
  if ring.capacity < ring.tail - ring.head then
    { ring with
      dropped := ring.dropped + (ring.tail - ring.capacity - ring.head)
      head := ring.tail - ring.capacity }
  else ring

/-- What one look at the ring finds. -/
inductive Look where
  | empty
  | retry
  | found (request : Request)
  deriving DecidableEq, Repr

/-- One look at the next slot: to be repeated if the slot does not hold the request of the
reader's position. -/
def look (ring : RingQueue) : Look × RingQueue :=
  if ring.tail ≤ ring.head then (.empty, ring)
  else
    let ring := ring.catchUp
    match ring.slots[ring.head % ring.capacity]? with
    | some slot =>
        if slot.state = RingSlot.fullState ring.head then
          (.found slot.words.toRequest, { ring with head := ring.head + 1 })
        else (.retry, ring)
    | none => (.retry, ring)

/-- Takes the oldest request that was not overwritten. Nothing is written during a call, so the
first look decides. -/
def dequeue (ring : RingQueue) : Option Request × RingQueue :=
  match ring.look with
  | (.found request, ring) => (some request, ring)
  | (_, ring) => (none, ring)

end RingQueue

end LayeredGraph
