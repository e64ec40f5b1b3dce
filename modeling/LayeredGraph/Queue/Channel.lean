import LayeredGraph.Queue.Block
import LayeredGraph.Queue.Ring
import LayeredGraph.Queue.Recency
import LayeredGraph.Queue.Config

/-! A queue of any kind together with the epoch that its two ends share. Every request is
stamped with the epoch in which it is enqueued. Which cache is below a queue of recent requests
stays open. -/
namespace LayeredGraph

inductive Queue (κ : Type) where
  | block (queue : BlockQueue)
  | ring (queue : RingQueue)
  | recency (queue : RecencyQueue κ)

variable {κ : Type} [RequestCache κ]

namespace Queue

/-- The number of requests that are waiting. -/
def length : Queue κ → Nat
  | block queue => queue.length
  | ring queue => queue.length
  | recency queue => queue.length

/-- Whether a request can be added. Only a queue of blocks refuses any. -/
def hasRoom : Queue κ → Bool
  | block queue => queue.hasRoom
  | ring _ | recency _ => true

/-- Adds a request for which there is room. -/
def enqueue (request : Request) : Queue κ → Queue κ
  | block queue => block (queue.enqueue request)
  | ring queue => ring (queue.enqueue request)
  | recency queue => recency (queue.enqueue request)

def dequeue (current : UInt32) : Queue κ → Option Request × Queue κ
  | block queue => let (request, queue) := queue.dequeue; (request, block queue)
  | ring queue => let (request, queue) := queue.dequeue; (request, ring queue)
  | recency queue => let (request, queue) := queue.dequeue current; (request, recency queue)

end Queue

/-- A queue and the current epoch, which wraps after 32 bits. -/
structure Channel (κ : Type) where
  queue : Queue κ
  epoch : UInt32

namespace Channel

def ofQueue (queue : Queue κ) : Channel κ := ⟨queue, 0⟩

def block (blockSize maxBlocks : Nat) : Channel κ :=
  ofQueue (.block (.empty blockSize maxBlocks))

def ring (capacity : Nat) : Channel κ := ofQueue (.ring (.empty capacity))

def recency (capacity : Nat) (maxAge : UInt32) : Channel κ :=
  ofQueue (.recency (.empty capacity maxAge))

/-- The channel of the selected kind, whatever its sizes. -/
def ofConfig (config : QueueConfig) : Channel κ :=
  match config.kind with
  | .block => block config.blockSize.toNat config.maxBlocks.toNat
  | .ring => ring config.ringCapacity.toNat
  | .lru => recency config.lruCapacity.toNat config.lruMaxAge

/-- The channel of a configuration without faults. -/
def ofConfig? (config : QueueConfig) : Except Error (Channel κ) := do
  config.validate
  return ofConfig config

/-- Enqueues a request under the current epoch. A refused request comes back stamped. -/
def enqueue (channel : Channel κ) (request : Request) : Except Full Unit × Channel κ :=
  let stamped := { request with epoch := channel.epoch }
  if channel.queue.hasRoom then
    (.ok (), { channel with queue := channel.queue.enqueue stamped })
  else (.error ⟨stamped⟩, channel)

def dequeue (channel : Channel κ) : Option Request × Channel κ :=
  let (request, queue) := channel.queue.dequeue channel.epoch
  (request, { channel with queue })

/-- Starts the next epoch and gives its number. -/
def incrementEpoch (channel : Channel κ) : UInt32 × Channel κ :=
  let epoch := channel.epoch + 1
  (epoch, { channel with epoch })

/-- Starts the next epochs, as many as are asked for. -/
def advanceEpoch (channel : Channel κ) (count : Nat) : Channel κ :=
  { channel with epoch := channel.epoch + UInt32.ofNat count }

omit [RequestCache κ] in
theorem advanceEpoch_zero (channel : Channel κ) : channel.advanceEpoch 0 = channel := by
  simp [advanceEpoch]

omit [RequestCache κ] in
theorem advanceEpoch_succ (channel : Channel κ) (count : Nat) :
    channel.advanceEpoch (count + 1) = (channel.advanceEpoch count).incrementEpoch.2 := by
  simp [advanceEpoch, incrementEpoch, UInt32.ofNat_add, UInt32.add_assoc]

end Channel

end LayeredGraph
