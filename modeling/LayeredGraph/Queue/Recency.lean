import LayeredGraph.Queue.Cache

/-! A queue with at most one request for each node, over a cache of requests. A new request for a
node replaces the old one and moves the node to the most recent end; past the capacity the least
recent node is forgotten, and requests that have grown too old are passed over. -/
namespace LayeredGraph

structure RecencyQueue (κ : Type) where
  cache : κ
  maxAge : UInt32

namespace RecencyQueue

variable {κ : Type} [RequestCache κ]

/-- An empty queue; a capacity of zero counts as one. -/
def empty (capacity : Nat) (maxAge : UInt32) : RecencyQueue κ :=
  ⟨RequestCache.withCapacity (max capacity 1), maxAge⟩

def length (queue : RecencyQueue κ) : Nat := RequestCache.length queue.cache

def isEmpty (queue : RecencyQueue κ) : Bool := queue.length == 0

/-- The requests that are waiting, least recent first. -/
def entries (queue : RecencyQueue κ) : List Request :=
  (RequestCache.entries queue.cache).map (·.2)

def enqueue (queue : RecencyQueue κ) (request : Request) : RecencyQueue κ :=
  { queue with cache := RequestCache.put queue.cache request.node request }

/-- Takes entries out of a cache until one is not too old in an epoch, or none is left. At most
`count` are taken out. -/
def takeFresh (current maxAge : UInt32) : (count : Nat) → κ → Option Request × κ
  | 0, cache => (none, cache)
  | count + 1, cache =>
      match RequestCache.popLeast cache with
      | (none, cache) => (none, cache)
      | (some (_, request), cache) =>
          if maxAge < epochAge current request.epoch then takeFresh current maxAge count cache
          else (some request, cache)

/-- Takes the least recent request that is not too old in an epoch, and discards those before it.
Once all entries are out, one more look finds none. -/
def dequeue (queue : RecencyQueue κ) (current : UInt32) : Option Request × RecencyQueue κ :=
  let (request, cache) := takeFresh current queue.maxAge (queue.length + 1) queue.cache
  (request, { queue with cache })

end RecencyQueue

end LayeredGraph
