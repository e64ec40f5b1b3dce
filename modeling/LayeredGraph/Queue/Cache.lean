import LayeredGraph.Queue.Request

/-! The cache under a queue of recent requests, as far as the queue knows it: requests under keys,
from the least recent one to the most recent one. Which cache that is stays open. Whatever has the
operations serves as one, and what is proved of a queue takes no more than the laws. -/
namespace LayeredGraph

/-- Caches of requests under nodes. A queue calls what makes and changes a cache and asks for its
length; the room and the entries of a cache are what its laws speak of. -/
class RequestCache (κ : Type) where
  withCapacity : Nat → κ
  capacity : κ → Nat
  /-- The entries, least recent first. -/
  entries : κ → List (NodeId × Request)
  length : κ → Nat
  put : κ → NodeId → Request → κ
  /-- Takes out the least recent entry. -/
  popLeast : κ → Option (NodeId × Request) × κ

open RequestCache in
/-- Caches that keep their entries in the order in which these were put, and forget the least recent
one when a new key finds no room. -/
class LawfulRequestCache (κ : Type) [RequestCache κ] : Prop where
  capacity_withCapacity (room : Nat) : 0 < room → capacity (withCapacity room : κ) = room
  entries_withCapacity (room : Nat) : entries (withCapacity room : κ) = []
  length_eq (cache : κ) : length cache = (entries cache).length
  capacity_put (cache : κ) (key : NodeId) (value : Request) :
    capacity (put cache key value) = capacity cache
  /-- A key that is there gets the value, and moves to the most recent end. -/
  put_known (cache : κ) (key : NodeId) (value : Request) :
    key ∈ (entries cache).map (·.1) →
      entries (put cache key value) = (entries cache).filter (·.1 ≠ key) ++ [(key, value)]
  /-- A new key is added at the most recent end. -/
  put_new (cache : κ) (key : NodeId) (value : Request) :
    key ∉ (entries cache).map (·.1) → (entries cache).length < capacity cache →
      entries (put cache key value) = entries cache ++ [(key, value)]
  /-- A new key for which there is no room takes that of the least recent entry. -/
  put_full (cache : κ) (key : NodeId) (value : Request) :
    key ∉ (entries cache).map (·.1) → (entries cache).length = capacity cache →
      entries (put cache key value) = (entries cache).tail ++ [(key, value)]
  capacity_popLeast (cache : κ) : capacity (popLeast cache).2 = capacity cache
  popLeast_nil (cache : κ) : entries cache = [] →
    (popLeast cache).1 = none ∧ entries (popLeast cache).2 = []
  popLeast_cons (cache : κ) {entry : NodeId × Request} {rest : List (NodeId × Request)} :
    entries cache = entry :: rest →
      (popLeast cache).1 = some entry ∧ entries (popLeast cache).2 = rest

end LayeredGraph
