import LayeredGraph.Error

/-! Requests for advice, the epoch that both ends of a queue share, and the two words in which a
request lies in a queue slot. -/
namespace LayeredGraph

/-- A node whose edges in one direction are about to be read, asked for in an epoch. -/
structure Request where
  node : NodeId
  epoch : UInt32
  direction : Direction
  deriving DecidableEq, Repr

/-- The age of an epoch seen from a later one; epochs wrap. -/
def epochAge (current epoch : UInt32) : UInt32 := current - epoch

/-- A request that a queue had no room for. -/
structure Full where
  request : Request
  deriving DecidableEq, Repr

namespace Full

def message (full : Full) : String := "advise queue full (node " ++ full.request.node.text ++ ")"

def toError (_ : Full) : Error := .queueFull

end Full

/-- The two words of a queue slot: the node, and the epoch above one bit for the direction. -/
structure RequestWords where
  node : UInt64
  tag : UInt64
  deriving DecidableEq, Repr, Inhabited

namespace RequestWords

def ofRequest (request : Request) : RequestWords :=
  ⟨request.node.number, UInt64.ofNat (2 * request.epoch.toNat + request.direction.index)⟩

def toRequest (words : RequestWords) : Request :=
  ⟨⟨words.node⟩, UInt32.ofNat (words.tag.toNat / 2),
    if words.tag.toNat % 2 = 0 then .out else .inc⟩

@[simp] theorem toRequest_ofRequest (request : Request) :
    (ofRequest request).toRequest = request := by
  obtain ⟨⟨node⟩, epoch, direction⟩ := request
  have bound := epoch.toNat_lt
  have small : 2 * epoch.toNat + direction.index < UInt64.size := by
    cases direction <;> simp only [Direction.index, UInt64.size] <;> omega
  simp only [ofRequest, toRequest, UInt64.toNat_ofNat', Nat.mod_eq_of_lt small]
  cases direction <;> simp [Direction.index]
  rw [show (2 * epoch.toNat + 1) / 2 = epoch.toNat by omega, UInt32.ofNat_toNat]

end RequestWords

end LayeredGraph
