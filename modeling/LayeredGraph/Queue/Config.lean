import LayeredGraph.Error

/-! Which queue carries requests, and how large it may grow. -/
namespace LayeredGraph

inductive QueueKind where
  | block
  | ring
  | lru
  deriving DecidableEq, Repr

namespace QueueKind

def all : List QueueKind := [block, ring, lru]

def name : QueueKind → String
  | block => "block"
  | ring => "ring"
  | lru => "lru"

def names : List String := all.map name

def ofName? (name : String) : Option QueueKind := all.find? fun kind => kind.name == name

end QueueKind

/-- The kind of a queue and the sizes of every kind. -/
structure QueueConfig where
  kind : QueueKind := .block
  blockSize : UInt64 := 1024
  maxBlocks : UInt64 := 4096
  ringCapacity : UInt64 := 4096
  lruCapacity : UInt64 := 4096
  lruMaxAge : UInt32 := 64
  deriving DecidableEq, Repr

instance : Inhabited QueueConfig := ⟨{}⟩

/-- Why a queue cannot be built. -/
inductive QueueFault where
  | blockSize
  | maxBlocks
  | ringCapacity
  | lruCapacity
  deriving DecidableEq, Repr

def QueueFault.message : QueueFault → String
  | blockSize => "queue.block_size must be non-zero"
  | maxBlocks => "queue.max_blocks out of range"
  | ringCapacity => "queue.ring_capacity must be non-zero"
  | lruCapacity => "queue.lru_capacity must be non-zero"

namespace QueueConfig

/-- The first fault among the sizes of the selected kind; the other sizes do not matter. A block
chain needs three blocks to keep going, and block numbers are 32-bit words with one reserved. -/
def fault? (config : QueueConfig) : Option QueueFault :=
  match config.kind with
  | .block =>
      if config.blockSize = 0 then some .blockSize
      else if config.maxBlocks < 3 ∨ 0xffffffff ≤ config.maxBlocks then some .maxBlocks
      else none
  | .ring => if config.ringCapacity = 0 then some .ringCapacity else none
  | .lru => if config.lruCapacity = 0 then some .lruCapacity else none

def validate (config : QueueConfig) : Except Error Unit :=
  match config.fault? with
  | some fault => .error (.invalid fault.message)
  | none => .ok ()

end QueueConfig

example : (default : QueueConfig).fault? = none := by decide

end LayeredGraph
