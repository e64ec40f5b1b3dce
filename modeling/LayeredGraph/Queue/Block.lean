import LayeredGraph.Queue.Arena
import LayeredGraph.Queue.Request
import LayeredGraph.Queue.Slots

/-! An unbounded first-in first-out chain of fixed-size blocks out of a bounded pool. The writer
links a new block behind a full one; the reader, on leaving a block, gives back the block that
it left before, so that a block is reused only when nobody can stand in it any more. Requests
are refused when the pool is empty. -/
namespace LayeredGraph

/-- Slots written so far, and the block that follows. -/
structure Block where
  slots : Array RequestWords
  next : Option Nat
  deriving DecidableEq, Repr

namespace Block

def empty : Block := ⟨#[], none⟩

def write (block : Block) (position : Nat) (words : RequestWords) : Block :=
  { block with slots := writeSlot block.slots position words }

def read (block : Block) (position : Nat) : Request :=
  (block.slots[position]?.getD default).toRequest

end Block

/-- A chain of blocks with the places of its writer and its reader. -/
structure BlockQueue where
  blockSize : Nat
  arena : Arena Block
  writeBlock : Nat
  writePosition : Nat
  written : Nat
  readBlock : Nat
  readPosition : Nat
  consumed : Nat
  /-- The block that the reader left last, still kept back from the pool. -/
  deferred : Option Nat
  deriving DecidableEq, Repr

namespace BlockQueue

/-- An empty queue. Sizes of zero count as one, and the first block is created at once. -/
def empty (blockSize maxBlocks : Nat) : BlockQueue :=
  let (first, arena) := (Arena.empty (max maxBlocks 1)).take Block.empty
  { blockSize := max blockSize 1
    arena
    writeBlock := first
    writePosition := 0
    written := 0
    readBlock := first
    readPosition := 0
    consumed := 0
    deferred := none }

/-- The number of blocks created so far. -/
def blocksCreated (queue : BlockQueue) : Nat := queue.arena.created

/-- The number of requests that are waiting. -/
def length (queue : BlockQueue) : Nat := queue.written - queue.consumed

/-- Moves the writer to a block of the pool, linked behind its full block. -/
def nextBlock (queue : BlockQueue) : BlockQueue :=
  let (index, arena) := queue.arena.take Block.empty
  let arena := arena.modify index fun block => { block with next := none }
  let arena := arena.modify queue.writeBlock fun block => { block with next := some index }
  { queue with arena, writeBlock := index, writePosition := 0 }

/-- Writes a request at the writer's place. -/
def write (queue : BlockQueue) (request : Request) : BlockQueue :=
  { queue with
    arena := queue.arena.modify queue.writeBlock fun block =>
      block.write queue.writePosition (.ofRequest request)
    writePosition := queue.writePosition + 1
    written := queue.written + 1 }

/-- Whether a request can be added: the writer's block is not full, or the pool is not empty. -/
def hasRoom (queue : BlockQueue) : Bool :=
  queue.writePosition != queue.blockSize || queue.arena.hasRoom

/-- Adds a request for which there is room. -/
def enqueue (queue : BlockQueue) (request : Request) : BlockQueue :=
  if queue.writePosition = queue.blockSize then queue.nextBlock.write request
  else queue.write request

/-- The block behind the reader's. -/
def following? (queue : BlockQueue) : Option Nat :=
  (queue.arena.get? queue.readBlock).bind (·.next)

/-- Moves the reader to the block behind its own, and gives back the block it left before. -/
def leaveBlock (queue : BlockQueue) (following : Nat) : BlockQueue :=
  let arena :=
    match queue.deferred with
    | some drained => queue.arena.release drained
    | none => queue.arena
  { queue with
    arena
    readBlock := following
    readPosition := 0
    deferred := some queue.readBlock }

/-- Reads the request at the reader's place. -/
def read (queue : BlockQueue) : Option Request × BlockQueue :=
  match queue.arena.get? queue.readBlock with
  | some block =>
      (some (block.read queue.readPosition), { queue with
        readPosition := queue.readPosition + 1
        consumed := queue.consumed + 1 })
  | none => (none, queue)

/-- Takes the oldest request. -/
def dequeue (queue : BlockQueue) : Option Request × BlockQueue :=
  if queue.consumed = queue.written then (none, queue)
  else if queue.readPosition = queue.blockSize then
    match queue.following? with
    | some following => (queue.leaveBlock following).read
    | none => (none, queue)
  else queue.read

end BlockQueue

end LayeredGraph
