/-! A pool of items with a fixed capacity, handed out by index. Items are created on demand and
never destroyed: a released index goes to the front of a free list, which is threaded through
one link for each created item, and is handed out again before a new item is created. -/
namespace LayeredGraph

/-- Created items, the link behind each of them, and the head of the free list. -/
structure Arena (α : Type) where
  capacity : Nat
  items : Array α
  links : Array (Option Nat)
  freeHead : Option Nat
  deriving DecidableEq, Repr

namespace Arena

variable {α : Type}

def empty (capacity : Nat) : Arena α := ⟨capacity, #[], #[], none⟩

/-- The number of items created so far. -/
def created (arena : Arena α) : Nat := arena.items.size

def get? (arena : Arena α) (index : Nat) : Option α := arena.items[index]?

/-- Whether an index can be handed out: one is free, or an item can still be created. -/
def hasRoom (arena : Arena α) : Bool := arena.freeHead.isSome || arena.created < arena.capacity

/-- The index released last, or the index of a new item if none is free. -/
def take (arena : Arena α) (init : α) : Nat × Arena α :=
  match arena.freeHead with
  | some index => (index, { arena with freeHead := arena.links[index]?.join })
  | none =>
      let index := arena.created
      (index, { arena with items := arena.items.push init, links := arena.links.push none })

/-- Hands out the index released last, or the index of a new item, or nothing when all items
are handed out. -/
def alloc (arena : Arena α) (init : α) : Option (Nat × Arena α) :=
  if arena.hasRoom then some (arena.take init) else none

/-- Puts an index at the front of the free list. -/
def release (arena : Arena α) (index : Nat) : Arena α :=
  if index < arena.links.size then
    { arena with
      links := arena.links.setIfInBounds index arena.freeHead
      freeHead := some index }
  else arena

def modify (arena : Arena α) (index : Nat) (change : α → α) : Arena α :=
  { arena with items := arena.items.modify index change }

/-- The indices met along the links from a head, at most `bound` of them. -/
def follow (links : Array (Option Nat)) (head : Option Nat) : Nat → List Nat
  | 0 => []
  | bound + 1 =>
      match head with
      | none => []
      | some index => index :: follow links links[index]?.join bound

/-- The free list. -/
def free (arena : Arena α) : List Nat := follow arena.links arena.freeHead arena.created

@[simp] theorem created_empty (capacity : Nat) : (empty (α := α) capacity).created = 0 := rfl

@[simp] theorem created_modify (arena : Arena α) (index : Nat) (change : α → α) :
    (arena.modify index change).created = arena.created := by
  simp [modify, created]

@[simp] theorem created_release (arena : Arena α) (index : Nat) :
    (arena.release index).created = arena.created := by
  unfold release created
  split <;> rfl

end Arena

end LayeredGraph
