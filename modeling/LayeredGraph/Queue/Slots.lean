/-! Slots that are created as they are written: a position may be written that was written before,
or the one behind the last. -/
namespace LayeredGraph

variable {α : Type}

/-- Writes a slot that was written before, or the one behind the last. -/
def writeSlot (slots : Array α) (position : Nat) (a : α) : Array α :=
  if position < slots.size then slots.setIfInBounds position a else slots.push a

theorem size_writeSlot (slots : Array α) (position : Nat) (a : α) :
    (writeSlot slots position a).size =
      if position < slots.size then slots.size else slots.size + 1 := by
  unfold writeSlot
  split <;> simp

theorem getElem?_writeSlot_self {slots : Array α} {position : Nat} (a : α)
    (h : position ≤ slots.size) : (writeSlot slots position a)[position]? = some a := by
  unfold writeSlot
  split
  · simp_all
  · rw [show position = slots.size by omega]
    simp

theorem getElem?_writeSlot_of_ne {slots : Array α} {position other : Nat} (a : α)
    (h : position ≤ slots.size) (hne : position ≠ other) :
    (writeSlot slots position a)[other]? = slots[other]? := by
  unfold writeSlot
  split
  · simp [hne]
  · rw [Array.getElem?_push, if_neg (by omega)]

end LayeredGraph
