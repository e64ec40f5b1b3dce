/-! Characters named by their number in hexadecimal digits. -/
namespace LayeredGraph

/-- The value of a hexadecimal digit. -/
def hexDigit? (c : Char) : Option Nat :=
  if '0' ≤ c ∧ c ≤ '9' then some (c.toNat - '0'.toNat)
  else if 'a' ≤ c ∧ c ≤ 'f' then some (c.toNat - 'a'.toNat + 10)
  else if 'A' ≤ c ∧ c ≤ 'F' then some (c.toNat - 'A'.toNat + 10)
  else none

/-- The character with a number, unless it is the number of a surrogate or too large. -/
def scalar? (number : Nat) : Option Char :=
  if number.isValidChar then some (Char.ofNat number) else none

theorem scalar?_toNat (c : Char) : scalar? c.toNat = some c := by
  simp [scalar?, show c.toNat.isValidChar from c.valid]

example : scalar? 0xD800 = none := by decide

end LayeredGraph
