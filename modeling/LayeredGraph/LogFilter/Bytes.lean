/-! Parts of a text by the positions of its bytes in UTF-8. -/
namespace LayeredGraph.LogFilter

/-- The characters behind the first bytes of a text, unless a character lies across. -/
def dropBytes : (bytes : Nat) → List Char → Option (List Char)
  | 0, text => some text
  | _ + 1, [] => none
  | bytes + 1, c :: rest =>
      if c.utf8Size ≤ bytes + 1 then dropBytes (bytes + 1 - c.utf8Size) rest else none

/-- The characters that make up the first bytes of a text, unless a character lies across. -/
def takeBytes : (bytes : Nat) → List Char → Option (List Char)
  | 0, _ => some []
  | _ + 1, [] => none
  | bytes + 1, c :: rest =>
      if c.utf8Size ≤ bytes + 1 then (takeBytes (bytes + 1 - c.utf8Size) rest).map (c :: ·)
      else none

/-- The part of a text from one position to another. -/
def slice? (text : List Char) (first last : Nat) : Option (List Char) := do
  takeBytes (last - first) (← dropBytes first text)

/-- A text is its first bytes and what lies behind them, wherever it can be cut. -/
theorem takeBytes_append_dropBytes {bytes : Nat} {text first rest : List Char}
    (hf : takeBytes bytes text = some first) (hr : dropBytes bytes text = some rest) :
    first ++ rest = text := by
  fun_induction takeBytes bytes text generalizing first with
  | case1 => simp_all [dropBytes]
  | case2 => simp at hf
  | case3 bytes c text h ih =>
    obtain ⟨tail, ht, rfl⟩ := Option.map_eq_some_iff.1 hf
    simp only [dropBytes, h, if_true] at hr
    simp [ih ht hr]
  | case4 => simp at hf

example : slice? "aéb".toList 1 3 = some ['é'] := by decide

example : slice? "aéb".toList 2 3 = none := by decide

end LayeredGraph.LogFilter
