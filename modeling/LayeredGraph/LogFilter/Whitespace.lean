/-! Whitespace of Unicode, and what it is in patterns with free spacing. -/
namespace LayeredGraph.LogFilter

def isWhitespace (c : Char) : Bool :=
  let n := c.toNat
  (0x09 ≤ n && n ≤ 0x0D) || (0x2000 ≤ n && n ≤ 0x200A)
    || [0x20, 0x85, 0xA0, 0x1680, 0x2028, 0x2029, 0x202F, 0x205F, 0x3000].contains n

/-- A text without the whitespace around it. -/
def trim (text : List Char) : List Char :=
  ((text.dropWhile isWhitespace).reverse.dropWhile isWhitespace).reverse

/-- A text behind its whitespace and comments, which run from a number sign to the end of the
line. -/
def skipComments : (inComment : Bool) → List Char → List Char
  | _, [] => []
  | true, c :: rest => skipComments (c != '\n') rest
  | false, c :: rest =>
      if isWhitespace c then skipComments false rest
      else if c = '#' then skipComments true rest
      else c :: rest

/-- A text behind what does not count: with free spacing, whitespace and comments. -/
def skipSpace (freeSpacing : Bool) (text : List Char) : List Char :=
  if freeSpacing then skipComments false text else text

theorem length_skipComments_le (inComment : Bool) (text : List Char) :
    (skipComments inComment text).length ≤ text.length := by
  fun_induction skipComments inComment text <;> simp_all <;> omega

example : String.ofList (skipSpace true " # one\n\t# two\na # b".toList) = "a # b" := by decide

end LayeredGraph.LogFilter
