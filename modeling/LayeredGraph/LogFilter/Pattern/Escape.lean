import LayeredGraph.CodePoint
import LayeredGraph.LogFilter.Pattern
import LayeredGraph.LogFilter.Whitespace

/-! Escapes: what a backslash and the characters behind it stand for in a pattern. -/
namespace LayeredGraph.LogFilter

/-- Characters of which a backslash takes the meaning, if they have any: those of ASCII that are
neither letters nor digits. Angle brackets behind a backslash are the ends of words. -/
def isEscapable (c : Char) : Bool :=
  c.toNat < 0x80 && !c.isAlphanum && c != '<' && c != '>'

/-- The control character that a letter behind a backslash names. -/
def controlCharacter? : Char → Option Char
  | 'a' => some '\x07'
  | 'f' => some '\x0c'
  | 'n' => some '\n'
  | 'r' => some '\r'
  | 't' => some '\t'
  | 'v' => some '\x0b'
  | _ => none

/-- The number of hexadecimal digits behind the letters that name a character by its number. -/
def hexLength? : Char → Option Nat
  | 'x' => some 2
  | 'u' => some 4
  | 'U' => some 8
  | _ => none

/-- Reads hexadecimal digits behind those that make up `value`, with space between them and
behind them that does not count. -/
def readHex (freeSpacing : Bool) : (digits value : Nat) → List Char → Option (Nat × List Char)
  | 0, value, text => some (value, skipSpace freeSpacing text)
  | digits + 1, value, text =>
      match skipSpace freeSpacing text with
      | [] => none
      | c :: rest => do readHex freeSpacing digits (16 * value + (← hexDigit? c)) rest

/-- Reads what stands behind a backslash. -/
def readEscape (freeSpacing : Bool) : List Char → Option (Pattern × List Char)
  | [] => none
  | c :: rest =>
      if isEscapable c then some (.literal ⟨c, false⟩, rest)
      else if "dsw".toList.contains c then some (.set (.lettered false), rest)
      else if "DSW".toList.contains c then some (.set (.lettered true), rest)
      else if "Az".toList.contains c then some (.anchor, rest)
      else if "bB<>".toList.contains c then some (.boundary, rest)
      else
        match controlCharacter? c, hexLength? c with
        | some control, _ => some (.literal ⟨control, false⟩, rest)
        | none, some digits => do
            let (number, rest) ← readHex freeSpacing digits 0 rest
            some (.literal ⟨← scalar? number, c == 'x'⟩, rest)
        | none, none => none

example : (readHex true 2 0 " 4 1 b".toList) = some (0x41, ['b']) := by decide

end LayeredGraph.LogFilter
