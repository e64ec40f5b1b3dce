import LayeredGraph.Toml.Library
import LayeredGraph.Toml.Value
import LayeredGraph.Toml.Text

/-! Numbers, booleans and dates of a TOML document. Such a value is a run of letters, digits and
the signs `+ - _ . :`, and is classified as a whole. -/
namespace LayeredGraph.Toml

/-- Characters of numbers, booleans and dates. -/
def isScalarChar (c : Char) : Bool :=
  c.isAlphanum || c == '+' || c == '-' || c == '_' || c == '.' || c == ':'

/-- The value of a decimal digit. -/
def decimalDigit? (c : Char) : Option Nat :=
  if '0' ≤ c ∧ c ≤ '9' then some (c.toNat - '0'.toNat) else none

/-- The value of a digit in a base of at most sixteen. -/
def digitIn? (base : Nat) (c : Char) : Option Nat := (hexDigit? c).filter (· < base)

/-- Reads further digits, each of which may have one underscore before it. -/
def moreDigits (base : Nat) : List Char → List Nat × List Char
  | [] => ([], [])
  | '_' :: c :: rest =>
      match digitIn? base c with
      | some d => let (ds, rest) := moreDigits base rest; (d :: ds, rest)
      | none => ([], '_' :: c :: rest)
  | c :: rest =>
      match digitIn? base c with
      | some d => let (ds, rest) := moreDigits base rest; (d :: ds, rest)
      | none => ([], c :: rest)

/-- Reads digits in a base, at least one. Underscores may stand between two digits. -/
def digits? (base : Nat) : List Char → Option (List Nat × List Char)
  | [] => none
  | c :: rest => do
      let d ← digitIn? base c
      let (ds, rest) := moreDigits base rest
      return (d :: ds, rest)

def numberOf (base : Nat) (digits : List Nat) : Nat :=
  digits.foldl (fun n d => base * n + d) 0

/-- The sign of a number, positive if none is written. -/
def takeSign : List Char → Bool × List Char
  | '-' :: rest => (true, rest)
  | '+' :: rest => (false, rest)
  | text => (false, text)

def integer? (n : Int) : Option Value := if integerInRange n then some (.integer n) else none

/-- The digits before a point or exponent: no zero in front of other digits. -/
def wholeDigits? (text : List Char) : Option (List Nat × List Char) :=
  match digits? 10 text with
  | some (0 :: _ :: _, _) => none
  | answer => answer

/-- An integer: decimal with an optional sign, or in base 16, 8 or 2 without one. -/
def readInteger? (text : List Char) : Option Value :=
  match text with
  | '0' :: 'x' :: rest => based 16 rest
  | '0' :: 'o' :: rest => based 8 rest
  | '0' :: 'b' :: rest => based 2 rest
  | _ => do
      let (negative, rest) := takeSign text
      let (ds, rest) ← wholeDigits? rest
      guard rest.isEmpty
      let n := numberOf 10 ds
      integer? (if negative then -n else n)
where
  based (base : Nat) (text : List Char) : Option Value := do
    let (ds, rest) ← digits? base text
    guard rest.isEmpty
    integer? (numberOf base ds)

/-- Whether a decimal number rounds to a 64-bit float without overflow: it lies below the middle
between the greatest float and the next power of two, which is written with 54 ones and 970 zeros
in binary. -/
def fitsFloat (digits : List Nat) (exponent : Int) : Bool :=
  let significant := digits.dropWhile (· == 0)
  let magnitude : Int := significant.length + exponent
  let bound : Nat := 0x3fffffffffffff <<< 970
  significant.isEmpty || magnitude < 309 ||
    (magnitude == 309 &&
      if 0 ≤ exponent then numberOf 10 significant * Nat.pow 10 exponent.toNat < bound
      else numberOf 10 significant < bound * Nat.pow 10 (-exponent).toNat)

/-- The digits behind a point, if there is one. -/
def readFraction? : List Char → Option (List Nat × List Char)
  | '.' :: rest => digits? 10 rest
  | text => some ([], text)

/-- The exponent, if there is one. -/
def readExponent? : List Char → Option (Int × List Char)
  | c :: rest =>
      if c = 'e' ∨ c = 'E' then do
        let (negative, rest) := takeSign rest
        let (ds, rest) ← digits? 10 rest
        let n : Int := numberOf 10 ds
        return (if negative then -n else n, rest)
      else some (0, c :: rest)
  | [] => some (0, [])

/-- A float: digits with a fraction or an exponent, an infinity, or no number. A positive number
that overflows is refused. -/
def readFloat? (text : List Char) : Option Value := do
  let (negative, unsigned) := takeSign text
  let written := Value.float (String.ofList text)
  if unsigned = ['i', 'n', 'f'] ∨ unsigned = ['n', 'a', 'n'] then return written
  let (whole, rest) ← wholeDigits? unsigned
  guard (!rest.isEmpty)
  let (fraction, rest) ← readFraction? rest
  let (exponent, rest) ← readExponent? rest
  guard rest.isEmpty
  guard (negative || fitsFloat (whole ++ fraction) (exponent - fraction.length))
  return written

/-- Reads exactly `count` decimal digits. -/
def fixedDigits? : Nat → List Char → Option (List Nat × List Char)
  | 0, text => some ([], text)
  | _, [] => none
  | count + 1, c :: rest => do
      let d ← decimalDigit? c
      let (ds, rest) ← fixedDigits? count rest
      return (d :: ds, rest)

/-- Reads a two-digit number in a range. -/
def twoDigits? (low high : Nat) (text : List Char) : Option (Nat × List Char) := do
  let (ds, rest) ← fixedDigits? 2 text
  let n := numberOf 10 ds
  guard (low ≤ n && n ≤ high)
  return (n, rest)

def skip? (c : Char) : List Char → Option (List Char)
  | d :: rest => if d = c then some rest else none
  | [] => none

def daysInMonth (year month : Nat) : Nat :=
  if month = 2 then
    if year % 4 = 0 ∧ (year % 100 ≠ 0 ∨ year % 400 = 0) then 29 else 28
  else if month = 4 ∨ month = 6 ∨ month = 9 ∨ month = 11 then 30
  else 31

/-- Reads year, month and day; what follows is returned. -/
def readDay? (text : List Char) : Option (List Char) := do
  let (year, rest) ← fixedDigits? 4 text
  let rest ← skip? '-' rest
  let (month, rest) ← twoDigits? 1 12 rest
  let rest ← skip? '-' rest
  let (_, rest) ← twoDigits? 1 (daysInMonth (numberOf 10 year) month) rest
  return rest

/-- Reads a time of day, with a fraction of the second if one is written. A leap second is
allowed. -/
def readTime? (text : List Char) : Option (List Char) := do
  let (_, rest) ← twoDigits? 0 23 text
  let rest ← skip? ':' rest
  let (_, rest) ← twoDigits? 0 59 rest
  let rest ← skip? ':' rest
  let (_, rest) ← twoDigits? 0 60 rest
  match rest with
  | '.' :: rest =>
      guard ((rest.head?.bind decimalDigit?).isSome)
      return rest.dropWhile fun c => (decimalDigit? c).isSome
  | rest => return rest

/-- Reads the offset from universal time, if there is one. -/
def readOffset? : List Char → Option (List Char)
  | c :: rest =>
      if c = 'Z' ∨ c = 'z' then some rest
      else if c = '+' ∨ c = '-' then do
        let (_, rest) ← twoDigits? 0 23 rest
        let rest ← skip? ':' rest
        let (_, rest) ← twoDigits? 0 59 rest
        return rest
      else some (c :: rest)
  | [] => some []

/-- Whether a text is a time of day with an optional offset. -/
def isTimeWithOffset (text : List Char) : Bool :=
  ((readTime? text).bind readOffset?).any (·.isEmpty)

/-- Whether a text is a date without a time. -/
def isDay (text : List Char) : Bool := (readDay? text).any (·.isEmpty)

/-- Whether a text is a date with or without a time, or a time alone. -/
def isDate (text : List Char) : Bool :=
  match readDay? text with
  | some [] => true
  | some (c :: rest) => (c == 'T' || c == 't') && isTimeWithOffset rest
  | none => (readTime? text).any (·.isEmpty)

/-- The value that a run of characters stands for. -/
def scalarOf? (text : List Char) : Option Value :=
  if text = ['t', 'r', 'u', 'e'] then some (.boolean true)
  else if text = ['f', 'a', 'l', 's', 'e'] then some (.boolean false)
  else if isDate text then some (.date (String.ofList text))
  else
    match readInteger? text with
    | some value => some value
    | none => readFloat? text

/-- Reads a number, a boolean or a date. A date and its time may be parted by a space. -/
def readScalar (text : List Char) : Option (Value × List Char) :=
  let run := text.takeWhile isScalarChar
  let rest := text.dropWhile isScalarChar
  match isDay run, rest with
  | true, ' ' :: more =>
      let time := more.takeWhile isScalarChar
      if isTimeWithOffset time then
        some (.date (String.ofList (run ++ ' ' :: time)), more.dropWhile isScalarChar)
      else (scalarOf? run).map (·, rest)
  | _, _ => (scalarOf? run).map (·, rest)

end LayeredGraph.Toml
