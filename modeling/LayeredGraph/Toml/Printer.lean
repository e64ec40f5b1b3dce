import LayeredGraph.Toml.Scalar

/-! Writing a document as values and sections with a header each. A string is written in the first
form that needs no escapes: basic, literal, basic on several lines, literal on several lines; if
none does, it is written as a basic string with escapes. -/
namespace LayeredGraph.Toml

/-- The longest run of a character in a text. -/
def longestRun (c : Char) (text : List Char) : Nat :=
  (text.foldl (fun (current, longest) d =>
    let current := if d = c then current + 1 else 0
    (current, max longest current)) (0, 0)).2

/-- Control characters that cannot stand in a string as they are, on one line or several. -/
def isControl (c : Char) : Bool := c != '\n' && !isPlain c

/-- The four ways to write a string. -/
inductive StringForm where
  | basic
  | literal
  | basicLines
  | literalLines
  deriving DecidableEq, Repr

/-- The form in which a text is written. -/
def formOf (text : List Char) : StringForm :=
  let controls := text.any isControl
  let lines := text.contains '\n'
  let backslash := text.contains '\\'
  let quotes := longestRun '"' text
  let apostrophes := longestRun '\'' text
  if !controls && !backslash && quotes == 0 && !lines then .basic
  else if !controls && apostrophes == 0 && !lines then .literal
  else if !controls && !backslash && quotes ≤ 2 then .basicLines
  else if !controls && apostrophes ≤ 2 then .literalLines
  else if lines then .basicLines
  else .basic

/-- A hexadecimal digit in capitals. -/
def hexDigit (n : Nat) : Char :=
  if n < 10 then Char.ofNat ('0'.toNat + n) else Char.ofNat ('A'.toNat + (n - 10))

/-- A number in hexadecimal digits, the lowest `count` of them. -/
def hexDigits : Nat → Nat → List Char
  | 0, _ => []
  | count + 1, n => hexDigits count (n / 16) ++ [hexDigit (n % 16)]

/-- The escape of a character in basic strings, if it has to be escaped. Quotes are looked at
elsewhere. -/
def escape? (c : Char) : Option (List Char) :=
  if c = '\x08' then some ['\\', 'b']
  else if c = '\t' then some ['\\', 't']
  else if c = '\x0c' then some ['\\', 'f']
  else if c = '\r' then some ['\\', 'r']
  else if c = '\\' then some ['\\', '\\']
  else if isControl c then some ('\\' :: 'u' :: hexDigits 4 c.toNat)
  else none

/-- The body of a basic string. On several lines, line feeds stay as they are, and so do up to two
quotes in a row; on one line both are escaped. -/
def basicBody (lines : Bool) : Nat → List Char → List Char
  | _, [] => []
  | quotes, c :: rest =>
      if c = '"' then
        if lines && quotes < 2 then c :: basicBody lines (quotes + 1) rest
        else '\\' :: '"' :: basicBody lines 0 rest
      else if c = '\n' then
        if lines then c :: basicBody lines 0 rest else '\\' :: 'n' :: basicBody lines 0 rest
      else
        match escape? c with
        | some escaped => escaped ++ basicBody lines 0 rest
        | none => c :: basicBody lines 0 rest

/-- A line feed behind opening quotes, which readers leave out, for a text of several lines. -/
def openingBreak (text : List Char) : List Char := if text.contains '\n' then ['\n'] else []

/-- A text in a form. -/
def writeAs (form : StringForm) (text : List Char) : List Char :=
  match form with
  | .basic => ['"'] ++ basicBody false 0 text ++ ['"']
  | .literal => ['\''] ++ text ++ ['\'']
  | .basicLines =>
      ['"', '"', '"'] ++ openingBreak text ++ basicBody true 0 text ++ ['"', '"', '"']
  | .literalLines =>
      ['\'', '\'', '\''] ++ openingBreak text ++ text ++ ['\'', '\'', '\'']

def writeString (text : List Char) : List Char := writeAs (formOf text) text

/-- A value that fits on the line of its key. -/
inductive Atom where
  | string (text : String)
  | integer (number : Int)
  | boolean (value : Bool)
  deriving DecidableEq, Repr

namespace Atom

def toValue : Atom → Value
  | string text => .string text
  | integer number => .integer number
  | boolean value => .boolean value

def write : Atom → List Char
  | string text => writeString text.toList
  | integer number => (toString number).toList
  | boolean value => (toString value).toList

/-- Whether a value can be written: integers have to fit in 64 bits with a sign. -/
def Fits : Atom → Prop
  | integer number => integerInRange number = true
  | _ => True

instance (atom : Atom) : Decidable atom.Fits :=
  match atom with
  | integer number => inferInstanceAs (Decidable (integerInRange number = true))
  | string _ | boolean _ => .isTrue trivial

end Atom

/-- A line with a key and a value. -/
def writeEntry (entry : String × Atom) : List Char :=
  entry.1.toList ++ " = ".toList ++ entry.2.write ++ ['\n']

/-- A table with its header. The keys of headers and entries are written bare. -/
structure Section where
  path : List String
  entries : List (String × Atom)
  deriving DecidableEq, Repr

namespace Section

def header (sec : Section) : List Char :=
  '[' :: (".".intercalate sec.path).toList ++ [']', '\n']

def write (sec : Section) : List Char := sec.header ++ sec.entries.flatMap writeEntry

end Section

/-- Sections one after another, with a blank line between them. -/
def writeSections (sections : List Section) : List Char :=
  (sections.map Section.write).intersperse ['\n'] |>.flatten

/-- A document: values without a table of their own, and then sections. -/
structure Document where
  top : List (String × Atom)
  sections : List Section
  deriving DecidableEq, Repr

namespace Document

/-- The sections of a document, with what stands before them as one more. -/
def parts (document : Document) : List Section := ⟨[], document.top⟩ :: document.sections

def write (document : Document) : String :=
  String.ofList (document.top.flatMap writeEntry ++ writeSections document.sections)

end Document

example : writeString "it's".toList = "\"it's\"".toList := by decide

end LayeredGraph.Toml
