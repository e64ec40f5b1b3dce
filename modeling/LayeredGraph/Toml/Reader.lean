import LayeredGraph.Toml.Scalar
import LayeredGraph.Toml.Table

/-! Reading a document: its text is cut into lines that set a key or open a table, and the lines
build up one table. A text that breaks a rule anywhere has no reading. -/
namespace LayeredGraph.Toml

def skipBlanks (text : List Char) : List Char := text.dropWhile isBlank

/-- What follows a line end. -/
def lineBreak? : List Char → Option (List Char)
  | '\n' :: rest => some rest
  | '\r' :: '\n' :: rest => some rest
  | _ => none

/-- What follows a comment. -/
def skipComment (text : List Char) : List Char :=
  match text with
  | '#' :: rest => rest.dropWhile isPlain
  | text => text

/-- Ends a line behind its content: blanks and a comment may follow, and then nothing but the
line end or the end of the text. -/
def endLine? (text : List Char) : Option (List Char) :=
  match skipComment (skipBlanks text) with
  | [] => some []
  | rest => lineBreak? rest

theorem length_skipBlanks_le (text : List Char) : (skipBlanks text).length ≤ text.length :=
  (List.dropWhile_sublist _).length_le

theorem length_skipComment_le (text : List Char) : (skipComment text).length ≤ text.length := by
  unfold skipComment
  split
  · exact Nat.le_succ_of_le (List.dropWhile_sublist _).length_le
  · exact Nat.le_refl _

theorem length_lt_of_lineBreak? {text rest : List Char} (h : lineBreak? text = some rest) :
    rest.length < text.length := by
  unfold lineBreak? at h
  split at h
  · exact Option.some.inj h ▸ Nat.lt_succ_self _
  · exact Option.some.inj h ▸ Nat.lt_succ_of_lt (Nat.lt_succ_self _)
  · nomatch h

/-- What follows blanks, comments and line ends in an array. -/
def skipLines (text : List Char) : List Char :=
  match _h : lineBreak? (skipComment (skipBlanks text)) with
  | some more => skipLines more
  | none => skipComment (skipBlanks text)
termination_by text.length
decreasing_by
  have hm := length_lt_of_lineBreak? _h
  have hc := length_skipComment_le (skipBlanks text)
  have hb := length_skipBlanks_le text
  omega

/-- Reads one part of a key: bare, or a string on one line. -/
def readKeyPart (text : List Char) : Option (String × List Char) :=
  match text with
  | '"' :: rest => (readBasic .plain rest).map fun (key, rest) => (String.ofList key, rest)
  | '\'' :: rest => (readLiteral rest).map fun (key, rest) => (String.ofList key, rest)
  | text =>
      let key := text.takeWhile isKeyChar
      if key.isEmpty then none else some (String.ofList key, text.dropWhile isKeyChar)

/-- Reads a key of at most `bound` parts. Blanks may stand around the parts. -/
def readKey : Nat → List Char → Option (List String × List Char)
  | 0, _ => none
  | bound + 1, text => do
      let (part, rest) ← readKeyPart (skipBlanks text)
      match skipBlanks rest with
      | '.' :: rest => do
          let (parts, rest) ← readKey bound rest
          return (part :: parts, rest)
      | rest => return ([part], rest)

/-- Reads the items of an array up to the closing bracket. A comma may follow the last one. -/
def readItems (readValue : List Char → Option (Value × List Char)) :
    Nat → List Char → Option (List Value × List Char)
  | 0, _ => none
  | bound + 1, text =>
      match skipLines text with
      | ']' :: rest => some ([], rest)
      | text => do
          let (item, rest) ← readValue text
          match skipLines rest with
          | ']' :: rest => return ([item], rest)
          | ',' :: rest => do
              let (items, rest) ← readItems readValue bound rest
              return (item :: items, rest)
          | _ => none

/-- Reads a key, the sign of equality and a value. -/
def readPair (readValue : List Char → Option (Value × List Char)) (text : List Char) :
    Option ((List String × Value) × List Char) := do
  let (key, rest) ← readKey depthLimit text
  let rest ← skip? '=' rest
  let (value, rest) ← readValue (skipBlanks rest)
  return ((key, value), rest)

/-- Reads the pairs of a table in braces up to the closing brace, adding them to the table. No
comma may follow the last one. -/
def readPairs (readValue : List Char → Option (Value × List Char)) :
    Nat → Table → List Char → Option (Table × List Char)
  | 0, _, _ => none
  | bound + 1, table, text => do
      let ((key, value), rest) ← readPair readValue text
      let table ← table.insert key.dropLast (key.getLast?.getD "") value
      match skipBlanks rest with
      | '\x7d' :: rest => return (table, rest)
      | ',' :: rest => readPairs readValue bound table rest
      | _ => none

/-- Reads a value, with arrays and tables in braces up to a depth; `bound` is more than the length
of the text. -/
def readValue (bound : Nat) : (depth : Nat) → List Char → Option (Value × List Char)
  | _, [] => none
  | depth, c :: rest =>
      if c = '"' ∨ c = '\'' then
        (readString (c :: rest)).map fun (text, rest) => (.string (String.ofList text), rest)
      else if c = '[' then
        match depth with
        | 0 => none
        | depth + 1 => do
            let (items, rest) ← readItems (readValue bound depth) bound rest
            return (.array .inline items, rest)
      else if c = '\x7b' then
        match depth with
        | 0 => none
        | depth + 1 =>
            match skipBlanks rest with
            | '\x7d' :: rest => some (.table .inline [], rest)
            | rest => do
                let (table, rest) ←
                  readPairs (readValue bound depth) bound (.empty .inline) rest
                return (table.toValue, rest)
      else readScalar (c :: rest)

/-- A line with content: a key with its value, or the header of a table or of a further table of
an array. -/
inductive Line where
  | pair (key : List String) (value : Value)
  | header (key : List String)
  | item (key : List String)
  deriving Repr

/-- Reads one line with content, up to the start of the next line; `bound` is more than the length
of the text. -/
def readLine (bound : Nat) (text : List Char) : Option (Line × List Char) :=
  match text with
  | '[' :: '[' :: rest => do
      let (key, rest) ← readKey depthLimit rest
      let rest ← skip? ']' rest
      let rest ← skip? ']' rest
      return (.item key, ← endLine? rest)
  | '[' :: rest => do
      let (key, rest) ← readKey depthLimit rest
      let rest ← skip? ']' rest
      return (.header key, ← endLine? rest)
  | text => do
      let ((key, value), rest) ← readPair (readValue bound depthLimit) text
      return (.pair key value, ← endLine? rest)

/-- Cuts a text into its lines with content; blank lines and comments are left out. -/
def readLines : Nat → List Char → Option (List Line)
  | 0, _ => none
  | bound + 1, text =>
      match skipBlanks text with
      | [] => some []
      | c :: rest =>
          if c = '#' ∨ c = '\n' ∨ c = '\r' then do
            readLines bound (← endLine? (c :: rest))
          else do
            let (line, rest) ← readLine (bound + 1) (c :: rest)
            let lines ← readLines bound rest
            return line :: lines

/-- The table of a document while it is built, and the path of the table that was opened last. -/
structure Assembly where
  root : Table
  path : List String
  deriving Repr

namespace Assembly

def empty : Assembly := ⟨.empty .header, []⟩

/-- Takes one line: a pair goes into the table that was opened last. -/
def add (assembly : Assembly) : Line → Option Assembly
  | .pair key value => do
      let root ← assembly.root.update false
        (Table.insert key.dropLast (key.getLast?.getD "") value) assembly.path
      return { assembly with root }
  | .header key => do
      let root ← assembly.root.update false (Table.openTable (key.getLast?.getD "")) key.dropLast
      return ⟨root, key⟩
  | .item key => do
      let root ← assembly.root.update false (Table.openItem (key.getLast?.getD "")) key.dropLast
      return ⟨root, key⟩

end Assembly

/-- The table that some lines build up. -/
def assemble (lines : List Line) : Option Table :=
  (lines.foldlM Assembly.add Assembly.empty).map (·.root)

/-- Leaves out a byte order mark at the start. -/
def dropMark : List Char → List Char
  | '\ufeff' :: rest => rest
  | text => text

/-- The table of a document. -/
def read (text : String) : Option Table := do
  let text := dropMark text.toList
  assemble (← readLines (text.length + 1) text)

end LayeredGraph.Toml
