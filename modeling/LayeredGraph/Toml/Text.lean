import LayeredGraph.CodePoint

/-! Strings of a TOML document, in the four forms in which they can be written: basic and literal,
each on one line or on several. Readers start behind the opening quotes and give the text with
what follows the closing quotes. -/
namespace LayeredGraph.Toml

/-- Spaces and tabs. -/
def isBlank (c : Char) : Bool := c == ' ' || c == '\t'

/-- Characters that may stand in a string or a comment as they are: all but the control
characters other than tab. -/
def isPlain (c : Char) : Bool := c == '\t' || (' ' ≤ c && c != '\x7f')

/-- The character that a short escape stands for. -/
def shortEscape? : Char → Option Char
  | 'b' => some '\x08'
  | 't' => some '\t'
  | 'n' => some '\n'
  | 'f' => some '\x0c'
  | 'r' => some '\r'
  | '"' => some '"'
  | '\\' => some '\\'
  | _ => none

/-- Where a reader of basic strings stands: between characters; behind a backslash; before some
more digits of a character number; or in a run of blanks and line ends that a backslash at the
end of a line takes away, where `ended` says whether the line end has come. -/
inductive BasicState where
  | plain
  | escape
  | number (digits value : Nat)
  | fold (ended : Bool)
  deriving DecidableEq, Repr

/-- A text and what follows it. -/
abbrev Read := Option (List Char × List Char)

/-- Puts a character in front of a text that was read. -/
def Read.cons (c : Char) (read : Read) : Read := read.map fun (text, rest) => (c :: text, rest)

/-- One digit of a character number: the state after it, and the character if it is complete. -/
def numberStep (digits value : Nat) (c : Char) : Option (BasicState × Option Char) := do
  let digit ← hexDigit? c
  let value := 16 * value + digit
  if digits ≤ 1 then return (.plain, some (← scalar? value))
  else return (.number (digits - 1) value, none)

/-- The character behind a backslash. -/
def escapeStep (c : Char) : Option (BasicState × Option Char) :=
  if c = 'u' then some (.number 4 0, none)
  else if c = 'U' then some (.number 8 0, none)
  else (shortEscape? c).map fun d => (.plain, some d)

/-- Reads a basic string on one line. -/
def readBasic : BasicState → List Char → Read
  | _, [] => none
  | .escape, c :: rest =>
      match escapeStep c with
      | none => none
      | some (state, none) => readBasic state rest
      | some (state, some d) => (readBasic state rest).cons d
  | .number digits value, c :: rest =>
      match numberStep digits value c with
      | none => none
      | some (state, none) => readBasic state rest
      | some (state, some d) => (readBasic state rest).cons d
  | _, c :: rest =>
      if c = '"' then some ([], rest)
      else if c = '\\' then readBasic .escape rest
      else if isPlain c then (readBasic .plain rest).cons c
      else none

/-- Reads a literal string on one line. -/
def readLiteral : List Char → Read
  | [] => none
  | c :: rest =>
      if c = '\'' then some ([], rest)
      else if isPlain c then (readLiteral rest).cons c
      else none

/-- Splits off the quotes at the start, at most five of them. -/
def takeQuotes (quote : Char) : Nat → List Char → Nat × List Char
  | 0, text => (0, text)
  | _, [] => (0, [])
  | bound + 1, c :: rest =>
      if c = quote then
        let (count, rest) := takeQuotes quote bound rest
        (count + 1, rest)
      else (0, c :: rest)

/-- The end of a string on several lines, if three quotes stand here: up to two more quotes
before the last three belong to the text. -/
def closing? (quote : Char) (text : List Char) : Read :=
  let (count, rest) := takeQuotes quote 5 text
  if 3 ≤ count then some (List.replicate (count - 3) quote, rest) else none

/-- Reads a basic string on several lines. A line end is read as one line feed. -/
def readBasicLines : BasicState → List Char → Read
  | _, [] => none
  | .escape, c :: rest =>
      if isBlank c then readBasicLines (.fold false) rest
      else if c = '\n' then readBasicLines (.fold true) rest
      else
        match rest with
        | [] => none
        | d :: more =>
            if c = '\r' then
              if d = '\n' then readBasicLines (.fold true) more else none
            else
              match escapeStep c with
              | none => none
              | some (state, none) => readBasicLines state (d :: more)
              | some (state, some e) => (readBasicLines state (d :: more)).cons e
  | .number digits value, c :: rest =>
      match numberStep digits value c with
      | none => none
      | some (state, none) => readBasicLines state rest
      | some (state, some d) => (readBasicLines state rest).cons d
  | .fold false, c :: rest =>
      if isBlank c then readBasicLines (.fold false) rest
      else if c = '\n' then readBasicLines (.fold true) rest
      else
        match rest with
        | [] => none
        | d :: more => if c = '\r' ∧ d = '\n' then readBasicLines (.fold true) more else none
  | state, c :: rest =>
      match closing? '"' (c :: rest) with
      | some (quotes, rest) => some (quotes, rest)
      | none =>
          if state = .fold true ∧ (isBlank c ∨ c = '\n') then readBasicLines (.fold true) rest
          else if c = '\\' then readBasicLines .escape rest
          else if c = '\n' ∨ isPlain c then (readBasicLines .plain rest).cons c
          else
            match rest with
            | [] => none
            | d :: more =>
                if c = '\r' ∧ d = '\n' then
                  if state = .fold true then readBasicLines (.fold true) more
                  else (readBasicLines .plain more).cons '\n'
                else none

/-- Reads a literal string on several lines. A line end is read as one line feed. -/
def readLiteralLines : List Char → Read
  | [] => none
  | c :: rest =>
      match closing? '\'' (c :: rest) with
      | some (quotes, rest) => some (quotes, rest)
      | none =>
          if c = '\n' ∨ isPlain c then (readLiteralLines rest).cons c
          else
            match rest with
            | [] => none
            | d :: more =>
                if c = '\r' ∧ d = '\n' then (readLiteralLines more).cons '\n' else none

/-- Leaves out a line end right behind the opening quotes. -/
def dropLineEnd : List Char → List Char
  | '\n' :: rest => rest
  | '\r' :: '\n' :: rest => rest
  | text => text

/-- Reads a string in any form, from its opening quotes on. -/
def readString : List Char → Read
  | '"' :: '"' :: '"' :: rest => readBasicLines .plain (dropLineEnd rest)
  | '"' :: rest => readBasic .plain rest
  | '\'' :: '\'' :: '\'' :: rest => readLiteralLines (dropLineEnd rest)
  | '\'' :: rest => readLiteral rest
  | _ => none

end LayeredGraph.Toml
