import LayeredGraph.LogFilter.Pattern.Escape

/-! Sets of characters in brackets: characters, ranges, classes by name, sets inside sets, and
the operations between them, which are taken from the left. -/
namespace LayeredGraph.LogFilter

/-- The names of the classes of ASCII. -/
def classNames : List String :=
  ["alnum", "alpha", "ascii", "blank", "cntrl", "digit", "graph", "lower", "print", "punct",
    "space", "upper", "word", "xdigit"]

/-- Reads a class by name behind its opening bracket, and whether it is negated. What looks like a
class but has no such name is none. -/
def readNamed? : List Char → Option (Bool × List Char)
  | ':' :: '^' :: text => (rest? text).map (true, ·)
  | ':' :: text => (rest? text).map (false, ·)
  | _ => none
where
  rest? (text : List Char) : Option (List Char) :=
    match text.dropWhile (· != ':') with
    | ':' :: ']' :: rest =>
        if classNames.contains (String.ofList (text.takeWhile (· != ':'))) then some rest else none
    | _ => none

/-- What a pattern stands for inside a set, if it can stand there. -/
def Pattern.toCharSet? : Pattern → Option CharSet
  | .literal l => some (.range l l)
  | .set s => some s
  | _ => none

/-- Reads a character or an escape. -/
def readItem (freeSpacing : Bool) : List Char → Option (Pattern × List Char)
  | [] => none
  | '\\' :: rest => readEscape freeSpacing rest
  | c :: rest => some (.literal ⟨c, false⟩, rest)

/-- The character by which a minus sign in front of a text is told from a range: the next one that
counts, or the first one inside a comment. -/
def characterBehind (freeSpacing : Bool) (text : List Char) : Option Char :=
  if freeSpacing then
    match text.dropWhile isWhitespace with
    | '#' :: comment => (comment.dropWhile isWhitespace).head?
    | text => text.head?
  else text.head?

/-- Reads a character, an escape or a range. A minus sign in front of a closing bracket or of
another minus sign belongs to no range; the ends of a range are characters in order. -/
def readMember (freeSpacing : Bool) (text : List Char) : Option (CharSet × List Char) := do
  let (first, rest) ← readItem freeSpacing text
  match skipSpace freeSpacing rest with
  | [] => none
  | '-' :: rest =>
      if [some ']', some '-'].contains (characterBehind freeSpacing rest) then
        return (← first.toCharSet?, '-' :: rest)
      else
        match first, ← readItem freeSpacing (skipSpace freeSpacing rest) with
        | .literal first, (.literal last, rest) =>
            if first.char ≤ last.char then some (.range first last, rest) else none
        | _, _ => none
  | rest => return (← first.toCharSet?, rest)

/-- A set whose closing bracket has not been read: the operands of its last operation, the right
one as items in reverse. It is fresh as long as nothing but minus signs stands in it; those stand
for themselves, and so does a closing bracket without any. -/
structure OpenSet where
  negated : Bool
  left : Option CharSet
  items : List CharSet
  isFresh : Bool

/-- Opens a set behind its bracket. -/
def OpenSet.open (freeSpacing : Bool) (text : List Char) : OpenSet × List Char :=
  match skipSpace freeSpacing text with
  | '^' :: rest => (⟨true, none, [], true⟩, rest)
  | rest => (⟨false, none, [], true⟩, rest)

def OpenSet.add (s : OpenSet) (item : CharSet) : OpenSet :=
  { s with items := item :: s.items, isFresh := false }

def OpenSet.addChar (s : OpenSet) (c : Char) : OpenSet := s.add (.range ⟨c, false⟩ ⟨c, false⟩)

def OpenSet.content (s : OpenSet) : CharSet :=
  let right := CharSet.ofItems s.items.reverse
  match s.left with
  | none => right
  | some left => .operation left right

/-- Starts the right operand of an operation. -/
def OpenSet.operate (s : OpenSet) : OpenSet :=
  { s with left := some s.content, items := [], isFresh := false }

def OpenSet.close (s : OpenSet) : CharSet := .bracketed s.negated s.content

/-- Reads on in a set that lies inside others, up to the bracket that closes the outermost. -/
def readOpenSet (freeSpacing : Bool) :
    (fuel : Nat) → OpenSet → (outer : List OpenSet) → List Char → Option (CharSet × List Char)
  | 0, _, _, _ => none
  | fuel + 1, s, outer, text =>
      let goOn (s : OpenSet) (rest : List Char) := readOpenSet freeSpacing fuel s outer rest
      match skipSpace freeSpacing text with
      | [] => none
      | '[' :: rest =>
          match readNamed? rest with
          | some (negated, rest) => goOn (s.add (.named negated)) rest
          | none =>
              let (inner, rest) := OpenSet.open freeSpacing rest
              readOpenSet freeSpacing fuel inner (s :: outer) rest
      | ']' :: rest =>
          if s.isFresh && s.items.isEmpty then goOn (s.addChar ']') rest
          else
            match outer with
            | [] => some (s.close, rest)
            | next :: outer => readOpenSet freeSpacing fuel (next.add s.close) outer rest
      | '&' :: '&' :: rest => goOn s.operate rest
      | '~' :: '~' :: rest => goOn s.operate rest
      | '-' :: rest =>
          if s.isFresh then goOn { s.addChar '-' with isFresh := true } rest
          else
            match rest with
            | '-' :: rest => goOn s.operate rest
            | _ => do
                let (member, rest) ← readMember freeSpacing ('-' :: rest)
                goOn (s.add member) rest
      | rest => do
          let (member, rest) ← readMember freeSpacing rest
          goOn (s.add member) rest

/-- Reads a set behind its opening bracket. Each step of the reader takes a character away. -/
def readSet (freeSpacing : Bool) (text : List Char) : Option (CharSet × List Char) :=
  let (s, rest) := OpenSet.open freeSpacing text
  readOpenSet freeSpacing (rest.length + 1) s [] rest

example : (readSet false "]x[^a&&b]--c-f]+".toList).map (·.2) = some ['+'] := by decide +kernel

example : (readSet false "z-a]".toList).map (·.2) = none := by decide +kernel

end LayeredGraph.LogFilter
