/-! Patterns for field values: what a regular expression is made of, how deep it is nested, and in
which mode it can be matched. Patterns are matched against UTF-8 and without tables of Unicode. So
a class of Unicode, a boundary of Unicode words and a letter in both cases of Unicode cannot be
matched, and neither can a class of bytes that reaches beyond ASCII. -/
namespace LayeredGraph.LogFilter

/-- A character of a pattern. One that is written by two hexadecimal digits is a byte where
patterns match bytes. -/
structure Literal where
  char : Char
  isByte : Bool
  deriving DecidableEq, Repr

def Literal.isAscii (l : Literal) : Bool := l.char.toNat < 0x80

/-- Letters that switch how a pattern is read and matched: on in front of a minus sign, and off
behind it. -/
structure Switches where
  letters : List Char
  deriving DecidableEq, Repr

/-- What a letter is switched to, if it is. -/
def Switches.value? (s : Switches) (letter : Char) : Option Bool :=
  if (s.letters.takeWhile (· != '-')).contains letter then some true
  else if s.letters.contains letter then some false
  else none

/-- How patterns match: in one case or in both, and characters of Unicode or bytes. -/
structure Mode where
  bothCases : Bool
  unicode : Bool
  deriving DecidableEq, Repr

/-- The mode in which a pattern starts. -/
def Mode.initial : Mode := ⟨false, true⟩

def Mode.switch (m : Mode) (s : Switches) : Mode where
  bothCases := (s.value? 'i').getD m.bothCases
  unicode := (s.value? 'u').getD m.unicode

/-- A set of characters, as it is written. -/
inductive CharSet where
  | empty
  | range (first last : Literal)
  /-- A class of ASCII by its name, such as `[:alpha:]`. -/
  | named (negated : Bool)
  /-- Digits, whitespace or word characters by their letter, such as `\d`. -/
  | lettered (negated : Bool)
  | bracketed (negated : Bool) (content : CharSet)
  | union (items : List CharSet)
  /-- An intersection or a difference. -/
  | operation (left right : CharSet)

/-- The items of a set together. -/
def CharSet.ofItems : List CharSet → CharSet
  | [] => empty
  | [item] => item
  | items => union items

mutual
def CharSet.depth : CharSet → Nat
  | .empty | .range _ _ | .named _ | .lettered _ => 0
  | .bracketed _ content => content.depth + 1
  | .union items => CharSet.depthAll items + 1
  | .operation left right => max left.depth right.depth + 1
def CharSet.depthAll : List CharSet → Nat
  | [] => 0
  | item :: items => max item.depth (CharSet.depthAll items)
end

mutual
/-- Whether a set can be matched. Sets of bytes are sets of ASCII, so they have no complement. -/
def CharSet.isMatchable (m : Mode) : CharSet → Bool
  | .empty => true
  | .range first last =>
      if m.unicode then !m.bothCases else first.isAscii && last.isAscii
  | .named negated => if m.unicode then !m.bothCases else !negated
  | .lettered negated => !m.unicode && !negated
  | .bracketed negated content => (m.unicode || !negated) && content.isMatchable m
  | .union items => CharSet.areMatchable m items
  | .operation left right => left.isMatchable m && right.isMatchable m
def CharSet.areMatchable (m : Mode) : List CharSet → Bool
  | [] => true
  | item :: items => item.isMatchable m && CharSet.areMatchable m items
end

/-- A pattern, as it is written. -/
inductive Pattern where
  | empty
  | literal (l : Literal)
  | set (s : CharSet)
  /-- Any character. -/
  | dot
  /-- The start or the end of a line or of the text. -/
  | anchor
  /-- The start or the end of a word, or neither. -/
  | boundary
  /-- Switches for what follows in the same group. -/
  | switch (s : Switches)
  | repeated (p : Pattern)
  /-- A group, with switches that hold inside it. -/
  | group (s : Switches) (p : Pattern)
  | sequence (items : List Pattern)
  | choice (branches : List Pattern)

/-- Patterns one behind the other. -/
def Pattern.ofItems : List Pattern → Pattern
  | [] => empty
  | [item] => item
  | items => sequence items

/-- The choice between patterns, of which there is one at least. -/
def Pattern.ofBranches : List Pattern → Pattern
  | [branch] => branch
  | branches => choice branches

mutual
/-- How many groups, repetitions, sequences, choices and sets lie inside one another. -/
def Pattern.depth : Pattern → Nat
  | .empty | .literal _ | .dot | .anchor | .boundary | .switch _ => 0
  | .set s => s.depth
  | .repeated p => p.depth + 1
  | .group _ p => p.depth + 1
  | .sequence items => Pattern.depthAll items + 1
  | .choice branches => Pattern.depthAll branches + 1
def Pattern.depthAll : List Pattern → Nat
  | [] => 0
  | p :: ps => max p.depth (Pattern.depthAll ps)
end

mutual
/-- The mode behind a pattern that starts in a mode, unless it cannot be matched. A group ends in
the mode in which it starts. -/
def Pattern.modeBehind? : Pattern → Mode → Option Mode
  | .empty, m | .anchor, m => some m
  | .literal l, m =>
      if m.unicode then if m.bothCases then none else some m
      else if l.isByte && !l.isAscii then none
      else some m
  | .set s, m => if s.isMatchable m then some m else none
  | .dot, m => if m.unicode then some m else none
  | .boundary, m => if m.unicode then none else some m
  | .switch s, m => some (m.switch s)
  | .repeated p, m => p.modeBehind? m
  | .group s p, m => (p.modeBehind? (m.switch s)).map fun _ => m
  | .sequence items, m => Pattern.modeBehindAll? items m
  | .choice branches, m => Pattern.modeBehindAll? branches m
def Pattern.modeBehindAll? : List Pattern → Mode → Option Mode
  | [], m => some m
  | p :: ps, m =>
      match p.modeBehind? m with
      | none => none
      | some m => Pattern.modeBehindAll? ps m
end

def Pattern.isMatchable (p : Pattern) : Bool := (p.modeBehind? .initial).isSome

theorem CharSet.areMatchable_iff (m : Mode) (items : List CharSet) :
    areMatchable m items = true ↔ ∀ item ∈ items, item.isMatchable m = true := by
  induction items with
  | nil => simp [areMatchable]
  | cons item items ih => simp [areMatchable, ih]

theorem Pattern.depthAll_le_iff (ps : List Pattern) (n : Nat) :
    depthAll ps ≤ n ↔ ∀ p ∈ ps, p.depth ≤ n := by
  induction ps with
  | nil => simp [depthAll]
  | cons p ps ih => rw [depthAll, Nat.max_le, ih, List.forall_mem_cons]

@[simp] theorem Pattern.modeBehindAll?_append (ps qs : List Pattern) (m : Mode) :
    modeBehindAll? (ps ++ qs) m = (modeBehindAll? ps m).bind (modeBehindAll? qs) := by
  induction ps generalizing m with
  | nil => rfl
  | cons p ps ih =>
    simp only [List.cons_append, modeBehindAll?]
    cases p.modeBehind? m <;> simp [ih]

end LayeredGraph.LogFilter
