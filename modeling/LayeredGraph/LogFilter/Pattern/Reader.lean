import LayeredGraph.LogFilter.Alphanumeric
import LayeredGraph.LogFilter.Pattern.Bracket

/-! Which texts are patterns: the reader of regular expressions with groups, sets and repetition,
and the bounds of what can be matched. A field's condition ends at a closing brace, so patterns
never hold one, and counted repetition cannot be written. -/
namespace LayeredGraph.LogFilter

/-- A group whose closing parenthesis has not been read, with what stands in front of it: the
items of its branch and the branches in front of that, in reverse. -/
structure OpenGroup where
  switches : Switches
  items : List Pattern
  branches : List Pattern
  freeSpacing : Bool

/-- Where the reader of a pattern stands: the names of the groups so far, the groups that are open
from the innermost out, and the branches and items of the innermost one, in reverse. -/
structure Reader where
  freeSpacing : Bool
  names : List (List Char)
  outer : List OpenGroup
  branches : List Pattern
  items : List Pattern

namespace Reader

def initial : Reader := ⟨false, [], [], [], []⟩

def add (r : Reader) (p : Pattern) : Reader := { r with items := p :: r.items }

/-- The branch that is being read. -/
def branch (r : Reader) : Pattern := .ofItems r.items.reverse

/-- What the innermost group holds. -/
def content (r : Reader) : Pattern := .ofBranches (r.branches.reverse ++ [r.branch])

def nextBranch (r : Reader) : Reader := { r with branches := r.branch :: r.branches, items := [] }

/-- Switches hold for the rest of the innermost group. -/
def switch (r : Reader) (s : Switches) : Reader :=
  { r.add (.switch s) with freeSpacing := (s.value? 'x').getD r.freeSpacing }

def openGroup (r : Reader) (s : Switches) : Reader :=
  { r with
    freeSpacing := (s.value? 'x').getD r.freeSpacing
    outer := ⟨s, r.items, r.branches, r.freeSpacing⟩ :: r.outer
    branches := []
    items := [] }

def closeGroup? (r : Reader) : Option Reader :=
  match r.outer with
  | [] => none
  | g :: outer =>
      some ⟨g.freeSpacing, r.names, outer, g.branches, .group g.switches r.content :: g.items⟩

/-- Repeats the last item. Switches cannot be repeated. -/
def repeat? (r : Reader) : Option Reader :=
  match r.items with
  | [] | .switch _ :: _ => none
  | p :: items => some { r with items := .repeated p :: items }

/-- The whole pattern, unless a group is open. -/
def finish? (r : Reader) : Option Pattern := if r.outer.isEmpty then some r.content else none

end Reader

/-- Whether letters are switches: each is known and stands once, and so does the minus sign, which
is not the last. -/
def areSwitches (letters : List Char) : Bool :=
  letters.all "imsUuRx-".toList.contains && letters.eraseDups.length == letters.length
    && letters.getLast? != some '-'

/-- Whether a text can name a group. -/
def isGroupName : List Char → Bool
  | [] => false
  | c :: rest => (c == '_' || isAlphabetic c)
      && rest.all fun c => "_.[]".toList.contains c || isAlphanumeric c

/-- Reads the opening of a group behind its parenthesis: a name, switches or nothing. A name stands
once in a pattern. Switches with a closing parenthesis behind them open no group. -/
def Reader.readOpening (r : Reader) : List Char → Option (Reader × List Char)
  | '?' :: 'P' :: '<' :: text => named text
  | '?' :: '<' :: text => named text
  | '?' :: text =>
      let letters := text.takeWhile fun c => c != ':' && c != ')'
      if !areSwitches letters then none
      else
        match text.drop letters.length with
        | ':' :: rest => some (r.openGroup ⟨letters⟩, rest)
        | ')' :: rest => if letters.isEmpty then none else some (r.switch ⟨letters⟩, rest)
        | _ => none
  | text => some (r.openGroup ⟨[]⟩, text)
where
  named (text : List Char) : Option (Reader × List Char) :=
    let name := text.takeWhile (· != '>')
    match text.drop name.length with
    | '>' :: rest =>
        if isGroupName name && !r.names.contains name then
          some ({ r.openGroup ⟨[]⟩ with names := name :: r.names }, rest)
        else none
    | _ => none

/-- The reader behind one more character and what belongs to it. -/
def Reader.step (r : Reader) (c : Char) (rest : List Char) : Option (Reader × List Char) :=
  match c with
  | '(' => r.readOpening (skipSpace r.freeSpacing rest)
  | ')' => r.closeGroup?.map (·, rest)
  | '|' => some (r.nextBranch, rest)
  | '[' => (readSet r.freeSpacing rest).map fun (s, rest) => (r.add (.set s), rest)
  | '?' | '*' | '+' => r.repeat?.map (·, if rest.head? = some '?' then rest.drop 1 else rest)
  | '\x7b' => none
  | '\\' => (readEscape r.freeSpacing rest).map fun (p, rest) => (r.add p, rest)
  | '.' => some (r.add .dot, rest)
  | '^' | '$' => some (r.add .anchor, rest)
  | c => some (r.add (.literal ⟨c, false⟩), rest)

/-- Reads to the end. -/
def Reader.run : (fuel : Nat) → Reader → List Char → Option Pattern
  | 0, _, _ => none
  | fuel + 1, r, text =>
      match skipSpace r.freeSpacing text with
      | [] => r.finish?
      | c :: rest => do
          let (r, rest) ← r.step c rest
          r.run fuel rest

/-- The pattern that a text writes. Each step of the reader takes a character away. -/
def Pattern.read? (text : List Char) : Option Pattern :=
  Reader.initial.run (text.length + 1) text

/-- The depth to which a pattern can be nested. -/
def Pattern.maxDepth : Nat := 250

/-- Whether a text is a pattern that can be matched. -/
def isPattern (text : List Char) : Bool :=
  match Pattern.read? text with
  | some p => p.depth ≤ Pattern.maxDepth && p.isMatchable
  | none => false

example : isPattern "a(b|c)*[^]x]+".toList = true := by decide +kernel

example : isPattern "(a".toList = false := by decide +kernel

example : isPattern "(?i-u)a|(?u:b)".toList = false := by decide +kernel

end LayeredGraph.LogFilter
