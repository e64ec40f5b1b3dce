import LayeredGraph.LogFilter.Bytes
import LayeredGraph.LogFilter.Pattern.Reader

/-! The filters that a program's log can be filtered by: directives parted by commas, empty ones
left out. A directive is a level alone; or a target, a span in brackets with conditions on its
fields in braces, or both, with an optional level behind a sign of equality. -/
namespace LayeredGraph.LogFilter

def levelNames : List String := ["error", "warn", "info", "debug", "trace", "off"]

/-- Whether a text is a number from zero to five, with leading zeros and a plus sign allowed. -/
def isLevelNumber (text : List Char) : Bool :=
  let digits :=
    match text with
    | '+' :: rest => rest
    | text => text
  !digits.isEmpty && digits.all Char.isDigit
    && digits.foldl (fun n c => 10 * n + (c.toNat - '0'.toNat)) 0 ≤ 5

/-- Whether a text names a level, in any case, or numbers one. -/
def isLevel (text : List Char) : Bool :=
  isLevelNumber text || levelNames.contains (String.ofList (text.map Char.toLower))

/-- Whether a text is a floating-point number: digits with an optional sign, point and exponent,
or the name of an infinity or of no number. -/
def isFloat (text : List Char) : Bool :=
  let unsigned :=
    match text with
    | '+' :: rest => rest
    | '-' :: rest => rest
    | text => text
  ["inf", "infinity", "nan"].contains (String.ofList (unsigned.map Char.toLower))
    || isDecimal unsigned
where
  isDecimal (text : List Char) : Bool :=
    let whole := text.takeWhile Char.isDigit
    let rest := text.dropWhile Char.isDigit
    let (fraction, rest) :=
      match rest with
      | '.' :: rest => (rest.takeWhile Char.isDigit, rest.dropWhile Char.isDigit)
      | rest => ([], rest)
    !(whole.isEmpty && fraction.isEmpty) &&
      match rest with
      | [] => true
      | e :: rest =>
          let digits :=
            match rest with
            | '+' :: rest => rest
            | '-' :: rest => rest
            | rest => rest
          (e == 'e' || e == 'E') && !digits.isEmpty && digits.all Char.isDigit

/-- Whether a text is the condition of a field: a name alone, or a name with a value, which is a
number or a pattern. -/
def isCondition (text : List Char) : Bool :=
  !text.isEmpty &&
    match text.dropWhile (· != '=') with
    | [] => true
    | _ :: value =>
        let value := value.takeWhile (· != '=')
        isFloat value || isPattern value

/-- Where the reader of a directive stands: at its start; in a level or target; in the name of a
span; in the conditions of a span, from a position on; behind the conditions; behind the span; or
in the level, from a position on. -/
inductive Place where
  | start
  | levelOrTarget
  | span
  | condition (first : Nat)
  | conditions
  | target
  | level (first : Nat)
  deriving DecidableEq, Repr

/-- The place behind one more character `c` at a position, unless it cannot stand there.
Conditions are cut out of a text at the positions where they start and end. -/
def Place.step (text : List Char) (position : Nat) (c : Char) : Place → Option Place
  | start =>
      if c = '[' then some span
      else if c = '-' ∨ c = ':' ∨ c = '_' ∨ isAlphanumeric c then some levelOrTarget
      else none
  | levelOrTarget =>
      if c = '=' then some (level (position + 1))
      else if c = '[' then some span
      else some levelOrTarget
  | span =>
      if c = ']' then some target
      else if c = '\x7b' then some (condition (position + 1))
      else some span
  | condition first =>
      if c = '\x7d' then
        match slice? text first position with
        | some part => if isCondition part then some conditions else none
        | none => none
      else some (condition first)
  | conditions => if c = ']' then some target else none
  | target => if c = '=' then some (level (position + 1)) else none
  | level first => some (level first)

/-- The place behind some characters of which the first is at a position. -/
def Place.run (text : List Char) : (position : Nat) → Place → List Char → Option Place
  | _, place, [] => some place
  | position, place, c :: rest =>
      match place.step text position c with
      | some place => place.run text (position + c.utf8Size) rest
      | none => none

/-- Whether a text is a directive. The whitespace around it does not count for its shape, but
conditions and levels are cut out of the text with the whitespace, at the positions that they
have without it: so a level behind whitespace, or before whitespace, is none. -/
def isDirective (text : List Char) : Bool :=
  match Place.start.run text 0 (trim text) with
  | some .levelOrTarget | some .target => true
  | some (.level first) =>
      match dropBytes first text with
      | some part => part.isEmpty || isLevel part
      | none => false
  | _ => false

example : isDirective " a".toList = true := by decide

example : isDirective " a=info".toList = false := by decide

/-- The directives of a filter. -/
def directives (filter : String) : List (List Char) :=
  (filter.toList.splitOn ',').filter (!·.isEmpty)

/-- Whether a text is a filter. -/
def isValid (filter : String) : Bool := (directives filter).all isDirective

/-- The directives of two filters with a comma between them are those of both. -/
theorem directives_append (first second : String) :
    directives (first ++ "," ++ second) = directives first ++ directives second := by
  have parted : (first ++ "," ++ second).toList = first.toList ++ ',' :: second.toList := by
    rw [String.toList_append, String.toList_append, List.append_assoc]
    rfl
  rw [directives, parted, List.splitOn_append_cons_self, List.filter_append]
  rfl

theorem isValid_append (first second : String) :
    isValid (first ++ "," ++ second) = (isValid first && isValid second) := by
  rw [isValid, directives_append, List.all_append]
  rfl

end LayeredGraph.LogFilter
