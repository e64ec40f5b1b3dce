import Mathlib.Data.Option.Basic
import LayeredGraph.Toml.Printer

/-! Escapes in basic strings. Both readers of basic strings take escapes in the same way, and every
character that is not written as it is has an escape that they read as this character. On one line
no quotes stand bare in a body, so the first bare quote ends it. -/
namespace LayeredGraph.Toml

/-- Puts the character in front that an escape came to, if it is complete. -/
def Read.addFound (found : Option Char) (read : Read) : Read :=
  match found with
  | none => read
  | some c => read.cons c

/-- A reader that takes a backslash with what follows as a character. -/
structure TakesEscapes (read : BasicState → List Char → Read) : Prop where
  start : ∀ rest, read .plain ('\\' :: rest) = read .escape rest
  escape : ∀ {c : Char} {state : BasicState} {found : Option Char} {rest : List Char},
    escapeStep c = some (state, found) → rest ≠ [] →
      read .escape (c :: rest) = (read state rest).addFound found
  number : ∀ {digits value : Nat} {c : Char} {state : BasicState} {found : Option Char}
    {rest : List Char}, numberStep digits value c = some (state, found) →
      read (.number digits value) (c :: rest) = (read state rest).addFound found

theorem takesEscapes_readBasic : TakesEscapes readBasic := by
  constructor
  · intro rest
    rfl
  · intro c state found rest step _
    rw [readBasic, step]
    cases found <;> rfl
  · intro digits value c state found rest step
    rw [readBasic, step]
    cases found <;> rfl

/-- A character that an escape starts with is neither blank nor at the end of a line. -/
theorem ne_of_escapeStep {c : Char} {answer : BasicState × Option Char}
    (step : escapeStep c = some answer) : isBlank c = false ∧ c ≠ '\n' ∧ c ≠ '\r' := by
  refine ⟨?_, ?_, ?_⟩
  · rw [← Bool.not_eq_true]
    intro blank
    rw [isBlank, Bool.or_eq_true, beq_iff_eq, beq_iff_eq] at blank
    rcases blank with rfl | rfl <;> simp [escapeStep, shortEscape?] at step
  · rintro rfl
    simp [escapeStep, shortEscape?] at step
  · rintro rfl
    simp [escapeStep, shortEscape?] at step

theorem takesEscapes_readBasicLines : TakesEscapes readBasicLines := by
  constructor
  · intro rest
    have opened : closing? '"' ('\\' :: rest) = none := rfl
    rw [readBasicLines.eq_def]
    simp only [opened]
    rfl
  · intro c state found rest step more
    obtain ⟨blank, feed, back⟩ := ne_of_escapeStep step
    obtain ⟨d, rest, rfl⟩ := List.exists_cons_of_ne_nil more
    rw [readBasicLines]
    simp only [blank, feed, back, step, Bool.false_eq_true, if_false]
    cases found <;> rfl
  · intro digits value c state found rest step
    rw [readBasicLines, step]
    cases found <;> rfl

theorem hexDigit?_hexDigit : ∀ digit < 16, hexDigit? (hexDigit digit) = some digit := by decide

section Number

variable {digit value : Nat}

theorem numberStep_more (inside : digit < 16) (left : Nat) :
    numberStep (left + 2) value (hexDigit digit) =
      some (.number (left + 1) (16 * value + digit), none) := by
  have several : ¬left + 2 ≤ 1 := by omega
  rw [numberStep, hexDigit?_hexDigit digit inside]
  simp only [Option.bind_eq_bind, Option.bind_some, if_neg several]
  rfl

theorem numberStep_last (inside : digit < 16) {c : Char} (complete : 16 * value + digit = c.toNat) :
    numberStep 1 value (hexDigit digit) = some (.plain, some c) := by
  rw [numberStep, hexDigit?_hexDigit digit inside]
  simp only [Option.bind_eq_bind, Option.bind_some, complete, scalar?_toNat, Nat.le_refl, if_true]
  rfl

end Number

section Escapes

variable {read : BasicState → List Char → Read} {c : Char} {rest : List Char}

/-- Four digits are read as the character with this number. -/
theorem TakesEscapes.read_number (h : TakesEscapes read) (small : c.toNat < 65536) :
    read (.number 4 0) (hexDigits 4 c.toNat ++ rest) = (read .plain rest).cons c := by
  have inside : ∀ n, n % 16 < 16 := fun n => Nat.mod_lt n (by decide)
  have digits : hexDigits 4 c.toNat ++ rest = hexDigit (c.toNat / 16 / 16 / 16 % 16) ::
      hexDigit (c.toNat / 16 / 16 % 16) :: hexDigit (c.toNat / 16 % 16) ::
      hexDigit (c.toNat % 16) :: rest := rfl
  rw [digits, h.number (numberStep_more (inside _) 2), Read.addFound,
    h.number (numberStep_more (inside _) 1), Read.addFound,
    h.number (numberStep_more (inside _) 0), Read.addFound,
    h.number (numberStep_last (c := c) (inside _) (by omega))]
  rfl

theorem TakesEscapes.read_short (h : TakesEscapes read) {d : Char}
    (short : escapeStep d = some (.plain, some c)) (more : rest ≠ []) :
    read .plain ('\\' :: d :: rest) = (read .plain rest).cons c := by
  rw [h.start, h.escape short more]
  rfl

theorem toNat_lt_of_isControl (control : isControl c = true) : c.toNat < 128 := by
  rw [isControl, Bool.and_eq_true, Bool.not_eq_true', isPlain, Bool.or_eq_false_iff,
    Bool.and_eq_false_iff, decide_eq_false_iff_not] at control
  rcases control.2.2 with low | delete
  · have low : ¬ ' '.toNat ≤ c.toNat := low
    have space : ' '.toNat = 32 := rfl
    omega
  · have same : c = '\x7f' := by simpa using delete
    rw [same]
    decide

/-- A character is escaped by a letter that stands for it, or by its number. -/
theorem escape?_cases {escaped : List Char} (written : escape? c = some escaped) :
    (∃ d, escaped = ['\\', d] ∧ escapeStep d = some (.plain, some c)) ∨
      isControl c = true ∧ escaped = '\\' :: 'u' :: hexDigits 4 c.toNat := by
  unfold escape? at written
  split at written
  · next same => exact .inl ⟨'b', (Option.some.inj written).symm, by rw [same]; rfl⟩
  split at written
  · next same => exact .inl ⟨'t', (Option.some.inj written).symm, by rw [same]; rfl⟩
  split at written
  · next same => exact .inl ⟨'f', (Option.some.inj written).symm, by rw [same]; rfl⟩
  split at written
  · next same => exact .inl ⟨'r', (Option.some.inj written).symm, by rw [same]; rfl⟩
  split at written
  · next same => exact .inl ⟨'\\', (Option.some.inj written).symm, by rw [same]; rfl⟩
  split at written
  · next control => exact .inr ⟨control, (Option.some.inj written).symm⟩
  · nomatch written

theorem escape?_eq_cons {escaped : List Char} (written : escape? c = some escaped) :
    ∃ more, escaped = '\\' :: more := by
  rcases escape?_cases written with ⟨d, rfl, -⟩ | ⟨-, rfl⟩
  · exact ⟨_, rfl⟩
  · exact ⟨_, rfl⟩

/-- An escape is read as the character that it was written for. -/
theorem TakesEscapes.read_escape (h : TakesEscapes read) {escaped : List Char}
    (written : escape? c = some escaped) (more : rest ≠ []) :
    read .plain (escaped ++ rest) = (read .plain rest).cons c := by
  rcases escape?_cases written with ⟨d, rfl, short⟩ | ⟨control, rfl⟩
  · exact h.read_short short more
  · have small : c.toNat < 65536 :=
      Nat.lt_trans (toNat_lt_of_isControl control) (by decide)
    have number : escapeStep 'u' = some (.number 4 0, none) := rfl
    have digits : hexDigits 4 c.toNat ++ rest ≠ [] := by simp [more]
    rw [List.cons_append, List.cons_append, h.start, h.escape number digits, Read.addFound,
      h.read_number small]

/-- A character without an escape may stand as it is. -/
theorem plain_of_escape?_eq_none (none : escape? c = none) (line : c ≠ '\n') :
    isPlain c = true ∧ c ≠ '\\' ∧ c ≠ '\r' := by
  unfold escape? at none
  split at none
  · nomatch none
  split at none
  · nomatch none
  split at none
  · nomatch none
  split at none
  · nomatch none
  next back =>
  split at none
  · nomatch none
  next slash =>
  split at none
  · nomatch none
  next control =>
  refine ⟨?_, slash, back⟩
  rw [Bool.not_eq_true, isControl, Bool.and_eq_false_iff] at control
  rcases control with feed | plain
  · exact absurd (by simpa using feed) line
  · simpa using plain

end Escapes

theorem readBasic_basicBody (quotes : Nat) (text rest : List Char) :
    readBasic .plain (basicBody false quotes text ++ '"' :: rest) = some (text, rest) := by
  induction text generalizing quotes with
  | nil => rfl
  | cons c text ih =>
    have more : basicBody false 0 text ++ '"' :: rest ≠ [] := by simp
    rw [basicBody]
    split
    · next same =>
      subst same
      rw [Bool.false_and, if_neg nofun, List.cons_append, List.cons_append,
        takesEscapes_readBasic.read_short rfl more, ih]
      rfl
    next quote =>
    split
    · next same =>
      subst same
      rw [if_neg nofun, List.cons_append, List.cons_append,
        takesEscapes_readBasic.read_short rfl more, ih]
      rfl
    next line =>
    cases written : escape? c with
    | some escaped =>
      simp only
      rw [List.append_assoc, takesEscapes_readBasic.read_escape written more, ih]
      rfl
    | none =>
      obtain ⟨plain, slash, -⟩ := plain_of_escape?_eq_none written line
      simp only [List.cons_append]
      rw [readBasic, if_neg quote, if_neg slash, if_pos plain, ih]
      · rfl
      all_goals nofun

end LayeredGraph.Toml
