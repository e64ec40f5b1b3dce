import LayeredGraph.Proofs.Toml.Text
import LayeredGraph.Toml.Reader

/-! Values read back. An integer is written in decimal digits without zeros in front, so it is
neither a date nor a number in another base, and the reader of integers takes all of its digits. -/
namespace LayeredGraph.Toml

/-- The decimal digits of a number. -/
def decimals (n : Nat) : List Nat := if n < 10 then [n] else decimals (n / 10) ++ [n % 10]

section Decimals

variable (n : Nat)

theorem toDigits_eq_decimals : Nat.toDigits 10 n = (decimals n).map Nat.digitChar := by
  induction n using decimals.induct with
  | case1 n small => rw [Nat.toDigits_of_lt_base small, decimals, if_pos small]; rfl
  | case2 n large ih =>
    rw [Nat.toDigits_of_base_le (by decide) (Nat.le_of_not_lt large), ih, decimals.eq_def n,
      if_neg large, List.map_append]
    rfl

theorem lt_of_mem_decimals {d : Nat} (member : d ∈ decimals n) : d < 10 := by
  induction n using decimals.induct with
  | case1 n small =>
    rw [decimals, if_pos small] at member
    exact List.mem_singleton.1 member ▸ small
  | case2 n large ih =>
    rw [decimals, if_neg large] at member
    rcases List.mem_append.1 member with earlier | last
    · exact ih earlier
    · exact List.mem_singleton.1 last ▸ Nat.mod_lt n (by decide)

theorem numberOf_decimals : numberOf 10 (decimals n) = n := by
  induction n using decimals.induct with
  | case1 n small =>
    rw [decimals, if_pos small]
    exact Nat.zero_add n
  | case2 n large ih =>
    rw [numberOf] at ih
    rw [decimals, if_neg large, numberOf, List.foldl_append, ih]
    exact Nat.div_add_mod n 10

/-- Only zero has a zero as its first digit. -/
theorem exists_decimals_cons : ∃ d ds, decimals n = d :: ds ∧ (d = 0 → n = 0) := by
  induction n using decimals.induct with
  | case1 n small => exact ⟨n, [], by rw [decimals, if_pos small], id⟩
  | case2 n large ih =>
    obtain ⟨d, ds, digits, zero⟩ := ih
    refine ⟨d, ds ++ [n % 10], by rw [decimals, if_neg large, digits]; rfl, fun first => ?_⟩
    have none := zero first
    omega

end Decimals

section Digits

theorem digitIn?_digitChar : ∀ d < 10, digitIn? 10 (Nat.digitChar d) = some d := by decide

theorem isScalarChar_digitChar : ∀ d < 10, isScalarChar (Nat.digitChar d) = true := by decide

variable {ds : List Nat}

theorem not_mem_map_digitChar (small : ∀ d ∈ ds, d < 10) {c : Char} (other : c.isDigit = false) :
    c ∉ ds.map Nat.digitChar := by
  intro member
  obtain ⟨d, held, rfl⟩ := List.mem_map.1 member
  rw [Nat.isDigit_digitChar, decide_eq_true (small d held)] at other
  nomatch other

theorem moreDigits_map_digitChar (small : ∀ d ∈ ds, d < 10) :
    moreDigits 10 (ds.map Nat.digitChar) = (ds, []) := by
  induction ds with
  | nil => rfl
  | cons d ds ih =>
    have first : d < 10 := small d List.mem_cons_self
    have rest := ih fun e member => small e (List.mem_cons_of_mem _ member)
    rw [List.map_cons, moreDigits]
    · simp only [digitIn?_digitChar d first, rest]
    · intro c rest same
      have digit : (Nat.digitChar d).isDigit = true := by
        rw [Nat.isDigit_digitChar, decide_eq_true first]
      rw [same] at digit
      nomatch digit

theorem wholeDigits?_decimals (n : Nat) :
    wholeDigits? ((decimals n).map Nat.digitChar) = some (decimals n, []) := by
  obtain ⟨d, ds, digits, zero⟩ := exists_decimals_cons n
  have small : ∀ e ∈ d :: ds, e < 10 := fun e member => lt_of_mem_decimals n (digits ▸ member)
  have read : digits? 10 ((decimals n).map Nat.digitChar) = some (decimals n, []) := by
    rw [digits, List.map_cons, digits?, digitIn?_digitChar d (small d List.mem_cons_self)]
    simp only [Option.bind_eq_bind, Option.bind_some,
      moreDigits_map_digitChar fun e member => small e (List.mem_cons_of_mem _ member)]
    rfl
  rw [wholeDigits?, read]
  split
  · next leading =>
    have same : decimals n = 0 :: _ :: _ := congrArg Prod.fst (Option.some.inj leading)
    rw [digits] at same
    have none := zero (List.cons.inj same).1
    have single : decimals 0 = [0] := by rw [decimals, if_pos (by decide)]
    rw [none, single] at digits
    nomatch digits.trans same
  · rfl

end Digits

section Dates

variable {text : List Char} {c : Char}

theorem skip?_of_not_mem (apart : c ∉ text) : skip? c text = none := by
  cases text with
  | nil => rfl
  | cons d text =>
    have other : d ≠ c := by
      rintro rfl
      exact apart List.mem_cons_self
    exact if_neg other

/-- Digits are taken from the front. -/
theorem mem_of_mem_fixedDigits? {count : Nat} {ds : List Nat} {rest : List Char}
    (read : fixedDigits? count text = some (ds, rest)) (member : c ∈ rest) : c ∈ text := by
  induction count generalizing text ds with
  | zero =>
    obtain ⟨-, rfl⟩ := Prod.mk.inj (Option.some.inj read)
    exact member
  | succ count ih =>
    cases text with
    | nil => nomatch read
    | cons d text =>
      rw [fixedDigits?] at read
      simp only [Option.bind_eq_bind, Option.bind_eq_some_iff] at read
      obtain ⟨digit, -, ⟨more, later⟩, read, same⟩ := read
      obtain ⟨-, rfl⟩ := Prod.mk.inj (Option.some.inj same)
      exact List.mem_cons_of_mem _ (ih read)

theorem readDay?_of_not_mem (apart : '-' ∉ text) : readDay? text = none := by
  rw [readDay?]
  cases read : fixedDigits? 4 text with
  | none => rfl
  | some found =>
    have behind : '-' ∉ found.2 := mt (mem_of_mem_fixedDigits? read) apart
    simp only [Option.bind_eq_bind, Option.bind_some, skip?_of_not_mem behind, Option.bind_none]

theorem mem_of_mem_twoDigits? {low high n : Nat} {rest : List Char}
    (read : twoDigits? low high text = some (n, rest)) (member : c ∈ rest) : c ∈ text := by
  rw [twoDigits?] at read
  simp only [Option.bind_eq_bind, Option.bind_eq_some_iff] at read
  obtain ⟨⟨ds, later⟩, read, -, -, same⟩ := read
  obtain ⟨-, rfl⟩ := Prod.mk.inj (Option.some.inj same)
  exact mem_of_mem_fixedDigits? read member

theorem readTime?_of_not_mem (apart : ':' ∉ text) : readTime? text = none := by
  rw [readTime?]
  cases read : twoDigits? 0 23 text with
  | none => rfl
  | some found =>
    have behind : ':' ∉ found.2 := mt (mem_of_mem_twoDigits? read) apart
    simp only [Option.bind_eq_bind, Option.bind_some, skip?_of_not_mem behind, Option.bind_none]

/-- A text that is no date and no time. -/
structure Dateless (text : List Char) : Prop where
  day : readDay? text = none
  time : readTime? text = none

theorem dateless_of_not_mem (dash : '-' ∉ text) (colon : ':' ∉ text) : Dateless text :=
  ⟨readDay?_of_not_mem dash, readTime?_of_not_mem colon⟩

theorem dateless_negative (text : List Char) : Dateless ('-' :: text) := ⟨rfl, rfl⟩

theorem Dateless.isDay (h : Dateless text) : isDay text = false := by
  rw [Toml.isDay, h.day]
  rfl

theorem Dateless.isDate (h : Dateless text) : isDate text = false := by
  rw [Toml.isDate, h.day, h.time]
  rfl

end Dates

/-- How an integer is written. -/
def integerText (number : Int) : List Char :=
  match number with
  | .ofNat n => (decimals n).map Nat.digitChar
  | .negSucc n => '-' :: (decimals (n + 1)).map Nat.digitChar

theorem toList_toString_eq (number : Int) : (toString number).toList = integerText number := by
  rw [Int.toString_eq_repr]
  cases number with
  | ofNat n =>
    change n.repr.toList = (decimals n).map Nat.digitChar
    rw [Nat.toList_repr, toDigits_eq_decimals]
  | negSucc n =>
    change ("-" ++ (n + 1).repr).toList = '-' :: (decimals (n + 1)).map Nat.digitChar
    rw [String.toList_append, Nat.toList_repr, toDigits_eq_decimals]
    rfl

section Integers

variable {number : Int}

theorem not_mem_digits {c : Char} (n : Nat) (other : c.isDigit = false) :
    c ∉ (decimals n).map Nat.digitChar :=
  not_mem_map_digitChar (fun _ => lt_of_mem_decimals n) other

theorem dateless_integerText (number : Int) : Dateless (integerText number) := by
  cases number with
  | ofNat n => exact dateless_of_not_mem (not_mem_digits n rfl) (not_mem_digits n rfl)
  | negSucc n => exact dateless_negative _

theorem takeSign_digits (n : Nat) :
    takeSign ((decimals n).map Nat.digitChar) = (false, (decimals n).map Nat.digitChar) := by
  have dash : '-' ∉ (decimals n).map Nat.digitChar := not_mem_digits n rfl
  have plus : '+' ∉ (decimals n).map Nat.digitChar := not_mem_digits n rfl
  unfold takeSign
  split
  · next same => exact absurd (same ▸ List.mem_cons_self) dash
  · next same => exact absurd (same ▸ List.mem_cons_self) plus
  · rfl

/-- There is nothing but digits in an integer, behind its sign. -/
theorem not_mem_integerText (number : Int) {c : Char} (other : c.isDigit = false)
    (sign : c ≠ '-') : c ∉ integerText number := by
  intro member
  cases number with
  | ofNat n => exact not_mem_digits n other member
  | negSucc n =>
    rcases List.mem_cons.1 member with rfl | member
    · exact sign rfl
    · exact not_mem_digits (n + 1) other member

/-- Without letters behind its zero a number is in base ten. -/
theorem readInteger?_of_decimal {text : List Char} {negative : Bool} {n : Nat}
    (letters : ∀ {c : Char}, c.isDigit = false → c ≠ '-' → c ∉ text)
    (signed : takeSign text = (negative, (decimals n).map Nat.digitChar)) :
    readInteger? text = integer? (if negative then -(n : Int) else n) := by
  rw [readInteger?.eq_def]
  split
  · exact absurd (List.mem_cons_of_mem _ List.mem_cons_self) (letters (c := 'x') rfl (by decide))
  · exact absurd (List.mem_cons_of_mem _ List.mem_cons_self) (letters (c := 'o') rfl (by decide))
  · exact absurd (List.mem_cons_of_mem _ List.mem_cons_self) (letters (c := 'b') rfl (by decide))
  simp only [signed, wholeDigits?_decimals, numberOf_decimals, Option.bind_eq_bind,
    Option.bind_some]
  rfl

/-- All digits of an integer are read, in base ten. -/
theorem readInteger?_integerText (inRange : integerInRange number = true) :
    readInteger? (integerText number) = some (.integer number) := by
  have value : integer? number = some (.integer number) := if_pos inRange
  rw [← value]
  cases number with
  | ofNat n =>
    have signed : takeSign (integerText (.ofNat n)) =
        (false, (decimals n).map Nat.digitChar) := takeSign_digits n
    rw [readInteger?_of_decimal (not_mem_integerText _) signed, if_neg nofun]
    rfl
  | negSucc n =>
    have signed : takeSign (integerText (.negSucc n)) =
        (true, (decimals (n + 1)).map Nat.digitChar) := rfl
    rw [readInteger?_of_decimal (not_mem_integerText _) signed, if_pos rfl]
    rfl

/-- Whatever an integer starts with, it is no name of a boolean. -/
theorem scalarOf?_integerText (inRange : integerInRange number = true) :
    scalarOf? (integerText number) = some (.integer number) := by
  have noTrue : integerText number ≠ ['t', 'r', 'u', 'e'] := by
    intro same
    have apart : 't' ∉ integerText number := not_mem_integerText number rfl (by decide)
    exact apart (same ▸ List.mem_cons_self)
  have noFalse : integerText number ≠ ['f', 'a', 'l', 's', 'e'] := by
    intro same
    have apart : 'f' ∉ integerText number := not_mem_integerText number rfl (by decide)
    exact apart (same ▸ List.mem_cons_self)
  rw [scalarOf?, if_neg noTrue, if_neg noFalse, (dateless_integerText number).isDate,
    readInteger?_integerText inRange]
  rfl

theorem isScalarChar_of_mem_integerText {c : Char} (member : c ∈ integerText number) :
    isScalarChar c = true := by
  have digits : ∀ n, c ∈ (decimals n).map Nat.digitChar → isScalarChar c = true := by
    intro n member
    obtain ⟨d, held, rfl⟩ := List.mem_map.1 member
    exact isScalarChar_digitChar d (lt_of_mem_decimals n held)
  cases number with
  | ofNat n => exact digits n member
  | negSucc n =>
    rcases List.mem_cons.1 member with rfl | member
    · rfl
    · exact digits (n + 1) member

theorem integerText_ne_nil (number : Int) : integerText number ≠ [] := by
  cases number with
  | ofNat n =>
    obtain ⟨d, ds, digits, -⟩ := exists_decimals_cons n
    rw [integerText, digits]
    exact nofun
  | negSucc n => exact nofun

end Integers

section Values

/-- A run of characters is read as a whole, up to the end of its line. -/
theorem readScalar_append {text : List Char} (run : ∀ c ∈ text, isScalarChar c = true)
    (dateless : Dateless text) (rest : List Char) :
    readScalar (text ++ '\n' :: rest) = (scalarOf? text).map (·, '\n' :: rest) := by
  have taken : (text ++ '\n' :: rest).takeWhile isScalarChar = text := by
    rw [List.takeWhile_append_of_pos run]
    exact List.append_nil text
  have left : (text ++ '\n' :: rest).dropWhile isScalarChar = '\n' :: rest :=
    List.dropWhile_append_of_pos run
  rw [readScalar]
  simp only [taken, left, dateless.isDay]

/-- A character of a number or a boolean starts no string, array or table. -/
theorem readValue_of_scalar {c : Char} (scalar : isScalarChar c = true) (bound depth : Nat)
    (rest : List Char) : readValue bound depth (c :: rest) = readScalar (c :: rest) := by
  have other : ∀ d, isScalarChar d = false → c ≠ d := by
    rintro d none rfl
    rw [none] at scalar
    nomatch scalar
  have quotes : ¬(c = '"' ∨ c = '\'') := not_or.2 ⟨other _ rfl, other _ rfl⟩
  rw [readValue.eq_def]
  simp only [if_neg quotes, if_neg (other '[' rfl), if_neg (other '\x7b' rfl)]

theorem readValue_of_quote {c : Char} (quote : c = '"' ∨ c = '\'') (bound depth : Nat)
    (rest : List Char) : readValue bound depth (c :: rest) =
      (readString (c :: rest)).map fun (text, rest) => (.string (String.ofList text), rest) := by
  rw [readValue.eq_def]
  simp only [if_pos quote]

theorem exists_writeString_cons (text : List Char) :
    ∃ c more, writeString text = c :: more ∧ (c = '"' ∨ c = '\'') := by
  rw [writeString]
  cases formOf text with
  | basic => exact ⟨_, _, rfl, .inl rfl⟩
  | literal => exact ⟨_, _, rfl, .inr rfl⟩
  | basicLines => exact ⟨_, _, rfl, .inl rfl⟩
  | literalLines => exact ⟨_, _, rfl, .inr rfl⟩

theorem Atom.exists_write_cons (atom : Atom) : ∃ c more, atom.write = c :: more ∧
    isBlank c = false := by
  cases atom with
  | string text =>
    obtain ⟨c, more, written, quote⟩ := exists_writeString_cons text.toList
    refine ⟨c, more, written, ?_⟩
    rcases quote with rfl | rfl <;> rfl
  | integer number =>
    obtain ⟨c, more, written⟩ := List.exists_cons_of_ne_nil (integerText_ne_nil number)
    refine ⟨c, more, (toList_toString_eq number).trans written, ?_⟩
    have scalar : isScalarChar c = true :=
      isScalarChar_of_mem_integerText (written ▸ List.mem_cons_self)
    rw [← Bool.not_eq_true]
    intro blank
    rw [isBlank, Bool.or_eq_true, beq_iff_eq, beq_iff_eq] at blank
    rcases blank with rfl | rfl <;> exact absurd scalar (by decide)
  | boolean value => cases value <;> exact ⟨_, _, rfl, rfl⟩

/-- A value is read back up to the end of its line. -/
theorem readValue_write {atom : Atom} (fits : atom.Fits) (bound depth : Nat) (rest : List Char) :
    readValue bound depth (atom.write ++ '\n' :: rest) = some (atom.toValue, '\n' :: rest) := by
  cases atom with
  | string text =>
    have read := readString_writeString text.toList rest
    obtain ⟨c, more, written, quote⟩ := exists_writeString_cons text.toList
    rw [Atom.write]
    rw [written, List.cons_append] at read ⊢
    rw [readValue_of_quote quote, read]
    exact congrArg (fun text => some (Value.string text, '\n' :: rest)) String.ofList_toList
  | integer number =>
    have run : ∀ c ∈ integerText number, isScalarChar c = true :=
      fun _ => isScalarChar_of_mem_integerText
    have read := readScalar_append run (dateless_integerText number) rest
    rw [scalarOf?_integerText fits] at read
    rw [Atom.write, toList_toString_eq]
    obtain ⟨c, more, written⟩ := List.exists_cons_of_ne_nil (integerText_ne_nil number)
    have scalar : isScalarChar c = true := run c (written ▸ List.mem_cons_self)
    rw [written, List.cons_append] at read ⊢
    rw [readValue_of_scalar scalar, read]
    rfl
  | boolean value =>
    cases value with
    | false => exact readValue_of_scalar rfl bound depth _
    | true => exact readValue_of_scalar rfl bound depth _

end Values

end LayeredGraph.Toml
