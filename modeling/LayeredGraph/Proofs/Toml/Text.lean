import LayeredGraph.Proofs.Toml.Escape

/-! Strings read back, in each of the four forms in which they are written. On several lines up to
two quotes in a row belong to the text, and at the end of the text they run into the three closing
ones: a reader that meets such a run takes all of it at once. -/
namespace LayeredGraph.Toml

section Quotes

variable {quote : Char} {rest : List Char}

/-- A text starts with some quotes, and goes on with something else. -/
theorem exists_leading (quote : Char) (text : List Char) :
    ∃ count rest, text = List.replicate count quote ++ rest ∧ rest.head? ≠ some quote := by
  induction text with
  | nil => exact ⟨0, [], rfl, nofun⟩
  | cons c text ih =>
    by_cases same : c = quote
    · obtain ⟨count, rest, rfl, other⟩ := ih
      exact ⟨count + 1, rest, by rw [same]; rfl, other⟩
    · exact ⟨0, c :: text, rfl, mt Option.some.inj same⟩

theorem takeQuotes_replicate {count bound : Nat} (within : count ≤ bound)
    (other : rest.head? ≠ some quote) :
    takeQuotes quote bound (List.replicate count quote ++ rest) = (count, rest) := by
  induction count generalizing bound with
  | zero =>
    cases bound with
    | zero => rfl
    | succ bound =>
      cases rest with
      | nil => rfl
      | cons c rest => exact if_neg (mt (congrArg some) other)
  | succ count ih =>
    obtain ⟨bound, rfl⟩ : ∃ left, bound = left + 1 := ⟨bound - 1, by omega⟩
    rw [List.replicate_succ, List.cons_append, takeQuotes, if_pos rfl,
      ih (Nat.le_of_succ_le_succ within)]

/-- Up to two quotes in front of something else close nothing. -/
theorem closing?_of_open {count : Nat} (few : count ≤ 2) (other : rest.head? ≠ some quote) :
    closing? quote (List.replicate count quote ++ rest) = none := by
  rw [closing?, takeQuotes_replicate (by omega) other]
  exact if_neg (by omega)

/-- Up to two quotes in front of the closing ones are taken together with them. -/
theorem closing?_of_end {count : Nat} (few : count ≤ 2) (other : rest.head? ≠ some quote) :
    closing? quote (List.replicate count quote ++ quote :: quote :: quote :: rest) =
      some (List.replicate count quote, rest) := by
  have joined : List.replicate count quote ++ quote :: quote :: quote :: rest =
      List.replicate (count + 3) quote ++ rest := by
    rw [← List.replicate_append_replicate, List.append_assoc]
    rfl
  have enough : 3 ≤ count + 3 := Nat.le_add_left 3 count
  rw [joined, closing?, takeQuotes_replicate (by omega) other]
  simp only [if_pos enough, Nat.add_sub_cancel]

end Quotes

section BasicLines

variable {c : Char} {rest : List Char}

theorem readBasicLines_of_closing {text : List Char} {answer : List Char × List Char}
    (closes : closing? '"' text = some answer) : readBasicLines .plain text = some answer := by
  cases text with
  | nil => nomatch closes
  | cons c text =>
    rw [readBasicLines.eq_def]
    simp only [closes]

/-- Where nothing is closed, a character that may stand as it is is read. -/
theorem readBasicLines_of_open (opened : closing? '"' (c :: rest) = none) (slash : c ≠ '\\')
    (plain : c = '\n' ∨ isPlain c = true) :
    readBasicLines .plain (c :: rest) = (readBasicLines .plain rest).cons c := by
  rw [readBasicLines.eq_def]
  simp only [opened, if_neg slash, if_pos plain, reduceCtorEq, false_and, if_false]

/-- What is written of a character other than quotes starts with no quotes, and with a line end
only for a line end. -/
theorem exists_basicBody_cons (lines : Bool) (quotes : Nat) (text : List Char) (other : c ≠ '"') :
    ∃ first more, basicBody lines quotes (c :: text) = first :: more ∧ first ≠ '"' ∧
      (first = '\n' → c = '\n') ∧ first ≠ '\r' := by
  rw [basicBody, if_neg other]
  split
  · next line =>
    split
    · exact ⟨_, _, rfl, other, fun _ => line, by rw [line]; decide⟩
    · exact ⟨_, _, rfl, by decide, fun _ => line, by decide⟩
  next line =>
  cases written : escape? c with
  | some escaped =>
    obtain ⟨more, rfl⟩ := escape?_eq_cons written
    exact ⟨_, _, rfl, by decide, fun line => absurd line (by decide), by decide⟩
  | none =>
    obtain ⟨-, -, back⟩ := plain_of_escape?_eq_none written line
    exact ⟨_, _, rfl, other, fun same => absurd same line, back⟩

/-- A body on several lines starts with two quotes at most. Either these are all of it, or something
else follows. -/
theorem exists_leading_basicBody {quotes : Nat} (few : quotes ≤ 2) (text : List Char) :
    ∃ count tail, basicBody true quotes text = List.replicate count '"' ++ tail ∧
      quotes + count ≤ 2 ∧
      (tail = [] ∧ text = List.replicate count '"' ∨ tail ≠ [] ∧ tail.head? ≠ some '"') := by
  induction text generalizing quotes with
  | nil => exact ⟨0, [], rfl, few, .inl ⟨rfl, rfl⟩⟩
  | cons c text ih =>
    by_cases same : c = '"'
    · subst same
      rw [basicBody, if_pos rfl, Bool.true_and]
      by_cases bare : quotes < 2
      · have few : quotes + 1 ≤ 2 := bare
        obtain ⟨count, tail, body, most, behind⟩ := ih few
        rw [if_pos (decide_eq_true bare), body]
        refine ⟨count + 1, tail, rfl, by omega, behind.imp_left ?_⟩
        rintro ⟨rfl, rfl⟩
        exact ⟨rfl, rfl⟩
      · rw [if_neg (by simpa using bare)]
        exact ⟨0, _, rfl, few, .inr ⟨List.cons_ne_nil _ _, mt Option.some.inj (by decide)⟩⟩
    · obtain ⟨first, more, body, other, -⟩ := exists_basicBody_cons true quotes text same
      rw [body]
      exact ⟨0, _, rfl, few, .inr ⟨List.cons_ne_nil _ _, mt Option.some.inj other⟩⟩

theorem readBasicLines_basicBody {quotes : Nat} (few : quotes ≤ 2) (text : List Char)
    (behind : rest.head? ≠ some '"') :
    readBasicLines .plain (basicBody true quotes text ++ '"' :: '"' :: '"' :: rest) =
      some (text, rest) := by
  induction text generalizing quotes with
  | nil => exact readBasicLines_of_closing (closing?_of_end (Nat.zero_le 2) behind)
  | cons c text ih =>
    obtain ⟨count, tail, body, most, ⟨rfl, all⟩ | ⟨some, other⟩⟩ :=
      exists_leading_basicBody few (c :: text)
    · -- Nothing but quotes is left, and the closing ones follow.
      rw [body, List.append_nil, all]
      exact readBasicLines_of_closing (closing?_of_end (by omega) behind)
    have opened : closing? '"' (basicBody true quotes (c :: text) ++ '"' :: '"' :: '"' :: rest) =
        none := by
      rw [body, List.append_assoc]
      obtain ⟨d, tail, rfl⟩ := List.exists_cons_of_ne_nil some
      exact closing?_of_open (by omega) other
    have more : basicBody true 0 text ++ '"' :: '"' :: '"' :: rest ≠ [] := by simp
    have next : readBasicLines .plain (basicBody true 0 text ++ '"' :: '"' :: '"' :: rest) =
        .some (text, rest) := ih (Nat.zero_le 2)
    rw [basicBody] at opened ⊢
    split at opened
    · next same =>
      subst same
      rw [if_pos rfl]
      rw [Bool.true_and] at opened ⊢
      by_cases bare : quotes < 2
      · rw [if_pos (decide_eq_true bare)] at opened ⊢
        rw [List.cons_append] at opened ⊢
        rw [readBasicLines_of_open opened (by decide) (.inr rfl), ih bare]
        rfl
      · rw [if_neg (by simpa using bare), List.cons_append, List.cons_append,
          takesEscapes_readBasicLines.read_short rfl more, next]
        rfl
    next quote =>
    rw [if_neg quote]
    split at opened
    · next line =>
      rw [if_pos line]
      simp only [if_true, List.cons_append] at opened ⊢
      rw [readBasicLines_of_open opened (by rw [line]; decide) (.inl line), next]
      rfl
    next line =>
    rw [if_neg line]
    cases written : escape? c with
    | some escaped =>
      simp only
      rw [List.append_assoc, takesEscapes_readBasicLines.read_escape written more, next]
      rfl
    | none =>
      obtain ⟨plain, slash, -⟩ := plain_of_escape?_eq_none written line
      simp only [written, List.cons_append] at opened ⊢
      rw [readBasicLines_of_open opened slash (.inr plain), next]
      rfl

end BasicLines

/-- One step of counting the longest run of a character. -/
def runStep (c : Char) (counts : Nat × Nat) (d : Char) : Nat × Nat :=
  let current := if d = c then counts.1 + 1 else 0
  (current, max counts.2 current)

theorem longestRun_eq (c : Char) (text : List Char) :
    longestRun c text = (text.foldl (runStep c) (0, 0)).2 := rfl

section Runs

variable {c : Char} {counts : Nat × Nat}

theorem runStep_ordered (counts : Nat × Nat) (d : Char) :
    (runStep c counts d).1 ≤ (runStep c counts d).2 := Nat.le_max_right _ _

theorem snd_le_foldl_runStep (text : List Char) (counts : Nat × Nat) :
    counts.2 ≤ (text.foldl (runStep c) counts).2 := by
  induction text generalizing counts with
  | nil => exact Nat.le_refl _
  | cons d text ih => exact Nat.le_trans (Nat.le_max_left _ _) (ih (runStep c counts d))

/-- A run at the start of a text counts behind what was counted before. -/
theorem add_le_foldl_runStep (ordered : counts.1 ≤ counts.2) (count : Nat) (rest : List Char) :
    counts.1 + count ≤ ((List.replicate count c ++ rest).foldl (runStep c) counts).2 := by
  induction count generalizing counts with
  | zero => exact Nat.le_trans ordered (snd_le_foldl_runStep rest counts)
  | succ count ih =>
    have current : (runStep c counts c).1 = counts.1 + 1 := if_pos rfl
    have later := ih (runStep_ordered (c := c) counts c)
    rw [current] at later
    rw [List.replicate_succ, List.cons_append, List.foldl_cons]
    omega

end Runs

section Literals

variable {rest : List Char}

theorem readLiteral_append (text : List Char) {counts : Nat × Nat} (ordered : counts.1 ≤ counts.2)
    (none : (text.foldl (runStep '\'') counts).2 = 0) (plain : ∀ c ∈ text, isPlain c = true) :
    readLiteral (text ++ '\'' :: rest) = some (text, rest) := by
  induction text generalizing counts with
  | nil => rfl
  | cons c text ih =>
    have other : c ≠ '\'' := by
      rintro rfl
      have run := add_le_foldl_runStep (c := '\'') ordered 1 text
      rw [List.replicate_one, List.singleton_append, none] at run
      omega
    rw [List.cons_append, readLiteral, if_neg other, if_pos (plain c List.mem_cons_self),
      ih (runStep_ordered counts c) none fun d member => plain d (List.mem_cons_of_mem _ member)]
    rfl

theorem readLiteralLines_append (text : List Char) {counts : Nat × Nat}
    (ordered : counts.1 ≤ counts.2) (few : (text.foldl (runStep '\'') counts).2 ≤ 2)
    (plain : ∀ c ∈ text, c = '\n' ∨ isPlain c = true) (behind : rest.head? ≠ some '\'') :
    readLiteralLines (text ++ '\'' :: '\'' :: '\'' :: rest) = some (text, rest) := by
  induction text generalizing counts with
  | nil =>
    have closes := closing?_of_end (Nat.zero_le 2) behind
    change readLiteralLines ('\'' :: '\'' :: '\'' :: rest) = _
    rw [readLiteralLines.eq_def]
    simp only [List.replicate_zero, List.nil_append] at closes
    simp only [closes]
  | cons c text ih =>
    obtain ⟨count, tail, split, other⟩ := exists_leading '\'' (c :: text)
    have run := add_le_foldl_runStep (c := '\'') ordered count tail
    rw [← split] at run
    have short : count ≤ 2 := by omega
    rw [List.cons_append, readLiteralLines.eq_def]
    cases tail with
    | nil =>
      rw [List.append_nil] at split
      have closes : closing? '\'' (c :: (text ++ '\'' :: '\'' :: '\'' :: rest)) =
          some (c :: text, rest) := by
        rw [← List.cons_append, split]
        exact closing?_of_end short behind
      simp only [closes]
    | cons d tail =>
      have opened : closing? '\'' (c :: (text ++ '\'' :: '\'' :: '\'' :: rest)) = none := by
        rw [← List.cons_append, split, List.append_assoc]
        exact closing?_of_open short other
      have next := ih (runStep_ordered counts c) few
        fun d member => plain d (List.mem_cons_of_mem _ member)
      simp only [opened, if_pos (plain c List.mem_cons_self), next]
      rfl

end Literals

theorem dropLineEnd_of_ne {c : Char} (feed : c ≠ '\n') (back : c ≠ '\r') (rest : List Char) :
    dropLineEnd (c :: rest) = c :: rest := by
  unfold dropLineEnd
  split
  · next same => exact absurd (List.cons.inj same).1 feed
  · next same => exact absurd (List.cons.inj same).1 back
  · rfl

theorem plain_of_any_isControl {text : List Char} (controls : text.any isControl = false) :
    ∀ c ∈ text, c = '\n' ∨ isPlain c = true := by
  intro c member
  have control := List.any_eq_false.1 controls c member
  rw [Bool.not_eq_true, isControl, Bool.and_eq_false_iff] at control
  rcases control with feed | plain
  · exact .inl (by simpa using feed)
  · exact .inr (by simpa using plain)

/-- A text that is written as a literal on one line. -/
theorem of_formOf_eq_literal {text : List Char} (form : formOf text = .literal) :
    text ≠ [] ∧ longestRun '\'' text = 0 ∧ ∀ c ∈ text, isPlain c = true := by
  unfold formOf at form
  simp only at form
  split at form
  · nomatch form
  next basic =>
  split at form
  · next literal =>
    simp only [Bool.and_eq_true, Bool.not_eq_true', beq_iff_eq] at literal
    obtain ⟨⟨controls, none⟩, line⟩ := literal
    refine ⟨?_, none, fun c member => ?_⟩
    · rintro rfl
      exact basic rfl
    · refine (plain_of_any_isControl controls c member).resolve_left ?_
      rintro rfl
      rw [List.contains_iff_mem.2 member] at line
      nomatch line
  repeat' split at form
  all_goals exact nomatch form

/-- A text that is written as a literal on several lines. -/
theorem of_formOf_eq_literalLines {text : List Char} (form : formOf text = .literalLines) :
    longestRun '\'' text ≤ 2 ∧ ∀ c ∈ text, c = '\n' ∨ isPlain c = true := by
  unfold formOf at form
  simp only at form
  split at form
  · nomatch form
  split at form
  · nomatch form
  split at form
  · nomatch form
  split at form
  · next literal =>
    simp only [Bool.and_eq_true, Bool.not_eq_true', decide_eq_true_eq] at literal
    exact ⟨literal.2, plain_of_any_isControl literal.1⟩
  split at form <;> exact nomatch form

/-- A line feed behind the opening quotes is left out exactly where the printer put one: a text
without line feeds is not written with one at its start. -/
theorem dropLineEnd_openingBreak {text body : List Char}
    (start : '\n' ∉ text → ∃ c rest, body = c :: rest ∧ c ≠ '\n' ∧ c ≠ '\r') :
    dropLineEnd (openingBreak text ++ body) = body := by
  rw [openingBreak]
  split
  · rfl
  next line =>
  obtain ⟨c, rest, rfl, feed, back⟩ := start (mt List.contains_iff_mem.2 line)
  exact dropLineEnd_of_ne feed back rest

theorem dropLineEnd_basicLines (text rest : List Char) :
    dropLineEnd (openingBreak text ++ (basicBody true 0 text ++ '"' :: rest)) =
      basicBody true 0 text ++ '"' :: rest := by
  refine dropLineEnd_openingBreak fun line => ?_
  cases text with
  | nil => exact ⟨_, _, rfl, by decide, by decide⟩
  | cons c text =>
    by_cases quote : c = '"'
    · subst quote
      exact ⟨_, _, rfl, by decide, by decide⟩
    · obtain ⟨first, more, body, -, feed, back⟩ := exists_basicBody_cons true 0 text quote
      rw [body]
      refine ⟨first, _, rfl, fun same => line ?_, back⟩
      rw [feed same]
      exact List.mem_cons_self

theorem dropLineEnd_literalLines {text : List Char} (rest : List Char)
    (plain : ∀ c ∈ text, c = '\n' ∨ isPlain c = true) :
    dropLineEnd (openingBreak text ++ (text ++ '\'' :: rest)) = text ++ '\'' :: rest := by
  refine dropLineEnd_openingBreak fun line => ?_
  cases text with
  | nil => exact ⟨_, _, rfl, by decide, by decide⟩
  | cons c text =>
    refine ⟨c, _, rfl, ?_, ?_⟩
    · rintro rfl
      exact line List.mem_cons_self
    · rintro rfl
      exact absurd (plain _ List.mem_cons_self) (by decide)

/-- A string on one line starts with one quote only, unless nothing stands between its quotes. -/
theorem readString_basic (text rest : List Char) :
    readString ('"' :: (basicBody false 0 text ++ '"' :: '\n' :: rest)) =
      some (text, '\n' :: rest) := by
  have single : readString ('"' :: (basicBody false 0 text ++ '"' :: '\n' :: rest)) =
      readBasic .plain (basicBody false 0 text ++ '"' :: '\n' :: rest) := by
    cases text with
    | nil => rfl
    | cons c text =>
      by_cases quote : c = '"'
      · subst quote
        rfl
      · obtain ⟨first, more, body, other, -⟩ := exists_basicBody_cons false 0 text quote
        rw [body, List.cons_append, readString]
        · rintro rest same
          exact other (List.cons.inj same).1
  rw [single, readBasic_basicBody]

theorem readString_literal {text : List Char} (some : text ≠ [])
    (none : longestRun '\'' text = 0) (plain : ∀ c ∈ text, isPlain c = true) (rest : List Char) :
    readString ('\'' :: (text ++ '\'' :: rest)) = .some (text, rest) := by
  have read : readLiteral (text ++ '\'' :: rest) = .some (text, rest) :=
    readLiteral_append text (Nat.le_refl 0) none plain
  obtain ⟨c, text, rfl⟩ := List.exists_cons_of_ne_nil some
  have other : c ≠ '\'' := by
    rintro rfl
    have ordered : (0, 0).1 ≤ (0, 0).2 := Nat.le_refl 0
    have run := add_le_foldl_runStep (c := '\'') ordered 1 text
    rw [List.replicate_one, List.singleton_append, ← longestRun_eq, none] at run
    omega
  rw [← read, List.cons_append, readString]
  · rintro rest same
    exact other (List.cons.inj same).1

/-- A string is read back as the text that was written, up to the end of its line. -/
theorem readString_writeString (text rest : List Char) :
    readString (writeString text ++ '\n' :: rest) = some (text, '\n' :: rest) := by
  rw [writeString]
  cases form : formOf text with
  | basic =>
    rw [writeAs, List.append_assoc, List.append_assoc]
    exact readString_basic text rest
  | literal =>
    obtain ⟨some, none, plain⟩ := of_formOf_eq_literal form
    rw [writeAs, List.append_assoc, List.append_assoc]
    exact readString_literal some none plain _
  | basicLines =>
    rw [writeAs, List.append_assoc, List.append_assoc, List.append_assoc]
    change readBasicLines .plain
      (dropLineEnd (openingBreak text ++ (basicBody true 0 text ++ '"' :: _))) = _
    rw [dropLineEnd_basicLines]
    exact readBasicLines_basicBody (Nat.zero_le 2) text nofun
  | literalLines =>
    obtain ⟨few, plain⟩ := of_formOf_eq_literalLines form
    rw [writeAs, List.append_assoc, List.append_assoc, List.append_assoc]
    change readLiteralLines (dropLineEnd (openingBreak text ++ (text ++ '\'' :: _))) = _
    rw [dropLineEnd_literalLines _ plain]
    exact readLiteralLines_append text (Nat.le_refl 0) few plain nofun

end LayeredGraph.Toml
