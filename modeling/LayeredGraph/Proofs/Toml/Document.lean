import LayeredGraph.Proofs.Toml.Scalar

/-! Documents read back. A document that is written as sections is read line by line: each header
and each entry is one line, and nothing is read between them. -/
namespace LayeredGraph.Toml

/-- Characters of keys stand for nothing but themselves at the start of a line. -/
theorem ne_of_isKeyChar {c d : Char} (key : isKeyChar c = true) (other : isKeyChar d = false) :
    c ≠ d := by
  rintro rfl
  rw [other] at key
  nomatch key

theorem isBlank_of_isKeyChar {c : Char} (key : isKeyChar c = true) : isBlank c = false := by
  rw [isBlank, Bool.or_eq_false_iff, beq_eq_false_iff_ne, beq_eq_false_iff_ne]
  exact ⟨ne_of_isKeyChar key (by decide), ne_of_isKeyChar key (by decide)⟩

theorem skipBlanks_cons {c : Char} (plain : isBlank c = false) (rest : List Char) :
    skipBlanks (c :: rest) = c :: rest := by
  rw [skipBlanks, List.dropWhile_cons, if_neg (by rw [plain]; nofun)]

namespace BareKey

variable {key : String}

theorem exists_cons (h : BareKey key) :
    ∃ c more, key.toList = c :: more ∧ isKeyChar c = true := by
  have some : key.toList ≠ [] := by
    intro none
    exact h.1 (String.toList_inj.1 none)
  obtain ⟨c, more, chars⟩ := List.exists_cons_of_ne_nil some
  exact ⟨c, more, chars, h.2 c (chars ▸ List.mem_cons_self)⟩

theorem skipBlanks_append (h : BareKey key) (rest : List Char) :
    skipBlanks (key.toList ++ rest) = key.toList ++ rest := by
  obtain ⟨c, more, chars, keyChar⟩ := h.exists_cons
  rw [chars, List.cons_append, skipBlanks_cons (isBlank_of_isKeyChar keyChar)]

theorem readKeyPart_append (h : BareKey key) {c : Char} (other : isKeyChar c = false)
    (rest : List Char) : readKeyPart (key.toList ++ c :: rest) = some (key, c :: rest) := by
  have taken : (key.toList ++ c :: rest).takeWhile isKeyChar = key.toList := by
    rw [List.takeWhile_append_of_pos h.2, List.takeWhile_cons, other]
    exact List.append_nil _
  have left : (key.toList ++ c :: rest).dropWhile isKeyChar = c :: rest := by
    rw [List.dropWhile_append_of_pos h.2, List.dropWhile_cons, other]
    rfl
  obtain ⟨first, more, chars, keyChar⟩ := h.exists_cons
  have some : ¬key.toList.isEmpty = true := by rw [chars]; nofun
  rw [readKeyPart.eq_def]
  split
  · next same =>
    rw [chars] at same
    exact absurd (List.cons.inj same).1 (ne_of_isKeyChar keyChar (by decide))
  · next same =>
    rw [chars] at same
    exact absurd (List.cons.inj same).1 (ne_of_isKeyChar keyChar (by decide))
  · simp only [taken, left, if_neg some, String.ofList_toList]

/-- The last part of a key ends where no point follows. -/
theorem readKey_last (h : BareKey key) (bound : Nat) {c d : Char} {tail rest : List Char}
    (other : isKeyChar d = false) (behind : skipBlanks (d :: tail) = c :: rest) (point : c ≠ '.') :
    readKey (bound + 1) (key.toList ++ d :: tail) = some ([key], c :: rest) := by
  rw [readKey, h.skipBlanks_append, h.readKeyPart_append other]
  simp only [Option.bind_eq_bind, Option.bind_some, behind]
  split
  · next same => exact absurd (List.cons.inj same).1 point
  · rfl

end BareKey

/-- The path of a header is read up to the closing bracket. -/
theorem readKey_path {path : List String} (bare : ∀ key ∈ path, BareKey key) (some : path ≠ [])
    {bound : Nat} (short : path.length ≤ bound) (rest : List Char) :
    readKey bound ((".".intercalate path).toList ++ ']' :: rest) = .some (path, ']' :: rest) := by
  induction path generalizing bound with
  | nil => exact absurd rfl some
  | cons key path ih =>
    have first : BareKey key := bare key List.mem_cons_self
    obtain ⟨bound, rfl⟩ : ∃ left, bound = left + 1 := ⟨bound - 1, by simp at short; omega⟩
    cases path with
    | nil =>
      rw [String.intercalate_singleton]
      exact first.readKey_last bound (by decide) rfl (by decide)
    | cons next path =>
      have joined : (".".intercalate (key :: next :: path)).toList ++ ']' :: rest =
          key.toList ++ '.' :: ((".".intercalate (next :: path)).toList ++ ']' :: rest) := by
        rw [String.intercalate_cons_cons]
        simp
      have short : (next :: path).length ≤ bound := Nat.le_of_succ_le_succ short
      have later := ih (fun other member => bare other (List.mem_cons_of_mem _ member)) nofun short
      rw [joined, readKey, first.skipBlanks_append, first.readKeyPart_append (by decide)]
      simp only [Option.bind_eq_bind, Option.bind_some, skipBlanks_cons (c := '.') (by decide),
        later]
      rfl

/-- The lines that a section is read as. -/
def Section.lines (sec : Section) : List Line :=
  .header sec.path :: sec.entries.map fun entry => .pair [entry.1] entry.2.toValue

/-- A section that can be written without quotes around its keys. -/
structure Section.Bare (sec : Section) : Prop where
  path : ∀ key ∈ sec.path, BareKey key
  some : sec.path ≠ []
  short : sec.path.length ≤ depthLimit
  keys : ∀ entry ∈ sec.entries, BareKey entry.1
  values : ∀ entry ∈ sec.entries, entry.2.Fits

/-- An entry is read as its key with its value, up to the next line. -/
theorem readLine_entry {entry : String × Atom} (bare : BareKey entry.1) (fits : entry.2.Fits)
    (bound : Nat) (rest : List Char) :
    readLine bound (writeEntry entry ++ rest) = some (.pair [entry.1] entry.2.toValue, rest) := by
  obtain ⟨key, atom⟩ := entry
  have joined : writeEntry (key, atom) ++ rest =
      key.toList ++ ' ' :: '=' :: ' ' :: (atom.write ++ '\n' :: rest) := by
    rw [writeEntry]
    simp
  have read : readKey depthLimit (writeEntry (key, atom) ++ rest) =
      some ([key], '=' :: ' ' :: (atom.write ++ '\n' :: rest)) := by
    rw [joined]
    exact bare.readKey_last 78 (by decide) rfl (by decide)
  have value : readValue bound depthLimit (skipBlanks (' ' :: (atom.write ++ '\n' :: rest))) =
      some (atom.toValue, '\n' :: rest) := by
    obtain ⟨d, tail, written, plain⟩ := atom.exists_write_cons
    rw [← readValue_write fits bound depthLimit rest, written]
    exact congrArg _ (skipBlanks_cons plain _)
  have pair : readPair (readValue bound depthLimit) (writeEntry (key, atom) ++ rest) =
      some (([key], atom.toValue), '\n' :: rest) := by
    rw [readPair, read]
    simp only [Option.bind_eq_bind, Option.bind_some, skip?, if_true, value]
    rfl
  obtain ⟨c, more, chars, keyChar⟩ := bare.exists_cons
  have bracket : c ≠ '[' := ne_of_isKeyChar keyChar (by decide)
  rw [readLine.eq_def]
  split
  · next same =>
    rw [joined, chars] at same
    exact absurd (List.cons.inj same).1 bracket
  · next same =>
    rw [joined, chars] at same
    exact absurd (List.cons.inj same).1 bracket
  · rw [pair]
    rfl

theorem readLine_header {sec : Section} (bare : sec.Bare) (bound : Nat) (rest : List Char) :
    readLine bound (sec.header ++ rest) = some (.header sec.path, rest) := by
  have joined : sec.header ++ rest =
      '[' :: ((".".intercalate sec.path).toList ++ ']' :: '\n' :: rest) := by
    rw [Section.header]
    simp
  have read := readKey_path bare.path bare.some bare.short ('\n' :: rest)
  obtain ⟨c, more, chars, keyChar⟩ : ∃ c more,
      (".".intercalate sec.path).toList ++ ']' :: '\n' :: rest = c :: more ∧
        isKeyChar c = true := by
    obtain ⟨key, path, parts⟩ := List.exists_cons_of_ne_nil bare.some
    obtain ⟨c, more, chars, keyChar⟩ := (bare.path key (parts ▸ List.mem_cons_self)).exists_cons
    rw [parts]
    cases path with
    | nil =>
      rw [String.intercalate_singleton, chars]
      exact ⟨c, _, rfl, keyChar⟩
    | cons next path =>
      rw [String.intercalate_cons_cons, String.toList_append, String.toList_append, chars]
      exact ⟨c, _, rfl, keyChar⟩
  have bracket : c ≠ '[' := ne_of_isKeyChar keyChar (by decide)
  rw [joined]
  rw [chars] at read ⊢
  rw [readLine.eq_def]
  split
  · next same => exact absurd (List.cons.inj (List.cons.inj same).2).1 bracket
  · next same =>
    rw [← (List.cons.inj same).2, read]
    rfl
  · next other => exact absurd rfl (other _)

/-- A text that is read as some lines, whatever the bound is. -/
def ReadAs (text : List Char) (lines : List Line) : Prop :=
  ∀ bound, text.length < bound → readLines bound text = some lines

namespace ReadAs

variable {text : List Char} {lines : List Line}

theorem nil : ReadAs [] [] := by
  intro bound enough
  obtain ⟨bound, rfl⟩ : ∃ left, bound = left + 1 := ⟨bound - 1, by omega⟩
  rfl

theorem blank (h : ReadAs text lines) : ReadAs ('\n' :: text) lines := by
  intro bound enough
  obtain ⟨bound, rfl⟩ : ∃ left, bound = left + 1 := ⟨bound - 1, by omega⟩
  exact h bound (Nat.lt_of_succ_lt_succ enough)

theorem cons {first : List Char} {c : Char} {more : List Char} {line : Line}
    (h : ReadAs text lines) (start : first = c :: more) (plain : isKeyChar c = true ∨ c = '[')
    (read : ∀ bound, readLine bound (first ++ text) = some (line, text)) :
    ReadAs (first ++ text) (line :: lines) := by
  intro bound enough
  obtain ⟨bound, rfl⟩ : ∃ left, bound = left + 1 := ⟨bound - 1, by omega⟩
  have other : ∀ d, isKeyChar d = false → d ≠ '[' → c ≠ d := by
    intro d apart bracket
    rcases plain with key | rfl
    · exact ne_of_isKeyChar key apart
    · exact bracket.symm
  have notBlank : isBlank c = false := by
    rw [isBlank, Bool.or_eq_false_iff, beq_eq_false_iff_ne, beq_eq_false_iff_ne]
    exact ⟨other _ rfl (by decide), other _ rfl (by decide)⟩
  have content : ¬(c = '#' ∨ c = '\n' ∨ c = '\r') := by
    rintro (same | same | same)
    · exact other _ rfl (by decide) same
    · exact other _ rfl (by decide) same
    · exact other _ rfl (by decide) same
  have rest := h bound (by rw [start] at enough; simp at enough; omega)
  have read := read (bound + 1)
  rw [start, List.cons_append] at read ⊢
  rw [readLines, skipBlanks_cons notBlank]
  simp only [if_neg content, read, Option.bind_eq_bind, Option.bind_some, rest]
  rfl

theorem entries {list : List (String × Atom)} (keys : ∀ entry ∈ list, BareKey entry.1)
    (values : ∀ entry ∈ list, entry.2.Fits) (h : ReadAs text lines) :
    ReadAs (list.flatMap writeEntry ++ text)
      (list.map (fun entry => .pair [entry.1] entry.2.toValue) ++ lines) := by
  induction list with
  | nil => exact h
  | cons entry list ih =>
    have bare := keys entry List.mem_cons_self
    have rest := ih (fun other member => keys other (List.mem_cons_of_mem _ member))
      fun other member => values other (List.mem_cons_of_mem _ member)
    obtain ⟨c, more, chars, keyChar⟩ := bare.exists_cons
    have start : writeEntry entry = c :: (more ++ " = ".toList ++ entry.2.write ++ ['\n']) := by
      rw [writeEntry, chars]
      rfl
    rw [List.flatMap_cons, List.append_assoc]
    exact rest.cons start (.inl keyChar) fun bound =>
      readLine_entry bare (values entry List.mem_cons_self) bound _

theorem sec {sec : Section} (bare : sec.Bare) (h : ReadAs text lines) :
    ReadAs (sec.write ++ text) (sec.lines ++ lines) := by
  have written : sec.write ++ text = sec.header ++ (sec.entries.flatMap writeEntry ++ text) := by
    rw [Section.write, List.append_assoc]
  rw [written]
  exact (h.entries bare.keys bare.values).cons rfl (.inr rfl) fun bound =>
    readLine_header bare bound _

end ReadAs

/-- A document is read as the lines of its sections. -/
theorem readAs_writeSections {sections : List Section} (bare : ∀ sec ∈ sections, sec.Bare) :
    ReadAs (writeSections sections) (sections.flatMap Section.lines) := by
  induction sections with
  | nil => exact .nil
  | cons sec sections ih =>
    have first := bare sec List.mem_cons_self
    have rest := ih fun other member => bare other (List.mem_cons_of_mem _ member)
    cases sections with
    | nil =>
      have alone := ReadAs.nil.sec first
      simp only [List.append_nil] at alone
      simpa [writeSections] using alone
    | cons next sections =>
      have joined : writeSections (sec :: next :: sections) =
          sec.write ++ '\n' :: writeSections (next :: sections) := rfl
      rw [joined, List.flatMap_cons]
      exact rest.blank.sec first

theorem dropMark_writeSections (sections : List Section) :
    dropMark (writeSections sections) = writeSections sections := by
  cases sections with
  | nil => rfl
  | cons sec sections =>
    cases sections <;> rfl

end LayeredGraph.Toml
