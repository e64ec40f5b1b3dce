import LayeredGraph.Proofs.Toml.Document

/-! What the lines of a section build up. The entries of a section go into the table at the end of
its path one by one; changes of one table that follow each other are one change of that table, so
together they put the whole table there. -/
namespace LayeredGraph.Toml

namespace Entries

theorem put_of_get?_eq_none {entries : Entries} {key : String} (fresh : entries.get? key = none)
    (value : Value) : entries.put key value = entries ++ [(key, value)] := by
  induction entries with
  | nil => rfl
  | cons entry rest ih =>
    obtain ⟨name, old⟩ := entry
    rw [get?, List.lookup_cons] at fresh
    by_cases same : key = name
    · rw [beq_iff_eq.2 same] at fresh
      exact absurd fresh (Option.some_ne_none old)
    · rw [beq_false_of_ne same] at fresh
      rw [put, if_neg (Ne.symm same), ih fresh, List.cons_append]

theorem put_put (entries : Entries) (key : String) (first second : Value) :
    (entries.put key first).put key second = entries.put key second := by
  induction entries with
  | nil => exact if_pos rfl
  | cons entry rest ih =>
    obtain ⟨name, old⟩ := entry
    by_cases same : name = key
    · rw [put, if_pos same, put, if_pos same, put, if_pos same]
    · rw [put, if_neg same, put, if_neg same, ih, put, if_neg same]

end Entries

namespace Table

variable {table : Table} {key : String}

@[simp] theorem get?_put_self (table : Table) (key : String) (value : Value) :
    (table.put key value).get? key = some value := Entries.get?_put_self _ _ _

theorem get?_put_of_ne (table : Table) {key other : String} (value : Value) (h : other ≠ key) :
    (table.put key value).get? other = table.get? other := Entries.get?_put_of_ne _ _ h

@[simp] theorem put_put (table : Table) (key : String) (first second : Value) :
    (table.put key first).put key second = table.put key second :=
  congrArg (Table.mk table.form) (Entries.put_put _ _ _ _)

/-- A change of a table that leaves open how it came about. -/
def KeepsForm (change : Table → Option Table) : Prop :=
  ∀ {table changed : Table}, change table = some changed → changed.form = table.form

theorem keepsForm_insertNew (key : String) (value : Value) : KeepsForm (insertNew key value) := by
  intro table changed done
  rw [insertNew] at done
  split at done
  · exact Option.some.inj done ▸ rfl
  · nomatch done

theorem keepsForm_openTable (key : String) : KeepsForm (openTable key) := by
  intro table changed done
  rw [openTable] at done
  split at done
  · exact Option.some.inj done ▸ rfl
  · exact Option.some.inj done ▸ rfl
  · nomatch done

/-- On the way of a path a table is entered, and what becomes of it is put back. -/
structure Enters (byDottedKey : Bool) (key : String) (table child : Table)
    (store : Table → Table) : Prop where
  update : ∀ change path, update byDottedKey change (key :: path) table =
    (update byDottedKey change path child).map store
  again : ∀ {changed : Table}, changed.form = child.form → ∀ change path,
    Table.update byDottedKey change (key :: path) (store changed) =
      (Table.update byDottedKey change path changed).map store
  form : ∀ changed, (store changed).form = table.form

section Update

variable {byDottedKey : Bool} {change first : Table → Option Table}

theorem update_of_table {form : TableForm} {entries : Entries}
    (found : table.get? key = some (.table form entries)) (opened : opens byDottedKey form = true)
    (change : Table → Option Table) (path : List String) :
    update byDottedKey change (key :: path) table =
      (update byDottedKey change path ⟨form, entries⟩).map fun child =>
        table.put key child.toValue := by
  rw [update, found]
  simp only [opened, if_true]
  cases update byDottedKey change path ⟨form, entries⟩ <;> rfl

theorem enters_of_table {form : TableForm} {entries : Entries}
    (found : table.get? key = some (.table form entries))
    (opened : opens byDottedKey form = true) :
    Enters byDottedKey key table ⟨form, entries⟩ fun child => table.put key child.toValue := by
  refine ⟨update_of_table found opened, fun {changed} same change path => ?_, fun _ => rfl⟩
  have stored := get?_put_self table key changed.toValue
  rw [update_of_table stored (same.symm ▸ opened)]
  simp only [put_put]

theorem enters_of_none (absent : table.get? key = none) :
    Enters byDottedKey key table (.empty (if byDottedKey then .dotted else .implied))
      fun child => table.put key child.toValue := by
  refine ⟨fun change path => ?_, fun {changed} same change path => ?_, fun _ => rfl⟩
  · rw [update, absent]
    simp only
    cases update byDottedKey change path _ <;> rfl
  · have stored := get?_put_self table key changed.toValue
    have opened : opens byDottedKey changed.form = true := by
      rw [same]
      cases byDottedKey <;> rfl
    rw [update_of_table stored opened]
    simp only [put_put]

theorem enters_of_items {items : List Value} {form : TableForm} {entries : Entries}
    (found : table.get? key = some (.array .headers items))
    (last : items.getLast? = some (.table form entries)) :
    Enters byDottedKey key table ⟨form, entries⟩ fun child =>
      table.put key (.array .headers (items.dropLast ++ [child.toValue])) := by
  refine ⟨fun change path => ?_, fun {changed} _ change path => ?_, fun _ => rfl⟩
  · rw [update, found]
    simp only [last]
    cases update byDottedKey change path ⟨form, entries⟩ <;> rfl
  · rw [update, get?_put_self]
    simp only [List.getLast?_append, List.getLast?_singleton, Option.some_or, toValue,
      List.dropLast_concat, put_put]
    cases update byDottedKey change path changed <;> rfl

/-- A path either leads nowhere, or through a table. -/
theorem update_cases (byDottedKey : Bool) (key : String) (table : Table) :
    (∀ change path, update byDottedKey change (key :: path) table = none) ∨
      ∃ child store, Enters byDottedKey key table child store := by
  cases found : table.get? key with
  | none => exact .inr ⟨_, _, enters_of_none found⟩
  | some value =>
    cases value with
    | table form entries =>
      cases opened : opens byDottedKey form with
      | true => exact .inr ⟨_, _, enters_of_table found opened⟩
      | false =>
        refine .inl fun change path => ?_
        rw [update, found]
        simp only [opened, Bool.false_eq_true, if_false]
    | array form items =>
      cases form with
      | inline =>
        refine .inl fun change path => ?_
        rw [update, found]
      | headers =>
        cases last : items.getLast? with
        | none =>
          refine .inl fun change path => ?_
          rw [update, found]
          simp only [last]
        | some item =>
          cases item with
          | table form entries => exact .inr ⟨_, _, enters_of_items found last⟩
          | _ =>
            refine .inl fun change path => ?_
            rw [update, found]
            simp only [last]
    | _ =>
      refine .inl fun change path => ?_
      rw [update, found]

theorem keepsForm_update (byDottedKey : Bool) (keeps : KeepsForm change) (path : List String) :
    KeepsForm (update byDottedKey change path) := by
  intro table changed done
  cases path with
  | nil => exact keeps done
  | cons key path =>
    rcases update_cases byDottedKey key table with nowhere | ⟨child, store, enters⟩
    · rw [nowhere] at done
      nomatch done
    · rw [enters.update, Option.map_eq_some_iff] at done
      obtain ⟨last, -, rfl⟩ := done
      exact enters.form last

/-- The table at the end of a longer path is reached by way of the tables before it. -/
theorem update_append (byDottedKey : Bool) (change : Table → Option Table)
    (start path : List String) (table : Table) :
    update byDottedKey change (start ++ path) table =
      update byDottedKey (update byDottedKey change path) start table := by
  induction start generalizing table with
  | nil => rfl
  | cons key start ih =>
    rcases update_cases byDottedKey key table with nowhere | ⟨child, store, enters⟩
    · rw [List.cons_append, nowhere, nowhere]
    · rw [List.cons_append, enters.update, enters.update, ih]

/-- Two changes of the table at the end of a path, one after the other, are one change of it. -/
theorem update_update (byDottedKey : Bool) (keeps : KeepsForm first)
    (second : Table → Option Table) (path : List String) (table : Table) :
    (update byDottedKey first path table).bind (update byDottedKey second path) =
      update byDottedKey (fun last => (first last).bind second) path table := by
  induction path generalizing table with
  | nil => rfl
  | cons key path ih =>
    rcases update_cases byDottedKey key table with nowhere | ⟨child, store, enters⟩
    · rw [nowhere, nowhere]
      rfl
    · rw [enters.update, enters.update, ← ih]
      cases changed : update byDottedKey first path child with
      | none => rfl
      | some last =>
        have same := keepsForm_update byDottedKey keeps path changed
        exact enters.again same second path

end Update

/-- Sets the entries of a list in a table, none of which may be there yet. -/
def insertAll (table : Table) (entries : Entries) : Option Table :=
  entries.foldlM (fun table entry => insertNew entry.1 entry.2 table) table

/-- Entries under new keys are added at the end, in their order. -/
theorem insertAll_eq_some {entries : Entries} (distinct : (entries.map (·.1)).Nodup)
    {table : Table} (fresh : ∀ entry ∈ entries, table.get? entry.1 = none) :
    table.insertAll entries = some ⟨table.form, table.entries ++ entries⟩ := by
  induction entries generalizing table with
  | nil => rw [List.append_nil]; rfl
  | cons entry entries ih =>
    obtain ⟨other, distinct⟩ := List.nodup_cons.1 distinct
    have absent := fresh entry List.mem_cons_self
    have set : table.insertAll (entry :: entries) =
        (table.put entry.1 entry.2).insertAll entries := by
      change (insertNew entry.1 entry.2 table).bind (·.insertAll entries) = _
      rw [insertNew, absent]
      rfl
    have longer : (table.put entry.1 entry.2).entries = table.entries ++ [entry] :=
      Entries.put_of_get?_eq_none absent entry.2
    rw [set, ih distinct, longer, List.append_assoc]
    · rfl
    · intro later member
      have differ : later.1 ≠ entry.1 := by
        intro same
        exact other (List.mem_map.2 ⟨later, member, same⟩)
      rw [get?_put_of_ne table entry.2 differ]
      exact fresh later (List.mem_cons_of_mem _ member)

/-- Opens the table of a section, and sets its entries. -/
def openSection (key : String) (entries : Entries) (table : Table) : Option Table :=
  (openTable key table).bind (update false (·.insertAll entries) [key])

theorem openTable_of_none (absent : table.get? key = none) :
    openTable key table = some (table.put key (.table .header [])) := by
  rw [openTable, absent]

theorem openSection_eq_some {held entries : Entries}
    (opened : openTable key table = some (table.put key (.table .header held)))
    (distinct : (entries.map (·.1)).Nodup) (fresh : ∀ entry ∈ entries, held.get? entry.1 = none) :
    openSection key entries table = some (table.put key (.table .header (held ++ entries))) := by
  have set : (Table.mk .header held).insertAll entries = some ⟨.header, held ++ entries⟩ :=
    insertAll_eq_some distinct fresh
  rw [openSection, opened, Option.bind_some, update_of_table (get?_put_self _ _ _) rfl, update, set,
    Option.map_some, put_put]
  rfl

theorem openSection_nil (key : String) : openSection key [] = openTable key := by
  funext table
  have again : ∀ inner, update false (·.insertAll []) [key] (table.put key (.table .header inner)) =
      some (table.put key (.table .header inner)) := by
    intro inner
    rw [update_of_table (get?_put_self _ _ _) rfl, update]
    exact congrArg some (put_put _ _ _ _)
  rw [openSection, openTable]
  split
  · exact again _
  · exact again _
  · rfl

end Table

/-- The values of a section under their keys. -/
def Section.values (sec : Section) : Entries :=
  sec.entries.map fun entry => (entry.1, entry.2.toValue)

namespace Assembly

theorem add_pair (root : Table) (path : List String) (key : String) (value : Value) :
    add ⟨root, path⟩ (.pair [key] value) =
      (Table.update false (Table.insertNew key value) path root).map (Assembly.mk · path) := by
  change (Table.update false (Table.insertNew key value) path root).bind _ = _
  cases Table.update false (Table.insertNew key value) path root <;> rfl

theorem add_header (assembly : Assembly) {path start : List String} {key : String}
    (parts : path = start ++ [key]) :
    add assembly (.header path) =
      (Table.update false (Table.openTable key) start assembly.root).map (Assembly.mk · path) := by
  rw [add, parts, List.getLast?_concat, List.dropLast_concat, Option.getD_some]
  cases Table.update false (Table.openTable key) start assembly.root <;> rfl

/-- The pairs of a section are set in the table that was opened last, all at once. -/
theorem foldlM_pairs (root : Table) (path : List String) (entry : String × Value)
    (entries : Entries) :
    ((entry :: entries).map fun entry => Line.pair [entry.1] entry.2).foldlM add ⟨root, path⟩ =
      (Table.update false (·.insertAll (entry :: entries)) path root).map (Assembly.mk · path) := by
  induction entries generalizing root entry with
  | nil =>
    have single : (·.insertAll [entry]) = Table.insertNew entry.1 entry.2 :=
      funext fun _ => Option.bind_fun_some _
    rw [single, List.map_singleton, List.foldlM_cons, add_pair]
    exact Option.bind_fun_some _
  | cons next entries ih =>
    have both := Table.update_update false (Table.keepsForm_insertNew entry.1 entry.2)
      (·.insertAll (next :: entries)) path root
    have joined : (fun last => (Table.insertNew entry.1 entry.2 last).bind
        (·.insertAll (next :: entries))) = (·.insertAll (entry :: next :: entries)) := rfl
    rw [List.map_cons, List.foldlM_cons, add_pair, ← joined, ← both]
    cases Table.update false (Table.insertNew entry.1 entry.2) path root with
    | none => rfl
    | some root => exact ih root next

/-- The lines of a section put its table under the last key of its path. -/
theorem foldlM_lines {sec : Section} (start : List String) (key : String)
    (path : sec.path = start ++ [key]) (assembly : Assembly) :
    sec.lines.foldlM add assembly =
      (Table.update false (Table.openSection key sec.values) start assembly.root).map
        (Assembly.mk · sec.path) := by
  have pairs : sec.entries.map (fun entry => Line.pair [entry.1] entry.2.toValue) =
      sec.values.map fun entry => Line.pair [entry.1] entry.2 := by
    rw [Section.values, List.map_map]
    rfl
  rw [Section.lines, List.foldlM_cons, add_header assembly path, pairs]
  cases sec.values with
  | nil => rw [Table.openSection_nil]; exact Option.bind_fun_some _
  | cons entry entries =>
    have both := Table.update_update false (Table.keepsForm_openTable key)
      (Table.update false (·.insertAll (entry :: entries)) [key]) start assembly.root
    change _ = (Table.update false (fun last => (Table.openTable key last).bind _) start _).map _
    rw [← both]
    cases Table.update false (Table.openTable key) start assembly.root with
    | none => rfl
    | some root =>
      change List.foldlM add ⟨root, sec.path⟩ _ = _
      rw [foldlM_pairs, path, Table.update_append]
      rfl

end Assembly

end LayeredGraph.Toml
