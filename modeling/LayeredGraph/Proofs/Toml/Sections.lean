import LayeredGraph.Proofs.Toml.Assembly

/-! Documents whose sections stand in any order. What a document says is told by the values at the
ends of paths. A section adds its entries to the table at the end of its path, wherever the tables
on the way have come from, and changes nothing at any other path; so a document says just what
its sections set, in whatever order they stand. -/
namespace LayeredGraph.Toml

namespace Entries

variable {entries : Entries} {key other : String} {path : List String}

/-- The table under a key, or the empty table that a longer header would bring about there. -/
def child (entries : Entries) (key : String) : Table :=
  match entries.get? key with
  | some (.table form inner) => ⟨form, inner⟩
  | _ => .empty .implied

/-- The value at the end of a path that leads through tables. -/
def at? (entries : Entries) : List String → Option Value
  | [] => none
  | [key] => entries.get? key
  | key :: next :: path => (entries.child key).entries.at? (next :: path)

theorem at?_cons (entries : Entries) (key : String) (some : path ≠ []) :
    entries.at? (key :: path) = (entries.child key).entries.at? path := by
  obtain ⟨next, path, rfl⟩ := List.exists_cons_of_ne_nil some
  rfl

theorem child_of_none (absent : entries.get? key = none) :
    entries.child key = .empty .implied := by
  rw [child, absent]

theorem child_of_table {form : TableForm} {inner : Entries}
    (found : entries.get? key = some (.table form inner)) : entries.child key = ⟨form, inner⟩ := by
  rw [child, found]

theorem child_of_atom {atom : Atom} (found : entries.get? key = some atom.toValue) :
    entries.child key = .empty .implied := by
  rw [child, found]
  cases atom <;> rfl

theorem child_of_ne (value : Value) (apart : other ≠ key) :
    (entries.put key value).child other = entries.child other := by
  rw [child, get?_put_of_ne entries value apart, child]

@[simp] theorem child_put_self (entries : Entries) (key : String) (table : Table) :
    (entries.put key table.toValue).child key = table :=
  child_of_table (get?_put_self _ _ _)

@[simp] theorem at?_nil (path : List String) : at? [] path = none := by
  induction path with
  | nil => rfl
  | cons key path ih =>
    cases path with
    | nil => rfl
    | cons next path => exact ih

theorem at?_put_of_ne (value : Value) (apart : other ≠ key) (path : List String) :
    (entries.put key value).at? (other :: path) = entries.at? (other :: path) := by
  cases path with
  | nil => exact get?_put_of_ne entries value apart
  | cons next path => rw [at?, child_of_ne value apart, at?]

end Entries

namespace Table

variable {table last : Table} {start path rest : List String} {key : String}

/-- The table at the end of a path. -/
def tableAt (table : Table) : List String → Table
  | [] => table
  | key :: path => (table.entries.child key).tableAt path

/-- Replaces the table at the end of a path. -/
def putAt (table last : Table) : List String → Table
  | [] => last
  | key :: path => table.put key ((table.entries.child key).putAt last path).toValue

/-- Nothing on the way of a path, nor at its end, keeps a header from leading there. -/
def Passes (table : Table) (path : List String) : Prop :=
  ∀ front, front ≠ [] → front <+: path → ∀ value, table.entries.at? front = some value →
    ∃ form inner, value = .table form inner ∧ opens false form = true

theorem Passes.child (passes : table.Passes (key :: path)) :
    (table.entries.child key).Passes path := by
  intro front some before value found
  refine passes (key :: front) nofun (List.cons_prefix_cons.2 ⟨rfl, before⟩) value ?_
  rwa [Entries.at?_cons _ _ some]

/-- Where a header can lead, the table at the end of its path is changed and put back. -/
theorem update_eq (passes : table.Passes path) (change : Table → Option Table) :
    update false change path table = (change (table.tableAt path)).map (table.putAt · path) := by
  induction path generalizing table with
  | nil => exact Option.map_id'.symm
  | cons key path ih =>
    have entered : update false change (key :: path) table =
        (update false change path (table.entries.child key)).map fun child =>
          table.put key child.toValue := by
      cases found : table.get? key with
      | none =>
        rw [(enters_of_none found).update, Entries.child_of_none found]
        rfl
      | some value =>
        obtain ⟨form, inner, rfl, opened⟩ := passes [key] nofun ⟨path, rfl⟩ value found
        rw [update_of_table found opened, Entries.child_of_table found]
    rw [entered, ih passes.child, Option.map_map]
    rfl

theorem putAt_append (table last : Table) (start path : List String) :
    table.putAt ((table.tableAt start).putAt last path) start =
      table.putAt last (start ++ path) := by
  induction start generalizing table with
  | nil => rfl
  | cons key start ih => rw [putAt, tableAt, ih, List.cons_append, putAt]

theorem tableAt_append (table : Table) (start path : List String) :
    table.tableAt (start ++ path) = (table.tableAt start).tableAt path := by
  induction start generalizing table with
  | nil => rfl
  | cons key start ih => exact ih _

theorem at?_tableAt (table : Table) (path : List String) (some : rest ≠ []) :
    (table.tableAt path).entries.at? rest = table.entries.at? (path ++ rest) := by
  induction path generalizing table with
  | nil => rfl
  | cons key path ih =>
    rw [tableAt, ih, List.cons_append, Entries.at?_cons]
    exact List.append_ne_nil_of_right_ne_nil _ some

/-- Either a table is at the end of a path, or there is none and an empty one stands for it. -/
theorem tableAt_cases (table : Table) (some : path ≠ []) :
    table.entries.at? path = .some (table.tableAt path).toValue ∨
      table.tableAt path = .empty .implied := by
  obtain ⟨start, key, rfl⟩ : ∃ start key, path = start ++ [key] :=
    ⟨_, _, (List.dropLast_concat_getLast some).symm⟩
  rw [tableAt_append, ← at?_tableAt _ _ (List.cons_ne_nil key []), Entries.at?, tableAt, tableAt,
    Entries.child]
  split
  · next found => exact .inl found
  · exact .inr rfl

/-- Below its end a path leads on into the new table. -/
theorem at?_putAt_below (table last : Table) (path : List String) (some : rest ≠ []) :
    (table.putAt last path).entries.at? (path ++ rest) = last.entries.at? rest := by
  induction path generalizing table with
  | nil => rfl
  | cons key path ih =>
    have longer : path ++ rest ≠ [] := List.append_ne_nil_of_right_ne_nil _ some
    rw [List.cons_append, Entries.at?_cons _ _ longer, putAt, put, Entries.child_put_self, ih]

theorem at?_putAt_self (table last : Table) (some : path ≠ []) :
    (table.putAt last path).entries.at? path = .some last.toValue := by
  induction path generalizing table with
  | nil => exact absurd rfl some
  | cons key path ih =>
    cases path with
    | nil => exact get?_put_self _ _ _
    | cons next path =>
      have longer : next :: path ≠ [] := nofun
      rw [Entries.at?_cons _ _ longer, putAt, put, Entries.child_put_self, ih _ longer]

/-- Before its end a path leads through the tables that were there, with the change in them. -/
theorem at?_putAt_above (table last : Table) {front : List String} (some : front ≠ [])
    (rest : List String) : (table.putAt last (front ++ rest)).entries.at? front =
      .some ((table.tableAt front).putAt last rest).toValue := by
  rw [← putAt_append, at?_putAt_self _ _ some]

/-- No other path leads elsewhere than before. -/
theorem at?_putAt_other (table last : Table) {other : List String} (above : ¬other <+: path)
    (below : ¬path <+: other) :
    (table.putAt last path).entries.at? other = table.entries.at? other := by
  induction path generalizing table other with
  | nil => exact absurd List.nil_prefix below
  | cons key path ih =>
    cases other with
    | nil => exact absurd List.nil_prefix above
    | cons name other =>
      by_cases same : name = key
      · subst same
        rw [List.cons_prefix_cons] at above below
        have above := fun before => above ⟨rfl, before⟩
        have some : other ≠ [] := by
          rintro rfl
          exact above List.nil_prefix
        rw [Entries.at?_cons _ _ some, Entries.at?_cons _ _ some, putAt, put,
          Entries.child_put_self, ih _ above fun before => below ⟨rfl, before⟩]
      · exact Entries.at?_put_of_ne _ same other

end Table

namespace Section

variable {sec : Section} {table : Table}

/-- The values of a section with the paths they are at. -/
def pairs (sec : Section) : List (List String × Atom) :=
  sec.entries.map fun entry => (sec.path ++ [entry.1], entry.2)

/-- A table with the values of a section in the table at the end of the section's path. -/
def addTo (sec : Section) (table : Table) : Table :=
  table.putAt ⟨.header, (table.tableAt sec.path).entries ++ sec.values⟩ sec.path

theorem mem_pairs {path : List String} {atom : Atom} :
    (path, atom) ∈ sec.pairs ↔ ∃ key, (key, atom) ∈ sec.entries ∧ sec.path ++ [key] = path := by
  simp [pairs]

theorem get?_values (distinct : (sec.entries.map (·.1)).Nodup) {key : String} {atom : Atom}
    (member : (key, atom) ∈ sec.entries) : Entries.get? sec.values key = some atom.toValue := by
  obtain ⟨before, after, list⟩ := List.append_of_mem member
  refine List.lookup_eq_some_iff.2 ⟨_, _, by rw [values, list, List.map_append, List.map_cons], ?_⟩
  rw [list, List.map_append, List.map_cons, List.nodup_append] at distinct
  intro other held
  obtain ⟨entry, earlier, rfl⟩ := List.mem_map.1 held
  have apart := distinct.2.2 _ (List.mem_map_of_mem earlier) key List.mem_cons_self
  exact bne_iff_ne.2 apart.symm

theorem get?_values_cases (sec : Section) (key : String) :
    Entries.get? sec.values key = none ∨
      ∃ atom, (key, atom) ∈ sec.entries ∧ Entries.get? sec.values key = some atom.toValue := by
  cases found : Entries.get? sec.values key with
  | none => exact .inl rfl
  | some value =>
    obtain ⟨before, after, list, -⟩ := List.lookup_eq_some_iff.1 found
    have member : (key, value) ∈ sec.values := list ▸ List.mem_append_right _ List.mem_cons_self
    obtain ⟨entry, held, same⟩ := List.mem_map.1 member
    obtain ⟨rfl, rfl⟩ := Prod.mk.inj same
    exact .inr ⟨entry.2, held, rfl⟩

theorem at?_append_values {entries : Entries} {path : List String}
    (fresh : ∀ entry ∈ sec.entries, entries.get? entry.1 = none)
    (other : ∀ entry ∈ sec.entries, [entry.1] ≠ path) :
    Entries.at? (entries ++ sec.values) path = entries.at? path := by
  have append : ∀ key, Entries.get? (entries ++ sec.values) key =
      (entries.get? key).or (Entries.get? sec.values key) := fun _ => List.lookup_append
  cases path with
  | nil => rfl
  | cons key path =>
    rcases sec.get?_values_cases key with none | ⟨atom, member, found⟩
    · have same := append key
      rw [none, Option.or_none] at same
      cases path with
      | nil => exact same
      | cons next path => rw [Entries.at?, Entries.at?, Entries.child, same, Entries.child]
    · have old := fresh _ member
      have new := append key
      rw [old, found, Option.none_or] at new
      cases path with
      | nil => exact absurd rfl (other _ member)
      | cons next path =>
        rw [Entries.at?, Entries.at?, Entries.child_of_atom new, Entries.child_of_none old]

section AddTo

theorem get?_tableAt (fresh : ∀ pair ∈ sec.pairs, table.entries.at? pair.1 = none) :
    ∀ entry ∈ sec.entries, (table.tableAt sec.path).entries.get? entry.1 = none := by
  intro entry member
  change (table.tableAt sec.path).entries.at? [entry.1] = none
  rw [Table.at?_tableAt _ _ (List.cons_ne_nil _ _)]
  exact fresh _ (List.mem_map.2 ⟨entry, member, rfl⟩)

theorem at?_addTo_pair (distinct : (sec.entries.map (·.1)).Nodup)
    (fresh : ∀ pair ∈ sec.pairs, table.entries.at? pair.1 = none) {path : List String}
    {atom : Atom} (pair : (path, atom) ∈ sec.pairs) :
    (sec.addTo table).entries.at? path = some atom.toValue := by
  obtain ⟨key, member, rfl⟩ := mem_pairs.1 pair
  have old := get?_tableAt fresh _ member
  rw [addTo, Table.at?_putAt_below _ _ _ (List.cons_ne_nil _ _)]
  change List.lookup key _ = _
  rw [List.lookup_append]
  change (Entries.get? _ key).or (Entries.get? _ key) = _
  rw [old, get?_values distinct member]
  rfl

theorem at?_addTo_above {path : List String} (some : path ≠ []) (before : path <+: sec.path) :
    ∃ form inner, (sec.addTo table).entries.at? path = .some (.table form inner) ∧
      (form = .header ∧ path = sec.path ∨ form = (table.tableAt path).form) := by
  obtain ⟨rest, whole⟩ := before
  rw [addTo, ← whole, Table.at?_putAt_above _ _ some]
  cases rest with
  | nil => exact ⟨_, _, rfl, .inl ⟨rfl, (List.append_nil _).symm⟩⟩
  | cons key rest => exact ⟨_, _, rfl, .inr rfl⟩

theorem at?_addTo_other (fresh : ∀ pair ∈ sec.pairs, table.entries.at? pair.1 = none)
    {path : List String} (other : ∀ pair ∈ sec.pairs, pair.1 ≠ path)
    (above : ¬path <+: sec.path) :
    (sec.addTo table).entries.at? path = table.entries.at? path := by
  by_cases below : sec.path <+: path
  · obtain ⟨rest, rfl⟩ := below
    have some : rest ≠ [] := by
      rintro rfl
      exact above (List.append_nil _ ▸ List.prefix_rfl)
    rw [addTo, Table.at?_putAt_below _ _ _ some, at?_append_values (get?_tableAt fresh),
      Table.at?_tableAt _ _ some]
    intro entry member same
    exact other _ (List.mem_map.2 ⟨entry, member, rfl⟩) (congrArg (sec.path ++ ·) same)
  · exact Table.at?_putAt_other _ _ above below

end AddTo

end Section

/-- Sections that can stand in one document, in any order: no key is set twice, no table is opened
twice, and no table lies where a value is set. -/
structure Compatible (sections : List Section) : Prop where
  keys : ∀ sec ∈ sections, (sec.entries.map (·.1)).Nodup
  paths : (sections.map (·.path)).Nodup
  free : ∀ sec ∈ sections, ∀ pair ∈ sec.pairs, ∀ other ∈ sections, ¬pair.1 <+: other.path

theorem Compatible.path_ne {done : List Section} {sec : Section} (h : Compatible (done ++ [sec])) :
    ∀ other ∈ done, other.path ≠ sec.path := by
  intro other member
  have paths := h.paths
  rw [List.map_append, List.nodup_append] at paths
  exact paths.2.2 _ (List.mem_map_of_mem member) _ List.mem_cons_self

theorem Compatible.left {sections others : List Section} (h : Compatible (sections ++ others)) :
    Compatible sections where
  keys sec member := h.keys sec (List.mem_append_left _ member)
  paths := (List.nodup_append.1 (List.map_append ▸ h.paths)).1
  free sec member pair held other beside :=
    h.free sec (List.mem_append_left _ member) pair held other (List.mem_append_left _ beside)

/-- How the tables come about that lie on the way of some sections: by a header of their own, or by
a longer one. -/
def Opened (sections : List Section) (path : List String) (form : TableForm) : Prop :=
  form = .header ∧ (∃ sec ∈ sections, sec.path = path) ∨ form = .implied

theorem Opened.opens {sections : List Section} {path : List String} {form : TableForm}
    (h : Opened sections path form) : Table.opens false form = true := by
  rcases h with ⟨rfl, -⟩ | rfl <;> rfl

theorem Opened.append {sections : List Section} {path : List String} {form : TableForm}
    (h : Opened sections path form) (more : List Section) : Opened (sections ++ more) path form :=
  h.imp_left fun ⟨header, sec, member, here⟩ => ⟨header, sec, List.mem_append_left _ member, here⟩

/-- A table says what some sections set, and nothing else but the tables on the way. -/
structure Holds (sections : List Section) (table : Table) : Prop where
  pairs : ∀ sec ∈ sections, ∀ pair ∈ sec.pairs, table.entries.at? pair.1 = some pair.2.toValue
  tables : ∀ sec ∈ sections, sec.path ≠ [] →
    ∃ form inner, table.entries.at? sec.path = some (.table form inner)
  only : ∀ path value, table.entries.at? path = some value →
    (∃ sec ∈ sections, ∃ pair ∈ sec.pairs, pair.1 = path) ∨
      ∃ form inner, value = .table form inner ∧ (∃ sec ∈ sections, path <+: sec.path) ∧
        Opened sections path form

namespace Holds

variable {done : List Section} {sec : Section} {table : Table}

theorem empty (form : TableForm) : Holds [] (.empty form) :=
  ⟨nofun, nofun, fun path _ found => absurd (found.symm.trans (Entries.at?_nil path)) nofun⟩

section Next

variable (holds : Holds done table) (compatible : Compatible (done ++ [sec]))

include holds compatible

/-- What lies on the way of a further section are tables. -/
theorem table_of_prefix {path : List String} {value : Value} (before : path <+: sec.path)
    (found : table.entries.at? path = some value) :
    ∃ form inner, value = .table form inner ∧ Opened done path form := by
  rcases holds.only path value found with
    ⟨other, member, pair, held, rfl⟩ | ⟨form, inner, rfl, -, opened⟩
  · exact absurd before (compatible.free other (by simp [member]) pair held sec (by simp))
  · exact ⟨form, inner, rfl, opened⟩

theorem passes {path : List String} (before : path <+: sec.path) : table.Passes path := by
  intro front _ start value found
  obtain ⟨form, inner, rfl, opened⟩ := table_of_prefix holds compatible (start.trans before) found
  exact ⟨form, inner, rfl, opened.opens⟩

/-- At the end of the path of a further section is at most a table that a longer header brought
about. -/
theorem eq_implied {value : Value} (found : table.entries.at? sec.path = some value) :
    ∃ inner, value = .table .implied inner := by
  obtain ⟨form, inner, rfl, opened⟩ := table_of_prefix holds compatible List.prefix_rfl found
  rcases opened with ⟨-, other, member, same⟩ | rfl
  · exact absurd same (compatible.path_ne other member)
  · exact ⟨inner, rfl⟩

theorem fresh : ∀ pair ∈ sec.pairs, table.entries.at? pair.1 = none := by
  rintro ⟨path, atom⟩ here
  cases found : table.entries.at? path with
  | none => rfl
  | some value =>
    rcases holds.only path value found with
      ⟨other, member, ⟨_, old⟩, held, rfl⟩ | ⟨_, _, _, ⟨other, member, before⟩, -⟩
    · obtain ⟨key, -, rfl⟩ := Section.mem_pairs.1 here
      obtain ⟨last, -, same⟩ := Section.mem_pairs.1 held
      exact absurd (List.append_inj' same rfl).1 (compatible.path_ne other member)
    · exact absurd before (compatible.free sec (by simp) _ here other (by simp [member]))

/-- A header can open the table at the end of the path of a further section. -/
theorem openTable_eq {start : List String} {key : String} (parts : sec.path = start ++ [key]) :
    Table.openTable key (table.tableAt start) =
      some ((table.tableAt start).put key (.table .header (table.tableAt sec.path).entries)) := by
  have last : table.tableAt sec.path = (table.tableAt start).entries.child key := by
    rw [parts, Table.tableAt_append]
    rfl
  rw [last]
  cases found : (table.tableAt start).get? key with
  | none =>
    rw [Table.openTable_of_none found, Entries.child_of_none found]
    rfl
  | some value =>
    have there : table.entries.at? sec.path = some value := by
      rw [parts, ← Table.at?_tableAt table start (List.cons_ne_nil key [])]
      exact found
    obtain ⟨inner, rfl⟩ := eq_implied holds compatible there
    rw [Table.openTable, found, Entries.child_of_table found]

theorem pairs_addTo : ∀ other ∈ done ++ [sec], ∀ pair ∈ other.pairs,
    (sec.addTo table).entries.at? pair.1 = some pair.2.toValue := by
  have fresh := fresh holds compatible
  have self : sec ∈ done ++ [sec] := by simp
  intro other member pair held
  rcases List.mem_append.1 member with old | new
  · have there := holds.pairs other old pair held
    have apart : ∀ next ∈ sec.pairs, next.1 ≠ pair.1 := by
      intro next here same
      exact nomatch (same ▸ fresh next here).symm.trans there
    rw [sec.at?_addTo_other fresh apart (compatible.free other member pair held sec self), there]
  · obtain rfl := List.mem_singleton.1 new
    exact other.at?_addTo_pair (compatible.keys other self) fresh held

theorem tables_addTo : ∀ other ∈ done ++ [sec], other.path ≠ [] →
    ∃ form inner, (sec.addTo table).entries.at? other.path = some (.table form inner) := by
  intro other member some
  by_cases above : other.path <+: sec.path
  · obtain ⟨form, inner, stands, -⟩ := Section.at?_addTo_above some above
    exact ⟨form, inner, stands⟩
  · have old : other ∈ done := by
      refine (List.mem_append.1 member).resolve_right fun new => above ?_
      obtain rfl := List.mem_singleton.1 new
      exact List.prefix_rfl
    have apart : ∀ pair ∈ sec.pairs, pair.1 ≠ other.path := by
      intro pair held same
      exact compatible.free sec (by simp) pair held other member (same ▸ List.prefix_rfl)
    rw [sec.at?_addTo_other (fresh holds compatible) apart above]
    exact holds.tables other old some

/-- What is on the way of a further section was opened before, is opened by it, or is brought about
by its header. -/
theorem opened_addTo {path : List String} {form : TableForm} {inner : Entries}
    (above : path <+: sec.path)
    (found : (sec.addTo table).entries.at? path = some (.table form inner)) :
    Opened (done ++ [sec]) path form := by
  have some : path ≠ [] := by
    rintro rfl
    nomatch found
  obtain ⟨form, inner, stands, origin⟩ := Section.at?_addTo_above some above
  obtain ⟨rfl, -⟩ := Value.table.inj (Option.some.inj (found.symm.trans stands))
  rcases origin with ⟨header, here⟩ | rfl
  · exact .inl ⟨header, sec, by simp, here.symm⟩
  · rcases table.tableAt_cases some with stood | new
    · obtain ⟨form, inner, same, opened⟩ := table_of_prefix holds compatible above stood
      obtain ⟨rfl, -⟩ := Value.table.inj same
      exact opened.append _
    · exact .inr (congrArg Table.form new)

/-- A section adds its own pairs to what a table says. -/
theorem addTo : Holds (done ++ [sec]) (sec.addTo table) := by
  refine ⟨pairs_addTo holds compatible, tables_addTo holds compatible, fun path value found => ?_⟩
  have within : ∀ other ∈ done, other ∈ done ++ [sec] := by simp +contextual
  have self : sec ∈ done ++ [sec] := by simp
  by_cases set : ∃ pair ∈ sec.pairs, pair.1 = path
  · exact .inl ⟨sec, self, set⟩
  by_cases above : path <+: sec.path
  · have some : path ≠ [] := by
      rintro rfl
      nomatch found
    obtain ⟨form, inner, stands, -⟩ := Section.at?_addTo_above some above
    obtain rfl := Option.some.inj (found.symm.trans stands)
    exact .inr ⟨form, inner, rfl, ⟨sec, self, above⟩, opened_addTo holds compatible above found⟩
  · have other : ∀ pair ∈ sec.pairs, pair.1 ≠ path := fun pair held same => set ⟨pair, held, same⟩
    rw [sec.at?_addTo_other (fresh holds compatible) other above] at found
    rcases holds.only path value found with
      ⟨old, member, pair⟩ | ⟨form, inner, same, ⟨old, member, way⟩, opened⟩
    · exact .inl ⟨old, within old member, pair⟩
    · exact .inr ⟨form, inner, same, ⟨old, within old member, way⟩, opened.append _⟩

end Next

end Holds

namespace Assembly

/-- The lines of a further section add it to the table. -/
theorem foldlM_lines_of_holds {done : List Section} {sec : Section} {root : Table}
    (holds : Holds done root) (compatible : Compatible (done ++ [sec])) (some : sec.path ≠ [])
    (path : List String) :
    sec.lines.foldlM add ⟨root, path⟩ = .some ⟨sec.addTo root, sec.path⟩ := by
  obtain ⟨start, key, parts⟩ : ∃ start key, sec.path = start ++ [key] :=
    ⟨_, _, (List.dropLast_concat_getLast some).symm⟩
  have passes := holds.passes compatible ⟨[key], parts.symm⟩
  have opened := holds.openTable_eq compatible parts
  have distinct : (sec.values.map (·.1)).Nodup := by
    rw [Section.values, List.map_map]
    exact compatible.keys sec (by simp)
  have fresh : ∀ entry ∈ sec.values, (root.tableAt sec.path).entries.get? entry.1 = none := by
    intro entry member
    obtain ⟨written, held, rfl⟩ := List.mem_map.1 member
    exact Section.get?_tableAt (holds.fresh compatible) written held
  have stored : sec.addTo root = root.putAt ((root.tableAt start).put key
      (.table .header ((root.tableAt sec.path).entries ++ sec.values))) start := by
    rw [Section.addTo, parts, ← Table.putAt_append]
    rfl
  rw [foldlM_lines start key parts, Table.update_eq passes,
    Table.openSection_eq_some opened distinct fresh, stored]
  rfl

/-- The lines of all sections put what they set into one table, in whatever order they stand. -/
theorem foldlM_sections {done sections : List Section} {root : Table} (holds : Holds done root)
    (compatible : Compatible (done ++ sections)) (some : ∀ sec ∈ sections, sec.path ≠ [])
    (path : List String) :
    ∃ table last, (sections.flatMap Section.lines).foldlM add ⟨root, path⟩ =
      .some ⟨table, last⟩ ∧ Holds (done ++ sections) table := by
  induction sections generalizing done root path with
  | nil => exact ⟨root, path, rfl, (List.append_nil done).symm ▸ holds⟩
  | cons sec sections ih =>
    rw [List.append_cons] at compatible ⊢
    have next := compatible.left
    obtain ⟨table, last, rest, held⟩ := ih (holds.addTo next) compatible
      (fun other member => some other (List.mem_cons_of_mem _ member)) sec.path
    refine ⟨table, last, ?_, held⟩
    rw [List.flatMap_cons, List.foldlM_append,
      foldlM_lines_of_holds holds next (some sec List.mem_cons_self)]
    exact rest

end Assembly

namespace Document

variable {document : Document}

/-- A document that can be written without quotes around its keys, and whose sections do not get
in each other's way. -/
structure Regular (document : Document) : Prop where
  keys : ∀ entry ∈ document.top, BareKey entry.1
  values : ∀ entry ∈ document.top, entry.2.Fits
  bare : ∀ sec ∈ document.sections, sec.Bare
  compatible : Compatible document.parts

theorem dropMark_write (keys : ∀ entry ∈ document.top, BareKey entry.1) :
    dropMark (document.top.flatMap writeEntry ++ writeSections document.sections) =
      document.top.flatMap writeEntry ++ writeSections document.sections := by
  cases top : document.top with
  | nil => exact dropMark_writeSections _
  | cons entry rest =>
    obtain ⟨c, more, chars, keyChar⟩ := (keys entry (top ▸ List.mem_cons_self)).exists_cons
    rw [List.flatMap_cons, writeEntry, chars, dropMark.eq_def]
    split
    · next same => exact absurd (List.cons.inj same).1 (ne_of_isKeyChar keyChar (by decide))
    · rfl

/-- The values before all sections are set in the outermost table. -/
theorem foldlM_top (distinct : (document.top.map (·.1)).Nodup) :
    (document.top.map fun entry => Line.pair [entry.1] entry.2.toValue).foldlM Assembly.add .empty =
      some ⟨(Section.mk [] document.top).addTo (.empty .header), []⟩ := by
  cases top : document.top with
  | nil => rfl
  | cons entry rest =>
    have lines : ((entry :: rest).map fun entry => Line.pair [entry.1] entry.2.toValue) =
        (Section.mk [] (entry :: rest)).values.map fun entry => Line.pair [entry.1] entry.2 := by
      rw [Section.values, List.map_map]
      rfl
    have keys : ((Section.mk [] (entry :: rest)).values.map (·.1)).Nodup := by
      rw [Section.values, List.map_map]
      exact top ▸ distinct
    have inserted : (Table.empty .header).insertAll (Section.mk [] (entry :: rest)).values =
        some ⟨.header, (Section.mk [] (entry :: rest)).values⟩ :=
      Table.insertAll_eq_some keys fun _ _ => rfl
    rw [lines]
    refine (Assembly.foldlM_pairs (.empty .header) [] _ _).trans ?_
    exact congrArg (Option.map (Assembly.mk · [])) inserted

/-- A document is read as a table that says what its sections set, and nothing else. -/
theorem Regular.exists_read (h : document.Regular) :
    ∃ table, read document.write = some table ∧ Holds document.parts table := by
  have first : Compatible ([⟨[], document.top⟩] : List Section) :=
    .left (show Compatible ([⟨[], document.top⟩] ++ document.sections) from h.compatible)
  have top := foldlM_top (first.keys _ List.mem_cons_self)
  have holds := (Holds.empty .header).addTo first
  obtain ⟨table, last, rest, held⟩ := Assembly.foldlM_sections holds h.compatible
    (fun sec member => (h.bare sec member).some) []
  have lines := (readAs_writeSections h.bare).entries h.keys h.values _ (Nat.lt_succ_self _)
  refine ⟨table, ?_, held⟩
  rw [read, write, String.toList_ofList, dropMark_write h.keys]
  simp only [lines, Option.bind_eq_bind, Option.bind_some]
  rw [assemble, List.foldlM_append, top]
  exact congrArg (Option.map Assembly.root) rest

end Document

end LayeredGraph.Toml
