import LayeredGraph.Proofs.Toml.Data
import LayeredGraph.Proofs.Toml.Sections
import LayeredGraph.Toml.Running

/-! The library that runs keeps the laws. A plain table is written as a section for each table in
it, so what stands at a path is told by the sections; they are compatible, and what is read of them
says the same. -/
namespace LayeredGraph.Toml

namespace Value

variable {entries : Entries}

theorem get?_fields (entries : Entries) (key : String) :
    (fields entries).get? key = (entries.get? key).map Value.data := by
  induction entries with
  | nil => rfl
  | cons entry entries ih =>
    obtain ⟨name, value⟩ := entry
    rw [fields, Fields.get?, Entries.get?, List.lookup_cons, List.lookup_cons]
    cases key == name
    · exact ih
    · rfl

theorem child_fields (entries : Entries) (key : String) :
    (fields entries).child key = fields (entries.child key).entries := by
  rw [Fields.child, get?_fields, Entries.child]
  cases entries.get? key with
  | none => rfl
  | some value => cases value <;> rfl

theorem at?_fields (entries : Entries) {path : List String} (some : path ≠ []) :
    (fields entries).at? path = (entries.at? path).map Value.data := by
  induction path generalizing entries with
  | nil => exact absurd rfl some
  | cons key path ih =>
    cases path with
    | nil => rw [Fields.at?_singleton, get?_fields, Entries.at?]
    | cons next path =>
      have longer := List.cons_ne_nil next path
      rw [Fields.at?_cons _ _ longer, child_fields, ih _ longer, Entries.at?_cons _ _ longer]

end Value

namespace Data

theorem atom?_eq_some_iff {value : Data} {atom : Atom} :
    value.atom? = some atom ↔ value = atom.toValue.data := by
  cases atom <;> cases value <;> simp [atom?, Atom.toValue, Value.data]

theorem table?_eq_some_iff {value : Data} {inner : Fields} :
    value.table? = some inner ↔ value = .table inner := by
  cases value <;> simp [table?]

theorem atom_ne_table (atom : Atom) (inner : Fields) : atom.toValue.data ≠ .table inner := by
  intro same
  cases atom <;> cases same

theorem at?_atom_cons (atom : Atom) (key : String) (path : List String) :
    atom.toValue.data.at? (key :: path) = none := by
  cases atom <;> rfl

/-- Only a table has a value under a key. -/
theorem at?_cons_eq_some_iff {value found : Data} {key : String} {path : List String} :
    value.at? (key :: path) = some found ↔ ∃ (fields : Fields) (inner : Data),
      value = .table fields ∧ fields.get? key = some inner ∧ inner.at? path = some found := by
  cases value with
  | table fields =>
    rw [at?, Option.bind_eq_some_iff]
    constructor
    · rintro ⟨inner, held, there⟩
      exact ⟨fields, inner, rfl, held, there⟩
    · rintro ⟨_, inner, same, held, there⟩
      obtain rfl := table.inj same
      exact ⟨inner, held, there⟩
  | _ =>
    constructor
    · intro none
      cases none
    · rintro ⟨_, _, ⟨⟩, -⟩

/-- What lies in a plain value is plain, under keys that need no quotes, and less deep. -/
theorem Plain.at? {depth : Nat} {value found : Data} (plain : value.Plain depth)
    {path : List String} (there : value.at? path = some found) :
    ∃ left, left + path.length = depth ∧ found.Plain left ∧ ∀ key ∈ path, BareKey key := by
  induction path generalizing value depth with
  | nil =>
    obtain rfl := Option.some.inj there
    exact ⟨depth, rfl, plain, nofun⟩
  | cons key path ih =>
    obtain ⟨fields, inner, rfl, held, there⟩ := at?_cons_eq_some_iff.1 there
    cases depth with
    | zero => exact plain.elim
    | succ depth =>
      obtain ⟨bare, deeper⟩ := plain.2 _ ((Fields.get?_eq_some_iff plain.1).1 held)
      obtain ⟨left, length, last, keys⟩ := ih deeper there
      refine ⟨left, ?_, last, List.forall_mem_cons.2 ⟨bare, keys⟩⟩
      rw [List.length_cons, ← length, Nat.add_assoc]

/-- A plain value that is no table fits on a line. -/
theorem Plain.exists_atom {depth : Nat} {value : Data} (plain : value.Plain depth)
    (other : ∀ inner, value ≠ .table inner) : ∃ atom : Atom, value = atom.toValue.data := by
  cases value with
  | string text => exact ⟨.string text, rfl⟩
  | integer number => exact ⟨.integer number, rfl⟩
  | boolean flag => exact ⟨.boolean flag, rfl⟩
  | table inner => exact absurd rfl (other inner)
  | _ => cases depth <;> exact plain.elim

end Data

namespace Fields

variable {fields : Fields} {depth : Nat}

theorem mem_atoms {key : String} {atom : Atom} :
    (key, atom) ∈ fields.atoms ↔ (key, atom.toValue.data) ∈ fields := by
  simp [atoms, Data.atom?_eq_some_iff]

theorem mem_tables {key : String} {inner : Fields} :
    (key, inner) ∈ fields.tables ↔ (key, .table inner) ∈ fields := by
  simp [tables, Data.table?_eq_some_iff]

/-- Keys that are told once are told once among some of the fields. -/
theorem nodup_filterMap {β : Type} {pick : Data → Option β}
    (distinct : (fields.map (·.1)).Nodup) :
    ((fields.filterMap fun (key, value) => (pick value).map (key, ·)).map (·.1)).Nodup := by
  rw [List.Nodup, List.pairwise_map] at distinct ⊢
  refine List.Pairwise.filterMap _ ?_ distinct
  rintro ⟨key, value⟩ ⟨other, another⟩ apart first picked second pickedToo
  obtain ⟨-, -, rfl⟩ := Option.map_eq_some_iff.1 picked
  obtain ⟨-, -, rfl⟩ := Option.map_eq_some_iff.1 pickedToo
  exact apart

/-- The sections of a plain table are those of the tables in it, wherever they lie. -/
theorem mem_parts {path : List String} {sec : Section}
    (plain : (Data.table fields).Plain depth) :
    sec ∈ fields.parts depth path ↔ ∃ (rest : List String) (inner : Fields),
      fields.at? rest = some (.table inner) ∧ sec = ⟨path ++ rest, inner.atoms⟩ := by
  induction depth generalizing fields path with
  | zero => exact plain.elim
  | succ depth ih =>
    rw [parts, List.mem_cons, List.mem_flatMap]
    constructor
    · rintro (rfl | ⟨⟨key, inner⟩, member, held⟩)
      · exact ⟨[], fields, rfl, by rw [List.append_nil]⟩
      · have there := mem_tables.1 member
        obtain ⟨rest, last, found, rfl⟩ := (ih (plain.2 _ there).2).1 held
        refine ⟨key :: rest, last, Data.at?_cons_eq_some_iff.2 ?_, by rw [List.append_assoc]; rfl⟩
        exact ⟨fields, _, rfl, (get?_eq_some_iff plain.1).2 there, found⟩
    · rintro ⟨rest, last, found, rfl⟩
      cases rest with
      | nil =>
        obtain rfl := Data.table.inj (Option.some.inj found)
        exact .inl (by rw [List.append_nil])
      | cons key rest =>
        obtain ⟨_, value, ⟨⟩, held, found⟩ := Data.at?_cons_eq_some_iff.1 found
        obtain ⟨inner, rfl⟩ : ∃ inner, value = .table inner := by
          cases rest with
          | nil => exact ⟨last, Option.some.inj found⟩
          | cons next rest =>
            obtain ⟨inner, -, same, -⟩ := Data.at?_cons_eq_some_iff.1 found
            exact ⟨inner, same⟩
        have there := (get?_eq_some_iff plain.1).1 held
        refine .inr ⟨(key, inner), mem_tables.2 there, (ih (plain.2 _ there).2).2 ?_⟩
        exact ⟨rest, last, found, by rw [List.append_assoc]; rfl⟩

/-- No two sections of a plain table are at the same path. -/
theorem nodup_parts (plain : (Data.table fields).Plain depth) (path : List String) :
    ((fields.parts depth path).map (·.path)).Nodup := by
  induction depth generalizing fields path with
  | zero => exact plain.elim
  | succ depth ih =>
    have deeper : ∀ entry ∈ fields.tables, (Data.table entry.2).Plain depth := fun _ member =>
      (plain.2 _ (mem_tables.1 member)).2
    have below : ∀ entry ∈ fields.tables,
        ∀ other ∈ (entry.2.parts depth (path ++ [entry.1])).map (·.path),
          path ++ [entry.1] <+: other := by
      intro entry member other held
      obtain ⟨sec, here, rfl⟩ := List.mem_map.1 held
      obtain ⟨rest, inner, -, rfl⟩ := (mem_parts (deeper entry member)).1 here
      exact List.prefix_append _ _
    rw [parts, List.map_cons, List.map_flatMap, List.nodup_cons, List.nodup_flatMap]
    refine ⟨fun held => ?_, fun entry member => ih (deeper entry member) _, ?_⟩
    · obtain ⟨entry, member, held⟩ := List.mem_flatMap.1 held
      have longer := (below entry member _ held).length_le
      rw [List.length_append] at longer
      exact absurd longer (Nat.not_succ_le_self _)
    · have keys := @nodup_filterMap fields Fields Data.table? plain.1
      rw [List.Nodup, List.pairwise_map] at keys
      refine keys.imp_of_mem fun {entry next} member later apart => ?_
      intro other here there
      have both := List.prefix_of_prefix_length_le (below entry member other here)
        (below next later other there) (by simp)
      exact apart (by simpa using both)

/-- What is at the end of a path stands in the table before it. -/
theorem at?_concat_eq_some_iff {path : List String} {key : String} {value : Data} :
    fields.at? (path ++ [key]) = some value ↔
      ∃ inner : Fields, fields.at? path = some (.table inner) ∧ inner.get? key = some value := by
  rw [at?, Data.at?_append, Option.bind_eq_some_iff]
  constructor
  · rintro ⟨table, there, found⟩
    obtain ⟨inner, last, rfl, held, same⟩ := Data.at?_cons_eq_some_iff.1 found
    exact ⟨inner, there, held.trans same⟩
  · rintro ⟨inner, there, held⟩
    exact ⟨_, there, Data.at?_cons_eq_some_iff.2 ⟨inner, value, rfl, held, rfl⟩⟩

/-- A plain table as sections: what fits on a line is a pair, and each table is a section. -/
structure Laid (fields : Fields) (sections : List Section) : Prop where
  pairs {path : List String} {atom : Atom} :
    fields.at? path = some atom.toValue.data ↔ ∃ sec ∈ sections, (path, atom) ∈ sec.pairs
  tables {path : List String} :
    (∃ inner, fields.at? path = some (.table inner)) ↔ ∃ sec ∈ sections, sec.path = path

theorem nodup_of_at? (plain : (Data.table fields).Plain depth) {path : List String}
    {inner : Fields} (found : fields.at? path = some (.table inner)) :
    (inner.map (·.1)).Nodup := by
  obtain ⟨left, -, last, -⟩ := plain.at? found
  cases left with
  | zero => exact last.elim
  | succ left => exact last.1

theorem laid_parts (plain : (Data.table fields).Plain depth) :
    fields.Laid (fields.parts depth []) := by
  constructor
  · intro path atom
    constructor
    · intro found
      have some : path ≠ [] := by
        rintro rfl
        exact Data.atom_ne_table atom fields (Option.some.inj found).symm
      rw [← List.dropLast_concat_getLast some] at found ⊢
      obtain ⟨inner, there, held⟩ := at?_concat_eq_some_iff.1 found
      have member := (get?_eq_some_iff (nodup_of_at? plain there)).1 held
      refine ⟨_, (mem_parts plain).2 ⟨_, inner, there, rfl⟩, Section.mem_pairs.2 ?_⟩
      exact ⟨_, mem_atoms.2 member, rfl⟩
    · rintro ⟨sec, member, pair⟩
      obtain ⟨path, inner, there, rfl⟩ := (mem_parts plain).1 member
      obtain ⟨key, held, rfl⟩ := Section.mem_pairs.1 pair
      refine at?_concat_eq_some_iff.2 ⟨inner, there, ?_⟩
      exact (get?_eq_some_iff (nodup_of_at? plain there)).2 (mem_atoms.1 held)
  · intro path
    constructor
    · rintro ⟨inner, found⟩
      exact ⟨_, (mem_parts plain).2 ⟨path, inner, found, rfl⟩, rfl⟩
    · rintro ⟨sec, member, rfl⟩
      obtain ⟨rest, inner, found, rfl⟩ := (mem_parts plain).1 member
      exact ⟨inner, found⟩

theorem compatible_parts (plain : (Data.table fields).Plain depth) :
    Compatible (fields.parts depth []) where
  keys := by
    intro sec member
    obtain ⟨path, inner, found, rfl⟩ := (mem_parts plain).1 member
    exact nodup_filterMap (nodup_of_at? plain found)
  paths := nodup_parts plain []
  free := by
    rintro sec member ⟨path, atom⟩ held other beside ⟨rest, longer⟩
    have laid := laid_parts plain
    have value := laid.pairs.2 ⟨sec, member, held⟩
    obtain ⟨inner, table⟩ := laid.tables.2 ⟨other, beside, rfl⟩
    rw [← longer, at?, Data.at?_append, ← at?, value, Option.bind_some] at table
    cases rest with
    | nil => exact Data.atom_ne_table atom inner (Option.some.inj table)
    | cons key rest =>
      rw [Data.at?_atom_cons] at table
      cases table

/-- What has to fit in the sections are the integers of the table. -/
theorem fits_parts_iff (plain : (Data.table fields).Plain depth) :
    (∀ sec ∈ fields.parts depth [], ∀ entry ∈ sec.entries, entry.2.Fits) ↔ fields.InRange := by
  have laid := laid_parts plain
  constructor
  · intro fits path number found
    obtain ⟨sec, member, pair⟩ := (@Laid.pairs _ _ laid path (.integer number)).1 found
    obtain ⟨key, held, -⟩ := Section.mem_pairs.1 pair
    exact fits sec member _ held
  · rintro inRange sec member ⟨key, atom⟩ held
    have found := laid.pairs.2 ⟨sec, member, Section.mem_pairs.2 ⟨key, held, rfl⟩⟩
    cases atom with
    | integer number => exact inRange _ number found
    | _ => trivial

/-- A table that says what the sections set says the same as the table of which they are the
sections. -/
theorem Laid.same {sections : List Section} (laid : fields.Laid sections)
    (plain : (Data.table fields).Plain depth) {table : Table} (holds : Holds sections table) :
    Same (Value.fields table.entries) fields := by
  intro path
  by_cases root : path = []
  · subst root
    exact .inr ⟨_, _, rfl, rfl⟩
  have said := Value.at?_fields table.entries root
  cases found : fields.at? path with
  | none =>
    cases there : table.entries.at? path with
    | none => exact .inl (by rw [said, there, Option.map_none])
    | some value =>
      rcases holds.only path value there with
        ⟨sec, member, pair, held, rfl⟩ | ⟨-, -, -, ⟨sec, member, rest, longer⟩, -⟩
      · have here := laid.pairs.2 ⟨sec, member, held⟩
        rw [found] at here
        cases here
      · obtain ⟨inner, below⟩ := laid.tables.2 ⟨sec, member, longer.symm⟩
        rw [at?, Data.at?_append, ← at?, found] at below
        cases below
  | some value =>
    obtain ⟨left, -, last, -⟩ := plain.at? found
    by_cases table : ∃ inner, value = .table inner
    · obtain ⟨inner, rfl⟩ := table
      obtain ⟨sec, member, rfl⟩ := laid.tables.1 ⟨inner, found⟩
      obtain ⟨form, other, there⟩ := holds.tables sec member root
      exact .inr ⟨_, inner, by rw [said, there]; rfl, rfl⟩
    · obtain ⟨atom, rfl⟩ := last.exists_atom (not_exists.1 table)
      obtain ⟨sec, member, pair⟩ := laid.pairs.1 found
      exact .inl (by rw [said, holds.pairs sec member _ pair]; rfl)

section Document

variable (plain : fields.Plain)

include plain

/-- A plain table whose integers can be written is a regular document. -/
theorem Plain.regular (fits : ∀ sec ∈ fields.document.parts, ∀ entry ∈ sec.entries, entry.2.Fits) :
    fields.document.Regular := by
  have bare : ∀ sec ∈ fields.document.parts, (∀ key ∈ sec.path, BareKey key) ∧
      sec.path.length ≤ depthLimit ∧ ∀ entry ∈ sec.entries, BareKey entry.1 := by
    intro sec member
    obtain ⟨path, inner, found, rfl⟩ := (mem_parts plain).1 member
    obtain ⟨left, length, last, keys⟩ := Data.Plain.at? plain found
    refine ⟨keys, by rw [← length]; exact Nat.le_add_left _ _, fun entry held => ?_⟩
    cases left with
    | zero => exact last.elim
    | succ left => exact (last.2 _ (mem_atoms.1 held)).1
  have root := List.mem_cons_self (a := Section.mk [] fields.document.top)
    (l := fields.document.sections)
  have apart := (List.nodup_cons.1 (nodup_parts plain [])).1
  refine ⟨(bare _ root).2.2, fits _ root, fun sec member => ?_, compatible_parts plain⟩
  have part := List.mem_cons_of_mem (Section.mk [] fields.document.top) member
  obtain ⟨path, short, keys⟩ := bare sec part
  refine ⟨path, fun same => apart ?_, short, keys, fits sec part⟩
  have here : sec.path ∈ fields.document.sections.map (·.path) := List.mem_map_of_mem member
  rwa [same] at here

end Document

end Fields

/-- The library that runs reads what it writes, and takes values for what they are. -/
theorem Library.running_lawful : running.Lawful running.language where
  read_eq := id
  write_iff := by
    intro fields plain
    change (∃ text, fields.write? = some text) ↔ _
    rw [← Fields.fits_parts_iff plain, Fields.write?]
    split
    · next able => exact iff_of_true ⟨_, rfl⟩ able.2
    · next unable => exact iff_of_false nofun fun fits => unable ⟨plain, fits⟩
  document_write := by
    intro fields text plain written
    change fields.write? = some text at written
    rw [Fields.write?] at written
    split at written
    · next able =>
      obtain rfl := Option.some.inj written
      obtain ⟨table, parsed, holds⟩ := (Fields.Plain.regular plain able.2).exists_read
      refine ⟨Value.fields table.entries, ?_, (Fields.laid_parts plain).same plain holds⟩
      change (Toml.read fields.document.write).map _ = _
      rw [parsed, Option.map_some]
    · nomatch written
  fields?_table _ _ := rfl
  variant?_names := by
    intro names name value known stands
    have listed : names.contains name = true := List.contains_iff_mem.2 known
    cases stands <;> exact Option.filter_some_pos listed
  text?_string _ := rfl
  boolean?_boolean _ := rfl
  natural?_integer := by
    intro bound n small
    have inside : (0 : Int) ≤ n ∧ (n : Int) < bound :=
      ⟨Int.natCast_nonneg n, Int.ofNat_lt.2 small⟩
    change Data.natural? bound (.integer n) = some n
    rw [Data.natural?, if_pos inside, Int.toNat_natCast]

end LayeredGraph.Toml
