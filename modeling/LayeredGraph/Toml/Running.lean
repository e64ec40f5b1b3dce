import LayeredGraph.Toml.Printer
import LayeredGraph.Toml.Reader

/-! A library for documents that runs. It reads values of every kind, and writes plain tables: the
strings and numbers of a table stand behind its header, and the tables in it are sections of their
own behind that. -/
namespace LayeredGraph.Toml

mutual

/-- What a value says, however it was written. -/
def Value.data : Value → Data
  | .string text => .string text
  | .integer number => .integer number
  | .float text => .float text
  | .boolean value => .boolean value
  | .date text => .date text
  | .array _ items => .array (Value.items items)
  | .table _ entries => .table (Value.fields entries)

def Value.items : List Value → List Data
  | [] => []
  | item :: items => item.data :: Value.items items

def Value.fields : List (String × Value) → Fields
  | [] => []
  | (key, value) :: entries => (key, value.data) :: Value.fields entries

end

namespace Data

/-- The fields of a value that stands for a record: those of a table, or the items of an array in
the order of the record's keys. A date is a record without known fields. -/
def fields? (keys : List String) : Data → Option Fields
  | .table fields => some fields
  | .array items => some (keys.zip items)
  | .date _ => some []
  | _ => none

/-- The name of a variant: a string, or the only key of a table, over an empty table or array. -/
def name? : Data → Option String
  | .string name => some name
  | .table [(name, .table [])] => some name
  | .table [(name, .array [])] => some name
  | _ => none

def variant? (names : List String) (value : Data) : Option String :=
  value.name?.filter names.contains

def text? : Data → Option String
  | .string text => some text
  | _ => none

def boolean? : Data → Option Bool
  | .boolean value => some value
  | _ => none

def natural? (bound : Nat) : Data → Option Nat
  | .integer number => if 0 ≤ number ∧ number < bound then some number.toNat else none
  | _ => none

/-- A value that fits on the line of its key. -/
def atom? : Data → Option Atom
  | .string text => some (.string text)
  | .integer number => some (.integer number)
  | .boolean value => some (.boolean value)
  | _ => none

def table? : Data → Option Fields
  | .table fields => some fields
  | _ => none

instance decidablePlain : (depth : Nat) → (value : Data) → Decidable (value.Plain depth)
  | 0, .string _ | 0, .integer _ | 0, .boolean _ => .isTrue trivial
  | _ + 1, .string _ | _ + 1, .integer _ | _ + 1, .boolean _ => .isTrue trivial
  | depth + 1, .table fields =>
      have (value : Data) : Decidable (value.Plain depth) := decidablePlain depth value
      inferInstanceAs (Decidable ((fields.map (·.1)).Nodup ∧
        ∀ field ∈ fields, BareKey field.1 ∧ field.2.Plain depth))
  | 0, .table _ | 0, .float _ | 0, .date _ | 0, .array _ => .isFalse id
  | _ + 1, .float _ | _ + 1, .date _ | _ + 1, .array _ => .isFalse id

end Data

namespace Fields

instance (fields : Fields) : Decidable fields.Plain :=
  inferInstanceAs (Decidable ((Data.table fields).Plain depthLimit))

def atoms (fields : Fields) : List (String × Atom) :=
  fields.filterMap fun (key, value) => value.atom?.map (key, ·)

def tables (fields : Fields) : List (String × Fields) :=
  fields.filterMap fun (key, value) => value.table?.map (key, ·)

/-- A table at a path as sections, with the tables in it up to a depth. -/
def parts : (depth : Nat) → (path : List String) → Fields → List Section
  | 0, path, fields => [⟨path, fields.atoms⟩]
  | depth + 1, path, fields =>
      ⟨path, fields.atoms⟩ ::
        fields.tables.flatMap fun (key, inner) => inner.parts depth (path ++ [key])

/-- A plain table as a document. -/
def document (fields : Fields) : Document := ⟨fields.atoms, (fields.parts depthLimit []).tail⟩

/-- A plain table as a text, if all integers in it can be written. -/
def write? (fields : Fields) : Option String :=
  if fields.Plain ∧ ∀ sec ∈ fields.document.parts, ∀ entry ∈ sec.entries, entry.2.Fits then
    some fields.document.write
  else none

end Fields

/-- The library that is run. -/
def Library.running : Library where
  read text := (Toml.read text).map fun table => Value.fields table.entries
  write := Fields.write?
  fields? := Data.fields?
  variant? := Data.variant?
  text? := Data.text?
  boolean? := Data.boolean?
  natural? := Data.natural?

/-- The documents that a library reads. -/
def Library.language (library : Library) : Language := fun text fields =>
  library.read text = some fields

end LayeredGraph.Toml
