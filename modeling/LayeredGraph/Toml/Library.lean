import LayeredGraph.Toml.Data

/-! The library that reads and writes documents, as far as a configuration knows it. Which library
that is stays open, and so does which texts are documents: what is proved of a configuration takes
no more than the laws. -/
namespace LayeredGraph.Toml

/-- A library for documents. Besides reading and writing it takes a value for one of a certain type,
if it stands for one. -/
structure Library where
  /-- What a text says, if it is a document. -/
  read : String → Option Fields
  /-- A document that says what a table says, if there is one. -/
  write : Fields → Option String
  /-- The fields of a value that stands for a record with some keys. -/
  fields? : List String → Data → Option Fields
  /-- The name of the variant, one of some, that a value stands for. -/
  variant? : List String → Data → Option String
  text? : Data → Option String
  boolean? : Data → Option Bool
  /-- A number below a bound. -/
  natural? : Nat → Data → Option Nat

/-- Which texts are documents, and what each of them says. -/
abbrev Language := String → Fields → Prop

/-- Arrays and tables may lie in each other up to this depth, and a dotted key may have this many
parts. -/
def depthLimit : Nat := 79

/-- Letters, digits and the signs that need no quotes in a key. -/
def isKeyChar (c : Char) : Bool := c.isAlphanum || c == '-' || c == '_'

/-- A key that needs no quotes. -/
def BareKey (key : String) : Prop := key ≠ "" ∧ ∀ c ∈ key.toList, isKeyChar c = true

instance (key : String) : Decidable (BareKey key) :=
  decidable_of_iff (key ≠ "" ∧ key.toList.all isKeyChar = true)
    (and_congr_right fun _ => List.all_eq_true)

/-- Integers are words of 64 bits with a sign. -/
def integerInRange (n : Int) : Bool := -0x8000000000000000 ≤ n && n < 0x8000000000000000

/-- A value as records are written with: a string, an integer, a boolean, or a table of such values
up to a depth, each under a key of its own that needs no quotes. -/
def Data.Plain : (depth : Nat) → Data → Prop
  | _, .string _ | _, .integer _ | _, .boolean _ => True
  | depth + 1, .table fields =>
      (fields.map (·.1)).Nodup ∧ ∀ field ∈ fields, BareKey field.1 ∧ field.2.Plain depth
  | _, _ => False

/-- Every integer in a value can be written. -/
def Data.InRange (value : Data) : Prop :=
  ∀ path number, value.at? path = some (.integer number) → integerInRange number = true

namespace Fields

/-- A table of plain values. -/
def Plain (fields : Fields) : Prop := (Data.table fields).Plain depthLimit

def InRange (fields : Fields) : Prop := (Data.table fields).InRange

end Fields

/-- A value that names a variant: its name, or a table whose only key is the name, over nothing. -/
inductive Names (name : String) : Data → Prop where
  | text : Names name (.string name)
  | table : Names name (.table [(name, .table [])])
  | array : Names name (.table [(name, .array [])])

/-- What is relied on of a library: it reads every document of a language as what the document says,
writes plain tables as documents of this language unless an integer is out of range, and takes the
plain values of each type for what they are. -/
structure Library.Lawful (library : Library) (Says : Language) : Prop where
  read_eq {text : String} {fields : Fields} : Says text fields → library.read text = some fields
  write_iff {fields : Fields} : fields.Plain →
    ((∃ text, library.write fields = some text) ↔ fields.InRange)
  document_write {fields : Fields} {text : String} : fields.Plain →
    library.write fields = some text → ∃ said, Says text said ∧ said.Same fields
  fields?_table (keys : List String) (fields : Fields) :
    library.fields? keys (.table fields) = some fields
  variant?_names {names : List String} {name : String} {value : Data} :
    name ∈ names → Names name value → library.variant? names value = some name
  text?_string (text : String) : library.text? (.string text) = some text
  boolean?_boolean (flag : Bool) : library.boolean? (.boolean flag) = some flag
  natural?_integer {bound n : Nat} : n < bound → library.natural? bound (.integer n) = some n

end LayeredGraph.Toml
