/-! What documents say: values as such, apart from how they were written. -/
namespace LayeredGraph.Toml

/-- A value. Floats and dates keep a text; the fields of a table stand in some order. -/
inductive Data where
  | string (text : String)
  | integer (number : Int)
  | float (text : String)
  | boolean (value : Bool)
  | date (text : String)
  | array (items : List Data)
  | table (fields : List (String × Data))
  deriving Repr

instance : Inhabited Data := ⟨.table []⟩

/-- The value at the end of a path that leads through tables. -/
def Data.at? : Data → List String → Option Data
  | value, [] => some value
  | .table fields, key :: path => (fields.lookup key).bind (·.at? path)
  | _, _ :: _ => none

/-- The values of a table under their keys. -/
abbrev Fields := List (String × Data)

namespace Fields

variable {fields : Fields} {key : String} {path : List String}

def get? (fields : Fields) (key : String) : Option Data := fields.lookup key

def at? (fields : Fields) (path : List String) : Option Data := (Data.table fields).at? path

/-- The fields of the table under a key; there are none if nothing or no table is there. -/
def child (fields : Fields) (key : String) : Fields :=
  match fields.get? key with
  | some (.table inner) => inner
  | _ => []

@[simp] theorem at?_singleton (fields : Fields) (key : String) :
    fields.at? [key] = fields.get? key := by
  rw [at?, Data.at?, get?]
  cases List.lookup key fields <;> rfl

theorem child_of_none (absent : fields.get? key = none) : fields.child key = [] := by
  rw [child, absent]

theorem child_of_table {inner : Fields} (found : fields.get? key = some (.table inner)) :
    fields.child key = inner := by
  rw [child, found]

theorem at?_cons (fields : Fields) (key : String) (some : path ≠ []) :
    fields.at? (key :: path) = (fields.child key).at? path := by
  obtain ⟨next, path, rfl⟩ := List.exists_cons_of_ne_nil some
  rw [at?, Data.at?, child]
  change (fields.get? key).bind _ = _
  cases fields.get? key with
  | none => rfl
  | some value => cases value <;> rfl

end Fields

/-- A path that goes on leads on from where it leads first. -/
theorem Data.at?_append (value : Data) (first rest : List String) :
    value.at? (first ++ rest) = (value.at? first).bind (·.at? rest) := by
  induction first generalizing value with
  | nil => rfl
  | cons key first ih =>
    cases value with
    | table fields =>
      rw [List.cons_append, Data.at?, Data.at?, Option.bind_assoc]
      exact congrArg _ (funext fun inner => ih inner)
    | _ => rfl

/-- Two tables that say the same: at every path both have nothing, or the same value, or a table
each. They may differ in the order of their fields. -/
def Fields.Same (first second : Fields) : Prop :=
  ∀ path, first.at? path = second.at? path ∨
    ∃ inner other, first.at? path = some (.table inner) ∧ second.at? path = some (.table other)

end LayeredGraph.Toml
