import LayeredGraph.Toml.Value

/-! Building tables line by line. A key may be set once; a header opens a table once, also when
a longer header brought it about before; a dotted key may add only to tables that dotted keys
brought about. -/
namespace LayeredGraph.Toml

/-- A table under construction. -/
structure Table where
  form : TableForm
  entries : Entries
  deriving Repr

instance : Inhabited Table := ⟨⟨.implied, []⟩⟩

namespace Table

def empty (form : TableForm) : Table := ⟨form, []⟩

def toValue (table : Table) : Value := .table table.form table.entries

def get? (table : Table) (key : String) : Option Value := table.entries.get? key

def put (table : Table) (key : String) (value : Value) : Table :=
  { table with entries := table.entries.put key value }

/-- Whether a table that was reached on the way of a key or header may be added to. -/
def opens (byDottedKey : Bool) : TableForm → Bool
  | .inline => false
  | .header => !byDottedKey
  | .implied | .dotted => true

/-- Changes the table at the end of a path, bringing about the tables on the way that are not
there. An array of tables is entered at its last table. -/
def update (byDottedKey : Bool) (change : Table → Option Table) :
    List String → Table → Option Table
  | [], table => change table
  | key :: path, table =>
      let form := if byDottedKey then TableForm.dotted else .implied
      match table.get? key with
      | none => do
          let child ← update byDottedKey change path (.empty form)
          return table.put key child.toValue
      | some (.table form entries) =>
          if opens byDottedKey form then do
            let child ← update byDottedKey change path ⟨form, entries⟩
            return table.put key child.toValue
          else none
      | some (.array .headers items) =>
          match items.getLast? with
          | some (.table form entries) => do
              let child ← update byDottedKey change path ⟨form, entries⟩
              return table.put key (.array .headers (items.dropLast ++ [child.toValue]))
          | _ => none
      | some _ => none

/-- Sets a key that is not there yet. -/
def insertNew (key : String) (value : Value) (table : Table) : Option Table :=
  match table.get? key with
  | none => some (table.put key value)
  | some _ => none

/-- Sets a key behind a path of dotted keys. The table that the path leads to must have come
about by dotted keys. -/
def insert (path : List String) (key : String) (value : Value) (table : Table) : Option Table :=
  match path with
  | [] => insertNew key value table
  | path =>
      update true (fun last =>
        match last.form with
        | .dotted => insertNew key value last
        | _ => none) path table

/-- Opens the table of a header: a new one, or one that a longer header brought about. -/
def openTable (key : String) (table : Table) : Option Table :=
  match table.get? key with
  | none => some (table.put key (.table .header []))
  | some (.table .implied entries) => some (table.put key (.table .header entries))
  | some _ => none

/-- Opens a further table of the array of a header in double brackets. -/
def openItem (key : String) (table : Table) : Option Table :=
  match table.get? key with
  | none => some (table.put key (.array .headers [.table .header []]))
  | some (.array .headers items) =>
      some (table.put key (.array .headers (items ++ [.table .header []])))
  | some _ => none

end Table

end LayeredGraph.Toml
