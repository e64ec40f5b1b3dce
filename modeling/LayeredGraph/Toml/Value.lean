/-! Values of a TOML document. Tables and arrays remember how they were written, because that
decides whether later lines may add to them. -/
namespace LayeredGraph.Toml

/-- How a table came about: written in braces, opened by its own header, or brought about by a
longer header or by a dotted key. -/
inductive TableForm where
  | inline
  | header
  | implied
  | dotted
  deriving DecidableEq, Repr

/-- How an array came about: written in brackets, or as a run of headers in double brackets. -/
inductive ArrayForm where
  | inline
  | headers
  deriving DecidableEq, Repr

/-- A value; floats and dates keep the text they were written in. Entries of a table are in the
order in which their keys came up. -/
inductive Value where
  | string (text : String)
  | integer (number : Int)
  | float (text : String)
  | boolean (value : Bool)
  | date (text : String)
  | array (form : ArrayForm) (items : List Value)
  | table (form : TableForm) (entries : List (String × Value))
  deriving Repr

instance : Inhabited Value := ⟨.table .implied []⟩

/-- The entries of a table. -/
abbrev Entries := List (String × Value)

namespace Entries

def get? (entries : Entries) (key : String) : Option Value := entries.lookup key

/-- Replaces the value of a key, or adds the key at the end. -/
def put (entries : Entries) (key : String) (value : Value) : Entries :=
  match entries with
  | [] => [(key, value)]
  | (name, old) :: rest =>
      if name = key then (name, value) :: rest else (name, old) :: put rest key value

@[simp] theorem get?_put_self (entries : Entries) (key : String) (value : Value) :
    (entries.put key value).get? key = some value := by
  induction entries with
  | nil => simp [put, get?]
  | cons entry rest ih =>
    obtain ⟨name, old⟩ := entry
    by_cases h : name = key
    · simp [put, get?, h]
    · have hne : (key == name) = false := by simpa using Ne.symm h
      simpa [put, get?, List.lookup_cons, h, hne] using ih

theorem get?_put_of_ne (entries : Entries) {key other : String} (value : Value)
    (h : other ≠ key) : (entries.put key value).get? other = entries.get? other := by
  have hother : (other == key) = false := by simpa using h
  induction entries with
  | nil => simp [put, get?, List.lookup_cons, hother]
  | cons entry rest ih =>
    obtain ⟨name, old⟩ := entry
    by_cases hk : name = key
    · simp [put, get?, List.lookup_cons, hk, hother]
    · simp only [get?] at ih
      simp [put, get?, List.lookup_cons, hk, ih]

end Entries

end LayeredGraph.Toml
