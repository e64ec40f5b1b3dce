import LayeredGraph.Toml.Library
import Mathlib.Data.List.Nodup

/-! Values by their paths, and what plain tables are made of. -/
namespace LayeredGraph.Toml

theorem Fields.get?_eq_some_iff {fields : Fields} (distinct : (fields.map (·.1)).Nodup)
    {key : String} {value : Data} : fields.get? key = some value ↔ (key, value) ∈ fields := by
  rw [get?, List.lookup_eq_some_iff]
  constructor
  · rintro ⟨before, after, rfl, -⟩
    exact List.mem_append_right _ List.mem_cons_self
  · intro member
    obtain ⟨before, after, rfl⟩ := List.append_of_mem member
    refine ⟨before, after, rfl, fun other held => ?_⟩
    rw [List.map_append, List.map_cons, List.nodup_append] at distinct
    have apart := distinct.2.2 _ (List.mem_map_of_mem held) key List.mem_cons_self
    exact bne_iff_ne.2 apart.symm

namespace Data

variable {depth : Nat} {fields : Fields}

@[simp] theorem plain_string (depth : Nat) (text : String) : (string text).Plain depth := by
  cases depth <;> trivial

@[simp] theorem plain_integer (depth : Nat) (number : Int) : (integer number).Plain depth := by
  cases depth <;> trivial

@[simp] theorem plain_boolean (depth : Nat) (value : Bool) : (boolean value).Plain depth := by
  cases depth <;> trivial

@[simp] theorem inRange_string (text : String) : (string text).InRange := by
  rintro (_ | ⟨key, path⟩) number found <;> nomatch found

@[simp] theorem inRange_boolean (value : Bool) : (boolean value).InRange := by
  rintro (_ | ⟨key, path⟩) number found <;> nomatch found

@[simp] theorem inRange_integer {number : Int} :
    (integer number).InRange ↔ integerInRange number = true := by
  refine ⟨fun h => h [] number rfl, fun fits path other found => ?_⟩
  cases path with
  | nil =>
    obtain rfl := integer.inj (Option.some.inj found)
    exact fits
  | cons key path => nomatch found

/-- The integers of a table are those of its fields. -/
theorem inRange_table (distinct : (fields.map (·.1)).Nodup) :
    (table fields).InRange ↔ ∀ field ∈ fields, field.2.InRange := by
  constructor
  · rintro h ⟨key, value⟩ member path number found
    refine h (key :: path) number ?_
    have held : fields.lookup key = some value := (Fields.get?_eq_some_iff distinct).2 member
    rw [at?, held, Option.bind_some, found]
  · intro h path number found
    cases path with
    | nil => cases found
    | cons key path =>
      rw [at?, Option.bind_eq_some_iff] at found
      obtain ⟨value, held, found⟩ := found
      exact h _ ((Fields.get?_eq_some_iff distinct).1 held) path number found

end Data

/-- An integer without a sign can be written up to half the words of 64 bits. -/
theorem integerInRange_natCast {n : Nat} :
    integerInRange n = true ↔ n ≤ 9223372036854775807 := by
  rw [integerInRange, Bool.and_eq_true, decide_eq_true_iff, decide_eq_true_iff]
  omega

end LayeredGraph.Toml
