import LayeredGraph.Config
import LayeredGraph.LogFilter
import LayeredGraph.Logging

/-! Which of the calls that install a filter comes to anything, whatever is taken for a filter; and
what the check of directives adds to that. -/
namespace LayeredGraph.Logging

variable (accepts : String → Bool) (logging : Logging)

/-- What is installed stays, and else a valid filter is. -/
theorem filter_install (filter : String) :
    (logging.install accepts filter).2.filter =
      logging.filter.or (if accepts filter then some filter else none) := by
  rw [install]
  cases accepts filter with
  | true => cases installed : logging.filter <;> simp [installed]
  | false => simp

/-- After any calls the first valid filter is installed, unless one was before. -/
theorem filter_ofCalls (filters : List String) :
    (logging.ofCalls accepts filters).filter = logging.filter.or (filters.find? accepts) := by
  induction filters generalizing logging with
  | nil => rw [ofCalls, List.foldl_nil, List.find?_nil, Option.or_none]
  | cons filter filters ih =>
    rw [ofCalls, List.foldl_cons, ← ofCalls, ih, filter_install, List.find?_cons, Option.or_assoc]
    cases accepts filter <;> rfl

theorem answer_install (filter : String) :
    (logging.install accepts filter).1 =
      if accepts filter = false then .error (.invalid "invalid log filter")
      else if logging.filter = none then .ok ()
      else .error (.invalid "logging already initialized") := by
  obtain ⟨installed⟩ := logging
  rw [install]
  cases accepts filter with
  | false => rfl
  | true => cases installed <;> rfl

/-- Of all calls only that with the first valid filter succeeds, if nothing was installed before
them. A later one is refused for that reason only if its filter is valid. -/
theorem answer_after_calls (filters : List String) (filter : String) :
    ((logging.ofCalls accepts filters).install accepts filter).1 =
      if accepts filter = false then .error (.invalid "invalid log filter")
      else if logging.filter = none ∧ ∀ earlier ∈ filters, accepts earlier = false then .ok ()
      else .error (.invalid "logging already initialized") := by
  have fresh : (logging.ofCalls accepts filters).filter = none ↔
      logging.filter = none ∧ ∀ earlier ∈ filters, accepts earlier = false := by
    rw [filter_ofCalls, Option.or_eq_none_iff, List.find?_eq_none]
    simp
  rw [answer_install]
  simp only [fresh]

/-- A refused call installs nothing. -/
theorem install_of_error {filter : String} {error : Error}
    (refused : (logging.install accepts filter).1 = .error error) :
    (logging.install accepts filter).2 = logging := by
  obtain ⟨installed⟩ := logging
  rw [install] at refused ⊢
  cases valid : accepts filter with
  | false => rfl
  | true =>
    rw [valid] at refused
    cases installed with
    | none => nomatch refused
    | some installed => rfl

/-- Two filters with a comma between them can be installed together exactly if each of them can be
installed by itself. -/
theorem installs_append_iff (first second : String) :
    (logging.install LogFilter.isValid (first ++ "," ++ second)).1 = .ok () ↔
      (logging.install LogFilter.isValid first).1 = .ok () ∧
        (logging.install LogFilter.isValid second).1 = .ok () := by
  have installs (filter : String) : (logging.install LogFilter.isValid filter).1 = .ok () ↔
      LogFilter.isValid filter = true ∧ logging.filter = none := by
    rw [answer_install]
    cases LogFilter.isValid filter <;> by_cases fresh : logging.filter = none <;> simp [fresh]
  rw [installs, installs, installs, LogFilter.isValid_append, Bool.and_eq_true, and_and_right]

/-- The filter of the default configuration is one. -/
theorem isValid_default : LogFilter.isValid (default : Config).filter = true := by decide

end LayeredGraph.Logging
