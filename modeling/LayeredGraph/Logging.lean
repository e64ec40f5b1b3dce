import LayeredGraph.Error

/-! Logging of the whole program. A filter is installed at most once; which texts are filters stays
open. -/
namespace LayeredGraph

/-- The filter behind which the program logs, once there is one. -/
structure Logging where
  filter : Option String
  deriving DecidableEq, Repr

namespace Logging

/-- Installs a filter. It is checked before anything else. -/
def install (accepts : String → Bool) (logging : Logging) (filter : String) :
    Except Error Unit × Logging :=
  if accepts filter then
    match logging.filter with
    | none => (.ok (), ⟨some filter⟩)
    | some _ => (.error (.invalid "logging already initialized"), logging)
  else (.error (.invalid "invalid log filter"), logging)

/-- What is installed after some calls. -/
def ofCalls (accepts : String → Bool) (logging : Logging) (filters : List String) : Logging :=
  filters.foldl (fun logging filter => (logging.install accepts filter).2) logging

end Logging

end LayeredGraph
