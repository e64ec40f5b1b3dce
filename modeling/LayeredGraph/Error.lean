import LayeredGraph.Ident

/-! What can go wrong in the store, the queues, the advisor and the configuration, with the
one wording of each, and the one fault that no error stands for. -/
namespace LayeredGraph

inductive Error where
  | corruption (detail : String)
  | invalid (detail : String)
  | nodeOutOfRange (node : NodeId) (maxNodes : Nat)
  | levelOutOfRange (level levels : Nat)
  | advisorStopped
  | queueFull
  | config (detail : String)
  deriving DecidableEq, Repr

def Error.message : Error → String
  | corruption detail => "corruption: " ++ detail
  | invalid detail => "invalid argument: " ++ detail
  | nodeOutOfRange node maxNodes =>
      "node " ++ node.text ++ " out of range (max_nodes = " ++ toString maxNodes ++ ")"
  | levelOutOfRange level levels =>
      "level " ++ toString level ++ " out of range (" ++ toString levels ++ " levels sealed)"
  | advisorStopped => "advisor already stopped"
  | queueFull => "advise queue full"
  | config detail => "config: " ++ detail

/-- What can leave the 64-bit words although nothing checks it. -/
inductive Overflow where
  | sum
  deriving DecidableEq, Repr

end LayeredGraph
