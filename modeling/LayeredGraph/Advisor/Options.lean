import LayeredGraph.EdgeTable
import LayeredGraph.Queue.Config

/-! What an advisor does with a request, and how it runs. -/
namespace LayeredGraph

/-- What a request brings in: the node's own edges, those of its neighbours too, or the next
window of the oldest level. -/
inductive Policy where
  | nodeOnly
  | complete
  | sequential
  deriving DecidableEq, Repr

namespace Policy

def all : List Policy := [nodeOnly, complete, sequential]

def name : Policy → String
  | nodeOnly => "node_only"
  | complete => "complete"
  | sequential => "sequential"

def names : List String := all.map name

def ofName? (name : String) : Option Policy := all.find? fun policy => policy.name == name

end Policy

/-- What a background worker does while its queue is empty. -/
inductive Idle where
  | spin
  | yield
  | park
  deriving DecidableEq, Repr

namespace Idle

def all : List Idle := [spin, yield, park]

def name : Idle → String
  | spin => "spin"
  | yield => "yield"
  | park => "park"

def names : List String := all.map name

def ofName? (name : String) : Option Idle := all.find? fun idle => idle.name == name

end Idle

structure Options where
  policy : Policy := .nodeOnly
  background : Bool := true
  stalenessThreshold : UInt32 := 5
  minNeighborDegree : UInt32 := 0
  maxHintBytes : UInt64 := 1048576
  windowBytes : UInt64 := 2097152
  allLevels : Bool := false
  idle : Idle := .park
  parkTimeoutMicros : UInt64 := 500
  queue : QueueConfig := {}
  deriving DecidableEq, Repr

instance : Inhabited Options := ⟨{}⟩

/-- Why an advisor cannot run under some options. -/
inductive OptionsFault where
  | maxHintBytes
  | windowBytes
  | parkTimeout
  | queue (fault : QueueFault)
  deriving DecidableEq, Repr

def OptionsFault.message : OptionsFault → String
  | maxHintBytes => "max_hint_bytes must cover at least one edge"
  | windowBytes => "window_bytes must cover at least one edge"
  | parkTimeout => "park_timeout_us must be non-zero"
  | queue fault => fault.message

namespace Options

/-- The first fault. The timeout matters only to a worker that parks, and the queue only to a
background advisor. -/
def fault? (options : Options) : Option OptionsFault :=
  if options.maxHintBytes.toNat < EdgeTable.slotBytes then some .maxHintBytes
  else if options.windowBytes.toNat < EdgeTable.slotBytes then some .windowBytes
  else if options.idle = .park ∧ options.parkTimeoutMicros = 0 then some .parkTimeout
  else if options.background then options.queue.fault?.map .queue
  else none

def validate (options : Options) : Except Error Unit :=
  match options.fault? with
  | some fault => .error (.invalid fault.message)
  | none => .ok ()

/-- A number of bytes in whole edges, at least one. -/
def wholeEdges (bytes : UInt64) : Nat := max (bytes.toNat / EdgeTable.slotBytes) 1

/-- The most edges that one hint for a neighbour covers. -/
def maxHintEdges (options : Options) : Nat := wholeEdges options.maxHintBytes

/-- The edges of one window. -/
def windowEdges (options : Options) : Nat := wholeEdges options.windowBytes

end Options

example : (default : Options).fault? = none := by decide

end LayeredGraph
