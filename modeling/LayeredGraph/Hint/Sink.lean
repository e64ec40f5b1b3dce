import LayeredGraph.Level
import LayeredGraph.Hint.Stats

/-! Where hints go. A hint asks for a range of a level's edges to be brought into memory; a sink
takes it and says whether that worked. -/
namespace LayeredGraph

/-- Edges of a level that will be read soon. -/
structure Hint where
  level : Level
  range : EdgeRange
  deriving DecidableEq, Repr

/-- A hint as index of the level and byte span in its table. -/
structure HintRecord where
  level : Nat
  offset : Nat
  length : Nat
  deriving DecidableEq, Repr

namespace Hint

/-- The bytes that a hint covers. -/
def bytes (hint : Hint) : Nat := hint.range.length * EdgeTable.slotBytes

def record (hint : Hint) : HintRecord :=
  ⟨hint.level.index, (hint.range.start - hint.level.edgeBase) * EdgeTable.slotBytes, hint.bytes⟩

end Hint

/-- Whether each hint works, by its number from zero on, and whether hints are written down. -/
structure Sink where
  succeeds : Nat → Hint → Bool
  records : Bool

namespace Sink

/-- The operating system: every hint works and none is written down. -/
def system : Sink := ⟨fun _ _ => true, false⟩

def recording : Sink := ⟨fun _ _ => true, true⟩

/-- Writes every hint down and then refuses it. -/
def failing : Sink := ⟨fun _ _ => false, true⟩

end Sink

/-- A sink in use: the number of hints it got, those written down, and the counters. -/
structure Outlet where
  sink : Sink
  made : Nat
  recorded : Array HintRecord
  metrics : Metrics

namespace Outlet

def ofSink (sink : Sink) (metrics : Metrics) : Outlet := ⟨sink, 0, #[], metrics⟩

def count (outlet : Outlet) (event : Event) : Outlet :=
  { outlet with metrics := outlet.metrics.record event }

/-- Makes a hint; answers whether it worked. -/
def issue (outlet : Outlet) (hint : Hint) : Bool × Outlet :=
  let worked := outlet.sink.succeeds outlet.made hint
  let event := if worked then Event.hint (UInt64.ofNat hint.bytes) else .failed
  (worked, {
    outlet with
    made := outlet.made + 1
    recorded := if outlet.sink.records then outlet.recorded.push hint.record else outlet.recorded
    metrics := outlet.metrics.record event })

theorem recorded_issue {outlet : Outlet} (records : outlet.sink.records = true) (hint : Hint) :
    (outlet.issue hint).2.recorded = outlet.recorded.push hint.record := if_pos records

end Outlet

end LayeredGraph
