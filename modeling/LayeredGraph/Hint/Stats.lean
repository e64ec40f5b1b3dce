/-! Counters of what happened to requests and hints. All of them wrap after 64 bits. -/
namespace LayeredGraph

/-- Something worth counting: what became of a request, or of a hint. -/
inductive Event where
  | enqueued
  | dropped
  | stale
  | hint (bytes : UInt64)
  | failed
  deriving DecidableEq, Repr

structure Stats where
  enqueued : UInt64 := 0
  dropped : UInt64 := 0
  stale : UInt64 := 0
  hints : UInt64 := 0
  hintedBytes : UInt64 := 0
  failures : UInt64 := 0
  deriving DecidableEq, Repr

namespace Stats

def zero : Stats := {}

instance : Inhabited Stats := ⟨zero⟩

def record (stats : Stats) : Event → Stats
  | .enqueued => { stats with enqueued := stats.enqueued + 1 }
  | .dropped => { stats with dropped := stats.dropped + 1 }
  | .stale => { stats with stale := stats.stale + 1 }
  | .hint bytes =>
      { stats with hints := stats.hints + 1, hintedBytes := stats.hintedBytes + bytes }
  | .failed => { stats with failures := stats.failures + 1 }

/-- The counters after each of some events. -/
def history (stats : Stats) : List Event → List Stats
  | [] => []
  | event :: events =>
      let next := stats.record event
      next :: history next events

def recordAll (stats : Stats) (events : List Event) : Stats := events.foldl record stats

end Stats

/-- Counters, or nobody counting. -/
inductive Metrics where
  | silent
  | counting (stats : Stats)
  deriving DecidableEq, Repr

namespace Metrics

def record (event : Event) : Metrics → Metrics
  | silent => silent
  | counting stats => counting (stats.record event)

/-- The counters so far, all zero when nobody counts. -/
def stats : Metrics → Stats
  | silent => .zero
  | counting stats => stats

end Metrics

end LayeredGraph
