import LayeredGraph.Level.Data
import LayeredGraph.EdgeTable

/-! A sealed level: its entries speak of edges by their numbers across all levels, which start
at the level's base, and its targets lie in an edge table. -/
namespace LayeredGraph

/-- A half-open range of edge numbers. -/
structure EdgeRange where
  start : Nat
  stop : Nat
  deriving DecidableEq, Repr

namespace EdgeRange

def isEmpty (range : EdgeRange) : Bool := range.stop ≤ range.start

def length (range : EdgeRange) : Nat := range.stop - range.start

/-- The edge numbers of a range in order. -/
def numbers (range : EdgeRange) : List Nat := List.range' range.start range.length

@[simp] theorem mem_numbers {range : EdgeRange} {n : Nat} :
    n ∈ range.numbers ↔ range.start ≤ n ∧ n < range.stop := by
  simp [numbers, length, List.mem_range'_1]
  omega

end EdgeRange

/-- An immutable level. Its edges are numbered from `edgeBase` on. -/
structure Level where
  index : Nat
  edgeBase : Nat
  entries : Array VertexEntry
  table : EdgeTable
  deriving DecidableEq, Repr

namespace Level

/-- The entry of a sealed level for an entry of its contents: a range moves up by the base, and
an empty entry forgets its start. -/
def rebase (edgeBase : Nat) (entry : VertexEntry) : VertexEntry :=
  if entry.isEmpty then .empty else ⟨.sealed (edgeBase + entry.start.raw), entry.degree⟩

/-- Seals contents as the level with an index and a base. -/
def ofData (index edgeBase : Nat) (data : LevelData) : Level :=
  ⟨index, edgeBase, (data.vertices.map (rebase edgeBase)).toArray, .ofTargets data.targets⟩

def nodeCount (level : Level) : Nat := level.entries.size

def edgeCount (level : Level) : Nat := level.table.slots

/-- The number after the level's last edge. -/
def edgeEnd (level : Level) : Nat := level.edgeBase + level.edgeCount

/-- The entry of a node, empty for a node past the vertex table. -/
def entry (level : Level) (node : NodeId) : VertexEntry :=
  level.entries[node.toNat]?.getD .empty

def degree (level : Level) (node : NodeId) : UInt32 := (level.entry node).degree

/-- The number of a node's edges in some levels together. -/
def totalDegree (node : NodeId) : List Level → Nat
  | [] => 0
  | level :: levels => (level.degree node).toNat + totalDegree node levels

/-- The edges of a node; the empty range at the base if there are none. -/
def edgeRange (level : Level) (node : NodeId) : EdgeRange :=
  let entry := level.entry node
  if entry.isEmpty then ⟨level.edgeBase, level.edgeBase⟩
  else ⟨entry.start.raw, entry.start.raw + entry.degree.toNat⟩

def containsEdge (level : Level) (edge : EdgeRef) : Bool :=
  edge != .nil && level.edgeBase ≤ edge.raw && edge.raw - level.edgeBase < level.edgeCount

def target? (level : Level) (edge : EdgeRef) : Option NodeId :=
  if level.containsEdge edge then level.table.target? (edge.raw - level.edgeBase) else none

/-- Offset and length in bytes of a node's edges in the level's table. -/
def byteRange (level : Level) (node : NodeId) : Nat × Nat :=
  let range := level.edgeRange node
  ((range.start - level.edgeBase) * EdgeTable.slotBytes, range.length * EdgeTable.slotBytes)

/-- The byte span of the table that is asked into memory for a range of edges. -/
def advisedSpan? (level : Level) (range : EdgeRange) : Option (Nat × Nat) :=
  level.table.advisedSpan? (range.start - level.edgeBase) (range.stop - level.edgeBase)

/-- A node's edges have to be edges of the level. -/
def checkEntry (level : Level) (node : NodeId) : Except Error Unit :=
  let range := level.edgeRange node
  if level.edgeEnd < range.stop ∨ range.start < level.edgeBase then
    .error (.corruption "vertex entry points outside its level")
  else .ok ()

@[simp] theorem nodeCount_ofData (index edgeBase : Nat) (data : LevelData) :
    (ofData index edgeBase data).nodeCount = data.nodeCount := by
  simp [ofData, nodeCount, LevelData.nodeCount]

@[simp] theorem edgeCount_ofData (index edgeBase : Nat) (data : LevelData) :
    (ofData index edgeBase data).edgeCount = data.edgeCount := rfl

@[simp] theorem edgeBase_ofData (index edgeBase : Nat) (data : LevelData) :
    (ofData index edgeBase data).edgeBase = edgeBase := rfl

theorem entry_ofData (index edgeBase : Nat) (data : LevelData) (node : NodeId) :
    (ofData index edgeBase data).entry node =
      rebase edgeBase (data.vertices.getD node.toNat .empty) := by
  simp only [ofData, entry, List.getElem?_toArray, List.getElem?_map, List.getD]
  cases data.vertices[node.toNat]? <;> simp [rebase]

end Level

/-- What sealing answers: the new level's index and the number of nodes from then on. -/
structure LevelHandle where
  index : Nat
  maxNodes : Nat
  deriving DecidableEq, Repr

end LayeredGraph
