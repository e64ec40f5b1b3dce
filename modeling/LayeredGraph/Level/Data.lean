import LayeredGraph.Error

/-! The contents of a level before it is sealed: one entry for each node, saying where its
targets start in the target list and how many there are. Levels are packed from adjacency lists
or from edge pairs, and checked before they are sealed. -/
namespace LayeredGraph

/-- Where the targets of a node start, and how many there are. -/
structure VertexEntry where
  start : EdgeRef
  degree : UInt32
  deriving DecidableEq, Repr

namespace VertexEntry

def empty : VertexEntry := ⟨.nil, 0⟩

instance : Inhabited VertexEntry := ⟨empty⟩

def isEmpty (entry : VertexEntry) : Bool := entry.degree == 0

@[simp] theorem isEmpty_empty : empty.isEmpty = true := rfl

theorem isEmpty_iff (entry : VertexEntry) : entry.isEmpty = true ↔ entry.degree = 0 := by
  simp [isEmpty]

end VertexEntry

/-- Why the contents of a level cannot be sealed. -/
inductive LevelFault where
  | noRange
  | disorder
  | overflow
  | pastTable
  | targetPastBound
  deriving DecidableEq, Repr

def LevelFault.message : LevelFault → String
  | noRange => "non-empty vertex entry without a range"
  | disorder => "adjacency ranges overlap or are out of order"
  | overflow => "adjacency range overflows"
  | pastTable => "adjacency range past edge table"
  | targetPastBound => "edge target past max_nodes"

/-- The degree of an adjacency list, which has to fit in 32 bits. -/
def degreeOf (length : Nat) : Except Error UInt32 :=
  if length < UInt32.size then .ok (UInt32.ofNat length)
  else .error (.invalid "adjacency list longer than u32::MAX edges")

/-- The contents of a level: an entry for each node, and the targets of all nodes. -/
structure LevelData where
  vertices : List VertexEntry
  targets : List NodeId
  deriving DecidableEq, Repr

namespace LevelData

instance : Inhabited LevelData := ⟨⟨[], []⟩⟩

/-- A level that covers some nodes and has no edges. -/
def empty (nodes : Nat) : LevelData := ⟨List.replicate nodes .empty, []⟩

def nodeCount (data : LevelData) : Nat := data.vertices.length

def edgeCount (data : LevelData) : Nat := data.targets.length

/-- The targets that an entry describes. -/
def slice (data : LevelData) (entry : VertexEntry) : List NodeId :=
  if entry.isEmpty then [] else (data.targets.drop entry.start.raw).take entry.degree.toNat

/-- The targets recorded for a node: none where the level does not cover it. -/
def recorded (data : LevelData) (node : NodeId) : List NodeId :=
  data.slice (data.vertices.getD node.toNat .empty)

/-- One entry for each adjacency list, the lists lying one after another from `start`. -/
def entriesFrom (start : Nat) : List (List NodeId) → Except Error (List VertexEntry)
  | [] => .ok []
  | [] :: lists => do
      let entries ← entriesFrom start lists
      return .empty :: entries
  | list :: lists => do
      let degree ← degreeOf list.length
      let entries ← entriesFrom (start + list.length) lists
      return ⟨.sealed start, degree⟩ :: entries

/-- Packs adjacency lists, the list of node 0 first. -/
def ofAdjacency (lists : List (List NodeId)) : Except Error LevelData := do
  let vertices ← entriesFrom 0 lists
  return ⟨vertices, lists.flatten⟩

/-- An edge as the node whose list it belongs to, and the node in that list. -/
def ownerAndTarget (direction : Direction) (edge : NodeId × NodeId) : NodeId × NodeId :=
  match direction with
  | .out => edge
  | .inc => edge.swap

/-- The lists with as many more empty ones as it takes for an owner to have one. How many there
have to be is formed by a plain sum in 64-bit arithmetic, and only for an owner that has none. -/
def reach (lists : Array (Array NodeId)) (owner : NodeId) :
    Except Overflow (Array (Array NodeId)) :=
  if owner.toNat < lists.size then .ok lists
  else if owner.toNat + 1 < UInt64.size then
    .ok (lists ++ Array.replicate (owner.toNat + 1 - lists.size) #[])
  else .error .sum

/-- Appends a target to its owner's list; lists are added up to an owner past the last one. -/
def addTo (lists : Array (Array NodeId)) (owner target : NodeId) :
    Except Overflow (Array (Array NodeId)) := do
  let lists ← reach lists owner
  return lists.modify owner.toNat (·.push target)

/-- Packs edge pairs by their owner in one direction. Owners past the declared nodes enlarge the
level, and every list keeps the order of the pairs. -/
def ofEdges (nodes : Nat) (edges : List (NodeId × NodeId)) (direction : Direction) :
    Except Overflow (Except Error LevelData) := do
  let lists ← edges.foldlM (fun lists edge =>
    let (owner, target) := ownerAndTarget direction edge
    addTo lists owner target) (Array.replicate nodes #[])
  return ofAdjacency (lists.toList.map Array.toList)

/-- The first fault among entries, where the last range before them ended at `lastEnd`. -/
def entryFault? (slots lastEnd : Nat) : List VertexEntry → Option LevelFault
  | [] => none
  | entry :: entries =>
      if entry.isEmpty then entryFault? slots lastEnd entries
      else if entry.start = .nil then some .noRange
      else if entry.start.raw < lastEnd then some .disorder
      else
        let stop := entry.start.raw + entry.degree.toNat
        if UInt64.size ≤ stop then some .overflow
        else if slots < stop then some .pastTable
        else entryFault? slots stop entries

/-- The first fault of the contents, where targets have to lie below `maxNodes`. Entries are
looked at before targets. -/
def fault? (data : LevelData) (maxNodes : Nat) : Option LevelFault :=
  match entryFault? data.edgeCount 0 data.vertices with
  | some fault => some fault
  | none =>
      if data.targets.any (fun t => maxNodes ≤ t.toNat) then some .targetPastBound else none

/-- The same contents with empty entries up to a number of nodes. -/
def padTo (data : LevelData) (nodes : Nat) : LevelData :=
  { data with vertices := data.vertices ++ List.replicate (nodes - data.nodeCount) .empty }

@[simp] theorem nodeCount_empty (nodes : Nat) : (empty nodes).nodeCount = nodes := by
  simp [empty, nodeCount]

@[simp] theorem targets_padTo (data : LevelData) (nodes : Nat) :
    (data.padTo nodes).targets = data.targets := rfl

@[simp] theorem nodeCount_padTo (data : LevelData) (nodes : Nat) :
    (data.padTo nodes).nodeCount = max data.nodeCount nodes := by
  simp [padTo, nodeCount]
  omega

theorem recorded_of_nodeCount_le (data : LevelData) {node : NodeId}
    (h : data.nodeCount ≤ node.toNat) : data.recorded node = [] := by
  simp [recorded, slice, List.getD, List.getElem?_eq_none h]

end LevelData

example : LevelData.ofAdjacency [[⟨1⟩, ⟨2⟩], [], [⟨0⟩]] =
    .ok ⟨[⟨.sealed 0, 2⟩, .empty, ⟨.sealed 2, 1⟩], [⟨1⟩, ⟨2⟩, ⟨0⟩]⟩ := rfl

end LayeredGraph
