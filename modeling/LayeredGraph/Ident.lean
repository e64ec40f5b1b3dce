/-! Names of nodes and edges, and the two directions in which an edge can be followed. -/
namespace LayeredGraph

/-- A node, named by a 64-bit number. -/
structure NodeId where
  number : UInt64
  deriving DecidableEq, Repr, Inhabited, Hashable

namespace NodeId

def ofNat (n : Nat) : NodeId := ⟨UInt64.ofNat n⟩

def toNat (node : NodeId) : Nat := node.number.toNat

def text (node : NodeId) : String := toString node.toNat

/-- The node with the greatest number. -/
def last : NodeId := ⟨0xffffffffffffffff⟩

theorem toNat_ofNat {n : Nat} (h : n < UInt64.size) : (ofNat n).toNat = n :=
  UInt64.toNat_ofNat_of_lt h

@[simp] theorem ofNat_toNat (node : NodeId) : ofNat node.toNat = node := by
  simp [ofNat, toNat]

theorem toNat_lt (node : NodeId) : node.toNat < UInt64.size := node.number.toNat_lt_size

theorem toNat_inj {a b : NodeId} : a.toNat = b.toNat ↔ a = b := by
  constructor
  · intro h
    rw [← ofNat_toNat a, h, ofNat_toNat]
  · exact congrArg toNat

/-- The number after a node's own is a word, unless the node is the last one. -/
theorem succ_toNat_lt_iff {node : NodeId} : node.toNat + 1 < UInt64.size ↔ node ≠ last := by
  have bound := node.toNat_lt
  have greatest : last.toNat + 1 = UInt64.size := rfl
  rw [Ne, ← toNat_inj]
  omega

end NodeId

/-- An edge of a sealed level, by its number across all levels of its direction; an edge that
an overlay still holds, by its position in the order of insertion; or no edge at all. -/
inductive EdgeRef where
  | nil
  | sealed (number : Nat)
  | pending (position : Nat)
  deriving DecidableEq, Repr

namespace EdgeRef

instance : Inhabited EdgeRef := ⟨nil⟩

/-- The number of the first pending edge: the top bit of a word marks an edge as pending. -/
def pendingBase : Nat := 0x8000000000000000

/-- The number of no edge, the greatest word. -/
def nilNumber : Nat := 0xffffffffffffffff

/-- The 64-bit number that stands for a reference. -/
def raw : EdgeRef → Nat
  | nil => nilNumber
  | sealed number => number
  | pending position => pendingBase + position

def ofRaw (n : Nat) : EdgeRef :=
  if n = nilNumber then nil
  else if pendingBase ≤ n then pending (n - pendingBase)
  else sealed n

def isNil : EdgeRef → Bool
  | nil => true
  | _ => false

def isPending : EdgeRef → Bool
  | pending _ => true
  | _ => false

def text : EdgeRef → String
  | nil => "nil"
  | edge => toString edge.raw

@[simp] theorem raw_ofRaw (n : Nat) : (ofRaw n).raw = n := by
  unfold ofRaw
  split
  · simp [raw, *]
  · split
    · simp only [raw]
      omega
    · rfl

theorem ofRaw_raw_sealed {n : Nat} (h : n < pendingBase) : ofRaw (sealed n).raw = sealed n := by
  have notNil : n ≠ nilNumber := Nat.ne_of_lt (Nat.lt_trans h (by decide))
  show ofRaw n = sealed n
  rw [ofRaw, if_neg notNil, if_neg (Nat.not_le.2 h)]

theorem ofRaw_raw_pending {k : Nat} (h : pendingBase + k < nilNumber) :
    ofRaw (pending k).raw = pending k := by
  show ofRaw (pendingBase + k) = pending k
  rw [ofRaw, if_neg (Nat.ne_of_lt h), if_pos (Nat.le_add_right _ _), Nat.add_sub_cancel_left]

end EdgeRef

/-- Along an edge from its source, or against it from its target. -/
inductive Direction where
  | out
  | inc
  deriving DecidableEq, Repr

namespace Direction

def all : List Direction := [out, inc]

def index : Direction → Nat
  | out => 0
  | inc => 1

def name : Direction → String
  | out => "out"
  | inc => "in"

def ofName? (name : String) : Option Direction :=
  all.find? fun d => d.name == name

theorem mem_all (d : Direction) : d ∈ all := by cases d <;> simp [all]

end Direction

/-- One value for each direction. -/
structure PerDirection (α : Type) where
  out : α
  inc : α
  deriving DecidableEq, Repr

namespace PerDirection

variable {α : Type}

def both (a : α) : PerDirection α := ⟨a, a⟩

def get (p : PerDirection α) : Direction → α
  | .out => p.out
  | .inc => p.inc

def set (p : PerDirection α) : Direction → α → PerDirection α
  | .out, a => { p with out := a }
  | .inc, a => { p with inc := a }

@[simp] theorem get_set_self (p : PerDirection α) (d : Direction) (a : α) :
    (p.set d a).get d = a := by cases d <;> rfl

theorem get_set_of_ne (p : PerDirection α) {d e : Direction} (a : α) (h : e ≠ d) :
    (p.set d a).get e = p.get e := by
  cases d <;> cases e <;> simp_all [get, set]

@[simp] theorem get_both (a : α) (d : Direction) : (both a).get d = a := by cases d <;> rfl

end PerDirection

example : EdgeRef.ofRaw EdgeRef.pendingBase = .pending 0 := by decide

end LayeredGraph
