import LayeredGraph.Stack
import LayeredGraph.Proofs.Level.Walk

/-! A stack as the list of contents that were sealed into it. Levels are numbered in order, their
edges follow one another without gaps, and the stack covers the nodes of its largest level. Adding
a level appends its contents to the list, so what a stack holds never changes later. -/
namespace LayeredGraph

namespace LevelData

/-- The number of edges of some levels together. -/
def totalEdges : List LevelData → Nat
  | [] => 0
  | data :: rest => data.edgeCount + totalEdges rest

/-- The number of nodes of the largest of some levels. -/
def coveredNodes : List LevelData → Nat
  | [] => 0
  | data :: rest => max data.nodeCount (coveredNodes rest)

/-- The edges that some levels record for a node, the edges of later levels being numbered behind
those of earlier ones. -/
def walkAll (base : Nat) (node : NodeId) : List LevelData → List (EdgeRef × NodeId)
  | [] => []
  | data :: rest => data.walk base node ++ walkAll (base + data.edgeCount) node rest

theorem totalEdges_append (xs ys : List LevelData) :
    totalEdges (xs ++ ys) = totalEdges xs + totalEdges ys := by
  induction xs with
  | nil => simp [totalEdges]
  | cons data xs ih => rw [List.cons_append, totalEdges, totalEdges, ih, Nat.add_assoc]

theorem coveredNodes_append (xs ys : List LevelData) :
    coveredNodes (xs ++ ys) = max (coveredNodes xs) (coveredNodes ys) := by
  induction xs with
  | nil => simp [coveredNodes]
  | cons data xs ih => rw [List.cons_append, coveredNodes, coveredNodes, ih, Nat.max_assoc]

/-- The targets come level by level, oldest level first. -/
@[simp] theorem targets_walkAll (base : Nat) (node : NodeId) (contents : List LevelData) :
    (walkAll base node contents).map (·.2) = contents.flatMap (·.recorded node) := by
  induction contents generalizing base with
  | nil => rfl
  | cons data rest ih =>
    rw [walkAll, List.map_append, targets_walk, ih, List.flatMap_cons]

end LevelData

open LevelData

namespace Level

/-- Contents sealed one after another, from an index and a base on. -/
def layers (index base : Nat) : List LevelData → List Level
  | [] => []
  | data :: rest => ofData index base data :: layers (index + 1) (base + data.edgeCount) rest

theorem layers_append (index base : Nat) (xs ys : List LevelData) :
    layers index base (xs ++ ys) =
      layers index base xs ++ layers (index + xs.length) (base + totalEdges xs) ys := by
  induction xs generalizing index base with
  | nil => simp [layers, totalEdges]
  | cons data xs ih =>
    simp only [List.cons_append, layers, totalEdges, List.length_cons, ih]
    rw [Nat.add_assoc, Nat.add_assoc, Nat.add_comm 1]

@[simp] theorem length_layers (index base : Nat) (contents : List LevelData) :
    (layers index base contents).length = contents.length := by
  induction contents generalizing index base with
  | nil => rfl
  | cons data rest ih => simp [layers, ih]

/-- A layer has its place as index and the edges before it as base. -/
theorem getElem?_layers (index base : Nat) (contents : List LevelData) (i : Nat) :
    (layers index base contents)[i]? =
      contents[i]?.map (ofData (index + i) (base + totalEdges (contents.take i))) := by
  induction contents generalizing index base i with
  | nil => rfl
  | cons data rest ih =>
    cases i with
    | zero => simp [layers, totalEdges]
    | succ i =>
      rw [layers, List.getElem?_cons_succ, ih, List.getElem?_cons_succ, List.take_succ_cons,
        totalEdges, Nat.add_assoc, Nat.add_assoc, Nat.add_comm 1]

theorem exists_of_mem_layers {index base : Nat} {contents : List LevelData} {level : Level}
    (h : level ∈ layers index base contents) :
    ∃ i b, ∃ data ∈ contents, level = ofData i b data := by
  induction contents generalizing index base with
  | nil => simp [layers] at h
  | cons data rest ih =>
    rcases List.mem_cons.1 h with rfl | h
    · exact ⟨index, base, data, List.mem_cons_self, rfl⟩
    · obtain ⟨i, b, other, member, rfl⟩ := ih h
      exact ⟨i, b, other, List.mem_cons_of_mem _ member, rfl⟩

theorem flatMap_walk_layers {index base bound : Nat} {contents : List LevelData} (node : NodeId)
    (h : ∀ data ∈ contents, data.Sealable bound) :
    (layers index base contents).flatMap (·.walk node) = walkAll base node contents := by
  induction contents generalizing index base with
  | nil => rfl
  | cons data rest ih =>
    have first := h data List.mem_cons_self
    have others := fun other member => h other (List.mem_cons_of_mem _ member)
    rw [layers, List.flatMap_cons, walk_ofData first, ih others, walkAll]

end Level

namespace Stack

theorem level_eq_ok {stack : Stack} {index : Nat} {level : Level}
    (here : stack.levels[index]? = some level) : stack.level index = .ok level := by
  rw [Stack.level, here]

theorem level_eq_error {stack : Stack} {index : Nat} (missing : stack.numLevels ≤ index) :
    stack.level index = .error (.levelOutOfRange index stack.numLevels) := by
  rw [Stack.level, Array.getElem?_eq_none missing]

theorem checkNode_eq_error {stack : Stack} {node : NodeId} (outside : stack.maxNodes ≤ node.toNat) :
    stack.checkNode node = .error (.nodeOutOfRange node stack.maxNodes) :=
  if_neg (Nat.not_lt.2 outside)

/-- The edges of a node from a level on, with their targets. -/
def walkFrom (stack : Stack) (node : NodeId) (index : Nat) : List (EdgeRef × NodeId) :=
  (stack.levels.toList.drop index).flatMap (·.walk node)

/-- The edges of a node in all levels, oldest level first. -/
def walk (stack : Stack) (node : NodeId) : List (EdgeRef × NodeId) := stack.walkFrom node 0

/-- Every range of every level lies in its level. -/
def Sound (stack : Stack) : Prop := ∀ level ∈ stack.levels.toList, level.Sound

theorem Sound.of_getElem? {stack : Stack} (sound : stack.Sound) {index : Nat} {level : Level}
    (found : stack.levels[index]? = some level) : level.Sound := by
  rw [← Array.getElem?_toList] at found
  exact sound level (List.mem_of_getElem? found)

/-- A stack into which some contents were sealed, oldest first. -/
structure Holds (stack : Stack) (contents : List LevelData) : Prop where
  levels : stack.levels.toList = Level.layers 0 0 contents
  maxNodes : stack.maxNodes = coveredNodes contents
  edgeCount : stack.edgeCount = totalEdges contents
  sealable : ∀ data ∈ contents, data.Sealable stack.maxNodes

theorem holds_empty : empty.Holds [] := ⟨rfl, rfl, rfl, nofun⟩

section Holds

variable {stack grown : Stack} {contents : List LevelData} {data : LevelData}

theorem Holds.numLevels (h : stack.Holds contents) : stack.numLevels = contents.length := by
  unfold Stack.numLevels
  rw [← Array.length_toList, h.levels, Level.length_layers]

theorem Holds.getElem?_levels (h : stack.Holds contents) (i : Nat) :
    stack.levels[i]? = contents[i]?.map (Level.ofData i (totalEdges (contents.take i))) := by
  rw [← Array.getElem?_toList, h.levels, Level.getElem?_layers, Nat.zero_add, Nat.zero_add]

theorem Holds.sound (h : stack.Holds contents) : stack.Sound := by
  intro level member
  rw [h.levels] at member
  obtain ⟨i, b, data, held, rfl⟩ := Level.exists_of_mem_layers member
  exact Level.sound_ofData (h.sealable data held)

theorem Holds.walk (h : stack.Holds contents) (node : NodeId) :
    stack.walk node = walkAll 0 node contents := by
  rw [Stack.walk, walkFrom, List.drop_zero, h.levels, Level.flatMap_walk_layers node h.sealable]

/-- A level is added exactly when its contents can be sealed over the nodes covered then. -/
theorem withLevel_eq_ok_iff :
    (∃ grown, stack.withLevel data = .ok grown) ↔
      data.Sealable (max stack.maxNodes data.nodeCount) := by
  rw [← fault?_eq_none_iff, withLevel]
  cases data.fault? (max stack.maxNodes data.nodeCount) <;> simp

theorem withLevel_of_fault {fault : LevelFault}
    (found : data.fault? (max stack.maxNodes data.nodeCount) = some fault) :
    stack.withLevel data = .error (.corruption fault.message) := by
  rw [withLevel, found]

theorem eq_of_withLevel (ok : stack.withLevel data = .ok grown) :
    grown = ⟨stack.levels.push (.ofData stack.numLevels stack.edgeCount data),
      max stack.maxNodes data.nodeCount, stack.edgeCount + data.edgeCount⟩ := by
  simp only [withLevel] at ok
  split at ok
  · simp at ok
  · exact (Except.ok.inj ok).symm

/-- Adding a level appends its contents to those held. -/
theorem Holds.withLevel (h : stack.Holds contents) (ok : stack.withLevel data = .ok grown) :
    grown.Holds (contents ++ [data]) := by
  have sealable := withLevel_eq_ok_iff.1 ⟨grown, ok⟩
  obtain rfl := eq_of_withLevel ok
  constructor
  · rw [Array.toList_push, h.levels, h.numLevels, h.edgeCount, Level.layers_append, Nat.zero_add,
      Nat.zero_add]
    rfl
  · rw [coveredNodes_append, h.maxNodes, coveredNodes, coveredNodes, Nat.max_zero]
  · rw [totalEdges_append, h.edgeCount, totalEdges, totalEdges, Nat.add_zero]
  · intro other member
    rcases List.mem_append.1 member with member | member
    · exact (h.sealable other member).mono (Nat.le_max_left _ _)
    · rw [List.mem_singleton.1 member]
      exact sealable

end Holds

/-- The stack that sealing some contents one after another gives. -/
def ofContents (contents : List LevelData) : Except Error Stack := contents.foldlM withLevel empty

theorem Holds.foldlM {stack grown : Stack} {contents more : List LevelData}
    (h : stack.Holds contents) (built : more.foldlM Stack.withLevel stack = .ok grown) :
    grown.Holds (contents ++ more) := by
  induction more generalizing stack contents with
  | nil =>
    obtain rfl : stack = grown := Except.ok.inj built
    rw [List.append_nil]
    exact h
  | cons data more ih =>
    rw [List.foldlM_cons] at built
    cases added : stack.withLevel data with
    | error e => simp [added, bind, Except.bind] at built
    | ok next =>
      rw [added] at built
      have later := ih (h.withLevel added) built
      rwa [List.append_assoc] at later

/-- Whatever is sealed, a stack holds the contents of its levels. -/
theorem holds_ofContents {contents : List LevelData} {stack : Stack}
    (built : ofContents contents = .ok stack) : stack.Holds contents := holds_empty.foldlM built

end Stack

end LayeredGraph
