import LayeredGraph.Queue.Arena

/-! Who has the items of an arena. Every created item is either on the free list or handed out,
and never both, so an index that is handed out cannot be handed out again before it was given
back. -/
namespace LayeredGraph

namespace Arena

variable {α : Type}

/-- The links lead from a head through a list of indices and end there. -/
def Leads (links : Array (Option Nat)) : Option Nat → List Nat → Prop
  | head, [] => head = none
  | head, index :: rest =>
      head = some index ∧ index < links.size ∧ Leads links links[index]?.join rest

/-- Writing the link of an index that is not met does not change the way. -/
theorem Leads.set {links : Array (Option Nat)} {head : Option Nat} {met : List Nat}
    (h : Leads links head met) {index : Nat} (apart : index ∉ met) (link : Option Nat) :
    Leads (links.setIfInBounds index link) head met := by
  induction met generalizing head with
  | nil => exact h
  | cons first rest ih =>
    obtain ⟨here, inside, onward⟩ := h
    obtain ⟨ne, apart⟩ := not_or.1 (mt List.mem_cons.2 apart)
    refine ⟨here, ?_, ?_⟩
    · rw [Array.size_setIfInBounds]
      exact inside
    · rw [Array.getElem?_setIfInBounds_ne ne]
      exact ih onward apart

/-- Following the links finds the indices that they lead through. -/
theorem Leads.follow_eq {links : Array (Option Nat)} {head : Option Nat} {met : List Nat}
    (h : Leads links head met) {bound : Nat} (enough : met.length ≤ bound) :
    follow links head bound = met := by
  induction met generalizing head bound with
  | nil =>
    obtain rfl : head = none := h
    cases bound <;> rfl
  | cons first rest ih =>
    obtain ⟨rfl, -, onward⟩ := h
    cases bound with
    | zero => simp at enough
    | succ bound => rw [follow, ih onward (Nat.le_of_succ_le_succ enough)]

/-- An arena whose created items are free, in the order of the free list, or handed out. -/
structure Owns (arena : Arena α) (free held : List Nat) : Prop where
  leads : Leads arena.links arena.freeHead free
  links : arena.links.size = arena.created
  created_le : arena.created ≤ arena.capacity
  each : (free ++ held).Perm (List.range arena.created)

theorem owns_empty (capacity : Nat) : (empty (α := α) capacity).Owns [] [] :=
  ⟨rfl, rfl, Nat.zero_le _, .nil⟩

section Owns

variable {arena : Arena α} {free held : List Nat}

theorem Owns.length (h : arena.Owns free held) : free.length + held.length = arena.created := by
  rw [← List.length_append, h.each.length_eq, List.length_range]

/-- The free list is what the links lead through. -/
theorem Owns.free_eq (h : arena.Owns free held) : arena.free = free :=
  h.leads.follow_eq (h.length ▸ Nat.le_add_right _ _)

theorem Owns.nodup (h : arena.Owns free held) : (free ++ held).Nodup :=
  h.each.nodup_iff.2 List.nodup_range

theorem Owns.lt_created (h : arena.Owns free held) {index : Nat} (member : index ∈ held) :
    index < arena.created :=
  List.mem_range.1 (h.each.mem_iff.1 (List.mem_append_right free member))

theorem Owns.not_mem_free (h : arena.Owns free held) {index : Nat} (member : index ∈ held) :
    index ∉ free :=
  fun other => (List.nodup_append.1 h.nodup).2.2 index other index member rfl

/-- The order in which items are counted as handed out does not matter. -/
theorem Owns.perm {other : List Nat} (h : arena.Owns free held) (same : held.Perm other) :
    arena.Owns free other :=
  ⟨h.leads, h.links, h.created_le, (same.symm.append_left free).trans h.each⟩

/-- An item can be handed out exactly while fewer are out than the arena may hold. -/
theorem Owns.hasRoom_iff (h : arena.Owns free held) :
    arena.hasRoom = true ↔ held.length < arena.capacity := by
  have length := h.length
  have bound := h.created_le
  cases free with
  | nil =>
    have exhausted : arena.freeHead = none := h.leads
    simp only [hasRoom, exhausted, Option.isSome_none, Bool.false_or, decide_eq_true_eq]
    rw [List.length_nil, Nat.zero_add] at length
    rw [length]
  | cons first rest =>
    obtain ⟨here, -, -⟩ := h.leads
    simp only [hasRoom, here, Option.isSome_some, Bool.true_or, true_iff]
    rw [List.length_cons] at length
    omega

theorem take_of_freeHead_none (exhausted : arena.freeHead = none) (init : α) :
    arena.take init = (arena.created, { arena with
      items := arena.items.push init, links := arena.links.push none }) := by
  rw [Arena.take, exhausted]

theorem take_of_freeHead {index : Nat} (here : arena.freeHead = some index) (init : α) :
    arena.take init = (index, { arena with freeHead := arena.links[index]?.join }) := by
  rw [Arena.take, here]

/-- No item goes away. -/
theorem created_le_take (arena : Arena α) (init : α) :
    arena.created ≤ (arena.take init).2.created := by
  rw [Arena.take]
  cases arena.freeHead <;> simp [created]

/-- With no index on the free list the next item is created. -/
theorem Owns.take_of_nil (h : arena.Owns [] held) (room : held.length < arena.capacity)
    (init : α) :
    ∃ next, arena.take init = (arena.created, next) ∧ next.Owns [] (arena.created :: held) ∧
      arena.created ∉ held ∧ next.capacity = arena.capacity ∧ next.created = arena.created + 1 ∧
      next.get? arena.created = some init ∧ ∀ other ∈ held, next.get? other = arena.get? other := by
  have length : held.length = arena.items.size := (Nat.zero_add _).symm.trans h.length
  have exhausted : arena.freeHead = none := h.leads
  have fresh : arena.created ∉ held := fun member => Nat.lt_irrefl _ (h.lt_created member)
  refine ⟨_, take_of_freeHead_none exhausted init, ⟨exhausted, ?_, ?_, ?_⟩, fresh, rfl, ?_, ?_, ?_⟩
  · simp only [Array.size_push, created, h.links]
  · simp only [created, Array.size_push]
    omega
  · have each : held.Perm (List.range arena.created) := h.each
    simp only [created, Array.size_push] at each ⊢
    rw [List.range_succ, List.nil_append]
    exact (each.cons _).trans (List.perm_append_singleton _ _).symm
  · simp only [created, Array.size_push]
  · simp only [get?, created, Array.getElem?_push, if_true]
  · intro other member
    have inside : other < arena.items.size := h.lt_created member
    simp only [get?, Array.getElem?_push, if_neg (Nat.ne_of_lt inside)]

/-- The first index on the free list is handed out before any other. -/
theorem Owns.take_of_cons {first : Nat} {rest : List Nat} (h : arena.Owns (first :: rest) held)
    (init : α) :
    ∃ next, arena.take init = (first, next) ∧ next.Owns rest (first :: held) ∧ first ∉ held ∧
      next.capacity = arena.capacity ∧ next.created = arena.created ∧
      ∀ other, next.get? other = arena.get? other := by
  obtain ⟨here, -, onward⟩ := h.leads
  have fresh : first ∉ held := fun member => h.not_mem_free member List.mem_cons_self
  exact ⟨_, take_of_freeHead here init,
    ⟨onward, h.links, h.created_le, List.perm_middle.trans h.each⟩, fresh, rfl, rfl, fun _ => rfl⟩

/-- Handing out an item: it was not out before, nothing else changes, and an item is created only
where all others are out. -/
theorem Owns.take (h : arena.Owns free held) (room : held.length < arena.capacity) (init : α) :
    ∃ index left, (arena.take init).1 = index ∧ (arena.take init).2.Owns left (index :: held) ∧
      index ∉ held ∧ (arena.take init).2.capacity = arena.capacity ∧
      (arena.take init).2.created = max arena.created (held.length + 1) ∧
      ∀ other ∈ held, (arena.take init).2.get? other = arena.get? other := by
  have length := h.length
  cases free with
  | nil =>
    obtain ⟨next, taken, owns, fresh, capacity, created, -, same⟩ := h.take_of_nil room init
    rw [List.length_nil] at length
    rw [taken]
    exact ⟨_, _, rfl, owns, fresh, capacity, created.trans (by omega), same⟩
  | cons first rest =>
    obtain ⟨next, taken, owns, fresh, capacity, created, same⟩ := h.take_of_cons init
    rw [List.length_cons] at length
    rw [taken]
    exact ⟨_, _, rfl, owns, fresh, capacity, created.trans (by omega), fun other _ => same other⟩

/-- An index that is given back comes first on the free list. -/
theorem Owns.release {index : Nat} (h : arena.Owns free (index :: held)) :
    (arena.release index).Owns (index :: free) held := by
  have inside : index < arena.links.size := by
    rw [h.links]
    exact h.lt_created List.mem_cons_self
  have apart : index ∉ free := h.not_mem_free List.mem_cons_self
  have released : arena.release index = { arena with
      links := arena.links.setIfInBounds index arena.freeHead
      freeHead := some index } := if_pos inside
  rw [released]
  refine ⟨⟨rfl, ?_, ?_⟩, ?_, h.created_le, List.perm_middle.symm.trans h.each⟩
  · rw [Array.size_setIfInBounds]
    exact inside
  · rw [Array.getElem?_setIfInBounds_self_of_lt inside]
    exact h.leads.set apart _
  · rw [Array.size_setIfInBounds]
    exact h.links

theorem Owns.modify (h : arena.Owns free held) (index : Nat) (change : α → α) :
    (arena.modify index change).Owns free held :=
  ⟨h.leads, h.links.trans (created_modify arena index change).symm,
    (created_modify arena index change).symm ▸ h.created_le,
    (created_modify arena index change).symm ▸ h.each⟩

end Owns

@[simp] theorem get?_release (arena : Arena α) (index other : Nat) :
    (arena.release index).get? other = arena.get? other := by
  unfold release
  split <;> rfl

@[simp] theorem capacity_release (arena : Arena α) (index : Nat) :
    (arena.release index).capacity = arena.capacity := by
  unfold release
  split <;> rfl

theorem get?_modify (arena : Arena α) (index other : Nat) (change : α → α) :
    (arena.modify index change).get? other =
      if index = other then (arena.get? other).map change else arena.get? other := by
  simp only [get?, modify, Array.getElem?_modify]

theorem Owns.exists_get? {arena : Arena α} {free held : List Nat} (h : arena.Owns free held)
    {index : Nat} (member : index ∈ held) : ∃ item, arena.get? index = some item := by
  have inside : index < arena.items.size := h.lt_created member
  exact ⟨_, Array.getElem?_eq_getElem inside⟩

end Arena

end LayeredGraph
