import Mathlib.Data.List.Perm.Subperm
import Mathlib.Order.Bounds.Defs
import LayeredGraph.Proofs.Queue.Arena

/-! Any calls on an arena that give back only what is handed out. The free list is the list of the
indices given back, the latest first; together with those handed out it makes up the created ones,
and no more are ever created than were handed out at once. -/
namespace LayeredGraph

/-- A call on an arena: for an index with an item behind it, or to give an index back. -/
inductive ArenaCall (α : Type) where
  | alloc (init : α)
  | release (index : Nat)
  deriving DecidableEq, Repr

/-- An arena with the indices that are handed out, and those that were given back and are not
handed out again, the latest first. -/
structure ArenaRun (α : Type) where
  arena : Arena α
  held : List Nat
  returned : List Nat

namespace Arena

/-- A link as a word of 32 bits; the greatest word stands for the end. -/
def linkWord : Option Nat → UInt32
  | none => 0xffffffff
  | some index => UInt32.ofNat index

/-- The words of the links lead from a head through a list of indices and end there. -/
def LeadsInWords (links : Nat → UInt32) : UInt32 → List Nat → Prop
  | head, [] => head = 0xffffffff
  | head, index :: rest =>
      head ≠ 0xffffffff ∧ head.toNat = index ∧ LeadsInWords links (links index) rest

theorem toNat_linkWord {index : Nat} (small : index < 0xffffffff) :
    (linkWord (some index)).toNat = index :=
  UInt32.toNat_ofNat_of_lt (Nat.lt_trans small (by decide))

/-- No link to an item is taken for the end, because there are fewer items than words. -/
theorem linkWord_ne_end {index : Nat} (small : index < 0xffffffff) :
    linkWord (some index) ≠ 0xffffffff := by
  intro same
  have number := toNat_linkWord small
  rw [same] at number
  have greatest : (0xffffffff : UInt32).toNat = 0xffffffff := rfl
  omega

theorem Leads.inWords {links : Array (Option Nat)} {head : Option Nat} {met : List Nat}
    (h : Leads links head met) (small : links.size < 0xffffffff) :
    LeadsInWords (fun index => linkWord links[index]?.join) (linkWord head) met := by
  induction met generalizing head with
  | nil =>
    obtain rfl : head = none := h
    rfl
  | cons index rest ih =>
    obtain ⟨rfl, inside, onward⟩ := h
    have small := Nat.lt_trans inside small
    exact ⟨linkWord_ne_end small, toNat_linkWord small, ih onward⟩

end Arena

namespace ArenaRun

variable {α : Type}

def start (capacity : Nat) : ArenaRun α := ⟨.empty capacity, [], []⟩

/-- What a call leaves. An arena without room stays as it is. -/
def step (run : ArenaRun α) : ArenaCall α → ArenaRun α
  | .alloc init =>
      match run.arena.alloc init with
      | some (index, arena) => ⟨arena, index :: run.held, run.returned.erase index⟩
      | none => run
  | .release index =>
      ⟨run.arena.release index, run.held.erase index, index :: run.returned⟩

/-- Only an index that is handed out may be given back. -/
def Allows (run : ArenaRun α) : ArenaCall α → Prop
  | .alloc _ => True
  | .release index => index ∈ run.held

/-- Calls of which each is allowed on what those before it left. -/
def Permits (run : ArenaRun α) : List (ArenaCall α) → Prop
  | [] => True
  | call :: calls => run.Allows call ∧ (run.step call).Permits calls

instance decidableAllows (run : ArenaRun α) : (call : ArenaCall α) → Decidable (run.Allows call)
  | .alloc _ => inferInstanceAs (Decidable True)
  | .release index => inferInstanceAs (Decidable (index ∈ run.held))

instance decidablePermits (run : ArenaRun α) :
    (calls : List (ArenaCall α)) → Decidable (run.Permits calls)
  | [] => inferInstanceAs (Decidable True)
  | call :: calls => @instDecidableAnd _ _ (run.decidableAllows call)
      ((run.step call).decidablePermits calls)

/-- The run that some calls make from a fresh arena. -/
def ofCalls (capacity : Nat) (calls : List (ArenaCall α)) : ArenaRun α :=
  calls.foldl step (start capacity)

/-- The indices that were given back are the free list, and the created ones are these and those
handed out. -/
def Accounts (run : ArenaRun α) : Prop := run.arena.Owns run.returned run.held

theorem accounts_start (capacity : Nat) : (start (α := α) capacity).Accounts :=
  Arena.owns_empty capacity

section Accounts

variable {run : ArenaRun α}

theorem step_of_alloc_eq_none {init : α} (none : run.arena.alloc init = none) :
    run.step (.alloc init) = run := by
  simp [ArenaRun.step, none]

theorem Accounts.alloc_eq_none_iff (h : run.Accounts) (init : α) :
    run.arena.alloc init = none ↔ run.arena.capacity ≤ run.held.length := by
  rw [Arena.alloc, ← Nat.not_lt, ← h.hasRoom_iff]
  split <;> simp [*]

/-- A call for an index is given the one that was given back last, or else the next one, or none
where there is no room. -/
theorem Accounts.alloc_cases (h : run.Accounts) (init : α) :
    (run.arena.alloc init = none ∧ run.step (.alloc init) = run) ∨
    (∃ next, run.returned = [] ∧ run.arena.alloc init = some (run.arena.created, next) ∧
      run.step (.alloc init) = ⟨next, run.arena.created :: run.held, []⟩ ∧
      next.Owns [] (run.arena.created :: run.held) ∧ run.arena.created ∉ run.held ∧
      next.capacity = run.arena.capacity ∧ next.created = run.arena.created + 1) ∨
    ∃ first rest next, run.returned = first :: rest ∧ run.arena.alloc init = some (first, next) ∧
      run.step (.alloc init) = ⟨next, first :: run.held, rest⟩ ∧
      next.Owns rest (first :: run.held) ∧ first ∉ run.held ∧
      next.capacity = run.arena.capacity ∧ next.created = run.arena.created := by
  by_cases room : run.held.length < run.arena.capacity
  · have taken : run.arena.alloc init = some (run.arena.take init) :=
      if_pos (h.hasRoom_iff.2 room)
    refine .inr ?_
    obtain ⟨arena, held, returned⟩ := run
    cases returned with
    | nil =>
      obtain ⟨next, given, owns, fresh, capacity, created, -⟩ := Arena.Owns.take_of_nil h room init
      rw [given] at taken
      exact .inl ⟨next, rfl, taken, by simp [step, taken], owns, fresh, capacity, created⟩
    | cons first rest =>
      obtain ⟨next, given, owns, fresh, capacity, created, -⟩ := Arena.Owns.take_of_cons h init
      rw [given] at taken
      exact .inr ⟨first, rest, next, rfl, taken, by simp [step, taken], owns, fresh, capacity,
        created⟩
  · have none := (h.alloc_eq_none_iff init).2 (Nat.not_lt.1 room)
    exact .inl ⟨none, step_of_alloc_eq_none none⟩

theorem Accounts.step (h : run.Accounts) {call : ArenaCall α} (allowed : run.Allows call) :
    (run.step call).Accounts ∧ (run.step call).arena.capacity = run.arena.capacity := by
  cases call with
  | alloc init =>
    rcases h.alloc_cases init with ⟨-, same⟩ | ⟨next, -, -, step, owns, -, capacity, -⟩ |
      ⟨first, rest, next, -, -, step, owns, -, capacity, -⟩
    · rw [same]
      exact ⟨h, rfl⟩
    · rw [step]
      exact ⟨owns, capacity⟩
    · rw [step]
      exact ⟨owns, capacity⟩
  | release index =>
    exact ⟨(h.perm (List.perm_cons_erase allowed)).release, Arena.capacity_release _ _⟩

theorem Accounts.foldl (h : run.Accounts) {calls : List (ArenaCall α)}
    (permitted : run.Permits calls) :
    (calls.foldl ArenaRun.step run).Accounts ∧
      (calls.foldl ArenaRun.step run).arena.capacity = run.arena.capacity := by
  induction calls generalizing run with
  | nil => exact ⟨h, rfl⟩
  | cons call calls ih =>
    obtain ⟨allowed, later⟩ := permitted
    obtain ⟨next, capacity⟩ := h.step allowed
    obtain ⟨last, same⟩ := ih next later
    exact ⟨last, same.trans capacity⟩

/-- There is no room exactly where every index is handed out. -/
theorem Accounts.capacity_le_iff (h : run.Accounts) :
    run.arena.capacity ≤ run.held.length ↔ ∀ index < run.arena.capacity, index ∈ run.held := by
  have bounded : run.held ⊆ List.range run.arena.capacity := fun index member =>
    List.mem_range.2 (Nat.lt_of_lt_of_le (h.lt_created member) h.created_le)
  constructor
  · intro full index inside
    have distinct : run.held.Nodup := (List.nodup_append.1 h.nodup).2.1
    have same : run.held.Perm (List.range run.arena.capacity) :=
      (distinct.subperm bounded).perm_of_length_le (by simpa using full)
    exact same.mem_iff.2 (List.mem_range.2 inside)
  · intro all
    have some := (List.nodup_range.subperm fun index member => all index (List.mem_range.1 member))
    simpa using some.length_le

end Accounts

section Created

variable {run : ArenaRun α}

theorem created_le_step (run : ArenaRun α) (call : ArenaCall α) :
    run.arena.created ≤ (run.step call).arena.created := by
  cases call with
  | alloc init =>
    rw [step, Arena.alloc]
    by_cases room : run.arena.hasRoom = true
    · simpa [room] using Arena.created_le_take run.arena init
    · simp [room]
  | release index => simp [step]

theorem created_le_foldl (run : ArenaRun α) (calls : List (ArenaCall α)) :
    run.arena.created ≤ (calls.foldl step run).arena.created := by
  induction calls generalizing run with
  | nil => exact Nat.le_refl _
  | cons call calls ih => exact Nat.le_trans (run.created_le_step call) (ih _)

/-- An item is created only when all others are handed out. -/
theorem Accounts.created_step (h : run.Accounts) {call : ArenaCall α}
    (grown : run.arena.created < (run.step call).arena.created) :
    (run.step call).held.length = (run.step call).arena.created := by
  cases call with
  | alloc init =>
    rcases h.alloc_cases init with ⟨-, same⟩ | ⟨next, -, -, step, owns, -⟩ |
      ⟨first, rest, next, -, -, step, -, -, -, created⟩
    · rw [same] at grown
      exact absurd grown (Nat.lt_irrefl _)
    · rw [step]
      simpa using owns.length
    · rw [step] at grown
      exact absurd grown (by simp [created])
  | release index =>
    simp [ArenaRun.step] at grown

/-- The number of created items was reached by the number handed out, unless it is still that of the
start. -/
theorem Accounts.exists_attained (h : run.Accounts) {calls : List (ArenaCall α)}
    (permitted : run.Permits calls)
    (grown : run.arena.created < (calls.foldl ArenaRun.step run).arena.created) :
    ∃ before, before <+: calls ∧ (before.foldl ArenaRun.step run).held.length =
      (calls.foldl ArenaRun.step run).arena.created := by
  induction calls generalizing run with
  | nil => exact absurd grown (Nat.lt_irrefl _)
  | cons call calls ih =>
    obtain ⟨allowed, later⟩ := permitted
    have next := (h.step allowed).1
    rw [List.foldl_cons] at grown ⊢
    rcases Nat.lt_or_eq_of_le ((run.step call).created_le_foldl calls) with still | same
    · obtain ⟨before, first, reached⟩ := ih next later still
      exact ⟨call :: before, List.cons_prefix_cons.2 ⟨rfl, first⟩, reached⟩
    · rw [← same] at grown ⊢
      exact ⟨[call], List.cons_prefix_cons.2 ⟨rfl, List.nil_prefix⟩, h.created_step grown⟩

end Created

theorem Permits.of_append {run : ArenaRun α} {before after : List (ArenaCall α)}
    (h : run.Permits (before ++ after)) : run.Permits before := by
  induction before generalizing run with
  | nil => trivial
  | cons call before ih => exact ⟨h.1, ih h.2⟩

section Calls

variable {capacity : Nat} {calls : List (ArenaCall α)}

theorem ofCalls_append (capacity : Nat) (before after : List (ArenaCall α)) :
    ofCalls capacity (before ++ after) = after.foldl step (ofCalls capacity before) :=
  List.foldl_append

theorem accounts_ofCalls (permitted : (start capacity).Permits calls) :
    (ofCalls capacity calls).Accounts ∧ (ofCalls capacity calls).arena.capacity = capacity :=
  (accounts_start capacity).foldl permitted

/-- As many items are created as were handed out at once at some time, and never more were. -/
theorem isGreatest_created (permitted : (start capacity).Permits calls) :
    IsGreatest {count | ∃ before, before <+: calls ∧
      (ofCalls capacity before).held.length = count} (ofCalls capacity calls).arena.created := by
  constructor
  · rcases Nat.eq_zero_or_pos (ofCalls capacity calls).arena.created with none | some
    · exact ⟨[], List.nil_prefix, none.symm⟩
    · exact (accounts_start capacity).exists_attained permitted some
  · rintro count ⟨before, ⟨after, rfl⟩, rfl⟩
    have length := (accounts_ofCalls permitted.of_append).1.length
    have later := (ofCalls capacity before).created_le_foldl after
    rw [ofCalls_append]
    omega

end Calls

section Accounts

variable {run : ArenaRun α}

theorem Accounts.mem_free_iff (h : run.Accounts) (index : Nat) :
    index ∈ run.arena.free ↔ index < run.arena.created ∧ index ∉ run.held := by
  have each := h.each.mem_iff (a := index)
  rw [List.mem_append, List.mem_range] at each
  rw [h.free_eq]
  constructor
  · intro member
    exact ⟨each.1 (.inl member), fun other => h.not_mem_free other member⟩
  · rintro ⟨inside, apart⟩
    exact (each.2 inside).resolve_right apart

theorem Accounts.alloc_eq_some (h : run.Accounts) {init : α} {index : Nat} {next : Arena α}
    (given : run.arena.alloc init = some (index, next)) :
    index ∉ run.held ∧ index = run.returned.headD run.arena.created ∧
      next.created = (if run.returned = [] then run.arena.created + 1 else run.arena.created) ∧
      ∃ item, next.get? index = some item := by
  rcases h.alloc_cases init with ⟨none, -⟩ | ⟨_, empty, some, -, owns, fresh, -, created⟩ |
    ⟨first, rest, _, list, some, -, owns, fresh, -, created⟩
  · rw [none] at given
    nomatch given
  · rw [some] at given
    obtain ⟨rfl, rfl⟩ := Prod.mk.inj (Option.some.inj given)
    exact ⟨fresh, by rw [empty]; rfl, by rw [created, if_pos empty],
      owns.exists_get? List.mem_cons_self⟩
  · rw [some] at given
    obtain ⟨rfl, rfl⟩ := Prod.mk.inj (Option.some.inj given)
    exact ⟨fresh, by rw [list]; rfl, by rw [created, if_neg (by simp [list])],
      owns.exists_get? List.mem_cons_self⟩

end Accounts

/-- Whatever is asked for and given back, the free list ends and holds each created index once that
is not handed out, the one given back last before the others. A call is given the first of them, or
else the next index, and finds nothing only where all indices are handed out, which changes nothing.
As many items are created as were ever handed out at once. The links are the same as words of 32
bits, because the arena is smaller than the greatest word. -/
theorem indices_are_free_or_handed_out (capacity : Nat) (small : capacity < 0xffffffff)
    (calls : List (ArenaCall α)) (permitted : (start capacity).Permits calls) :
    let run := ofCalls capacity calls
    let arena := run.arena
    (arena.free = run.returned ∧ arena.free.Nodup ∧
      Arena.LeadsInWords (fun index => Arena.linkWord arena.links[index]?.join)
        (Arena.linkWord arena.freeHead) arena.free ∧
      ∀ index, index ∈ arena.free ↔ index < arena.created ∧ index ∉ run.held) ∧
    (∀ init, (arena.alloc init = none ↔ ∀ index < capacity, index ∈ run.held) ∧
      (arena.alloc init = none → run.step (.alloc init) = run) ∧
      ∀ index next, arena.alloc init = some (index, next) →
        index ∉ run.held ∧ index = run.returned.headD arena.created ∧
        next.created = (if run.returned = [] then arena.created + 1 else arena.created) ∧
        ∃ item, next.get? index = some item) ∧
    arena.created ≤ capacity ∧ (∀ call, arena.created ≤ (run.step call).arena.created) ∧
    IsGreatest {count | ∃ before, before <+: calls ∧
      (ofCalls capacity before).held.length = count} arena.created := by
  intro run arena
  obtain ⟨h, limit⟩ : run.Accounts ∧ arena.capacity = capacity := accounts_ofCalls permitted
  have bound : arena.created ≤ capacity := limit ▸ h.created_le
  have words : arena.links.size < 0xffffffff :=
    Nat.lt_of_le_of_lt (h.links ▸ bound) small
  refine ⟨⟨h.free_eq, ?_, ?_, h.mem_free_iff⟩,
    fun init => ⟨?_, step_of_alloc_eq_none, fun _ _ => h.alloc_eq_some⟩, bound,
    run.created_le_step, isGreatest_created permitted⟩
  · rw [h.free_eq]
    exact (List.nodup_append.1 h.nodup).1
  · rw [h.free_eq]
    exact h.leads.inWords words
  · rw [h.alloc_eq_none_iff, h.capacity_le_iff, limit]

/-- Of two indices that were given back the later one is handed out first, and the other one is the
next; no third item is created for them. -/
theorem indices_are_free_or_handed_out_in_turn :
    let calls : List (ArenaCall Unit) :=
      [.alloc (), .alloc (), .release 0, .release 1, .alloc ()]
    (2 < 0xffffffff ∧ (start 2).Permits calls) ∧
    (ofCalls 2 calls).arena.free = [0] ∧ (ofCalls 2 calls).held = [1] ∧
    IsGreatest {count | ∃ before, before <+: calls ∧ (ofCalls 2 before).held.length = count} 2 ∧
    ∀ index next, (ofCalls 2 calls).arena.alloc () = some (index, next) → index = 0 := by
  intro calls
  have small : 2 < 0xffffffff := by decide
  have permitted : (start 2).Permits calls := by decide
  obtain ⟨⟨free, -⟩, given, -, -, greatest⟩ :=
    indices_are_free_or_handed_out 2 small calls permitted
  refine ⟨⟨small, permitted⟩, free, rfl, greatest, ?_⟩
  intro index next some
  exact ((given ()).2.2 index next some).2.1

end ArenaRun

end LayeredGraph
