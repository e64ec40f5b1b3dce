import Std.Data.HashMap
import LayeredGraph.Queue.Cache
import LayeredGraph.Queue.Latest

/-! A cache that runs. Everything that was ever put stays in a log: an entry that was replaced is
told by its position, which is no longer the latest of its key. What is in the cache is a tail of
the log less the entries that were replaced. -/
namespace LayeredGraph

/-- A log of entries with the position of each key's latest one. Those in front of `first` have left
the cache, and `length` counts the others that are their key's latest. -/
structure LoggedCache where
  capacity : Nat
  log : Array (NodeId × Request)
  latest : Std.HashMap NodeId Nat
  first : Nat
  length : Nat
  first_le : first ≤ log.size
  latest_iff : ∀ node position,
    latest[node]? = some position ↔ LastAt Prod.fst log.toList node position
  length_eq : length = (latestBy Prod.fst (log.toList.drop first)).length

namespace LoggedCache

def withCapacity (capacity : Nat) : LoggedCache where
  capacity
  log := #[]
  latest := {}
  first := 0
  length := 0
  first_le := Nat.le_refl 0
  latest_iff node position := by simp [LastAt]
  length_eq := rfl

/-- The entries that have not left and were not replaced. -/
def entries (cache : LoggedCache) : List (NodeId × Request) :=
  latestBy Prod.fst (cache.log.toList.drop cache.first)

/-- Whether the entry at a position of the log is the latest under its key. -/
def isLatest (cache : LoggedCache) (position : Nat) (entry : NodeId × Request) : Bool :=
  cache.latest[entry.1]? == some position

/-- Whether a key has an entry. -/
def contains (cache : LoggedCache) (key : NodeId) : Bool :=
  cache.latest[key]?.any (cache.first ≤ ·)

/-- The first position from a given one on that holds the latest entry under its key. -/
def nextLatest (cache : LoggedCache) (position : Nat) : Nat :=
  if h : position < cache.log.size then
    if cache.isLatest position cache.log[position] then position
    else cache.nextLatest (position + 1)
  else position
termination_by cache.log.size - position

section Log

variable {cache : LoggedCache}

theorem isLatest_iff {position : Nat} {entry : NodeId × Request}
    (found : cache.log.toList[position]? = some entry) :
    cache.isLatest position entry = true ↔
      entry.1 ∉ (cache.log.toList.drop (position + 1)).map Prod.fst := by
  rw [isLatest, beq_iff_eq, cache.latest_iff]
  constructor
  · rintro ⟨-, -, -, last⟩
    exact last
  · exact fun last => ⟨entry, found, rfl, last⟩

/-- Skipping what was replaced leads to the oldest of the latest entries. -/
theorem nextLatest_spec (position : Nat) :
    let rest := latestBy Prod.fst (cache.log.toList.drop position)
    cache.log[cache.nextLatest position]? = rest.head? ∧
      latestBy Prod.fst (cache.log.toList.drop (cache.nextLatest position + 1)) = rest.tail := by
  have held : ∀ position (inside : position < cache.log.size),
      cache.log.toList.drop position =
          cache.log[position] :: cache.log.toList.drop (position + 1) ∧
        cache.log.toList[position]? = some cache.log[position] := by
    intro position inside
    have found : cache.log.toList[position]? = some cache.log[position] := by
      rw [Array.getElem?_toList, Array.getElem?_eq_getElem inside]
    obtain ⟨bound, same⟩ := List.getElem?_eq_some_iff.1 found
    exact ⟨same ▸ List.drop_eq_getElem_cons bound, found⟩
  fun_induction nextLatest cache position with
  | case1 position inside latest =>
    obtain ⟨cons, found⟩ := held position inside
    rw [cons, latestBy, if_neg ((isLatest_iff found).1 latest)]
    exact ⟨Array.getElem?_eq_getElem inside, rfl⟩
  | case2 position inside replaced ih =>
    obtain ⟨cons, found⟩ := held position inside
    rw [cons, latestBy, if_pos (Decidable.not_not.1 (mt (isLatest_iff found).2 replaced))]
    exact ih
  | case3 position past =>
    have end_ : cache.log.toList.length ≤ position := Nat.le_of_not_lt past
    rw [List.drop_eq_nil_of_le end_, List.drop_eq_nil_of_le (Nat.le_succ_of_le end_),
      Array.getElem?_eq_none end_]
    exact ⟨rfl, rfl⟩

theorem contains_iff (cache : LoggedCache) (key : NodeId) :
    cache.contains key = true ↔ key ∈ cache.entries.map Prod.fst := by
  rw [entries, mem_keys_latestBy, contains, Option.any_eq_true]
  constructor
  · rintro ⟨position, latest, inside⟩
    obtain ⟨entry, found, rfl, -⟩ := (cache.latest_iff key position).1 latest
    refine List.mem_map_of_mem (List.mem_of_getElem? (i := position - cache.first) ?_)
    rw [List.getElem?_drop, Nat.add_sub_of_le (of_decide_eq_true inside), found]
  · intro held
    -- The last entry under the key stands at some position of the tail.
    obtain ⟨position, last⟩ := exists_lastAt held
    obtain ⟨entry, found, same, none⟩ := last
    rw [List.getElem?_drop] at found
    rw [List.drop_drop] at none
    refine ⟨cache.first + position, ?_, decide_eq_true (Nat.le_add_right _ _)⟩
    exact (cache.latest_iff _ _).2 ⟨entry, found, same, none⟩

end Log

/-- Takes out the least recent entry. -/
def popLeast (cache : LoggedCache) : Option (NodeId × Request) × LoggedCache :=
  match found : cache.log[cache.nextLatest cache.first]? with
  | none => (none, cache)
  | some entry =>
      (some entry, { cache with
        first := cache.nextLatest cache.first + 1
        length := cache.length - 1
        first_le := (Array.getElem?_eq_some_iff.1 found).1
        length_eq := by
          rw [(nextLatest_spec cache.first).2, List.length_tail, cache.length_eq] })

theorem length_record (cache : LoggedCache) (entry : NodeId × Request) :
    (if cache.contains entry.1 then cache.length else cache.length + 1) =
      (cache.entries.filter (·.1 ≠ entry.1) ++ [entry]).length := by
  have distinct : (cache.entries.map Prod.fst).Nodup := nodup_latestBy _
  have length : cache.length = cache.entries.length := cache.length_eq
  rw [List.length_append, length_filter_ne distinct, length]
  by_cases held : entry.1 ∈ cache.entries.map Prod.fst
  · rw [if_pos ((contains_iff ..).2 held), if_pos held]
    have some := List.length_pos_of_mem held
    rw [List.length_map] at some
    exact (Nat.sub_add_cancel some).symm
  · rw [if_neg (mt (contains_iff ..).1 held), if_neg held]
    rfl

/-- Writes an entry to the log, as the latest under its key. -/
def record (cache : LoggedCache) (key : NodeId) (value : Request) : LoggedCache :=
  -- Both are read off before the log grows, which then happens in place.
  let position := cache.log.size
  let length := if cache.contains key then cache.length else cache.length + 1
  { cache with
    log := cache.log.push (key, value)
    latest := cache.latest.insert key position
    length
    first_le := by
      rw [Array.size_push]
      exact Nat.le_succ_of_le cache.first_le
    latest_iff := fun node position => by
      rw [Std.HashMap.getElem?_insert, Array.toList_push]
      by_cases same : key = node
      · subst same
        rw [if_pos (beq_self_eq_true _), Option.some_inj]
        exact (lastAt_append_self _ (key, value) position).symm
      · rw [if_neg (mt eq_of_beq same), cache.latest_iff]
        exact (@lastAt_append_of_ne _ _ _ (key, value) _ same position).symm
    length_eq := by
      rw [Array.toList_push, List.drop_append_of_le_length cache.first_le,
        latestBy_append_singleton]
      exact cache.length_record (key, value) }

theorem entries_record (cache : LoggedCache) (key : NodeId) (value : Request) :
    (cache.record key value).entries = cache.entries.filter (·.1 ≠ key) ++ [(key, value)] := by
  change latestBy Prod.fst ((cache.log.push (key, value)).toList.drop cache.first) = _
  rw [Array.toList_push, List.drop_append_of_le_length cache.first_le, latestBy_append_singleton]
  rfl

/-- Puts an entry, for which the least recent one makes room if its key is new and none is left. -/
def put (cache : LoggedCache) (key : NodeId) (value : Request) : LoggedCache :=
  if cache.contains key || decide (cache.length < cache.capacity) then cache.record key value
  else cache.popLeast.2.record key value

theorem popLeast_spec (cache : LoggedCache) :
    cache.popLeast.1 = cache.entries.head? ∧ cache.popLeast.2.entries = cache.entries.tail ∧
      cache.popLeast.2.capacity = cache.capacity := by
  obtain ⟨oldest, rest⟩ := @nextLatest_spec cache cache.first
  unfold popLeast
  split
  · next found =>
    rw [found] at oldest
    have none : cache.entries = [] := List.head?_eq_none_iff.1 oldest.symm
    rw [none]
    exact ⟨rfl, rfl, rfl⟩
  · next entry found =>
    rw [found] at oldest
    exact ⟨oldest, rest, rfl⟩

section Put

variable {cache : LoggedCache} {key : NodeId} (value : Request)

@[simp] theorem capacity_put : (cache.put key value).capacity = cache.capacity := by
  unfold put
  split
  · rfl
  · exact cache.popLeast_spec.2.2

theorem entries_put_of_known (known : key ∈ cache.entries.map Prod.fst) :
    (cache.put key value).entries = cache.entries.filter (·.1 ≠ key) ++ [(key, value)] := by
  rw [put, (contains_iff cache key).2 known]
  exact entries_record cache key value

theorem entries_put_of_new (new : key ∉ cache.entries.map Prod.fst)
    (room : cache.entries.length < cache.capacity) :
    (cache.put key value).entries = cache.entries ++ [(key, value)] := by
  have space : cache.length < cache.capacity := cache.length_eq ▸ room
  rw [put, decide_eq_true space, Bool.or_true, if_pos rfl, entries_record, filter_ne_eq_self new]

theorem entries_put_of_full (new : key ∉ cache.entries.map Prod.fst)
    (full : cache.entries.length = cache.capacity) :
    (cache.put key value).entries = cache.entries.tail ++ [(key, value)] := by
  have unknown : cache.contains key = false :=
    Bool.not_eq_true _ ▸ mt (contains_iff cache key).1 new
  have length : cache.length = cache.entries.length := cache.length_eq
  have space : ¬cache.length < cache.capacity := by
    rw [length, full]
    exact Nat.lt_irrefl _
  have left : key ∉ cache.entries.tail.map Prod.fst := by
    rw [List.map_tail]
    exact mt List.mem_of_mem_tail new
  rw [put, unknown, decide_eq_false space, Bool.or_false, if_neg nofun, entries_record,
    cache.popLeast_spec.2.1, filter_ne_eq_self left]

end Put

instance : RequestCache LoggedCache where
  withCapacity := withCapacity
  capacity := capacity
  entries := entries
  length := length
  put := put
  popLeast := popLeast

instance : LawfulRequestCache LoggedCache where
  capacity_withCapacity room _ := rfl
  entries_withCapacity room := rfl
  length_eq := length_eq
  capacity_put cache key value := capacity_put value
  put_known cache key value := entries_put_of_known value
  put_new cache key value := entries_put_of_new value
  put_full cache key value := entries_put_of_full value
  capacity_popLeast cache := cache.popLeast_spec.2.2
  popLeast_nil cache none := by
    have none : cache.entries = [] := none
    have popped := cache.popLeast_spec
    rw [none] at popped
    exact ⟨popped.1, popped.2.1⟩
  popLeast_cons cache entry rest some := by
    have some : cache.entries = entry :: rest := some
    have popped := cache.popLeast_spec
    rw [some] at popped
    exact ⟨popped.1, popped.2.1⟩

end LoggedCache

end LayeredGraph
