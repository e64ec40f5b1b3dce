import LayeredGraph.Ident

/-! The latest of the elements that came under each key. A list holds what came one after another,
several times under one key or not; the latest elements of all keys stand in the order in which they
came, and cutting off the oldest ones is cutting the list. -/
namespace LayeredGraph

variable {α : Type} (key : α → NodeId)

/-- The last element under each key, in the order in which these came. -/
def latestBy : List α → List α
  | [] => []
  | first :: later =>
      if key first ∈ later.map key then latestBy later else first :: latestBy later

/-- The elements that came since the last one under a key, latest first. -/
def sinceLast (came : List α) (node : NodeId) : List α :=
  came.reverse.takeWhile (key · ≠ node)

/-- The last element under a key stands at some position. -/
def LastAt (came : List α) (node : NodeId) (position : Nat) : Prop :=
  ∃ element, came[position]? = some element ∧ key element = node ∧
    node ∉ (came.drop (position + 1)).map key

section Latest

variable {key} {came : List α} {element : α} {node : NodeId}

@[simp] theorem mem_keys_latestBy : node ∈ (latestBy key came).map key ↔ node ∈ came.map key := by
  induction came with
  | nil => rfl
  | cons first later ih =>
    rw [latestBy]
    split
    · next again =>
      rw [ih, List.map_cons, List.mem_cons]
      exact ⟨.inr, fun
        | .inl same => same ▸ again
        | .inr behind => behind⟩
    · rw [List.map_cons, List.map_cons, List.mem_cons, List.mem_cons, ih]

theorem nodup_latestBy (came : List α) : ((latestBy key came).map key).Nodup := by
  induction came with
  | nil => exact List.nodup_nil
  | cons first later ih =>
    rw [latestBy]
    split
    · exact ih
    · next new => exact List.nodup_cons.2 ⟨mt mem_keys_latestBy.1 new, ih⟩

theorem latestBy_sublist (came : List α) : (latestBy key came).Sublist came := by
  induction came with
  | nil => exact .slnil
  | cons first later ih =>
    rw [latestBy]
    split
    · exact ih.cons _
    · exact ih.cons_cons _

/-- One more element replaces the last one under its key and comes to stand last. -/
theorem latestBy_append_singleton (came : List α) (element : α) :
    latestBy key (came ++ [element]) =
      (latestBy key came).filter (key · ≠ key element) ++ [element] := by
  induction came with
  | nil => rfl
  | cons first later ih =>
    rw [List.cons_append, latestBy, latestBy, ih]
    simp only [List.map_append, List.mem_append, List.map_cons, List.map_nil,
      List.mem_singleton]
    by_cases again : key first ∈ later.map key
    · rw [if_pos (.inl again), if_pos again]
    · rw [if_neg again]
      by_cases same : key first = key element
      · rw [if_pos (.inr same), List.filter_cons_of_neg (by simp [same])]
      · rw [if_neg (by simp only [again, same, or_false, not_false_eq_true]),
          List.filter_cons_of_pos (by simp [same]), List.cons_append]

/-- Without the oldest ones, the latest elements are those of a later part of the list. -/
theorem eq_latestBy_drop_of_suffix {last : List α} (suffix : last <:+ latestBy key came) :
    ∃ count, last = latestBy key (came.drop count) := by
  induction came with
  | nil => exact ⟨0, List.suffix_nil.1 suffix⟩
  | cons first later ih =>
    rw [latestBy] at suffix
    split at suffix
    · obtain ⟨count, same⟩ := ih suffix
      exact ⟨count + 1, same⟩
    · next new =>
      rcases List.suffix_cons_iff.1 suffix with rfl | behind
      · refine ⟨0, ?_⟩
        rw [List.drop_zero, latestBy, if_neg new]
      · obtain ⟨count, same⟩ := ih behind
        exact ⟨count + 1, same⟩

/-- The element under a key among the latest ones is the first under it from the end. -/
theorem find?_of_mem_latestBy (mem : element ∈ latestBy key came) :
    came.reverse.find? (key · = key element) = some element := by
  induction came with
  | nil => nomatch mem
  | cons first later ih =>
    rw [List.reverse_cons, List.find?_append]
    rw [latestBy] at mem
    split at mem
    · rw [ih mem, Option.some_or]
    · next new =>
      rcases List.mem_cons.1 mem with rfl | behind
      · have none : later.reverse.find? (key · = key element) = none := by
          simpa using new
        rw [none, Option.none_or]
        simp
      · rw [ih behind, Option.some_or]

/-- Once nothing is left under a key in a tail, all elements of the tail came after the last one
under it. -/
theorem mem_sinceLast {count : Nat} (gone : node ∉ (came.drop count).map key)
    (mem : element ∈ came.drop count) : element ∈ sinceLast key came node := by
  have others : ∀ later ∈ (came.drop count).reverse, decide (key later ≠ node) = true := by
    intro later behind
    rw [decide_eq_true_iff]
    rintro rfl
    exact gone (List.mem_map_of_mem (List.mem_reverse.1 behind))
  rw [sinceLast, ← List.take_append_drop count came, List.reverse_append,
    List.takeWhile_append_of_pos others]
  exact List.mem_append_left _ (List.mem_reverse.2 mem)

/-- Under a key that came there is a last element. -/
theorem exists_lastAt (held : node ∈ came.map key) : ∃ position, LastAt key came node position := by
  induction came with
  | nil => nomatch held
  | cons first later ih =>
    by_cases again : node ∈ later.map key
    · obtain ⟨position, element, found, same, none⟩ := ih again
      exact ⟨position + 1, element, found, same, none⟩
    · rw [List.map_cons, List.mem_cons] at held
      exact ⟨0, first, rfl, (held.resolve_right again).symm, again⟩

/-- One more element is the last one under its key. -/
theorem lastAt_append_self (came : List α) (element : α) (position : Nat) :
    LastAt key (came ++ [element]) (key element) position ↔ came.length = position := by
  constructor
  · rintro ⟨other, found, -, last⟩
    have inside := (List.getElem?_eq_some_iff.1 found).1
    rw [List.length_append, List.length_singleton] at inside
    refine Nat.le_antisymm (Nat.le_of_not_lt fun before => last ?_) (Nat.le_of_lt_succ inside)
    rw [List.drop_append_of_le_length before, List.map_append]
    exact List.mem_append_right _ (List.mem_singleton_self _)
  · rintro rfl
    have whole : (came ++ [element]).length = came.length + 1 := List.length_append
    refine ⟨element, List.getElem?_concat_length, rfl, ?_⟩
    rw [List.drop_eq_nil_of_le (Nat.le_of_eq whole)]
    exact List.not_mem_nil

/-- One more element leaves the last ones under other keys where they are. -/
theorem lastAt_append_of_ne (other : key element ≠ node) (position : Nat) :
    LastAt key (came ++ [element]) node position ↔ LastAt key came node position := by
  rcases Nat.lt_or_ge position came.length with inside | past
  · rw [LastAt, LastAt, List.getElem?_append_left inside, List.drop_append_of_le_length inside,
      List.map_append]
    simp [other.symm]
  · have absent : ¬LastAt key came node position := by
      rintro ⟨_, found, -⟩
      rw [List.getElem?_eq_none past] at found
      nomatch found
    refine iff_of_false ?_ absent
    rintro ⟨found, at_, same, -⟩
    rw [List.getElem?_append_right past] at at_
    have last := List.mem_of_getElem? at_
    exact other (List.mem_singleton.1 last ▸ same)

theorem filter_ne_eq_self (new : node ∉ came.map key) : came.filter (key · ≠ node) = came :=
  List.filter_eq_self.2 fun _ member => decide_eq_true fun same =>
    new (same ▸ List.mem_map_of_mem member)

/-- Among elements under distinct keys at most one is replaced. -/
theorem length_filter_ne (distinct : (came.map key).Nodup) (node : NodeId) :
    (came.filter (key · ≠ node)).length =
      came.length - if node ∈ came.map key then 1 else 0 := by
  have erased : (came.filter (key · ≠ node)).map key = (came.map key).erase node := by
    rw [distinct.erase_eq_filter, List.filter_map]
    refine congrArg _ (List.filter_congr fun element _ => ?_)
    rw [Function.comp_apply, Bool.eq_iff_iff, bne_iff_ne, decide_eq_true_iff]
  have length := congrArg List.length erased
  rw [List.length_map, List.length_erase, List.length_map] at length
  rw [length]
  split <;> rfl

end Latest

end LayeredGraph
