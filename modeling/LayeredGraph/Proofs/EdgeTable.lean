import LayeredGraph.EdgeTable

/-! Reading back a packed table: the bytes of a target list, cut into slots of eight, are the
words of the targets, so a slot of the table holds the target at its position in the list. -/
namespace LayeredGraph

theorem drop_flatMap_wordBytes (words : List UInt64) (k : Nat) :
    (words.flatMap wordBytes).drop (8 * k) = (words.drop k).flatMap wordBytes := by
  induction k generalizing words with
  | zero => simp
  | succ k ih =>
    cases words with
    | nil => simp
    | cons word words =>
      have split : (word :: words).flatMap wordBytes = wordBytes word ++ words.flatMap wordBytes :=
        List.flatMap_cons
      rw [split, Nat.mul_succ, Nat.add_comm, ← List.drop_drop, List.drop_left' (by simp), ih]
      rfl

theorem take_flatMap_wordBytes (word : UInt64) (words : List UInt64) :
    ((word :: words).flatMap wordBytes).take 8 = wordBytes word := by
  rw [List.flatMap_cons, List.take_left' (by simp)]

namespace EdgeTable

section OfTargets

variable {targets : List NodeId}

theorem size_bytes_ofTargets (targets : List NodeId) :
    (ofTargets targets).bytes.size = targets.length * slotBytes := by
  induction targets with
  | nil => rfl
  | cons target targets ih =>
    have bytes : (ofTargets (target :: targets)).bytes.size =
        slotBytes + (ofTargets targets).bytes.size := by
      simp [ofTargets, slotBytes]
    rw [bytes, ih, List.length_cons, Nat.succ_mul, Nat.add_comm]

theorem isEmpty_ofTargets (targets : List NodeId) :
    (ofTargets targets).isEmpty = true ↔ targets = [] := by
  rw [isEmpty, beq_iff_eq, slots_ofTargets, List.length_eq_zero_iff]

/-- The eight bytes at a slot's place are those of the target that was packed there. -/
theorem extract_ofTargets {slot : Nat} {target : NodeId} (h : targets[slot]? = some target) :
    ((ofTargets targets).bytes.extract (slot * slotBytes) (slot * slotBytes + slotBytes)).toList =
      wordBytes target.number := by
  have words : targets.flatMap (fun t => wordBytes t.number) =
      (targets.map NodeId.number).flatMap wordBytes := by
    rw [List.flatMap_map]
  have tail : (targets.map NodeId.number).drop slot =
      target.number :: (targets.map NodeId.number).drop (slot + 1) := by
    obtain ⟨inside, value⟩ := List.getElem?_eq_some_iff.1 h
    rw [List.drop_eq_getElem_cons (by simpa using inside), List.getElem_map, value]
  simp only [ofTargets, List.extract_toArray, List.extract_eq_take_drop, slotBytes,
    Nat.add_sub_cancel_left, words]
  rw [Nat.mul_comm, drop_flatMap_wordBytes, tail, take_flatMap_wordBytes]

theorem readAt_ofTargets {slot : Nat} {target : NodeId} (h : targets[slot]? = some target) :
    (ofTargets targets).readAt (slot * slotBytes) = target := by
  rw [readAt, extract_ofTargets h, wordOfBytes_wordBytes]

/-- A slot holds the target at its position in the list, and there are no other slots. -/
@[simp] theorem target?_ofTargets (targets : List NodeId) (slot : Nat) :
    (ofTargets targets).target? slot = targets[slot]? := by
  unfold target?
  split
  · next inside =>
    have inside : slot < targets.length := inside
    rw [readAt_ofTargets (List.getElem?_eq_getElem inside), List.getElem?_eq_getElem inside]
  · next outside => exact (List.getElem?_eq_none (Nat.not_lt.1 outside)).symm

end OfTargets

/-- The last slot whose product with the width fits in a word. -/
def lastSlot : UInt64 := 0x1fffffffffffffff

section Words

variable {slot : UInt64}

theorem slotSpan?_of_lt (h : slot.toNat < lastSlot.toNat) :
    ∃ start stop, slotSpan? slot = some (start, stop) ∧ start.toNat = slot.toNat * slotBytes ∧
      stop.toNat = slot.toNat * slotBytes + slotBytes := by
  have last : lastSlot.toNat = 0x1fffffffffffffff := rfl
  have fits : slot.toNat * slotBytes < UInt64.size := by
    simp only [slotBytes, UInt64.size]
    omega
  refine ⟨_, _, if_pos fits, ?_, ?_⟩
  · simp only [UInt64.toNat_mul, UInt64.toNat_ofNat, slotBytes]
    omega
  · simp only [UInt64.toNat_add, UInt64.toNat_mul, UInt64.toNat_ofNat, slotBytes]
    omega

/-- At the last slot the sum wraps around. -/
theorem slotSpan?_lastSlot : slotSpan? lastSlot = some (0xfffffffffffffff8, 0) := by decide

theorem slotSpan?_eq_none_iff : slotSpan? slot = none ↔ lastSlot.toNat < slot.toNat := by
  have last : lastSlot.toNat = 0x1fffffffffffffff := rfl
  rw [slotSpan?, ite_eq_right_iff]
  simp only [reduceCtorEq, imp_false, slotBytes, UInt64.size]
  omega

/-- A slot comes before the last one, is the last one, or has no span. -/
theorem slot_cases (slot : UInt64) :
    slot.toNat < lastSlot.toNat ∨ slot = lastSlot ∨ slotSpan? slot = none := by
  rw [slotSpan?_eq_none_iff, ← UInt64.toNat_inj]
  omega

/-- Only at the last slot a sum leaves the words. -/
theorem overflows_iff (table : EdgeTable) :
    table.overflows slot = true ↔ table.isEmpty = false ∧ slot = lastSlot := by
  rw [overflows, Bool.and_eq_true, Bool.not_eq_true']
  apply and_congr_right
  intro _
  rcases slot_cases slot with before | rfl | none
  · obtain ⟨start, stop, span, first, last⟩ := slotSpan?_of_lt before
    have above : ¬stop < start := by
      rw [UInt64.lt_iff_toNat_lt, first, last]
      exact Nat.not_lt.2 (Nat.le_add_right _ _)
    have other : slot ≠ lastSlot := by
      rintro rfl
      exact Nat.lt_irrefl _ before
    simp [span, above, other]
  · simp [slotSpan?_lastSlot]
  · have other : slot ≠ lastSlot := by
      rintro rfl
      simp [slotSpan?_lastSlot] at none
    simp [none, other]

theorem get_of_span {table : EdgeTable} {start stop : UInt64}
    (span : slotSpan? slot = some (start, stop)) :
    table.get slot = if start ≤ stop ∧ stop.toNat ≤ table.bytes.size then
      some (table.readAt start.toNat) else none := by
  simp only [get, span, bind, Option.bind]

/-- A table whose bytes words can number does not reach past the last slot. -/
theorem length_le_lastSlot {targets : List NodeId}
    (fits : (ofTargets targets).byteSize < UInt64.size) : targets.length ≤ lastSlot.toNat := by
  have last : lastSlot.toNat = 0x1fffffffffffffff := rfl
  simp only [byteSize, slots_ofTargets, slotBytes, UInt64.size] at fits
  omega

/-- Where words number the bytes of a table, a slot named by a word holds the target at its
position in the list; the span that wraps around lies nowhere in the table. -/
theorem get_ofTargets {targets : List NodeId} (fits : (ofTargets targets).byteSize < UInt64.size)
    (slot : UInt64) : (ofTargets targets).get slot = targets[slot.toNat]? := by
  have few := length_le_lastSlot fits
  rcases slot_cases slot with before | rfl | none
  · obtain ⟨start, stop, span, first, last⟩ := slotSpan?_of_lt before
    have ordered : start ≤ stop := by
      rw [UInt64.le_iff_toNat_le, first, last]
      exact Nat.le_add_right _ _
    have within : stop.toNat ≤ (ofTargets targets).bytes.size ↔ slot.toNat < targets.length := by
      rw [last, size_bytes_ofTargets, slotBytes]
      omega
    rw [get_of_span span, first]
    by_cases inside : slot.toNat < targets.length
    · have target := List.getElem?_eq_getElem inside
      rw [if_pos ⟨ordered, within.2 inside⟩, target, readAt_ofTargets target]
    · rw [if_neg (mt (fun both => within.1 both.2) inside),
        List.getElem?_eq_none (Nat.not_lt.1 inside)]
  -- Where the sum wraps around, the span ends before it starts.
  · have backwards : ¬(0xfffffffffffffff8 : UInt64) ≤ 0 := by decide
    rw [get_of_span slotSpan?_lastSlot, if_neg fun both => backwards both.1,
      List.getElem?_eq_none few]
  · have past := slotSpan?_eq_none_iff.1 none
    rw [List.getElem?_eq_none (Nat.le_trans few (Nat.le_of_lt past))]
    simp only [get, none, bind, Option.bind]

/-- A read of a slot that the table has cannot fail. -/
theorem read_ofTargets {targets : List NodeId} (fits : (ofTargets targets).byteSize < UInt64.size)
    {slot : Nat} (inside : slot < targets.length) :
    (ofTargets targets).read (UInt64.ofNat slot) = .ok targets[slot]? := by
  have before := Nat.lt_of_lt_of_le inside (length_le_lastSlot fits)
  have number : (UInt64.ofNat slot).toNat = slot :=
    UInt64.toNat_ofNat_of_lt' (Nat.lt_trans before lastSlot.toNat_lt)
  have stays : ¬(ofTargets targets).overflows (UInt64.ofNat slot) = true := by
    rw [overflows_iff]
    rintro ⟨-, last⟩
    rw [← last, number] at before
    exact Nat.lt_irrefl slot before
  rw [read, if_neg stays, get_ofTargets fits, number]

end Words

/-- In a table whose bytes words can number, a slot holds the eight bytes of the target at its
position in the list, least significant first, and gives that target back, whatever word names the
slot. The product with the width is formed only where it fits in a word. The sum that ends the span
fits at every slot but the last one of these: there it wraps around, and where words may not wrap
around a read of any table with targets fails, although the list is never as long. -/
theorem slots_read_back_before_overflow {targets : List NodeId}
    (fits : (ofTargets targets).byteSize < UInt64.size) (slot : UInt64) :
    let table := ofTargets targets
    (∀ target, targets[slot.toNat]? = some target →
      (table.bytes.extract (slot.toNat * slotBytes) (slot.toNat * slotBytes + slotBytes)).toList =
        wordBytes target.number ∧ wordOfBytes (wordBytes target.number) = target.number) ∧
    (slotSpan? slot = none ↔ UInt64.size ≤ slot.toNat * slotBytes) ∧
    (∀ start stop, slotSpan? slot = some (start, stop) →
      start.toNat = slot.toNat * slotBytes ∧
      (stop.toNat = start.toNat + slotBytes ↔ slot ≠ lastSlot)) ∧
    table.get slot = targets[slot.toNat]? ∧
    table.read slot =
      if targets ≠ [] ∧ slot = lastSlot then .error .sum else .ok targets[slot.toNat]? := by
  intro table
  have last : lastSlot.toNat = 0x1fffffffffffffff := rfl
  have given : table.get slot = targets[slot.toNat]? := get_ofTargets fits slot
  have faulty : table.overflows slot = true ↔ targets ≠ [] ∧ slot = lastSlot := by
    rw [overflows_iff, ← Bool.not_eq_true, isEmpty_ofTargets]
  refine ⟨fun target found => ⟨extract_ofTargets found, wordOfBytes_wordBytes _⟩, ?_, ?_, given, ?_⟩
  · rw [slotSpan?_eq_none_iff, last]
    simp only [slotBytes, UInt64.size]
    omega
  · intro start stop span
    rcases slot_cases slot with before | rfl | none
    · obtain ⟨_, _, same, first, sum⟩ := slotSpan?_of_lt before
      obtain ⟨rfl, rfl⟩ := Prod.mk.inj (Option.some.inj (same.symm.trans span))
      have other : slot ≠ lastSlot := by
        rintro rfl
        exact Nat.lt_irrefl _ before
      exact ⟨first, iff_of_true (by rw [sum, first]) other⟩
    · obtain ⟨rfl, rfl⟩ := Prod.mk.inj (Option.some.inj (slotSpan?_lastSlot.symm.trans span))
      exact ⟨rfl, iff_of_false (by decide) (fun differ => differ rfl)⟩
    · rw [none] at span
      exact absurd span (Option.some_ne_none _).symm
  · rw [read, given]
    exact ite_congr (propext faulty) (fun _ => rfl) fun _ => rfl

theorem slots_read_back_of_two_targets :
    let targets : List NodeId := [⟨9⟩, ⟨0xfffffffffffffffe⟩]
    (ofTargets targets).byteSize < UInt64.size ∧
    (ofTargets targets).read 1 = .ok (some ⟨0xfffffffffffffffe⟩) ∧
    (ofTargets targets).read 2 = .ok none ∧
    (ofTargets targets).read 0x2000000000000000 = .ok none := by
  intro targets
  have fits : (ofTargets targets).byteSize < UInt64.size := by decide
  exact ⟨fits, (slots_read_back_before_overflow fits 1).2.2.2.2,
    (slots_read_back_before_overflow fits 2).2.2.2.2,
    (slots_read_back_before_overflow fits 0x2000000000000000).2.2.2.2⟩

/-- Already for a single target there is a slot at which a read fails instead of giving nothing. -/
theorem read_overflows_on_single_target :
    let targets : List NodeId := [⟨9⟩]
    slotSpan? 0x1fffffffffffffff = some (0xfffffffffffffff8, 0) ∧
    (ofTargets targets).read 0x1fffffffffffffff = .error .sum ∧
    ¬∀ slot : UInt64, (ofTargets targets).read slot = .ok targets[slot.toNat]? := by
  intro targets
  have fault : (ofTargets targets).read 0x1fffffffffffffff = .error .sum := rfl
  refine ⟨by decide, fault, fun always => ?_⟩
  have answer := always 0x1fffffffffffffff
  rw [fault] at answer
  exact nomatch answer

end EdgeTable

end LayeredGraph
