import LayeredGraph.Proofs.Queue.Arena
import LayeredGraph.Queue.Block

/-! A chain of blocks as a first-in first-out list. The links lead from the reader's block to the
writer's, slots are counted through from the first block on, and the slots between the two places
hold the accepted requests in order. Blocks of the chain and the one that the reader left last are
handed out; all others are free. -/
namespace LayeredGraph

namespace BlockQueue

/-- The links lead from a block through a list of blocks to a last one. -/
def Path (next : Nat → Option Nat) (stop : Nat) : Nat → List Nat → Prop
  | start, [] => start = stop
  | start, index :: rest =>
      start = index ∧ ∃ following, next index = some following ∧ Path next stop following rest

/-- A block linked behind the last one prolongs the path. -/
theorem Path.append {next later : Nat → Option Nat} {start stop new : Nat} {full : List Nat}
    (h : Path next stop start full) (same : ∀ index ∈ full, later index = next index)
    (link : later stop = some new) : Path later new start (full ++ [stop]) := by
  induction full generalizing start with
  | nil => exact ⟨h, new, link, rfl⟩
  | cons index rest ih =>
    obtain ⟨here, following, onward, rest⟩ := h
    refine ⟨here, following, ?_, ih rest fun other member => same other ?_⟩
    · rw [same index List.mem_cons_self, onward]
    · exact List.mem_cons_of_mem _ member

theorem Path.congr {next later : Nat → Option Nat} {start stop : Nat} {full : List Nat}
    (h : Path next stop start full) (same : ∀ index ∈ full, later index = next index) :
    Path later stop start full := by
  induction full generalizing start with
  | nil => exact h
  | cons index rest ih =>
    obtain ⟨here, following, onward, rest⟩ := h
    refine ⟨here, following, ?_, ih rest fun other member => same other ?_⟩
    · rw [same index List.mem_cons_self, onward]
    · exact List.mem_cons_of_mem _ member

theorem Path.head {next : Nat → Option Nat} {start stop : Nat} {full : List Nat}
    (h : Path next stop start full) : (full ++ [stop])[0]? = some start := by
  cases full with
  | nil => exact congrArg some (Eq.symm h)
  | cons index rest => exact congrArg some h.1.symm

/-- The block behind a block. -/
def nextOf (queue : BlockQueue) (index : Nat) : Option Nat :=
  (queue.arena.get? index).bind (·.next)

/-- The words in a slot of a block. -/
def wordsAt (queue : BlockQueue) (index slot : Nat) : Option RequestWords :=
  (queue.arena.get? index).bind (·.slots[slot]?)

/-- A queue whose reader stands in block number `base` and whose writer stands behind the blocks
`full` from there on, with some requests accepted so far. -/
structure Chained (queue : BlockQueue) (accepted : List Request) (base : Nat)
    (full free : List Nat) : Prop where
  size_pos : 0 < queue.blockSize
  owns : queue.arena.Owns free (queue.deferred.toList ++ (full ++ [queue.writeBlock]))
  path : Path queue.nextOf queue.writeBlock queue.readBlock full
  deferred : queue.deferred.isSome = decide (0 < base)
  written : queue.written = accepted.length
  writer : queue.written = (base + full.length) * queue.blockSize + queue.writePosition
  reader : queue.consumed = base * queue.blockSize + queue.readPosition
  writePosition_le : queue.writePosition ≤ queue.blockSize
  readPosition_le : queue.readPosition ≤ queue.blockSize
  consumed_le : queue.consumed ≤ queue.written
  writable : ∀ block, queue.arena.get? queue.writeBlock = some block →
    queue.writePosition ≤ block.slots.size
  slots : ∀ k index slot, (full ++ [queue.writeBlock])[k]? = some index → slot < queue.blockSize →
    queue.consumed ≤ (base + k) * queue.blockSize + slot →
    (base + k) * queue.blockSize + slot < queue.written →
    queue.wordsAt index slot =
      accepted[(base + k) * queue.blockSize + slot]?.map .ofRequest

/-- Block and slot are determined by the number that is counted through. -/
theorem mul_add_inj {size a b i j : Nat} (h : a * size + i = b * size + j) (first : i < size)
    (second : j < size) : a = b ∧ i = j := by
  rcases Nat.lt_trichotomy a b with below | rfl | above
  · have := Nat.mul_le_mul_right size (Nat.succ_le_of_lt below)
    rw [Nat.succ_mul] at this
    omega
  · exact ⟨rfl, Nat.add_left_cancel h⟩
  · have := Nat.mul_le_mul_right size (Nat.succ_le_of_lt above)
    rw [Nat.succ_mul] at this
    omega

section Chained

variable {queue : BlockQueue} {accepted : List Request} {base : Nat} {full free : List Nat}

theorem Chained.nodup (h : queue.Chained accepted base full free) :
    (full ++ [queue.writeBlock]).Nodup :=
  (List.nodup_append.1 (List.nodup_append.1 h.owns.nodup).2.1).2.1

theorem mem_held_of_mem_chain {index : Nat} (member : index ∈ full ++ [queue.writeBlock]) :
    index ∈ queue.deferred.toList ++ (full ++ [queue.writeBlock]) :=
  List.mem_append_right _ member

theorem writeBlock_mem_chain : queue.writeBlock ∈ full ++ [queue.writeBlock] :=
  List.mem_append_right _ (List.mem_singleton_self _)

theorem Chained.ne_writeBlock (h : queue.Chained accepted base full free) {index : Nat}
    (member : index ∈ full) : queue.writeBlock ≠ index :=
  fun same => (List.nodup_append.1 h.nodup).2.2 index member _ (List.mem_singleton_self _) same.symm

/-- A block of the chain is the writer's exactly at the last place. -/
theorem Chained.eq_length (h : queue.Chained accepted base full free) {k : Nat}
    (found : (full ++ [queue.writeBlock])[k]? = some queue.writeBlock) : k = full.length := by
  rw [List.getElem?_append] at found
  split at found
  · exact absurd rfl (h.ne_writeBlock (List.mem_of_getElem? found))
  · obtain ⟨inside, -⟩ := List.getElem?_eq_some_iff.1 found
    rw [List.length_singleton] at inside
    omega

theorem nextOf_write (queue : BlockQueue) (request : Request) (index : Nat) :
    (queue.write request).nextOf index = queue.nextOf index := by
  simp only [nextOf, write, Arena.get?_modify]
  split
  · cases queue.arena.get? index <;> rfl
  · rfl

theorem wordsAt_write_of_ne (queue : BlockQueue) (request : Request) {index slot : Nat}
    (ne : queue.writeBlock ≠ index) :
    (queue.write request).wordsAt index slot = queue.wordsAt index slot := by
  simp only [wordsAt, write, Arena.get?_modify, if_neg ne]

theorem Chained.wordsAt_write (h : queue.Chained accepted base full free) (request : Request)
    (slot : Nat) :
    (queue.write request).wordsAt queue.writeBlock slot =
      if slot = queue.writePosition then some (.ofRequest request)
      else queue.wordsAt queue.writeBlock slot := by
  obtain ⟨block, found⟩ := h.owns.exists_get? (mem_held_of_mem_chain writeBlock_mem_chain)
  have room := h.writable block found
  simp only [wordsAt, write, Arena.get?_modify, if_true, found, Option.map_some,
    Option.bind_some, Block.write]
  split
  · next same => rw [same, getElem?_writeSlot_self _ room]
  · next other => rw [getElem?_writeSlot_of_ne _ room (Ne.symm other)]

/-- Writing into a block with room appends the request. -/
theorem Chained.write (h : queue.Chained accepted base full free) (request : Request)
    (room : queue.writePosition < queue.blockSize) :
    (queue.write request).Chained (accepted ++ [request]) base full free := by
  refine ⟨h.size_pos, h.owns.modify _ _, h.path.congr fun index _ => nextOf_write _ _ _,
    h.deferred, ?_, ?_, h.reader, room, h.readPosition_le, Nat.le_succ_of_le h.consumed_le, ?_, ?_⟩
  · rw [List.length_append, ← h.written]
    rfl
  · have writer := h.writer
    simp only [BlockQueue.write]
    omega
  · intro block found
    simp only [BlockQueue.write, Arena.get?_modify, if_true] at found ⊢
    obtain ⟨before, held, rfl⟩ := Option.map_eq_some_iff.1 found
    have writable := h.writable before held
    simp only [Block.write, size_writeSlot]
    split <;> omega
  · intro k index slot found inside low high
    have found : (full ++ [queue.writeBlock])[k]? = some index := found
    have inside : slot < queue.blockSize := inside
    have low : queue.consumed ≤ (base + k) * queue.blockSize + slot := low
    have high : (base + k) * queue.blockSize + slot < queue.written + 1 := high
    change (queue.write request).wordsAt index slot =
      (accepted ++ [request])[(base + k) * queue.blockSize + slot]?.map _
    rcases Nat.lt_succ_iff_lt_or_eq.1 high with earlier | last
    · -- A slot that was written before is not the one that is written now.
      have before := h.slots k index slot found inside low earlier
      rw [List.getElem?_append_left (h.written ▸ earlier), ← before]
      by_cases same : queue.writeBlock = index
      · subst same
        have place := h.eq_length found
        rw [h.wordsAt_write, if_neg]
        rintro rfl
        rw [place, ← h.writer] at earlier
        exact Nat.lt_irrefl _ earlier
      · exact wordsAt_write_of_ne queue request same
    · have here := mul_add_inj (last.trans h.writer) inside room
      have place : k = full.length := Nat.add_left_cancel here.1
      rw [place, List.getElem?_append_right (Nat.le_refl _), Nat.sub_self] at found
      obtain rfl := Option.some.inj found
      rw [h.wordsAt_write, if_pos here.2, last, h.written,
        List.getElem?_append_right (Nat.le_refl _), Nat.sub_self]
      rfl

theorem get?_nextBlock (queue : BlockQueue) (other : Nat) :
    queue.nextBlock.arena.get? other =
      let taken := queue.arena.take Block.empty
      let unlinked :=
        if taken.1 = other then (taken.2.get? other).map fun block => { block with next := none }
        else taken.2.get? other
      if queue.writeBlock = other then
        unlinked.map fun block => { block with next := some taken.1 }
      else unlinked := by
  simp only [nextBlock, Arena.get?_modify]

/-- What linking a block changes: it is handed out, nothing stands behind it, and it stands behind
the writer's block. Blocks of the chain keep their words. -/
theorem Chained.link (h : queue.Chained accepted base full free)
    (room : queue.arena.hasRoom = true) :
    ∃ left, queue.nextBlock.arena.Owns left (queue.nextBlock.writeBlock ::
        (queue.deferred.toList ++ (full ++ [queue.writeBlock]))) ∧
      queue.nextBlock.arena.capacity = queue.arena.capacity ∧
      queue.nextBlock.blocksCreated = max queue.blocksCreated
        ((queue.deferred.toList ++ (full ++ [queue.writeBlock])).length + 1) ∧
      queue.nextBlock.nextOf queue.writeBlock = some queue.nextBlock.writeBlock ∧
      (∀ other ∈ full, queue.nextBlock.nextOf other = queue.nextOf other) ∧
      ∀ other ∈ full ++ [queue.writeBlock], ∀ slot,
        queue.nextBlock.wordsAt other slot = queue.wordsAt other slot := by
  rw [h.owns.hasRoom_iff] at room
  obtain ⟨index, left, rfl, owns, fresh, capacity, created, others⟩ :=
    h.owns.take room Block.empty
  have apart : ∀ other ∈ full ++ [queue.writeBlock],
      (queue.arena.take Block.empty).1 ≠ other := by
    rintro other member rfl
    exact fresh (mem_held_of_mem_chain member)
  have kept : ∀ other ∈ full ++ [queue.writeBlock],
      (queue.arena.take Block.empty).2.get? other = queue.arena.get? other :=
    fun other member => others other (mem_held_of_mem_chain member)
  refine ⟨left, (owns.modify _ _).modify _ _, capacity, ?_, ?_, ?_, ?_⟩
  · simp only [blocksCreated, BlockQueue.nextBlock, Arena.created_modify]
    exact created
  · have inside : queue.writeBlock ∈ full ++ [queue.writeBlock] := writeBlock_mem_chain
    obtain ⟨block, found⟩ := h.owns.exists_get? (mem_held_of_mem_chain inside)
    simp only [nextOf, get?_nextBlock, if_neg (apart _ inside), kept _ inside, found, if_true,
      Option.map_some, Option.bind_some]
    rfl
  · intro other member
    have inside : other ∈ full ++ [queue.writeBlock] := List.mem_append_left _ member
    simp only [nextOf, get?_nextBlock, if_neg (apart other inside), kept other inside,
      if_neg (h.ne_writeBlock member)]
  · intro other member slot
    simp only [wordsAt, get?_nextBlock, if_neg (apart other member), kept other member]
    split
    · cases queue.arena.get? other <;> rfl
    · rfl

/-- Linking a block of the pool behind the writer's full one. -/
theorem Chained.nextBlock (h : queue.Chained accepted base full free)
    (last : queue.writePosition = queue.blockSize) (room : queue.arena.hasRoom = true) :
    ∃ left, queue.nextBlock.Chained accepted base (full ++ [queue.writeBlock]) left ∧
      queue.nextBlock.arena.capacity = queue.arena.capacity ∧
      queue.nextBlock.blocksCreated = max queue.blocksCreated
        (queue.deferred.toList.length + (full.length + 1) + 1) := by
  obtain ⟨left, owns, capacity, created, link, next, words⟩ := h.link room
  rw [List.length_append, List.length_append, List.length_singleton] at created
  have writer := h.writer
  rw [last] at writer
  have length : base + (full ++ [queue.writeBlock]).length = base + full.length + 1 := by
    rw [List.length_append, List.length_singleton, Nat.add_assoc]
  refine ⟨left, ⟨h.size_pos, ?_, h.path.append next link, h.deferred, h.written, ?_, h.reader,
    Nat.zero_le _, h.readPosition_le, h.consumed_le, fun _ _ => Nat.zero_le _, ?_⟩, capacity,
    created⟩
  · refine owns.perm ?_
    have held : queue.nextBlock.deferred = queue.deferred := rfl
    rw [held, ← List.append_assoc queue.deferred.toList _ [queue.nextBlock.writeBlock]]
    exact (List.perm_append_singleton _ _).symm
  · rw [length, Nat.succ_mul]
    exact writer
  · intro k other slot found inside low high
    rw [List.getElem?_append] at found
    split at found
    · rw [words other (List.mem_of_getElem? found)]
      exact h.slots k other slot found inside low high
    · next past =>
      -- Nothing is written in the new block, so none of its slots counts yet.
      have beyond : base + full.length + 1 ≤ base + k := by
        rw [← length]
        omega
      have most := Nat.mul_le_mul_right queue.blockSize beyond
      have high : (base + k) * queue.blockSize + slot < queue.written := high
      rw [Nat.succ_mul] at most
      omega

section LeaveBlock

variable {following : Nat}

theorem get?_leaveBlock (other : Nat) :
    (queue.leaveBlock following).arena.get? other = queue.arena.get? other := by
  unfold leaveBlock
  cases queue.deferred with
  | none => rfl
  | some drained => exact Arena.get?_release _ _ _

theorem capacity_leaveBlock :
    (queue.leaveBlock following).arena.capacity = queue.arena.capacity := by
  unfold leaveBlock
  cases queue.deferred with
  | none => rfl
  | some drained => exact Arena.capacity_release _ _

theorem blocksCreated_leaveBlock :
    (queue.leaveBlock following).blocksCreated = queue.blocksCreated := by
  unfold leaveBlock
  cases queue.deferred with
  | none => rfl
  | some drained => exact Arena.created_release _ _

/-- The block that was left before goes back to the pool. -/
theorem owns_leaveBlock {held : List Nat}
    (owns : queue.arena.Owns free (queue.deferred.toList ++ held)) :
    ∃ left, (queue.leaveBlock following).arena.Owns left held := by
  unfold leaveBlock
  cases kept : queue.deferred with
  | none =>
    rw [kept] at owns
    exact ⟨free, owns⟩
  | some drained =>
    rw [kept] at owns
    exact ⟨drained :: free, owns.release⟩

end LeaveBlock

/-- Leaving a block that was read to its end for the one behind it. -/
theorem Chained.leaveBlock (h : queue.Chained accepted base full free)
    (last : queue.readPosition = queue.blockSize) (more : queue.consumed < queue.written) :
    ∃ following rest left, queue.following? = some following ∧ full = queue.readBlock :: rest ∧
      (queue.leaveBlock following).Chained accepted (base + 1) rest left ∧
      (queue.leaveBlock following).arena.capacity = queue.arena.capacity ∧
      (queue.leaveBlock following).blocksCreated = queue.blocksCreated := by
  have writer := h.writer
  have reader := h.reader
  rw [last] at reader
  cases full with
  | nil =>
    have bound := h.writePosition_le
    rw [List.length_nil, Nat.add_zero] at writer
    omega
  | cons first rest =>
    obtain ⟨here, following, onward, path⟩ := h.path
    have place : (base + 1) + rest.length = base + (first :: rest).length := by
      rw [List.length_cons]
      omega
    have linked : queue.following? = some following := by
      rw [following?, here]
      exact onward
    obtain ⟨left, owns⟩ := owns_leaveBlock h.owns
    rw [← here] at owns
    refine ⟨following, rest, left, linked, by rw [here], ⟨h.size_pos, owns, ?_, ?_, h.written, ?_,
      ?_, h.writePosition_le, Nat.zero_le _, h.consumed_le, ?_, ?_⟩, capacity_leaveBlock,
      blocksCreated_leaveBlock⟩
    · refine path.congr fun other _ => ?_
      rw [nextOf, get?_leaveBlock, nextOf]
    · simp [BlockQueue.leaveBlock]
    · rw [place]
      exact writer
    · rw [Nat.succ_mul]
      exact reader
    · intro block found
      rw [get?_leaveBlock] at found
      exact h.writable block found
    · intro k other slot found inside low high
      have shift : base + 1 + k = base + (k + 1) := by omega
      rw [shift] at low high ⊢
      rw [wordsAt, get?_leaveBlock]
      exact h.slots (k + 1) other slot found inside low high

/-- Reading in a block that was not read to its end gives the oldest request that is left. -/
theorem Chained.read (h : queue.Chained accepted base full free)
    (room : queue.readPosition < queue.blockSize) (more : queue.consumed < queue.written) :
    ∃ request, queue.read = (some request, { queue with
        readPosition := queue.readPosition + 1
        consumed := queue.consumed + 1 }) ∧
      accepted[queue.consumed]? = some request ∧
      queue.read.2.Chained accepted base full free := by
  have inside : queue.consumed < accepted.length := h.written ▸ more
  have oldest := List.getElem?_eq_getElem inside
  have head := h.path.head
  have reader := h.reader
  have words := h.slots 0 queue.readBlock queue.readPosition head room
  rw [Nat.add_zero, ← reader, oldest, Option.map_some] at words
  have words := words (Nat.le_refl _) more
  obtain ⟨block, found⟩ := h.owns.exists_get?
    (mem_held_of_mem_chain (List.mem_of_getElem? head))
  have slot : block.slots[queue.readPosition]? = some (.ofRequest accepted[queue.consumed]) := by
    rw [wordsAt, found] at words
    exact words
  have value : block.read queue.readPosition = accepted[queue.consumed] := by
    rw [Block.read, slot, Option.getD_some, RequestWords.toRequest_ofRequest]
  have step : queue.read = (some accepted[queue.consumed], { queue with
      readPosition := queue.readPosition + 1
      consumed := queue.consumed + 1 }) := by
    simp only [BlockQueue.read, found, value]
  refine ⟨_, step, oldest, ?_⟩
  rw [step]
  refine ⟨h.size_pos, h.owns, h.path, h.deferred, h.written, h.writer, ?_, h.writePosition_le,
    room, more, h.writable, ?_⟩
  · simp only
    omega
  · intro k other slot place inside low high
    exact h.slots k other slot place inside (Nat.le_of_succ_le low) high

end Chained

end BlockQueue

end LayeredGraph
