import LayeredGraph.Proofs.Queue.Block
import LayeredGraph.Proofs.Queue.Run
import LayeredGraph.Queue.LoggedCache

/-! The chain of blocks as a plain queue. Requests come out in the order in which they were
accepted; one is refused exactly when the last block is full and all blocks are in use; and blocks
are created only when more of them are in use than ever before. -/
namespace LayeredGraph

variable {κ : Type} [RequestCache κ]

/-- The number of the block in which the last of some requests lies. -/
def blockOf (size count : Nat) : Nat := max ((count + size - 1) / size) 1 - 1

/-- The number of blocks in use: those from the reader's up to the writer's, and the one that the
reader left last. -/
def liveBlocks (size accepted taken : Nat) : Nat :=
  blockOf size accepted - blockOf size taken + 1 + if 0 < blockOf size taken then 1 else 0

/-- A place in a block that was entered by writing or reading its first slot. -/
theorem blockOf_eq {size block position : Nat} (pos : 0 < size) (le : position ≤ size)
    (entered : 0 < block → 0 < position) : blockOf size (block * size + position) = block := by
  unfold blockOf
  rcases Nat.eq_zero_or_pos block with rfl | later
  · have most : (0 * size + position + size - 1) / size ≤ 1 := by
      apply Nat.le_of_lt_succ
      rw [Nat.div_lt_iff_lt_mul pos]
      omega
    omega
  · have entered := entered later
    have split : block * size + position + size - 1 = (position - 1) + size * (block + 1) := by
      rw [Nat.mul_succ, Nat.mul_comm]
      omega
    have inside : (position - 1) / size = 0 := Nat.div_eq_of_lt (by omega)
    rw [split, Nat.add_mul_div_left _ _ pos, inside]
    omega

namespace BlockQueue

/-- A queue of blocks of some size, at most so many, that accepted some requests and gave out the
first of them. -/
structure Serves (queue : BlockQueue) (size blocks : Nat) (accepted : List Request)
    (taken : Nat) : Prop where
  blockSize : queue.blockSize = size
  capacity : queue.arena.capacity = blocks
  consumed : queue.consumed = taken
  chained : ∃ base full free, queue.Chained accepted base full free ∧
    (0 < base + full.length → 0 < queue.writePosition) ∧ (0 < base → 0 < queue.readPosition)

theorem serves_empty (size blocks : Nat) :
    (empty size blocks).Serves (max size 1) (max blocks 1) [] 0 ∧
      (empty size blocks).blocksCreated = 1 := by
  have room : ([] : List Nat).length < max blocks 1 := Nat.lt_of_lt_of_le Nat.one_pos
    (Nat.le_max_right _ _)
  obtain ⟨first, left, same, owns, -, capacity, created, -⟩ :=
    (Arena.owns_empty (max blocks 1)).take room Block.empty
  have writeBlock : (empty size blocks).writeBlock = first := same
  refine ⟨⟨rfl, capacity, rfl, 0, [], left, ?_, nofun, nofun⟩, created⟩
  refine ⟨Nat.lt_of_lt_of_le Nat.one_pos (Nat.le_max_right _ _), ?_, rfl, rfl, rfl, ?_, ?_,
    Nat.zero_le _, Nat.zero_le _, Nat.le_refl _, fun _ _ => Nat.zero_le _, ?_⟩
  · rw [writeBlock]
    exact owns
  · exact (Nat.zero_mul _).symm
  · exact (Nat.zero_mul _).symm
  · intro k index slot _ _ _ high
    exact absurd high (Nat.not_lt_zero _)

section Serves

variable {queue : BlockQueue} {size blocks : Nat} {accepted : List Request} {taken : Nat}

theorem Serves.taken_le (h : queue.Serves size blocks accepted taken) :
    taken ≤ accepted.length := by
  obtain ⟨base, full, free, chained, -, -⟩ := h.chained
  rw [← h.consumed, ← chained.written]
  exact chained.consumed_le

/-- The blocks that are handed out are those in use. -/
theorem Serves.live (h : queue.Serves size blocks accepted taken) {base : Nat}
    {full free : List Nat} (chained : queue.Chained accepted base full free)
    (entered : 0 < base + full.length → 0 < queue.writePosition)
    (begun : 0 < base → 0 < queue.readPosition) :
    queue.deferred.toList.length + (full.length + 1) =
      liveBlocks size accepted.length taken := by
  have writer := blockOf_eq chained.size_pos chained.writePosition_le entered
  have reader := blockOf_eq chained.size_pos chained.readPosition_le begun
  rw [← chained.writer, h.blockSize, chained.written] at writer
  rw [← chained.reader, h.blockSize, h.consumed] at reader
  have deferred := chained.deferred
  rw [liveBlocks, writer, reader, Nat.add_sub_cancel_left]
  cases kept : queue.deferred with
  | none =>
    rw [kept, Option.isSome_none] at deferred
    have first : ¬0 < base := of_decide_eq_false deferred.symm
    rw [if_neg first]
    simp
  | some index =>
    rw [kept, Option.isSome_some] at deferred
    have later : 0 < base := of_decide_eq_true deferred.symm
    rw [if_pos later]
    simp
    omega

theorem Serves.live_le (h : queue.Serves size blocks accepted taken) :
    liveBlocks size accepted.length taken ≤ queue.blocksCreated ∧
      queue.blocksCreated ≤ blocks := by
  obtain ⟨base, full, free, chained, entered, begun⟩ := h.chained
  have length := chained.owns.length
  rw [List.length_append, List.length_append, List.length_singleton,
    h.live chained entered begun] at length
  rw [← h.capacity]
  refine ⟨?_, chained.owns.created_le⟩
  rw [blocksCreated, ← length]
  exact Nat.le_add_left _ _

/-- The writer's block is full exactly at the multiples of the block size. -/
theorem Serves.full_iff (h : queue.Serves size blocks accepted taken) :
    queue.writePosition = queue.blockSize ↔ 0 < accepted.length ∧ size ∣ accepted.length := by
  obtain ⟨base, full, free, chained, entered, -⟩ := h.chained
  have writer := chained.writer
  have pos := chained.size_pos
  have bound := chained.writePosition_le
  rw [← chained.written, ← h.blockSize]
  constructor
  · intro last
    rw [last] at writer
    refine ⟨by omega, base + full.length + 1, ?_⟩
    rw [writer, Nat.mul_succ, Nat.mul_comm]
  · rintro ⟨some, divides⟩
    rw [writer, Nat.dvd_add_right (Nat.dvd_mul_left _ _)] at divides
    rcases Nat.eq_zero_or_pos queue.writePosition with zero | begun
    · have first : base + full.length = 0 := by
        refine Nat.eq_zero_of_not_pos fun later => ?_
        have := entered later
        omega
      rw [first, Nat.zero_mul] at writer
      omega
    · exact Nat.le_antisymm bound (Nat.le_of_dvd begun divides)

theorem Serves.pool_iff (h : queue.Serves size blocks accepted taken) :
    queue.arena.hasRoom = true ↔ liveBlocks size accepted.length taken < blocks := by
  obtain ⟨base, full, free, chained, entered, begun⟩ := h.chained
  rw [chained.owns.hasRoom_iff, List.length_append, List.length_append, List.length_singleton,
    h.live chained entered begun, h.capacity]

/-- A request is refused exactly when the last block is full and all blocks are in use. -/
theorem Serves.hasRoom_eq_false_iff (h : queue.Serves size blocks accepted taken) :
    queue.hasRoom = false ↔ 0 < accepted.length ∧ size ∣ accepted.length ∧
      liveBlocks size accepted.length taken = blocks := by
  obtain ⟨low, high⟩ := h.live_le
  have pool : queue.arena.hasRoom = false ↔ liveBlocks size accepted.length taken = blocks := by
    rw [← Bool.not_eq_true, h.pool_iff]
    omega
  rw [← and_assoc, ← h.full_iff, ← pool]
  simp [BlockQueue.hasRoom]

/-- Accepting a request. A block is created only where all created ones are in use. -/
theorem Serves.enqueue (h : queue.Serves size blocks accepted taken) (room : queue.hasRoom = true)
    (request : Request) :
    (queue.enqueue request).Serves size blocks (accepted ++ [request]) taken ∧
      (queue.enqueue request).blocksCreated = max queue.blocksCreated
        (liveBlocks size (accepted ++ [request]).length taken) := by
  obtain ⟨base, full, free, chained, entered, begun⟩ := h.chained
  unfold BlockQueue.enqueue
  split
  · next last =>
    have pool : queue.arena.hasRoom = true := by simpa [BlockQueue.hasRoom, last] using room
    obtain ⟨left, linked, capacity, created⟩ := chained.nextBlock last pool
    have written := linked.write request linked.size_pos
    have serves : (queue.nextBlock.write request).Serves size blocks (accepted ++ [request])
        taken :=
      ⟨h.blockSize, capacity.trans h.capacity, h.consumed, _, _, _, written,
        fun _ => Nat.succ_pos _, begun⟩
    have live := serves.live written (fun _ => Nat.succ_pos _) begun
    rw [List.length_append, List.length_singleton] at live
    refine ⟨serves, ?_⟩
    rw [← live]
    have same : (queue.nextBlock.write request).blocksCreated = queue.nextBlock.blocksCreated :=
      Arena.created_modify _ _ _
    rw [same, created]
    rfl
  · next other =>
    have space : queue.writePosition < queue.blockSize :=
      Nat.lt_of_le_of_ne chained.writePosition_le other
    have written := chained.write request space
    have serves : (queue.write request).Serves size blocks (accepted ++ [request]) taken :=
      ⟨h.blockSize, h.capacity, h.consumed, _, _, _, written, fun _ => Nat.succ_pos _, begun⟩
    have same : (queue.write request).blocksCreated = queue.blocksCreated :=
      Arena.created_modify _ _ _
    have live := serves.live_le.1
    rw [same] at live ⊢
    exact ⟨serves, (Nat.max_eq_left live).symm⟩

/-- Taking out a request gives the oldest one that is left. -/
theorem Serves.dequeue (h : queue.Serves size blocks accepted taken) :
    queue.dequeue.1 = accepted[taken]? ∧
      queue.dequeue.2.blocksCreated = queue.blocksCreated ∧
      queue.dequeue.2.Serves size blocks accepted
        (if taken < accepted.length then taken + 1 else taken) := by
  obtain ⟨base, full, free, chained, entered, begun⟩ := h.chained
  unfold BlockQueue.dequeue
  split
  · next all =>
    rw [h.consumed, chained.written] at all
    have past : accepted.length ≤ taken := Nat.le_of_eq all.symm
    rw [if_neg (Nat.not_lt.2 past), List.getElem?_eq_none past]
    exact ⟨rfl, rfl, h⟩
  · next waiting =>
    have more : queue.consumed < queue.written := Nat.lt_of_le_of_ne chained.consumed_le waiting
    have inside : taken < accepted.length := by
      rw [← h.consumed, ← chained.written]
      exact more
    rw [if_pos inside, ← h.consumed]
    split
    · next last =>
      obtain ⟨following, rest, left, linked, chain, moved, capacity, created⟩ :=
        chained.leaveBlock last more
      obtain ⟨request, step, oldest, read⟩ := moved.read moved.size_pos more
      have place : base + 1 + rest.length = base + full.length := by
        rw [chain, List.length_cons]
        omega
      have oldest : accepted[queue.consumed]? = some request := oldest
      rw [linked, oldest]
      simp only
      rw [step] at read ⊢
      exact ⟨rfl, created, h.blockSize, capacity.trans h.capacity, rfl, _, _, _, read,
        fun later => entered (place ▸ later), fun _ => Nat.succ_pos _⟩
    · next other =>
      have space : queue.readPosition < queue.blockSize :=
        Nat.lt_of_le_of_ne chained.readPosition_le other
      obtain ⟨request, step, oldest, read⟩ := chained.read space more
      rw [step, oldest]
      rw [step] at read
      exact ⟨rfl, rfl, h.blockSize, h.capacity, rfl, _, _, _, read, entered,
        fun _ => Nat.succ_pos _⟩

end Serves

end BlockQueue

/-- The number of blocks that the queue of a channel has created. -/
def Channel.blocksCreated (channel : Channel κ) : Nat :=
  match channel.queue with
  | .block queue => queue.blocksCreated
  | _ => 0

namespace QueueRun

/-- The number of blocks in use, in blocks of some size. -/
def live (run : QueueRun κ) (size : Nat) : Nat :=
  liveBlocks size run.accepted.length run.returned.length

/-- The largest number of blocks in use at any moment while some calls are made. -/
def peak (size : Nat) (run : QueueRun κ) : List QueueCall → Nat
  | [] => run.live size
  | call :: calls => max (run.live size) (peak size (run.step call) calls)

/-- A run of a channel of blocks that gave out the first of the requests it accepted. -/
structure Serves (run : QueueRun κ) (size blocks : Nat) : Prop where
  queue : ∃ queue, run.channel.queue = .block queue ∧
    queue.Serves size blocks run.accepted run.returned.length
  returned : run.returned = run.accepted.take run.returned.length
  epoch : run.channel.epoch = UInt32.ofNat run.epochs

omit [RequestCache κ] in
theorem serves_start (size blocks : Nat) :
    (start (.block size blocks : Channel κ)).Serves (max size 1) (max blocks 1) :=
  ⟨⟨_, rfl, (BlockQueue.serves_empty size blocks).1⟩, rfl, rfl⟩

section Serves

variable {run : QueueRun κ} {size blocks : Nat}

theorem Serves.enqueue_of_room (h : run.Serves size blocks) {queue : BlockQueue}
    (same : run.channel.queue = .block queue) (room : queue.hasRoom = true) (request : Request) :
    run.channel.enqueue request = (.ok (), { run.channel with
      queue := .block (queue.enqueue (run.stamp request)) }) := by
  have space : run.channel.queue.hasRoom = true := by
    rw [same]
    exact room
  have answer : run.channel.enqueue request = (.ok (), { run.channel with
      queue := run.channel.queue.enqueue { request with epoch := run.channel.epoch } }) :=
    if_pos space
  rw [answer, h.epoch, same]
  rfl

theorem Serves.enqueue_of_full (h : run.Serves size blocks) {queue : BlockQueue}
    (same : run.channel.queue = .block queue) (full : queue.hasRoom = false) (request : Request) :
    run.channel.enqueue request = (.error ⟨run.stamp request⟩, run.channel) := by
  have space : run.channel.queue.hasRoom = false := by
    rw [same]
    exact full
  simp only [Channel.enqueue, space, h.epoch, stamp]
  rfl

theorem dequeue_eq {queue : BlockQueue} (same : run.channel.queue = .block queue) :
    run.channel.dequeue =
      (queue.dequeue.1, { run.channel with queue := .block queue.dequeue.2 }) := by
  rw [Channel.dequeue, same]
  rfl

omit [RequestCache κ] in
theorem blocksCreated_eq {channel : Channel κ} {queue : BlockQueue}
    (same : channel.queue = .block queue) : channel.blocksCreated = queue.blocksCreated := by
  rw [Channel.blocksCreated, same]

omit [RequestCache κ] in
theorem Serves.live_le_blocksCreated (h : run.Serves size blocks) :
    run.live size ≤ run.channel.blocksCreated := by
  obtain ⟨queue, same, serves⟩ := h.queue
  rw [blocksCreated_eq same]
  exact serves.live_le.1

omit [RequestCache κ] in
/-- Where no block is created, those that were created still suffice. -/
theorem Serves.blocksCreated_of_eq {later : QueueRun κ} (h : later.Serves size blocks)
    (same : later.channel.blocksCreated = run.channel.blocksCreated) :
    later.channel.blocksCreated = max run.channel.blocksCreated (later.live size) := by
  have enough := h.live_le_blocksCreated
  rw [← same]
  exact (Nat.max_eq_left enough).symm

theorem Serves.step_enqueue (h : run.Serves size blocks) (request : Request) :
    (run.step (.enqueue request)).Serves size blocks ∧
      (run.step (.enqueue request)).channel.blocksCreated =
        max run.channel.blocksCreated ((run.step (.enqueue request)).live size) := by
  obtain ⟨queue, same, serves⟩ := h.queue
  cases room : queue.hasRoom with
  | true =>
    obtain ⟨later, created⟩ := serves.enqueue room (run.stamp request)
    simp only [QueueRun.step, h.enqueue_of_room same room request]
    refine ⟨⟨⟨_, rfl, later⟩, ?_, h.epoch⟩, ?_⟩
    · rw [List.take_append_of_le_length serves.taken_le]
      exact h.returned
    · rw [blocksCreated_eq same]
      exact created
  | false =>
    have kept : run.step (.enqueue request) = run := by
      simp only [QueueRun.step, h.enqueue_of_full same room request]
    rw [kept]
    exact ⟨h, h.blocksCreated_of_eq rfl⟩

theorem Serves.step_dequeue (h : run.Serves size blocks) :
    (run.step .dequeue).Serves size blocks ∧
      (run.step .dequeue).channel.blocksCreated = run.channel.blocksCreated := by
  obtain ⟨queue, same, serves⟩ := h.queue
  obtain ⟨first, created, later⟩ := serves.dequeue
  simp only [QueueRun.step, dequeue_eq same, blocksCreated_eq same]
  cases oldest : queue.dequeue.1 with
  | none =>
    rw [oldest] at first
    have all := List.getElem?_eq_none_iff.1 first.symm
    rw [if_neg (Nat.not_lt.2 all)] at later
    exact ⟨⟨⟨_, rfl, later⟩, h.returned, h.epoch⟩, created⟩
  | some request =>
    rw [oldest] at first
    have inside := (List.getElem?_eq_some_iff.1 first.symm).1
    have count : (run.returned ++ [request]).length = run.returned.length + 1 := by
      rw [List.length_append, List.length_singleton]
    rw [if_pos inside, ← count] at later
    refine ⟨⟨⟨_, rfl, later⟩, ?_, h.epoch⟩, created⟩
    simp only
    rw [count, List.take_add_one, ← first, ← h.returned]
    rfl

theorem Serves.step_incrementEpoch (h : run.Serves size blocks) :
    (run.step .incrementEpoch).Serves size blocks := by
  have next : run.channel.epoch + 1 = UInt32.ofNat (run.epochs + 1) := by
    rw [h.epoch, UInt32.ofNat_add]
    rfl
  exact ⟨h.queue, h.returned, next⟩

/-- Every call keeps the order and creates no more blocks than are in use then. -/
theorem Serves.step (h : run.Serves size blocks) (call : QueueCall) :
    (run.step call).Serves size blocks ∧
      (run.step call).channel.blocksCreated =
        max run.channel.blocksCreated ((run.step call).live size) := by
  cases call with
  | enqueue request => exact h.step_enqueue request
  | dequeue =>
    obtain ⟨later, same⟩ := h.step_dequeue
    exact ⟨later, later.blocksCreated_of_eq same⟩
  | incrementEpoch =>
    have later := h.step_incrementEpoch
    exact ⟨later, later.blocksCreated_of_eq rfl⟩

theorem live_le_peak (run : QueueRun κ) (calls : List QueueCall) :
    run.live size ≤ peak size run calls := by
  cases calls with
  | nil => exact Nat.le_refl _
  | cons call calls => exact Nat.le_max_left _ _

/-- A whole run keeps the order, and has created as many blocks as were in use at some moment. -/
theorem Serves.foldl (h : run.Serves size blocks) (calls : List QueueCall) :
    (calls.foldl QueueRun.step run).Serves size blocks ∧
      (calls.foldl QueueRun.step run).channel.blocksCreated =
        max run.channel.blocksCreated (peak size run calls) := by
  induction calls generalizing run with
  | nil => exact ⟨h, (Nat.max_eq_left h.live_le_blocksCreated).symm⟩
  | cons call calls ih =>
    obtain ⟨later, created⟩ := h.step call
    obtain ⟨serves, total⟩ := ih later
    refine ⟨serves, ?_⟩
    have before := h.live_le_blocksCreated
    have after : (run.step call).live size ≤ peak size (run.step call) calls :=
      live_le_peak _ _
    rw [List.foldl_cons, total, created, peak]
    omega

end Serves

end QueueRun

/-- A channel of blocks, of any size and over any calls, is a first-in first-out queue of stamped
requests. It refuses a request exactly when the last block is full and all blocks are in use; a
refused request comes back stamped and leaves no trace; and blocks are created only as far as they
were in use at once. -/
theorem Channel.block_fifo (blockSize maxBlocks : Nat) (calls : List QueueCall) :
    let channel : Channel κ := .block blockSize maxBlocks
    let run := QueueRun.ofCalls channel calls
    let size := max blockSize 1
    let blocks := max maxBlocks 1
    (run.returned = run.accepted.take run.returned.length ∧
      run.channel.dequeue.1 = run.accepted[run.returned.length]?) ∧
    (∀ request, (∃ full, (run.channel.enqueue request).1 = .error full) ↔
      0 < run.accepted.length ∧ size ∣ run.accepted.length ∧ run.live size = blocks) ∧
    (∀ request full, (run.channel.enqueue request).1 = .error full →
      full.request = { request with epoch := UInt32.ofNat run.epochs } ∧
      (run.channel.enqueue request).2 = run.channel) ∧
    run.channel.blocksCreated = QueueRun.peak size (.start channel) calls := by
  intro channel run size blocks
  have start : (QueueRun.start channel).Serves size blocks :=
    QueueRun.serves_start blockSize maxBlocks
  obtain ⟨serves, created⟩ := start.foldl calls
  have serves : run.Serves size blocks := serves
  obtain ⟨queue, same, held⟩ := serves.queue
  refine ⟨⟨serves.returned, ?_⟩, ?_, ?_, ?_⟩
  · rw [QueueRun.dequeue_eq same]
    exact held.dequeue.1
  · intro request
    have refused : queue.hasRoom = false ↔ _ := held.hasRoom_eq_false_iff
    rw [QueueRun.live, ← refused]
    cases room : queue.hasRoom with
    | true => simp [serves.enqueue_of_room same room request]
    | false => simp [serves.enqueue_of_full same room request]
  · intro request full answer
    cases room : queue.hasRoom with
    | true => simp [serves.enqueue_of_room same room request] at answer
    | false =>
      rw [serves.enqueue_of_full same room request] at answer ⊢
      obtain rfl := Except.error.inj answer
      exact ⟨rfl, rfl⟩
  · have one : (QueueRun.start channel).channel.blocksCreated = 1 :=
      (BlockQueue.serves_empty blockSize maxBlocks).2
    have live : 1 ≤ (QueueRun.start channel).live size := by
      rw [QueueRun.live, liveBlocks]
      omega
    have least := Nat.le_trans live (QueueRun.live_le_peak (QueueRun.start channel) calls)
    rw [one, Nat.max_eq_right least] at created
    exact created

/-- Three blocks of one slot: a request is refused while all of them are in use. Once three requests
are taken out, the fourth accepted one comes to lie in a block that was left. -/
theorem Channel.block_fifo_of_reused_block :
    let calls : List QueueCall := [.enqueue ⟨⟨5⟩, 7, .out⟩, .incrementEpoch,
      .enqueue ⟨⟨6⟩, 0, .inc⟩, .enqueue ⟨⟨7⟩, 0, .out⟩, .enqueue ⟨⟨8⟩, 0, .out⟩,
      .dequeue, .dequeue, .dequeue, .enqueue ⟨⟨8⟩, 0, .inc⟩]
    let run : QueueRun LoggedCache := .ofCalls (.block 1 3) calls
    run.accepted = [⟨⟨5⟩, 0, .out⟩, ⟨⟨6⟩, 1, .inc⟩, ⟨⟨7⟩, 1, .out⟩, ⟨⟨8⟩, 1, .inc⟩] ∧
    run.returned = [⟨⟨5⟩, 0, .out⟩, ⟨⟨6⟩, 1, .inc⟩, ⟨⟨7⟩, 1, .out⟩] ∧
    run.channel.dequeue.1 = some ⟨⟨8⟩, 1, .inc⟩ ∧ run.channel.blocksCreated = 3 ∧
    ∃ full, (run.channel.enqueue ⟨⟨9⟩, 4, .out⟩).1 = .error full ∧
      full.request = ⟨⟨9⟩, 1, .out⟩ ∧ (run.channel.enqueue ⟨⟨9⟩, 4, .out⟩).2 = run.channel := by
  intro calls run
  obtain ⟨⟨returned, oldest⟩, refused, atomic, created⟩ :=
    @Channel.block_fifo LoggedCache _ 1 3 calls
  have returned : run.returned = run.accepted.take run.returned.length := returned
  have oldest : run.channel.dequeue.1 = run.accepted[run.returned.length]? := oldest
  have accepted : run.accepted =
      [⟨⟨5⟩, 0, .out⟩, ⟨⟨6⟩, 1, .inc⟩, ⟨⟨7⟩, 1, .out⟩, ⟨⟨8⟩, 1, .inc⟩] := by decide
  have given : run.returned.length = 3 := by decide
  have full : 0 < run.accepted.length ∧ 1 ∣ run.accepted.length ∧ run.live 1 = 3 := by decide
  obtain ⟨full, answer⟩ := (refused ⟨⟨9⟩, 4, .out⟩).2 full
  refine ⟨accepted, ?_, ?_, created.trans (by decide), full, answer, atomic _ full answer⟩
  · rw [returned, given, accepted]
    rfl
  · rw [oldest, given, accepted]
    rfl

end LayeredGraph
