import LayeredGraph.Proofs.Queue.Run

/-! The ring as a plain queue that keeps only its newest requests. A slot holds the request of the
last position that was written to it, so as long as the writer is no full lap ahead, the slot of a
position holds the request of that position. Behind the reader's place lies what was read, and
what is a lap behind the writer was overwritten. -/
namespace LayeredGraph

variable {κ : Type} [RequestCache κ]

/-- Positions less than a lap apart have different slots. -/
theorem mod_ne_of_lt {capacity a b : Nat} (below : a < b) (near : b < a + capacity) :
    a % capacity ≠ b % capacity := by
  intro same
  have multiple := Nat.sub_mod_eq_zero_of_mod_eq same.symm
  rw [Nat.mod_eq_of_lt (by omega)] at multiple
  omega

namespace RingQueue

/-- The position of the oldest request that is waiting: the reader's, unless the writer has come
round to it. -/
def next (ring : RingQueue) : Nat := max ring.head (ring.tail - ring.capacity)

/-- A ring that was given some requests. The last of them are waiting, as many as were neither
read nor overwritten, and some were overwritten before they were read. -/
structure Keeps (ring : RingQueue) (accepted waiting : List Request) (lost : Nat) : Prop where
  capacity_pos : 0 < ring.capacity
  tail : ring.tail = accepted.length
  head_le : ring.head ≤ ring.tail
  size : ring.slots.size = min ring.tail ring.capacity
  slots : ∀ position request, accepted[position]? = some request →
    ring.tail ≤ position + ring.capacity →
    ring.slots[position % ring.capacity]? =
      some ⟨RingSlot.fullState position, .ofRequest request⟩
  waiting : waiting = accepted.drop ring.next
  lost : lost = ring.dropped + (ring.next - ring.head)

theorem keeps_empty (capacity : Nat) : (empty capacity).Keeps [] [] 0 := by
  refine ⟨Nat.lt_of_lt_of_le Nat.one_pos (Nat.le_max_right _ _), rfl, Nat.le_refl _, ?_, nofun,
    List.drop_nil.symm, ?_⟩
  · exact (Nat.zero_min _).symm
  · simp [empty, next]

section Keeps

variable {ring : RingQueue} {accepted waiting : List Request} {lost : Nat}

theorem Keeps.next_le (h : ring.Keeps accepted waiting lost) : ring.next ≤ accepted.length := by
  have head := h.head_le
  rw [next, ← h.tail]
  omega

theorem Keeps.length_waiting (h : ring.Keeps accepted waiting lost) :
    waiting.length = accepted.length - ring.next := by
  rw [h.waiting, List.length_drop]

/-- The ring counts the requests that are waiting, at most as many as it has slots. -/
theorem Keeps.length (h : ring.Keeps accepted waiting lost) :
    ring.length = waiting.length ∧ waiting.length ≤ ring.capacity := by
  have head := h.head_le
  rw [h.length_waiting, ← h.tail, RingQueue.length, next]
  omega

/-- The slot of the oldest request that is waiting holds it. -/
theorem Keeps.slot_next (h : ring.Keeps accepted waiting lost) {request : Request}
    (oldest : waiting.head? = some request) :
    ring.slots[ring.next % ring.capacity]? =
      some ⟨RingSlot.fullState ring.next, .ofRequest request⟩ := by
  rw [h.waiting, List.head?_drop] at oldest
  refine h.slots ring.next request oldest ?_
  rw [next]
  omega

/-- Writing a request takes the slot of the request that is a full lap behind. -/
theorem Keeps.enqueue (h : ring.Keeps accepted waiting lost) (request : Request) :
    let pushed := waiting ++ [request]
    (ring.enqueue request).Keeps (accepted ++ [request])
      (pushed.drop (pushed.length - ring.capacity)) (lost + (pushed.length - ring.capacity)) := by
  intro pushed
  have pos := h.capacity_pos
  have tail := h.tail
  have head := h.head_le
  have size := h.size
  have pushedLength : pushed.length = accepted.length - ring.next + 1 := by
    rw [List.length_append, h.length_waiting, List.length_singleton]
  have before : ring.next = max ring.head (ring.tail - ring.capacity) := rfl
  have after : (ring.enqueue request).next = max ring.head (ring.tail + 1 - ring.capacity) := rfl
  -- A new slot is written exactly until the first lap is complete.
  have place : ring.tail % ring.capacity ≤ ring.slots.size := by
    have inside := Nat.mod_lt ring.tail pos
    have lower := Nat.mod_le ring.tail ring.capacity
    omega
  refine ⟨pos, ?_, Nat.le_succ_of_le head, ?_, ?_, ?_, ?_⟩
  · rw [List.length_append, ← tail]
    rfl
  · have inside := Nat.mod_lt ring.tail pos
    simp only [RingQueue.enqueue, size_writeSlot]
    by_cases lap : ring.tail < ring.capacity
    · rw [Nat.mod_eq_of_lt lap, if_neg (by omega)]
      omega
    · rw [if_pos (by omega)]
      omega
  · intro position held found near
    have near : ring.tail + 1 ≤ position + ring.capacity := near
    change (writeSlot ring.slots (ring.tail % ring.capacity) _)[position % ring.capacity]? = _
    rcases Nat.lt_or_ge position accepted.length with earlier | later
    · rw [List.getElem?_append_left earlier] at found
      have apart := mod_ne_of_lt (tail ▸ earlier : position < ring.tail) near
      rw [getElem?_writeSlot_of_ne _ place apart.symm]
      exact h.slots position held found (by omega)
    · have inside := (List.getElem?_eq_some_iff.1 found).1
      rw [List.length_append, List.length_singleton] at inside
      obtain rfl : position = ring.tail := by omega
      rw [tail, List.getElem?_append_right (Nat.le_refl _), Nat.sub_self] at found
      obtain rfl := Option.some.inj found
      rw [getElem?_writeSlot_self _ place]
  · have whole : pushed = (accepted ++ [request]).drop ring.next := by
      rw [List.drop_append_of_le_length h.next_le, ← h.waiting]
    rw [pushedLength, whole, List.drop_drop, after, before]
    congr 1
    omega
  · have dropped : (ring.enqueue request).dropped = ring.dropped := rfl
    have reader : (ring.enqueue request).head = ring.head := rfl
    rw [h.lost, pushedLength, dropped, reader, after, before]
    omega

/-- Catching up brings the reader to the oldest request that is waiting. -/
theorem catchUp_eq (ring : RingQueue) : ring.catchUp = { ring with
    dropped := ring.dropped + (ring.next - ring.head), head := ring.next } := by
  unfold catchUp next
  split
  · have lap : max ring.head (ring.tail - ring.capacity) = ring.tail - ring.capacity := by omega
    rw [lap]
  · have none : max ring.head (ring.tail - ring.capacity) = ring.head := by omega
    rw [none, Nat.sub_self]
    rfl

/-- With nothing waiting a look finds the ring empty, and all losses are counted. -/
theorem Keeps.look_of_nil (h : ring.Keeps accepted [] lost) :
    ring.look = (.empty, ring) ∧ ring.dropped = lost := by
  have pos := h.capacity_pos
  have tail := h.tail
  have none := h.length_waiting
  have past : ring.tail ≤ ring.head := by
    rw [List.length_nil, next] at none
    omega
  refine ⟨if_pos past, ?_⟩
  rw [h.lost, next]
  omega

/-- With a request waiting, one look is enough to find it, and all losses are counted then. -/
theorem Keeps.look_of_cons {request : Request} {rest : List Request}
    (h : ring.Keeps accepted (request :: rest) lost) :
    ∃ later, ring.look = (.found request, later) ∧ later.Keeps accepted rest lost ∧
      later.capacity = ring.capacity ∧ later.dropped = lost := by
  have pos := h.capacity_pos
  have tail := h.tail
  have head := h.head_le
  have length := h.length_waiting
  have slot := h.slot_next rfl
  rw [List.length_cons] at length
  have more : ¬ring.tail ≤ ring.head := by
    rw [next] at length
    omega
  have low : ring.tail - ring.capacity ≤ ring.next := Nat.le_max_right _ _
  have behind : RingQueue.next { ring with dropped := lost, head := ring.next + 1 } =
      ring.next + 1 := by
    change max (ring.next + 1) (ring.tail - ring.capacity) = ring.next + 1
    omega
  refine ⟨{ ring with dropped := lost, head := ring.next + 1 }, ?_, ?_, rfl, rfl⟩
  · rw [look, if_neg more, catchUp_eq, h.lost]
    simp only [slot, if_true, RequestWords.toRequest_ofRequest]
  · refine ⟨pos, tail, ?_, h.size, h.slots, ?_, ?_⟩
    · simp only
      omega
    · rw [behind, ← List.tail_drop, ← h.waiting]
      rfl
    · rw [behind, Nat.sub_self]
      rfl

/-- Taking out a request gives the oldest one that is waiting, and counts all losses. -/
theorem Keeps.dequeue (h : ring.Keeps accepted waiting lost) :
    ring.look.1 ≠ .retry ∧ ring.dequeue.1 = waiting.head? ∧
      ring.dequeue.2.Keeps accepted waiting.tail lost ∧
      ring.dequeue.2.capacity = ring.capacity ∧ ring.dequeue.2.dropped = lost := by
  cases waiting with
  | nil =>
    obtain ⟨empty, counted⟩ := h.look_of_nil
    rw [RingQueue.dequeue, empty]
    exact ⟨nofun, rfl, h, rfl, counted⟩
  | cons request rest =>
    obtain ⟨later, found, kept, capacity, counted⟩ := h.look_of_cons
    rw [RingQueue.dequeue, found]
    exact ⟨nofun, rfl, kept, capacity, counted⟩

end Keeps

end RingQueue

/-- A plain queue that keeps no more than its newest requests: those that are waiting, oldest
first, and the number of those that it lost unread. -/
structure NewestQueue where
  capacity : Nat
  epochs : Nat
  waiting : List Request
  lost : Nat
  deriving DecidableEq, Repr

namespace NewestQueue

def step (plain : NewestQueue) : QueueCall → NewestQueue
  | .enqueue request =>
      let waiting := plain.waiting ++ [{ request with epoch := UInt32.ofNat plain.epochs }]
      let excess := waiting.length - plain.capacity
      { plain with waiting := waiting.drop excess, lost := plain.lost + excess }
  | .dequeue => { plain with waiting := plain.waiting.tail }
  | .incrementEpoch => { plain with epochs := plain.epochs + 1 }

/-- The plain queue of a capacity after some calls. -/
def ofCalls (capacity : Nat) (calls : List QueueCall) : NewestQueue :=
  calls.foldl step ⟨capacity, 0, [], 0⟩

end NewestQueue

/-- The number of requests that the reader of a ring found overwritten. -/
def Channel.dropped (channel : Channel κ) : Nat :=
  match channel.queue with
  | .ring ring => ring.dropped
  | _ => 0

namespace QueueRun

/-- A run of a channel with a ring that keeps what a plain queue keeps. -/
structure Mirrors (run : QueueRun κ) (plain : NewestQueue) : Prop where
  ring : ∃ ring, run.channel.queue = .ring ring ∧
    ring.Keeps run.accepted plain.waiting plain.lost ∧ ring.capacity = plain.capacity
  epoch : run.channel.epoch = UInt32.ofNat run.epochs
  epochs : plain.epochs = run.epochs
  total : run.returned.length + plain.lost + plain.waiting.length = run.accepted.length

omit [RequestCache κ] in
theorem mirrors_start (capacity : Nat) :
    (start (.ring capacity : Channel κ)).Mirrors ⟨max capacity 1, 0, [], 0⟩ :=
  ⟨⟨_, rfl, RingQueue.keeps_empty capacity, rfl⟩, rfl, rfl, rfl⟩

section Mirrors

variable {run : QueueRun κ} {plain : NewestQueue}

theorem enqueue_ring {ring : RingQueue} (same : run.channel.queue = .ring ring)
    (request : Request) :
    run.channel.enqueue request = (.ok (), { run.channel with
      queue := .ring (ring.enqueue { request with epoch := run.channel.epoch }) }) := by
  rw [Channel.enqueue, same]
  rfl

theorem dequeue_ring {ring : RingQueue} (same : run.channel.queue = .ring ring) :
    run.channel.dequeue =
      (ring.dequeue.1, { run.channel with queue := .ring ring.dequeue.2 }) := by
  rw [Channel.dequeue, same]
  rfl

theorem Mirrors.step_enqueue (h : run.Mirrors plain) (request : Request) :
    (run.step (.enqueue request)).Mirrors (plain.step (.enqueue request)) := by
  obtain ⟨ring, same, kept, capacity⟩ := h.ring
  have room : run.channel.queue.hasRoom = true := by rw [same]; rfl
  have stamped := stamp_of_epoch h.epoch request
  have next := kept.enqueue (run.stamp request)
  have total := h.total
  rw [capacity] at next
  rw [step_enqueue_of_room room, enqueue_ring same, stamped, NewestQueue.step, h.epochs]
  refine ⟨⟨_, rfl, next, capacity⟩, h.epoch, rfl, ?_⟩
  simp only [List.length_append, List.length_drop, List.length_singleton]
  omega

theorem Mirrors.step_dequeue (h : run.Mirrors plain) :
    (run.step .dequeue).Mirrors (plain.step .dequeue) ∧
      (run.step .dequeue).channel.dropped = plain.lost := by
  obtain ⟨ring, same, kept, capacity⟩ := h.ring
  obtain ⟨-, oldest, next, still, counted⟩ := kept.dequeue
  have total := h.total
  have split : plain.waiting.head?.toList.length + plain.waiting.tail.length =
      plain.waiting.length := by
    cases plain.waiting with
    | nil => rfl
    | cons request rest => exact Nat.add_comm _ _
  rw [QueueRun.step_dequeue, dequeue_ring same, oldest]
  refine ⟨⟨⟨_, rfl, next, still.trans capacity⟩, h.epoch, h.epochs, ?_⟩, counted⟩
  change (run.returned ++ plain.waiting.head?.toList).length + plain.lost +
    plain.waiting.tail.length = run.accepted.length
  rw [List.length_append]
  omega

/-- Every call does to the ring what it does to the plain queue. -/
theorem Mirrors.step (h : run.Mirrors plain) (call : QueueCall) :
    (run.step call).Mirrors (plain.step call) := by
  cases call with
  | enqueue request => exact h.step_enqueue request
  | dequeue => exact h.step_dequeue.1
  | incrementEpoch =>
    refine ⟨h.ring, ?_, congrArg Nat.succ h.epochs, h.total⟩
    exact epoch_step h.epoch .incrementEpoch

theorem Mirrors.foldl (h : run.Mirrors plain) (calls : List QueueCall) :
    (calls.foldl QueueRun.step run).Mirrors (calls.foldl NewestQueue.step plain) := by
  induction calls generalizing run plain with
  | nil => exact h
  | cons call calls ih => exact ih (h.step call)

/-- Only taking requests out counts losses. -/
theorem Mirrors.dropped_step (h : run.Mirrors plain) {call : QueueCall} (other : call ≠ .dequeue) :
    (run.step call).channel.dropped = run.channel.dropped := by
  obtain ⟨ring, same, -⟩ := h.ring
  cases call with
  | enqueue request =>
    simp only [QueueRun.step, enqueue_ring same, Channel.dropped, same]
    rfl
  | dequeue => exact absurd rfl other
  | incrementEpoch => rfl

end Mirrors

end QueueRun

/-- A channel with a ring, of any capacity and over any calls, is a first-in first-out queue of
stamped requests that keeps no more than its newest ones. It refuses no request, and one look is
always enough to find the next. After taking out a request all losses are counted, so that every
request was given out, was lost or is waiting; no other call counts any. -/
theorem Channel.ring_keeps_newest (capacity : Nat) (calls : List QueueCall) :
    let run : QueueRun κ := .ofCalls (.ring capacity) calls
    let plain := NewestQueue.ofCalls (max capacity 1) calls
    let after := run.step .dequeue
    let left := plain.step .dequeue
    (∀ request, (run.channel.enqueue request).1 = .ok ()) ∧
    run.channel.dequeue.1 = plain.waiting.head? ∧
    (∃ ring, run.channel.queue = .ring ring ∧ ring.look.1 ≠ .retry) ∧
    after.channel.dropped = left.lost ∧
    after.channel.queue.length = left.waiting.length ∧
    after.returned.length + after.channel.dropped + after.channel.queue.length =
      calls.countP QueueCall.isEnqueue ∧
    ∀ call, call ≠ .dequeue → (run.step call).channel.dropped = run.channel.dropped := by
  intro run plain after left
  have mirrors : run.Mirrors plain := (QueueRun.mirrors_start capacity).foldl calls
  obtain ⟨later, counted⟩ := mirrors.step_dequeue
  obtain ⟨ring, same, kept, -⟩ := mirrors.ring
  obtain ⟨first, oldest, -⟩ := kept.dequeue
  obtain ⟨ringAfter, sameAfter, keptAfter, -⟩ := later.ring
  have retained : after.channel.queue.length = left.waiting.length := by
    rw [sameAfter]
    exact keptAfter.length.1
  refine ⟨?_, ?_, ⟨ring, same, first⟩, counted, retained, ?_, fun call => mirrors.dropped_step⟩
  · intro request
    rw [QueueRun.enqueue_ring same]
  · rw [QueueRun.dequeue_ring same]
    exact oldest
  · have all : run.accepted.length = 0 + calls.countP QueueCall.isEnqueue :=
      @QueueRun.length_accepted_foldl κ _ (.start (.ring capacity)) nofun calls
    have same : after.accepted.length = run.accepted.length :=
      QueueRun.length_accepted_step (by rw [same]; nofun) .dequeue
    rw [counted, retained, ← Nat.zero_add (calls.countP _), ← all, ← same]
    exact later.total

end LayeredGraph
