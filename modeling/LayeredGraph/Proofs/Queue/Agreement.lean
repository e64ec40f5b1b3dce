import LayeredGraph.Proofs.Queue.Fifo
import LayeredGraph.Proofs.Queue.Ring
import LayeredGraph.Proofs.Queue.Recency

/-! Queues of all kinds in lockstep. While few enough requests wait, none of them has grown too old
and no node is asked for twice, the chain of blocks, the ring and the queue of recent requests all
do what a plain list of the waiting requests does, and cannot be told apart. -/
namespace LayeredGraph

variable {κ : Type} [RequestCache κ]

/-- The answer to a call on a channel. -/
inductive QueueAnswer where
  | accepted
  | refused (full : Full)
  | taken (request : Option Request)
  | started (epoch : UInt32)
  deriving DecidableEq, Repr

namespace Channel

def call (channel : Channel κ) : QueueCall → QueueAnswer × Channel κ
  | .enqueue request =>
      match channel.enqueue request with
      | (.ok _, channel) => (.accepted, channel)
      | (.error full, channel) => (.refused full, channel)
  | .dequeue => let (request, channel) := channel.dequeue; (.taken request, channel)
  | .incrementEpoch => let (epoch, channel) := channel.incrementEpoch; (.started epoch, channel)

/-- The answers to some calls, each with the epoch that both ends of the channel see then, and what
the calls leave. -/
def run (channel : Channel κ) : List QueueCall → List (QueueAnswer × UInt32) × Channel κ
  | [] => ([], channel)
  | call :: calls =>
      let (answer, channel) := channel.call call
      let (answers, last) := channel.run calls
      ((answer, channel.epoch) :: answers, last)

end Channel

/-- The requests that are waiting, oldest first, and the number of epochs that were started. -/
structure Backlog where
  epochs : Nat
  waiting : List Request
  deriving DecidableEq, Repr

namespace Backlog

def empty : Backlog := ⟨0, []⟩

def call (plain : Backlog) : QueueCall → QueueAnswer × Backlog
  | .enqueue request =>
      let stamped := { request with epoch := UInt32.ofNat plain.epochs }
      (.accepted, { plain with waiting := plain.waiting ++ [stamped] })
  | .dequeue => (.taken plain.waiting.head?, { plain with waiting := plain.waiting.tail })
  | .incrementEpoch =>
      (.started (UInt32.ofNat (plain.epochs + 1)), { plain with epochs := plain.epochs + 1 })

def run (plain : Backlog) : List QueueCall → List (QueueAnswer × UInt32) × Backlog
  | [] => ([], plain)
  | call :: calls =>
      let (answer, plain) := plain.call call
      let (answers, last) := plain.run calls
      ((answer, UInt32.ofNat plain.epochs) :: answers, last)

/-- A call that keeps the backlog small, distinct and young: enqueuing a node that is not waiting
while fewer than so many requests are, and dequeuing while none of them is older than allowed. Ages
are those that wrap with the epochs, so a request counts as young if it is. -/
def Allows (plain : Backlog) (limit : Nat) (maxAge : UInt32) : QueueCall → Prop
  | .enqueue request =>
      request.node ∉ plain.waiting.map Request.node ∧ plain.waiting.length < limit
  | .dequeue =>
      ∀ request ∈ plain.waiting,
        ¬maxAge < epochAge (UInt32.ofNat plain.epochs) request.epoch
  | .incrementEpoch => True

/-- Calls of which each is allowed on what those before it left. -/
def Permits (plain : Backlog) (limit : Nat) (maxAge : UInt32) : List QueueCall → Prop
  | [] => True
  | call :: calls =>
      plain.Allows limit maxAge call ∧ (plain.call call).2.Permits limit maxAge calls

instance decidableAllows (plain : Backlog) (limit : Nat) (maxAge : UInt32) :
    (call : QueueCall) → Decidable (plain.Allows limit maxAge call)
  | .enqueue request => inferInstanceAs (Decidable
      (request.node ∉ plain.waiting.map Request.node ∧ plain.waiting.length < limit))
  | .dequeue => inferInstanceAs (Decidable (∀ request ∈ plain.waiting,
      ¬maxAge < epochAge (UInt32.ofNat plain.epochs) request.epoch))
  | .incrementEpoch => inferInstanceAs (Decidable True)

instance decidablePermits (plain : Backlog) (limit : Nat) (maxAge : UInt32) :
    (calls : List QueueCall) → Decidable (plain.Permits limit maxAge calls)
  | [] => inferInstanceAs (Decidable True)
  | call :: calls => @instDecidableAnd _ _ (plain.decidableAllows limit maxAge call)
      ((plain.call call).2.decidablePermits limit maxAge calls)

section Mono

variable {plain : Backlog} {limit more : Nat} {maxAge : UInt32}

theorem Allows.mono {call : QueueCall} (h : plain.Allows limit maxAge call) (le : limit ≤ more) :
    plain.Allows more maxAge call := by
  cases call with
  | enqueue request => exact ⟨h.1, Nat.lt_of_lt_of_le h.2 le⟩
  | dequeue => exact h
  | incrementEpoch => exact h

theorem Permits.mono {calls : List QueueCall} (h : plain.Permits limit maxAge calls)
    (le : limit ≤ more) : plain.Permits more maxAge calls := by
  induction calls generalizing plain with
  | nil => exact h
  | cons call calls ih => exact ⟨h.1.mono le, ih h.2⟩

end Mono

end Backlog

/-- A position lies in a block that ends behind it. -/
theorem le_blockOf {size : Nat} (pos : 0 < size) (count : Nat) :
    count ≤ (blockOf size count + 1) * size := by
  have last : (count + size - 1) / size * size + size > count + size - 1 := by
    have split := Nat.div_add_mod' (count + size - 1) size
    have small := Nat.mod_lt (count + size - 1) pos
    omega
  have enough : (count + size - 1) / size ≤ blockOf size count + 1 := by
    unfold blockOf
    omega
  have scaled := Nat.mul_le_mul_right size enough
  omega

/-- Two blocks less than the chain may have always find room: besides those that hold waiting
requests, one may be kept back and one may be left behind by the reader. -/
theorem liveBlocks_lt {size blocks accepted taken : Nat} (pos : 0 < size) (le : taken ≤ accepted)
    (full : size ∣ accepted) (some : 0 < accepted) (few : accepted - taken < (blocks - 2) * size) :
    liveBlocks size accepted taken < blocks := by
  obtain ⟨count, rfl⟩ := full
  have whole : size * count = (count - 1) * size + size := by
    rw [← Nat.succ_mul, Nat.succ_eq_add_one, Nat.sub_add_cancel (Nat.pos_of_mul_pos_left some)]
    exact Nat.mul_comm _ _
  -- A full block is left only when the next request comes.
  have writer : blockOf size (size * count) = count - 1 := by
    rw [whole]
    exact blockOf_eq pos (Nat.le_refl size) fun _ => pos
  have reader := le_blockOf pos taken
  have apart : count < blocks - 2 + (blockOf size taken + 1) := by
    refine Nat.lt_of_mul_lt_mul_left (a := size) ?_
    rw [Nat.mul_comm size (_ + _), Nat.add_mul]
    omega
  have spare : 0 < blocks - 2 := Nat.pos_of_mul_pos_right (Nat.lt_of_le_of_lt (Nat.zero_le _) few)
  rw [liveBlocks, writer]
  split <;> omega

namespace QueueRun

/-- The requests that were accepted and not given out. -/
def waiting (run : QueueRun κ) : List Request := run.accepted.drop run.returned.length

/-- A relation under which the runs of a channel keep up with a backlog: both see the same epoch
and count the same requests; there is room while few enough of them wait, the oldest one is given
out unless some are too old, and allowed calls preserve the relation. -/
structure KeepsUp (related : QueueRun κ → Backlog → Prop) (limit : Nat) (maxAge : UInt32) :
    Prop where
  epoch : ∀ {run plain}, related run plain → run.channel.epoch = UInt32.ofNat plain.epochs
  length : ∀ {run plain}, related run plain → run.channel.queue.length = plain.waiting.length
  room : ∀ {run plain}, related run plain → plain.waiting.length < limit →
    run.channel.queue.hasRoom = true
  oldest : ∀ {run plain}, related run plain → plain.Allows limit maxAge .dequeue →
    run.channel.dequeue.1 = plain.waiting.head?
  step : ∀ {run plain call}, related run plain → plain.Allows limit maxAge call →
    related (run.step call) (plain.call call).2

theorem channel_call (run : QueueRun κ) (call : QueueCall) :
    (run.channel.call call).2 = (run.step call).channel := by
  rw [channel_step]
  cases call with
  | enqueue request =>
    simp only [Channel.call]
    split <;> simp only [*]
  | dequeue => rfl
  | incrementEpoch => rfl

/-- What a channel becomes over some calls is what the run with the same calls has. -/
theorem channel_run (run : QueueRun κ) (calls : List QueueCall) :
    (run.channel.run calls).2 = (calls.foldl step run).channel := by
  induction calls generalizing run with
  | nil => rfl
  | cons call calls ih =>
    rw [Channel.run, List.foldl_cons, ← ih, ← channel_call]

theorem channel_run_start (channel : Channel κ) (calls : List QueueCall) :
    (channel.run calls).2 = (ofCalls channel calls).channel := channel_run (start channel) calls

section KeepsUp

variable {related : QueueRun κ → Backlog → Prop} {limit : Nat} {maxAge : UInt32}
  {run : QueueRun κ} {plain : Backlog}

/-- An allowed call gets the answer that the backlog gives. -/
theorem KeepsUp.answer (h : KeepsUp related limit maxAge) (now : related run plain)
    {call : QueueCall} (allowed : plain.Allows limit maxAge call) :
    (run.channel.call call).1 = (plain.call call).1 := by
  cases call with
  | enqueue request =>
    rw [Channel.call, enqueue_of_room (h.room now allowed.2)]
    rfl
  | dequeue => exact congrArg QueueAnswer.taken (h.oldest now allowed)
  | incrementEpoch =>
    have next : related (run.step .incrementEpoch) (plain.call .incrementEpoch).2 :=
      h.step now allowed
    exact congrArg QueueAnswer.started (h.epoch next)

/-- Allowed calls get the answers that the backlog gives, with the same epochs. -/
theorem KeepsUp.run_eq (h : KeepsUp related limit maxAge) (now : related run plain)
    {calls : List QueueCall} (permitted : plain.Permits limit maxAge calls) :
    (run.channel.run calls).1 = (plain.run calls).1 ∧
      ∃ last, (run.channel.run calls).2 = last.channel ∧ related last (plain.run calls).2 := by
  induction calls generalizing run plain with
  | nil => exact ⟨rfl, run, rfl, now⟩
  | cons call calls ih =>
    obtain ⟨allowed, later⟩ := permitted
    have next := h.step now allowed
    obtain ⟨answers, last⟩ := ih next later
    simp only [Channel.run, Backlog.run, h.answer now allowed, channel_call, h.epoch next, answers]
    exact ⟨trivial, last⟩

/-- A channel that keeps up from the start does so over all calls that are allowed, also if these
leave fewer requests waiting than the channel could bear. -/
theorem KeepsUp.run_start (h : KeepsUp related limit maxAge) {channel : Channel κ}
    (first : related (start channel) .empty) {least : Nat} (le : least ≤ limit)
    {calls : List QueueCall} (permitted : Backlog.empty.Permits least maxAge calls) :
    (channel.run calls).1 = (Backlog.empty.run calls).1 ∧
      (channel.run calls).2.queue.length = (Backlog.empty.run calls).2.waiting.length := by
  obtain ⟨answers, last, same, now⟩ := h.run_eq first (permitted.mono le)
  refine ⟨answers, ?_⟩
  rw [← h.length now, ← same]
  rfl

end KeepsUp

section Kinds

variable {run : QueueRun κ} {plain : Backlog} {limit : Nat} {maxAge : UInt32}

/-- A run of a chain of blocks whose waiting requests are those of a backlog. -/
structure Chains (size blocks : Nat) (run : QueueRun κ) (plain : Backlog) : Prop where
  serves : run.Serves size blocks
  waiting : run.waiting = plain.waiting
  epochs : run.epochs = plain.epochs

omit [RequestCache κ] in
theorem Serves.returned_le {size blocks : Nat} (h : run.Serves size blocks) :
    run.returned.length ≤ run.accepted.length := by
  obtain ⟨queue, -, serves⟩ := h.queue
  exact serves.taken_le

theorem Serves.length {size blocks : Nat} (h : run.Serves size blocks) :
    run.channel.queue.length = run.waiting.length := by
  obtain ⟨queue, same, serves⟩ := h.queue
  obtain ⟨base, full, free, chained, -⟩ := serves.chained
  rw [same, waiting, List.length_drop, ← chained.written, ← serves.consumed]
  rfl

theorem Serves.dequeue_eq_head? {size blocks : Nat} (h : run.Serves size blocks) :
    run.channel.dequeue.1 = run.waiting.head? := by
  obtain ⟨queue, same, serves⟩ := h.queue
  rw [QueueRun.dequeue_eq same, serves.dequeue.1, waiting, List.head?_drop]

theorem Serves.waiting_enqueue {size blocks : Nat} (h : run.Serves size blocks)
    (room : run.channel.queue.hasRoom = true) (request : Request) :
    (run.step (.enqueue request)).waiting = run.waiting ++ [run.stamp request] := by
  rw [step_enqueue_of_room room]
  exact List.drop_append_of_le_length h.returned_le

theorem Serves.waiting_dequeue {size blocks : Nat} (h : run.Serves size blocks) :
    (run.step .dequeue).waiting = run.waiting.tail := by
  have more : (run.step .dequeue).waiting = run.waiting.drop run.waiting.head?.toList.length := by
    rw [QueueRun.step_dequeue, h.dequeue_eq_head?, waiting, waiting, List.length_append,
      List.drop_drop]
  rw [more]
  cases run.waiting <;> rfl

omit [RequestCache κ] in
theorem Serves.hasRoom_of_waiting {size blocks : Nat} (h : run.Serves size blocks)
    (pos : 0 < size) (few : run.waiting.length < (blocks - 2) * size) :
    run.channel.queue.hasRoom = true := by
  obtain ⟨queue, same, serves⟩ := h.queue
  rw [waiting, List.length_drop] at few
  rw [same]
  change queue.hasRoom = true
  rw [← Bool.not_eq_false, serves.hasRoom_eq_false_iff]
  rintro ⟨some, full, all⟩
  exact Nat.ne_of_lt (liveBlocks_lt pos h.returned_le full some few) all

/-- Once nothing is left to take out, a chain of blocks that is certain to hold something accepts
a request. -/
theorem Serves.enqueue_of_drained {size blocks : Nat} (h : run.Serves size blocks)
    (pos : 0 < size) (spare : 0 < (blocks - 2) * size) (drained : run.channel.dequeue.1 = none)
    (request : Request) : (run.channel.enqueue request).1 = .ok () := by
  have none : run.waiting = [] := by
    rwa [h.dequeue_eq_head?, List.head?_eq_none_iff] at drained
  have room : run.channel.queue.hasRoom = true := by
    apply h.hasRoom_of_waiting pos
    rw [none]
    exact spare
  rw [QueueRun.enqueue_of_room room]

omit [RequestCache κ] in
theorem chains_start {size blocks : Nat} (pos : 0 < size) (some : 0 < blocks) :
    Chains size blocks (start (.block size blocks : Channel κ)) .empty := by
  have serves := @serves_start κ size blocks
  rw [Nat.max_eq_left pos, Nat.max_eq_left some] at serves
  exact ⟨serves, rfl, rfl⟩

theorem keepsUp_chains {size blocks : Nat} (pos : 0 < size) :
    KeepsUp (Chains size blocks : QueueRun κ → Backlog → Prop) ((blocks - 2) * size) maxAge where
  epoch h := by rw [h.serves.epoch, h.epochs]
  length h := by rw [← h.waiting, h.serves.length]
  room h few := h.serves.hasRoom_of_waiting pos (by rwa [h.waiting])
  oldest h _ := by rw [h.serves.dequeue_eq_head?, h.waiting]
  step := by
    rintro run plain (request | _ | _) h allowed
    · -- Of the three queues only this one could refuse the request.
      have room := h.serves.hasRoom_of_waiting pos (by rw [h.waiting]; exact allowed.2)
      refine ⟨(h.serves.step (.enqueue request)).1, ?_, (run.epochs_step _).trans h.epochs⟩
      rw [h.serves.waiting_enqueue room, h.waiting, stamp, h.epochs]
      rfl
    · refine ⟨(h.serves.step .dequeue).1, ?_, (run.epochs_step _).trans h.epochs⟩
      rw [h.serves.waiting_dequeue, h.waiting]
      rfl
    · exact ⟨(h.serves.step .incrementEpoch).1, h.waiting, congrArg Nat.succ h.epochs⟩

/-- A run of a ring that lost some requests and whose waiting ones are those of a backlog. -/
def Circles (capacity : Nat) (run : QueueRun κ) (plain : Backlog) : Prop :=
  ∃ lost, run.Mirrors ⟨capacity, plain.epochs, plain.waiting, lost⟩

omit [RequestCache κ] in
theorem circles_start {capacity : Nat} (pos : 0 < capacity) :
    Circles capacity (start (.ring capacity : Channel κ)) .empty := by
  have mirrors := @mirrors_start κ capacity
  rw [Nat.max_eq_left pos] at mirrors
  exact ⟨0, mirrors⟩

theorem keepsUp_circles (capacity : Nat) :
    KeepsUp (Circles capacity : QueueRun κ → Backlog → Prop) capacity maxAge where
  epoch := by
    rintro run plain ⟨lost, h⟩
    rw [h.epoch, ← h.epochs]
  length := by
    rintro run plain ⟨lost, h⟩
    obtain ⟨ring, same, kept, -⟩ := h.ring
    rw [same]
    exact kept.length.1
  room := by
    rintro run plain ⟨lost, h⟩ -
    obtain ⟨ring, same, -⟩ := h.ring
    rw [same]
    rfl
  oldest := by
    rintro run plain ⟨lost, h⟩ -
    obtain ⟨ring, same, kept, -⟩ := h.ring
    rw [dequeue_ring same]
    exact kept.dequeue.2.1
  step := by
    rintro run plain call ⟨lost, h⟩ allowed
    refine ⟨lost, ?_⟩
    have next := h.step call
    cases call with
    | enqueue request =>
      have none : plain.waiting.length + 1 - capacity = 0 := Nat.sub_eq_zero_of_le allowed.2
      simp only [NewestQueue.step, List.length_append, List.length_singleton, none] at next
      exact next
    | dequeue => exact next
    | incrementEpoch => exact next

/-- A run of a queue of recent requests whose entries are the waiting requests of a backlog. -/
structure Remembers (capacity : Nat) (maxAge : UInt32) (run : QueueRun κ) (plain : Backlog) :
    Prop where
  recalls : run.Recalls capacity maxAge
  recent : run.channel.recent = plain.waiting
  epochs : run.epochs = plain.epochs

variable [LawfulRequestCache κ]

/-- Where no entry is too old, the first one is given out. -/
theorem Remembers.dequeue {capacity : Nat} (h : run.Remembers capacity maxAge plain)
    (young : plain.Allows limit maxAge .dequeue) :
    run.channel.dequeue.1 = plain.waiting.head? ∧
      (run.step .dequeue).channel.recent = plain.waiting.tail := by
  have fresh : (run.channel.recent.dropWhile fun entry =>
      maxAge < epochAge (UInt32.ofNat run.epochs) entry.epoch) = plain.waiting := by
    rw [h.recent, h.epochs]
    cases waiting : plain.waiting with
    | nil => rfl
    | cons first rest =>
      have first_young := young first (by rw [waiting]; exact List.mem_cons_self)
      exact List.dropWhile_cons_of_neg (mt of_decide_eq_true first_young)
  have outcome := h.recalls.step_dequeue.2
  rwa [fresh] at outcome

theorem remembers_start {capacity : Nat} (pos : 0 < capacity) :
    Remembers capacity maxAge (start (.recency capacity maxAge : Channel κ)) .empty := by
  have recalls := @recalls_start κ _ _ capacity maxAge
  rw [Nat.max_eq_left pos] at recalls
  exact ⟨recalls, recent_recency _ _, rfl⟩

theorem keepsUp_remembers (capacity : Nat) :
    KeepsUp (Remembers capacity maxAge : QueueRun κ → Backlog → Prop) capacity maxAge where
  epoch h := by rw [h.recalls.epoch, h.epochs]
  length h := by rw [← h.recent, h.recalls.length]
  room h _ := h.recalls.hasRoom
  oldest h young := (h.dequeue young).1
  step := by
    rintro run plain (request | _ | _) h allowed
    · obtain ⟨later, put⟩ := h.recalls.step_enqueue request
      refine ⟨later, ?_, ?_⟩
      · have new : (run.stamp request).node ∉ run.channel.recent.map Request.node := by
          rw [h.recent]
          exact allowed.1
        have few : run.channel.recent.length < capacity := by
          rw [h.recent]
          exact allowed.2
        rw [put, putRecent_of_new new few, h.recent, stamp, h.epochs]
        rfl
      · exact (run.epochs_step _).trans h.epochs
    · exact ⟨h.recalls.step_dequeue.1, (h.dequeue allowed).2, (run.epochs_step _).trans h.epochs⟩
    · exact ⟨h.recalls.step .incrementEpoch, h.recent, congrArg Nat.succ h.epochs⟩

end Kinds

end QueueRun

namespace QueueConfig

variable {config : QueueConfig}

theorem fault?_of_validate (valid : config.validate = .ok ()) : config.fault? = none := by
  cases found : config.fault? with
  | none => rfl
  | some fault =>
    rw [validate, found] at valid
    nomatch valid

theorem toNat_pos {size : UInt64} (some : size ≠ 0) : 0 < size.toNat :=
  Nat.pos_of_ne_zero fun zero => some (UInt64.toNat_inj.1 zero)

theorem block_sizes (kind : config.kind = .block) (valid : config.validate = .ok ()) :
    0 < config.blockSize.toNat ∧ 3 ≤ config.maxBlocks.toNat := by
  have sound := fault?_of_validate valid
  simp only [fault?, kind] at sound
  split at sound
  · nomatch sound
  split at sound
  · nomatch sound
  next some bounds =>
  refine ⟨toNat_pos some, Nat.le_of_not_lt fun few => bounds (.inl ?_)⟩
  exact UInt64.lt_iff_toNat_lt.2 few

theorem ring_size (kind : config.kind = .ring) (valid : config.validate = .ok ()) :
    0 < config.ringCapacity.toNat := by
  have sound : config.ringCapacity ≠ 0 := by simpa [fault?, kind] using fault?_of_validate valid
  exact toNat_pos sound

theorem recency_size (kind : config.kind = .lru) (valid : config.validate = .ok ()) :
    0 < config.lruCapacity.toNat := by
  have sound : config.lruCapacity ≠ 0 := by simpa [fault?, kind] using fault?_of_validate valid
  exact toNat_pos sound

end QueueConfig

theorem Channel.ofConfig?_of_validate {config : QueueConfig} (valid : config.validate = .ok ()) :
    ofConfig? config = .ok (ofConfig config : Channel κ) := by
  rw [ofConfig?, valid]
  rfl

/-- Three channels of different kinds, each from a configuration without faults, and whatever cache
with the laws is below a queue of recent requests, give the same answers to the same calls, which
are those of a plain list of the waiting requests: as long as no node is asked for that is waiting,
fewer requests wait than the smallest of the three queues is certain to hold when one is added, and
none is too old when one is taken out. A chain of blocks from which nothing is left to take out has
room again after any calls. -/
theorem Channel.kinds_agree [LawfulRequestCache κ] (blocks ring recency : QueueConfig)
    (isBlocks : blocks.kind = .block) (isRing : ring.kind = .ring)
    (isRecency : recency.kind = .lru) (blocksValid : blocks.validate = .ok ())
    (ringValid : ring.validate = .ok ()) (recencyValid : recency.validate = .ok ()) :
    ∃ onBlocks onRing onRecency : Channel κ, ofConfig? blocks = .ok onBlocks ∧
      ofConfig? ring = .ok onRing ∧ ofConfig? recency = .ok onRecency ∧
      (let limit := min ((blocks.maxBlocks.toNat - 2) * blocks.blockSize.toNat)
        (min ring.ringCapacity.toNat recency.lruCapacity.toNat)
      0 < limit ∧ ∀ calls, Backlog.empty.Permits limit recency.lruMaxAge calls →
        ∀ channel ∈ [onBlocks, onRing, onRecency],
          (channel.run calls).1 = (Backlog.empty.run calls).1 ∧
          (channel.run calls).2.queue.length = (Backlog.empty.run calls).2.waiting.length) ∧
      ∀ calls, (onBlocks.run calls).2.dequeue.1 = none →
        ∀ request, ((onBlocks.run calls).2.enqueue request).1 = .ok () := by
  obtain ⟨pos, three⟩ := blocks.block_sizes isBlocks blocksValid
  have slots := ring.ring_size isRing ringValid
  have room := recency.recency_size isRecency recencyValid
  have spare : 0 < (blocks.maxBlocks.toNat - 2) * blocks.blockSize.toNat :=
    Nat.mul_pos (by omega) pos
  have chained : (ofConfig blocks : Channel κ) =
      .block blocks.blockSize.toNat blocks.maxBlocks.toNat := by
    rw [ofConfig, isBlocks]
  have circled : (ofConfig ring : Channel κ) = .ring ring.ringCapacity.toNat := by
    rw [ofConfig, isRing]
  have remembered : (ofConfig recency : Channel κ) =
      .recency recency.lruCapacity.toNat recency.lruMaxAge := by
    rw [ofConfig, isRecency]
  refine ⟨_, _, _, ofConfig?_of_validate blocksValid, ofConfig?_of_validate ringValid,
    ofConfig?_of_validate recencyValid, ⟨by omega, ?_⟩, ?_⟩
  · intro calls permitted
    have onBlocks := (@QueueRun.keepsUp_chains κ _ _ _ _ pos).run_start
      (QueueRun.chains_start pos (by omega)) (Nat.min_le_left _ _) permitted
    have onRing := (@QueueRun.keepsUp_circles κ _ _ ring.ringCapacity.toNat).run_start
      (QueueRun.circles_start slots) (by omega) permitted
    have onRecency := (@QueueRun.keepsUp_remembers κ _ _ _ recency.lruCapacity.toNat).run_start
      (QueueRun.remembers_start room) (by omega) permitted
    rw [chained, circled, remembered]
    simp only [List.forall_mem_cons]
    exact ⟨onBlocks, onRing, onRecency, nofun⟩
  · intro calls drained request
    rw [chained] at drained ⊢
    have start := @QueueRun.chains_start κ _ blocks.maxBlocks.toNat pos (by omega)
    have serves := (start.serves.foldl calls).1
    rw [QueueRun.channel_run_start] at drained ⊢
    exact serves.enqueue_of_drained pos spare drained request

/-- Three blocks of two slots, two slots in a ring, and two recent requests: a node is asked for
again once its request was taken out, and the last request comes from an empty queue. -/
theorem Channel.kinds_agree_two_slots :
    let blocks : QueueConfig := { kind := .block, blockSize := 2, maxBlocks := 3 }
    let ring : QueueConfig := { kind := .ring, ringCapacity := 2 }
    let recency : QueueConfig := { kind := .lru, lruCapacity := 2, lruMaxAge := 1 }
    let calls := [.enqueue ⟨⟨5⟩, 0, .out⟩, .incrementEpoch, .enqueue ⟨⟨6⟩, 0, .inc⟩, .dequeue,
      .enqueue ⟨⟨5⟩, 0, .inc⟩, .dequeue, .dequeue, .dequeue]
    let answers := [(.accepted, 0), (.started 1, 1), (.accepted, 1),
      (.taken (some ⟨⟨5⟩, 0, .out⟩), 1), (.accepted, 1), (.taken (some ⟨⟨6⟩, 1, .inc⟩), 1),
      (.taken (some ⟨⟨5⟩, 1, .inc⟩), 1), (.taken none, 1)]
    ∃ onBlocks onRing onRecency : Channel LoggedCache, ofConfig? blocks = .ok onBlocks ∧
      ofConfig? ring = .ok onRing ∧ ofConfig? recency = .ok onRecency ∧
      (onBlocks.run calls).1 = answers ∧ (onRing.run calls).1 = answers ∧
      (onRecency.run calls).1 = answers ∧
      ((onBlocks.run calls).2.enqueue ⟨⟨7⟩, 0, .out⟩).1 = .ok () := by
  intro blocks ring recency calls answers
  obtain ⟨onBlocks, onRing, onRecency, first, second, third, ⟨-, agree⟩, again⟩ :=
    @kinds_agree LoggedCache _ _ blocks ring recency rfl rfl rfl rfl rfl rfl
  have plain : (Backlog.empty.run calls).1 = answers := by decide
  have same := agree calls (by decide)
  simp only [plain, List.forall_mem_cons] at same
  obtain ⟨⟨blocksSame, left⟩, ⟨ringSame, -⟩, ⟨recencySame, -⟩, -⟩ := same
  obtain rfl : (ofConfig blocks : Channel LoggedCache) = onBlocks :=
    Except.ok.inj ((ofConfig?_of_validate rfl).symm.trans first)
  have drained : ((ofConfig blocks : Channel LoggedCache).run calls).2.dequeue.1 = none := by
    decide +kernel
  exact ⟨_, _, _, first, second, third, blocksSame, ringSame, recencySame, again calls drained _⟩

end LayeredGraph
