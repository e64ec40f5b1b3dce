import LayeredGraph.Queue.Channel

/-! Runs of a channel. A run keeps a record of the requests that were accepted, under the epochs in
which they came, of those that were given out, and of the number of epochs that were started. -/
namespace LayeredGraph

variable {κ : Type} [RequestCache κ]

namespace Queue

def kind : Queue κ → QueueKind
  | block _ => .block
  | ring _ => .ring
  | recency _ => .lru

@[simp] theorem kind_enqueue (queue : Queue κ) (request : Request) :
    (queue.enqueue request).kind = queue.kind := by cases queue <;> rfl

@[simp] theorem kind_dequeue (queue : Queue κ) (current : UInt32) :
    (queue.dequeue current).2.kind = queue.kind := by cases queue <;> rfl

omit [RequestCache κ] in
theorem hasRoom_of_kind_ne_block {queue : Queue κ} (h : queue.kind ≠ .block) :
    queue.hasRoom = true := by
  cases queue with
  | block queue => exact absurd rfl h
  | ring queue => rfl
  | recency queue => rfl

end Queue

namespace Channel

@[simp] theorem epoch_enqueue (channel : Channel κ) (request : Request) :
    (channel.enqueue request).2.epoch = channel.epoch := by
  unfold enqueue
  split <;> rfl

@[simp] theorem epoch_dequeue (channel : Channel κ) : channel.dequeue.2.epoch = channel.epoch := rfl

theorem kind_ofConfig (config : QueueConfig) :
    (ofConfig config : Channel κ).queue.kind = config.kind := by
  unfold ofConfig
  cases config.kind <;> rfl

end Channel

inductive QueueCall where
  | enqueue (request : Request)
  | dequeue
  | incrementEpoch
  deriving DecidableEq, Repr

def QueueCall.isEnqueue : QueueCall → Bool
  | enqueue _ => true
  | _ => false

/-- A channel with the requests that it accepted and gave out, and the epochs that were started. -/
structure QueueRun (κ : Type) where
  channel : Channel κ
  accepted : List Request
  returned : List Request
  epochs : Nat

namespace QueueRun

/-- A request as it is recorded: under the current epoch, whatever epoch it came with. -/
def stamp (run : QueueRun κ) (request : Request) : Request :=
  { request with epoch := UInt32.ofNat run.epochs }

def step (run : QueueRun κ) : QueueCall → QueueRun κ
  | .enqueue request =>
      match run.channel.enqueue request with
      | (.ok _, channel) =>
          { run with channel, accepted := run.accepted ++ [run.stamp request] }
      | (.error _, channel) => { run with channel }
  | .dequeue =>
      match run.channel.dequeue with
      | (some request, channel) => { run with channel, returned := run.returned ++ [request] }
      | (none, channel) => { run with channel }
  | .incrementEpoch =>
      { run with channel := run.channel.incrementEpoch.2, epochs := run.epochs + 1 }

/-- The run of a channel before any call. -/
def start (channel : Channel κ) : QueueRun κ := ⟨channel, [], [], 0⟩

/-- The run that some calls make from a channel. -/
def ofCalls (channel : Channel κ) (calls : List QueueCall) : QueueRun κ :=
  calls.foldl step (start channel)

theorem ofCalls_append (channel : Channel κ) (calls more : List QueueCall) :
    ofCalls channel (calls ++ more) = more.foldl step (ofCalls channel calls) :=
  List.foldl_append

section Steps

variable {run : QueueRun κ}

omit [RequestCache κ] in
theorem stamp_of_epoch (same : run.channel.epoch = UInt32.ofNat run.epochs) (request : Request) :
    { request with epoch := run.channel.epoch } = run.stamp request := by
  rw [stamp, same]

/-- Where there is room, a request is added under the current epoch. -/
theorem enqueue_of_room (room : run.channel.queue.hasRoom = true) (request : Request) :
    run.channel.enqueue request = (.ok (), { run.channel with
      queue := run.channel.queue.enqueue { request with epoch := run.channel.epoch } }) :=
  if_pos room

theorem step_enqueue_of_room (room : run.channel.queue.hasRoom = true) (request : Request) :
    run.step (.enqueue request) = { run with
      channel := (run.channel.enqueue request).2
      accepted := run.accepted ++ [run.stamp request] } := by
  rw [step, enqueue_of_room room]

theorem step_dequeue (run : QueueRun κ) :
    run.step .dequeue = { run with
      channel := run.channel.dequeue.2
      returned := run.returned ++ run.channel.dequeue.1.toList } := by
  rw [step]
  split
  · next request channel found => rw [found, Option.toList_some]
  · next channel found => rw [found, Option.toList_none, List.append_nil]

/-- What a step leaves of the channel is what the call leaves of it. -/
theorem channel_step (run : QueueRun κ) (call : QueueCall) :
    (run.step call).channel =
      match call with
      | .enqueue request => (run.channel.enqueue request).2
      | .dequeue => run.channel.dequeue.2
      | .incrementEpoch => run.channel.incrementEpoch.2 := by
  cases call with
  | enqueue request =>
    rw [step]
    split <;> simp only [*]
  | dequeue => rw [step_dequeue]
  | incrementEpoch => rfl

theorem epochs_step (run : QueueRun κ) (call : QueueCall) :
    (run.step call).epochs =
      match call with
      | .incrementEpoch => run.epochs + 1
      | _ => run.epochs := by
  cases call with
  | enqueue request =>
    rw [step]
    split <;> rfl
  | dequeue => rw [step_dequeue]
  | incrementEpoch => rfl

/-- Enqueuing accepts the stamped request or nothing. -/
theorem accepted_step_enqueue (run : QueueRun κ) (request : Request) :
    (run.step (.enqueue request)).accepted ⊆ run.accepted ++ [run.stamp request] := by
  rw [step]
  split
  · exact List.Subset.refl _
  · exact List.subset_append_left _ _

/-- Only starting an epoch moves the current epoch, and it is counted. -/
theorem epoch_step (h : run.channel.epoch = UInt32.ofNat run.epochs) (call : QueueCall) :
    (run.step call).channel.epoch = UInt32.ofNat (run.step call).epochs := by
  rw [channel_step, epochs_step]
  cases call with
  | enqueue request => rw [Channel.epoch_enqueue, h]
  | dequeue => rw [Channel.epoch_dequeue, h]
  | incrementEpoch =>
    change run.channel.epoch + 1 = UInt32.ofNat (run.epochs + 1)
    rw [h, UInt32.ofNat_add]
    rfl

@[simp] theorem kind_step (run : QueueRun κ) (call : QueueCall) :
    (run.step call).channel.queue.kind = run.channel.queue.kind := by
  rw [channel_step]
  cases call with
  | enqueue request =>
    simp only [Channel.enqueue]
    split
    · exact Queue.kind_enqueue _ _
    · rfl
  | dequeue => exact Queue.kind_dequeue _ _
  | incrementEpoch => rfl

theorem length_accepted_step (open_ : run.channel.queue.kind ≠ .block) (call : QueueCall) :
    (run.step call).accepted.length = run.accepted.length + if call.isEnqueue then 1 else 0 := by
  cases call with
  | enqueue request =>
    rw [step_enqueue_of_room (Queue.hasRoom_of_kind_ne_block open_), List.length_append]
    rfl
  | dequeue => rw [step_dequeue]; rfl
  | incrementEpoch => rfl

/-- A queue that refuses no request accepts as many as are enqueued. -/
theorem length_accepted_foldl (open_ : run.channel.queue.kind ≠ .block) (calls : List QueueCall) :
    (calls.foldl step run).accepted.length =
      run.accepted.length + calls.countP QueueCall.isEnqueue := by
  induction calls generalizing run with
  | nil => rfl
  | cons call calls ih =>
    have later : (run.step call).channel.queue.kind ≠ .block := by
      rw [kind_step]
      exact open_
    rw [List.foldl_cons, ih later, length_accepted_step open_, List.countP_cons, Nat.add_assoc]
    congr 1
    exact Nat.add_comm _ _

end Steps

/-- The epoch of a channel is the number of epochs that were started. -/
theorem epoch_ofCalls {channel : Channel κ} (first : channel.epoch = 0) (calls : List QueueCall) :
    (ofCalls channel calls).channel.epoch = UInt32.ofNat (ofCalls channel calls).epochs :=
  List.foldlRecOn (motive := fun run : QueueRun κ => run.channel.epoch = UInt32.ofNat run.epochs)
    calls step first fun _ same call _ => epoch_step same call

theorem kind_ofCalls (channel : Channel κ) (calls : List QueueCall) :
    (ofCalls channel calls).channel.queue.kind = channel.queue.kind :=
  List.foldlRecOn (motive := fun run : QueueRun κ => run.channel.queue.kind = channel.queue.kind)
    calls step rfl fun run same call _ => (kind_step run call).trans same

end QueueRun

end LayeredGraph
