import LayeredGraph.Proofs.Queue.Fifo
import LayeredGraph.Proofs.Queue.Ring
import LayeredGraph.Proofs.Queue.Recency

/-! A channel of any kind that is given one request in each epoch. Whatever the queue does with
them, what it gives out is one of these requests, under the number of those before it. -/
namespace LayeredGraph

variable {κ : Type} [RequestCache κ]

/-- Only accepted requests are given out, by a queue of any kind. -/
theorem QueueRun.mem_accepted_of_dequeue [LawfulRequestCache κ] (config : QueueConfig)
    (calls : List QueueCall) {request : Request} :
    (ofCalls (.ofConfig config : Channel κ) calls).channel.dequeue.1 = some request →
      request ∈ (ofCalls (.ofConfig config : Channel κ) calls).accepted := by
  rw [Channel.ofConfig, ofCalls]
  cases config.kind with
  | block =>
    obtain ⟨serves, -⟩ :=
      (@serves_start κ config.blockSize.toNat config.maxBlocks.toNat).foldl calls
    obtain ⟨queue, same, held⟩ := serves.queue
    rw [dequeue_eq same, held.dequeue.1]
    exact List.mem_of_getElem?
  | ring =>
    have mirrors := (@mirrors_start κ config.ringCapacity.toNat).foldl calls
    obtain ⟨ring, same, kept, -⟩ := mirrors.ring
    rw [dequeue_ring same, kept.dequeue.2.1, kept.waiting]
    exact fun oldest => List.mem_of_mem_drop (List.mem_of_head? oldest)
  | lru =>
    have recalls := (@recalls_start κ _ _ config.lruCapacity.toNat config.lruMaxAge).foldl calls
    rw [recalls.step_dequeue.2.1]
    intro first
    have live := (List.dropWhile_suffix _).subset (List.mem_of_head? first)
    exact (latestBy_sublist _).subset (recalls.latest.subset live)

/-- A channel to which the advised requests were given one after the other, each in an epoch of its
own. What it accepted is among them. -/
def Channel.Fed (config : QueueConfig) (advised : List Request) (channel : Channel κ) : Prop :=
  ∃ calls, channel = (QueueRun.ofCalls (.ofConfig config) calls).channel ∧
    (QueueRun.ofCalls (.ofConfig config : Channel κ) calls).epochs = advised.length ∧
    (QueueRun.ofCalls (.ofConfig config : Channel κ) calls).accepted ⊆ advised

namespace Channel

theorem epoch_ofConfig (config : QueueConfig) : (ofConfig config : Channel κ).epoch = 0 := by
  unfold ofConfig
  cases config.kind <;> rfl

theorem fed_start (config : QueueConfig) : (ofConfig config : Channel κ).Fed config [] :=
  ⟨[], rfl, rfl, fun _ mem => nomatch mem⟩

section Fed

variable {config : QueueConfig} {advised : List Request} {channel : Channel κ}

theorem Fed.epoch (h : channel.Fed config advised) :
    channel.epoch = UInt32.ofNat advised.length := by
  obtain ⟨calls, rfl, epochs, -⟩ := h
  rw [← epochs, QueueRun.epoch_ofCalls (epoch_ofConfig config)]

theorem Fed.hasRoom (h : channel.Fed config advised) (unbounded : config.kind ≠ .block) :
    channel.queue.hasRoom = true := by
  obtain ⟨calls, rfl, -⟩ := h
  apply Queue.hasRoom_of_kind_ne_block
  rwa [QueueRun.kind_ofCalls, kind_ofConfig]

theorem Fed.mem [LawfulRequestCache κ] (h : channel.Fed config advised) {request : Request}
    (taken : channel.dequeue.1 = some request) : request ∈ advised := by
  obtain ⟨calls, rfl, -, accepted⟩ := h
  exact accepted (QueueRun.mem_accepted_of_dequeue config calls taken)

theorem Fed.dequeue (h : channel.Fed config advised) : channel.dequeue.2.Fed config advised := by
  obtain ⟨calls, rfl, epochs, accepted⟩ := h
  refine ⟨calls ++ [.dequeue], ?_, ?_, ?_⟩ <;>
    rw [QueueRun.ofCalls_append, List.foldl_cons, List.foldl_nil, QueueRun.step_dequeue]
  · exact epochs
  · exact accepted

/-- Giving one more request to the channel, and starting the next epoch. -/
theorem Fed.enqueue (h : channel.Fed config advised) (node : NodeId) (direction : Direction) :
    (channel.enqueue ⟨node, channel.epoch, direction⟩).2.incrementEpoch.2.Fed config
      (advised ++ [⟨node, UInt32.ofNat advised.length, direction⟩]) := by
  obtain ⟨calls, rfl, epochs, accepted⟩ := h
  let run : QueueRun κ := .ofCalls (ofConfig config) calls
  let request : Request := ⟨node, run.channel.epoch, direction⟩
  have later : .ofCalls (ofConfig config) (calls ++ [.enqueue request, .incrementEpoch]) =
      (run.step (.enqueue request)).step .incrementEpoch := QueueRun.ofCalls_append ..
  refine ⟨calls ++ [.enqueue request, .incrementEpoch], ?_, ?_, ?_⟩ <;> rw [later]
  · rw [QueueRun.channel_step, QueueRun.channel_step]
  · rw [QueueRun.epochs_step, QueueRun.epochs_step, List.length_append, ← epochs]
    rfl
  · rw [← epochs]
    refine List.Subset.trans (QueueRun.accepted_step_enqueue run request) ?_
    exact List.append_subset.2 ⟨List.subset_append_of_subset_left _ accepted,
      List.subset_append_right _ _⟩

end Fed

end Channel

end LayeredGraph
