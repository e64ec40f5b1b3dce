import LayeredGraph.Proofs.Queue.Run
import LayeredGraph.Queue.Latest
import LayeredGraph.Queue.LoggedCache

/-! The queue of recent requests over any cache that has the laws. Its entries are the last ones
among the latest requests of all nodes, in the order in which these were made, and remain so
whatever is enqueued and taken out. -/
namespace LayeredGraph

variable {κ : Type} [RequestCache κ]

/-- The requests in a queue after one was put: it replaces the request of its node and becomes the
most recent one, and past the capacity the least recent one goes. -/
def putRecent (capacity : Nat) (live : List Request) (request : Request) : List Request :=
  let pushed := live.filter (·.node ≠ request.node) ++ [request]
  pushed.drop (pushed.length - capacity)

section PutRecent

variable {capacity : Nat} {live : List Request} {request : Request}

/-- A request that replaces one keeps the room that this one had. -/
theorem putRecent_of_known (known : request.node ∈ live.map Request.node)
    (distinct : (live.map Request.node).Nodup) (within : live.length ≤ capacity) :
    putRecent capacity live request = live.filter (·.node ≠ request.node) ++ [request] := by
  have some := List.length_pos_of_mem known
  rw [List.length_map] at some
  have length := length_filter_ne distinct request.node
  rw [if_pos known] at length
  have none : (live.filter (·.node ≠ request.node) ++ [request]).length - capacity = 0 := by
    rw [List.length_append, length, List.length_singleton]
    omega
  rw [putRecent, none, List.drop_zero]

/-- Where there is room, the request of a new node is put behind the others. -/
theorem putRecent_of_new (new : request.node ∉ live.map Request.node)
    (room : live.length < capacity) : putRecent capacity live request = live ++ [request] := by
  have none : (live ++ [request]).length - capacity = 0 := by
    rw [List.length_append, List.length_singleton]
    omega
  rw [putRecent, filter_ne_eq_self new, none, List.drop_zero]

/-- Where there is none, the least recent request makes room for it. -/
theorem putRecent_of_full (new : request.node ∉ live.map Request.node)
    (full : live.length = capacity) (pos : 0 < capacity) :
    putRecent capacity live request = live.tail ++ [request] := by
  have one : (live ++ [request]).length - capacity = 1 := by
    rw [List.length_append, List.length_singleton]
    omega
  have some : live ≠ [] := List.ne_nil_of_length_pos (full ▸ pos)
  rw [putRecent, filter_ne_eq_self new, one, List.drop_one, List.tail_append_of_ne_nil some]

theorem length_putRecent_le (live : List Request) (request : Request) :
    (putRecent capacity live request).length ≤ capacity := by
  rw [putRecent, List.length_drop]
  omega

theorem getLast?_putRecent (pos : 0 < capacity) (live : List Request) (request : Request) :
    (putRecent capacity live request).getLast? = some request := by
  rw [putRecent, List.getLast?_drop, List.getLast?_concat, if_neg]
  rw [List.length_append, List.length_singleton]
  omega

theorem nodup_putRecent (distinct : (live.map Request.node).Nodup) (request : Request) :
    ((putRecent capacity live request).map Request.node).Nodup := by
  have pushed : ((live.filter (·.node ≠ request.node) ++ [request]).map Request.node).Nodup := by
    rw [List.map_append, List.nodup_append]
    refine ⟨(List.filter_sublist.map _).nodup distinct, by simp, ?_⟩
    intro node mem other last same
    obtain ⟨entry, kept, rfl⟩ := List.mem_map.1 mem
    obtain rfl := List.mem_singleton.1 last
    exact of_decide_eq_true (List.mem_filter.1 kept).2 same
  rw [putRecent, List.map_drop]
  exact (List.drop_sublist _ _).nodup pushed

/-- Putting a request keeps to the last ones among the latest requests. -/
theorem putRecent_suffix {made : List Request} (suffix : live <:+ latestBy Request.node made)
    (request : Request) :
    putRecent capacity live request <:+ latestBy Request.node (made ++ [request]) := by
  rw [latestBy_append_singleton]
  obtain ⟨older, whole⟩ := suffix
  refine (List.drop_suffix _ _).trans ⟨older.filter (·.node ≠ request.node), ?_⟩
  rw [← whole, List.filter_append, List.append_assoc]

/-- A node loses its request to that of another node only in a queue that is full with others. -/
theorem length_putRecent {node : NodeId} (held : node ∈ live.map Request.node)
    (gone : node ∉ (putRecent capacity live request).map Request.node) :
    (putRecent capacity live request).length = capacity := by
  rw [putRecent, List.length_drop]
  rcases Nat.le_total (live.filter (·.node ≠ request.node) ++ [request]).length capacity
    with fits | beyond
  · refine absurd ?_ gone
    obtain ⟨entry, mem, rfl⟩ := List.mem_map.1 held
    rw [putRecent, Nat.sub_eq_zero_of_le fits, List.drop_zero, List.map_append, List.mem_append]
    by_cases same : entry.node = request.node
    · exact .inr (List.mem_singleton.2 same)
    · exact .inl (List.mem_map_of_mem (List.mem_filter.2 ⟨mem, decide_eq_true same⟩))
  · omega

end PutRecent

/-- A request as an entry of a cache, under its node. -/
def Request.keyed (request : Request) : NodeId × Request := (request.node, request)

namespace RecencyQueue

open RequestCache LawfulRequestCache

/-- A queue whose cache holds some requests, each under its node, and at most one for each. -/
structure Holds (queue : RecencyQueue κ) (capacity : Nat) (maxAge : UInt32)
    (live : List Request) : Prop where
  entries : RequestCache.entries queue.cache = live.map Request.keyed
  room : RequestCache.capacity queue.cache = capacity
  pos : 0 < capacity
  maxAge : queue.maxAge = maxAge
  within : live.length ≤ capacity
  distinct : (live.map Request.node).Nodup

section Holds

variable [LawfulRequestCache κ] {queue : RecencyQueue κ} {capacity : Nat} {maxAge : UInt32}
  {live : List Request}

theorem holds_empty (capacity : Nat) (maxAge : UInt32) :
    (empty capacity maxAge : RecencyQueue κ).Holds (max capacity 1) maxAge [] where
  entries := entries_withCapacity _
  room := capacity_withCapacity _ (Nat.le_max_right _ _)
  pos := Nat.le_max_right _ _
  maxAge := rfl
  within := Nat.zero_le _
  distinct := List.nodup_nil

omit [LawfulRequestCache κ] in
theorem Holds.entries_eq (h : queue.Holds capacity maxAge live) : queue.entries = live := by
  rw [RecencyQueue.entries, h.entries, List.map_map]
  exact List.map_id live

theorem Holds.length (h : queue.Holds capacity maxAge live) : queue.length = live.length := by
  rw [RecencyQueue.length, length_eq, h.entries, List.length_map]

omit [LawfulRequestCache κ] in
theorem Holds.keys (h : queue.Holds capacity maxAge live) :
    (RequestCache.entries queue.cache).map (·.1) = live.map Request.node := by
  rw [h.entries, List.map_map]
  rfl

/-- Whatever a cache does with a put, a queue over it holds what is to be recalled then. -/
theorem Holds.enqueue (h : queue.Holds capacity maxAge live) (request : Request) :
    (queue.enqueue request).Holds capacity maxAge (putRecent capacity live request) where
  entries := by
    change RequestCache.entries (put queue.cache request.node request) = _
    by_cases known : request.node ∈ live.map Request.node
    · rw [put_known _ _ _ (h.keys ▸ known), putRecent_of_known known h.distinct h.within, h.entries,
        List.map_append, List.filter_map]
      rfl
    · have new : request.node ∉ (RequestCache.entries queue.cache).map (·.1) := h.keys ▸ known
      have length : (RequestCache.entries queue.cache).length = live.length := by
        rw [h.entries, List.length_map]
      rcases Nat.lt_or_eq_of_le h.within with room | full
      · rw [put_new _ _ _ new (by rwa [length, h.room]), putRecent_of_new known room, h.entries,
          List.map_append]
        rfl
      · rw [put_full _ _ _ new (by rwa [length, h.room]), putRecent_of_full known full h.pos,
          h.entries, List.map_append, List.map_tail]
        rfl
  room := (capacity_put _ _ _).trans h.room
  pos := h.pos
  maxAge := h.maxAge
  within := length_putRecent_le _ _
  distinct := nodup_putRecent h.distinct request

/-- Taking entries out until one is not too old leads to the first that is not. -/
theorem takeFresh_eq (current maxAge : UInt32) {cache : κ} {count : Nat}
    (held : RequestCache.entries cache = live.map Request.keyed) (enough : live.length < count) :
    let fresh := live.dropWhile fun entry => maxAge < epochAge current entry.epoch
    let (taken, left) := takeFresh current maxAge count cache
    taken = fresh.head? ∧ RequestCache.entries left = fresh.tail.map Request.keyed ∧
      RequestCache.capacity left = RequestCache.capacity cache := by
  induction count generalizing cache live with
  | zero => exact absurd enough (Nat.not_lt_zero _)
  | succ count ih =>
    have room := capacity_popLeast cache
    have empty := popLeast_nil cache
    have filled := @popLeast_cons κ _ _ cache
    rw [takeFresh]
    -- What came out is known from the entries that were held.
    generalize popLeast cache = popped at *
    obtain ⟨oldest, later⟩ := popped
    cases live with
    | nil =>
      obtain ⟨out, left⟩ := empty held
      obtain rfl : oldest = none := out
      exact ⟨rfl, left, room⟩
    | cons entry rest =>
      obtain ⟨out, left⟩ := filled held
      obtain rfl : oldest = some (entry.node, entry) := out
      simp only [List.dropWhile_cons]
      by_cases old : maxAge < epochAge current entry.epoch
      · rw [if_pos old, if_pos (decide_eq_true old)]
        obtain ⟨taken, behind, same⟩ := ih left (Nat.lt_of_succ_lt_succ enough)
        exact ⟨taken, behind, same.trans room⟩
      · rw [if_neg old, if_neg (mt of_decide_eq_true old)]
        exact ⟨rfl, left, room⟩

theorem Holds.dequeue (h : queue.Holds capacity maxAge live) (current : UInt32) :
    let fresh := live.dropWhile fun entry => maxAge < epochAge current entry.epoch
    (queue.dequeue current).1 = fresh.head? ∧
      (queue.dequeue current).2.Holds capacity maxAge fresh.tail := by
  intro fresh
  have all : live.length < queue.length + 1 := Nat.lt_succ_of_le (Nat.le_of_eq h.length.symm)
  obtain ⟨taken, left, room⟩ := takeFresh_eq current queue.maxAge h.entries all
  rw [h.maxAge] at taken left room
  have later : fresh.tail.Sublist live :=
    ((List.tail_suffix fresh).trans (List.dropWhile_suffix _)).sublist
  rw [RecencyQueue.dequeue, h.maxAge]
  exact ⟨taken, left, room.trans h.room, h.pos, rfl, Nat.le_trans later.length_le h.within,
    (later.map _).nodup h.distinct⟩

end Holds

end RecencyQueue

/-- The live entries of a channel with a queue of recent requests, oldest first. -/
def Channel.recent (channel : Channel κ) : List Request :=
  match channel.queue with
  | .recency queue => queue.entries
  | _ => []

namespace QueueRun

/-- A run of a channel with a queue of recent requests. -/
structure Recalls (run : QueueRun κ) (capacity : Nat) (maxAge : UInt32) : Prop where
  queue : ∃ queue, run.channel.queue = .recency queue ∧
    queue.Holds capacity maxAge run.channel.recent
  latest : run.channel.recent <:+ latestBy Request.node run.accepted
  epoch : run.channel.epoch = UInt32.ofNat run.epochs

section Recalls

variable [LawfulRequestCache κ] {run : QueueRun κ} {capacity : Nat} {maxAge : UInt32}

theorem recent_recency (capacity : Nat) (maxAge : UInt32) :
    (.recency capacity maxAge : Channel κ).recent = [] :=
  (RecencyQueue.holds_empty capacity maxAge).entries_eq

theorem recalls_start (capacity : Nat) (maxAge : UInt32) :
    (start (.recency capacity maxAge : Channel κ)).Recalls (max capacity 1) maxAge := by
  refine ⟨⟨_, rfl, ?_⟩, ?_, rfl⟩ <;> rw [start, recent_recency]
  · exact RecencyQueue.holds_empty capacity maxAge
  · exact List.nil_suffix

omit [LawfulRequestCache κ] in
theorem Recalls.hasRoom (h : run.Recalls capacity maxAge) :
    run.channel.queue.hasRoom = true := by
  obtain ⟨queue, same, -⟩ := h.queue
  rw [same]
  rfl

omit [LawfulRequestCache κ] in
theorem Recalls.pos (h : run.Recalls capacity maxAge) : 0 < capacity := by
  obtain ⟨queue, -, held⟩ := h.queue
  exact held.pos

omit [LawfulRequestCache κ] in
theorem Recalls.nodup (h : run.Recalls capacity maxAge) :
    (run.channel.recent.map Request.node).Nodup := by
  obtain ⟨queue, -, held⟩ := h.queue
  exact held.distinct

theorem Recalls.length (h : run.Recalls capacity maxAge) :
    run.channel.queue.length = run.channel.recent.length := by
  obtain ⟨queue, same, held⟩ := h.queue
  rw [same]
  exact held.length

/-- Enqueuing puts the stamped request into the cache. -/
theorem Recalls.step_enqueue (h : run.Recalls capacity maxAge) (request : Request) :
    (run.step (.enqueue request)).Recalls capacity maxAge ∧
      (run.step (.enqueue request)).channel.recent =
        putRecent capacity run.channel.recent (run.stamp request) := by
  obtain ⟨queue, same, held⟩ := h.queue
  have stamped := stamp_of_epoch h.epoch request
  have next := held.enqueue (run.stamp request)
  have after : (run.step (.enqueue request)).channel.queue =
      .recency (queue.enqueue (run.stamp request)) := by
    rw [step_enqueue_of_room h.hasRoom, enqueue_of_room h.hasRoom, stamped, same]
    rfl
  have recent : (run.step (.enqueue request)).channel.recent =
      putRecent capacity run.channel.recent (run.stamp request) := by
    rw [Channel.recent, after]
    exact next.entries_eq
  refine ⟨⟨⟨_, after, recent ▸ next⟩, ?_, epoch_step h.epoch _⟩, recent⟩
  rw [recent, step_enqueue_of_room h.hasRoom]
  exact putRecent_suffix h.latest _

/-- Dequeuing gives the first entry that is not too old, and leaves those behind it. -/
theorem Recalls.step_dequeue (h : run.Recalls capacity maxAge) :
    let fresh := run.channel.recent.dropWhile fun entry =>
      maxAge < epochAge (UInt32.ofNat run.epochs) entry.epoch
    (run.step .dequeue).Recalls capacity maxAge ∧
      run.channel.dequeue.1 = fresh.head? ∧ (run.step .dequeue).channel.recent = fresh.tail := by
  intro fresh
  obtain ⟨queue, same, held⟩ := h.queue
  obtain ⟨taken, next⟩ := held.dequeue run.channel.epoch
  have dequeue : run.channel.dequeue = ((queue.dequeue run.channel.epoch).1,
      { run.channel with queue := .recency (queue.dequeue run.channel.epoch).2 }) := by
    rw [Channel.dequeue, same]
    rfl
  rw [h.epoch] at taken next dequeue
  have after : (run.step .dequeue).channel.queue =
      .recency (queue.dequeue (UInt32.ofNat run.epochs)).2 := by
    rw [QueueRun.step_dequeue, dequeue]
  have recent : (run.step .dequeue).channel.recent = fresh.tail := by
    rw [Channel.recent, after]
    exact next.entries_eq
  refine ⟨⟨⟨_, after, recent ▸ next⟩, ?_, epoch_step h.epoch .dequeue⟩, ?_, recent⟩
  · rw [recent, QueueRun.step_dequeue]
    exact ((List.tail_suffix fresh).trans (List.dropWhile_suffix _)).trans h.latest
  · rw [dequeue]
    exact taken

theorem Recalls.step (h : run.Recalls capacity maxAge) (call : QueueCall) :
    (run.step call).Recalls capacity maxAge := by
  cases call with
  | enqueue request => exact (h.step_enqueue request).1
  | dequeue => exact h.step_dequeue.1
  | incrementEpoch => exact ⟨h.queue, h.latest, epoch_step h.epoch .incrementEpoch⟩

theorem Recalls.foldl (h : run.Recalls capacity maxAge) (calls : List QueueCall) :
    (calls.foldl QueueRun.step run).Recalls capacity maxAge :=
  List.foldlRecOn (motive := fun run : QueueRun κ => run.Recalls capacity maxAge) calls _ h
    fun _ held call _ => held.step call

omit [LawfulRequestCache κ] in
/-- The live entries came since the last request of any other node. -/
theorem Recalls.mem_sinceLast (h : run.Recalls capacity maxAge) {node : NodeId}
    (gone : node ∉ run.channel.recent.map Request.node) {entry : Request}
    (live : entry ∈ run.channel.recent) : entry ∈ sinceLast Request.node run.accepted node := by
  obtain ⟨count, same⟩ := eq_latestBy_drop_of_suffix h.latest
  rw [same] at gone live
  exact LayeredGraph.mem_sinceLast (mt mem_keys_latestBy.2 gone)
    ((latestBy_sublist _).subset live)

/-- An entry that goes when a request is enqueued makes place for later ones, which fill the
queue. -/
theorem Recalls.enqueue_gone (h : run.Recalls capacity maxAge) (request : Request) {node : NodeId}
    (held : node ∈ run.channel.recent.map Request.node)
    (gone : node ∉ (run.step (.enqueue request)).channel.recent.map Request.node) :
    ∃ others : List NodeId, others.Nodup ∧ others.length = capacity ∧ ∀ other ∈ others,
      other ∈ (sinceLast Request.node (run.step (.enqueue request)).accepted node).map
        Request.node := by
  obtain ⟨later, put⟩ := h.step_enqueue request
  refine ⟨(run.step (.enqueue request)).channel.recent.map Request.node, later.nodup, ?_, ?_⟩
  · rw [List.length_map]
    rw [put] at gone ⊢
    exact length_putRecent held gone
  · intro other mem
    obtain ⟨entry, live, rfl⟩ := List.mem_map.1 mem
    exact List.mem_map_of_mem (later.mem_sinceLast gone live)

/-- An entry that goes when one is dequeued was given out or had grown too old. -/
theorem Recalls.dequeue_gone (h : run.Recalls capacity maxAge) {entry : Request}
    (held : entry ∈ run.channel.recent)
    (gone : entry.node ∉ (run.step .dequeue).channel.recent.map Request.node) :
    run.channel.dequeue.1 = some entry ∨
      maxAge < epochAge (UInt32.ofNat run.epochs) entry.epoch := by
  obtain ⟨-, taken, left⟩ := h.step_dequeue
  rw [left] at gone
  rw [taken]
  clear taken left
  generalize run.channel.recent = live at *
  induction live with
  | nil => nomatch held
  | cons first rest ih =>
    rw [List.dropWhile_cons] at gone ⊢
    split at gone
    · next old =>
      rw [if_pos old]
      rcases List.mem_cons.1 held with rfl | behind
      · exact .inr (of_decide_eq_true old)
      · exact ih behind gone
    · next fresh =>
      rw [if_neg fresh]
      rcases List.mem_cons.1 held with rfl | behind
      · exact .inl rfl
      · exact absurd (List.mem_map_of_mem behind) gone

end Recalls

end QueueRun

/-- A channel with a queue of recent requests, over any cache that has the laws, of any capacity and
over any calls, refuses no request and holds at most one for each node: the last one, under the
epoch in which it came. A request that is enqueued becomes the most recent entry, behind those of
the other nodes as far as there is room. The entries are those whose nodes were asked for last, in
this order. Taking one out gives the first that is not too old, and leaves those behind it. An entry
goes only when it is given out, when it has grown too old, or when as many other nodes as the queue
has room for were asked for since. -/
theorem Channel.recency_keeps_latest [LawfulRequestCache κ] (capacity : Nat) (maxAge : UInt32)
    (calls : List QueueCall) :
    let run : QueueRun κ := .ofCalls (.recency capacity maxAge) calls
    let live := run.channel.recent
    let tooOld (entry : Request) := maxAge < epochAge (UInt32.ofNat run.epochs) entry.epoch
    let fresh := live.dropWhile (tooOld ·)
    (∀ request,
      let stamped := { request with epoch := UInt32.ofNat run.epochs }
      let later := (run.channel.enqueue request).2.recent
      (run.channel.enqueue request).1 = .ok () ∧ later.getLast? = some stamped ∧
        later = putRecent (max capacity 1) live stamped) ∧
    (live.map Request.node).Nodup ∧ live.length ≤ max capacity 1 ∧
    run.channel.queue.length = live.length ∧
    live <:+ latestBy Request.node run.accepted ∧
    (∀ entry ∈ live, run.accepted.reverse.find? (·.node = entry.node) = some entry) ∧
    run.channel.dequeue.1 = fresh.head? ∧ run.channel.dequeue.2.recent = fresh.tail ∧
    ∀ call, ∀ entry ∈ live, entry.node ∉ (run.step call).channel.recent.map Request.node →
      match call with
      | .enqueue _ => ∃ others : List NodeId, others.Nodup ∧ others.length = max capacity 1 ∧
          ∀ other ∈ others, other ∈
            (sinceLast Request.node (run.step call).accepted entry.node).map Request.node
      | .dequeue => run.channel.dequeue.1 = some entry ∨ tooOld entry
      | .incrementEpoch => False := by
  intro run live tooOld fresh
  have recalls : run.Recalls (max capacity 1) maxAge :=
    (QueueRun.recalls_start capacity maxAge).foldl calls
  obtain ⟨queue, -, held⟩ := recalls.queue
  obtain ⟨-, taken, left⟩ := recalls.step_dequeue
  refine ⟨?_, recalls.nodup, held.within, recalls.length, recalls.latest, ?_, taken, ?_, ?_⟩
  · intro request stamped later
    obtain ⟨-, put⟩ := recalls.step_enqueue request
    rw [QueueRun.step_enqueue_of_room recalls.hasRoom] at put
    have put : later = putRecent (max capacity 1) live stamped := put
    refine ⟨?_, ?_, put⟩
    · rw [QueueRun.enqueue_of_room recalls.hasRoom]
    · rw [put]
      exact getLast?_putRecent recalls.pos live stamped
  · exact fun entry mem => find?_of_mem_latestBy (recalls.latest.subset mem)
  · rwa [QueueRun.step_dequeue] at left
  · intro call entry mem gone
    cases call with
    | enqueue request => exact recalls.enqueue_gone request (List.mem_map_of_mem mem) gone
    | dequeue => exact recalls.dequeue_gone mem gone
    | incrementEpoch => exact gone (List.mem_map_of_mem mem)

/-- Two recent requests: asking for a node again moves it behind the other one, and a third node
takes the place of the least recent. -/
theorem Channel.recency_keeps_latest_of_three_nodes :
    let calls : List QueueCall :=
      [.enqueue ⟨⟨5⟩, 9, .out⟩, .enqueue ⟨⟨6⟩, 9, .inc⟩, .incrementEpoch]
    let run : QueueRun LoggedCache := .ofCalls (.recency 2 0) calls
    let again := run.step (.enqueue ⟨⟨5⟩, 9, .inc⟩)
    let third := again.step (.enqueue ⟨⟨7⟩, 9, .out⟩)
    run.channel.recent = [⟨⟨5⟩, 0, .out⟩, ⟨⟨6⟩, 0, .inc⟩] ∧ run.channel.dequeue.1 = none ∧
    again.channel.recent = [⟨⟨6⟩, 0, .inc⟩, ⟨⟨5⟩, 1, .inc⟩] ∧
    again.channel.dequeue.1 = some ⟨⟨5⟩, 1, .inc⟩ ∧
    third.channel.recent = [⟨⟨5⟩, 1, .inc⟩, ⟨⟨7⟩, 1, .out⟩] := by
  intro calls run again third
  let keeps (calls : List QueueCall) := @Channel.recency_keeps_latest LoggedCache _ _ 2 0 calls
  have first : (run.channel.recent : List Request) = [⟨⟨5⟩, 0, .out⟩, ⟨⟨6⟩, 0, .inc⟩] := by
    have one := ((keeps []).1 ⟨⟨5⟩, 9, .out⟩).2.2
    have two := ((keeps [.enqueue ⟨⟨5⟩, 9, .out⟩]).1 ⟨⟨6⟩, 9, .inc⟩).2.2
    exact two.trans ((congrArg (putRecent 2 · _) one).trans (by decide))
  have second : again.channel.recent = [⟨⟨6⟩, 0, .inc⟩, ⟨⟨5⟩, 1, .inc⟩] := by
    have put := ((keeps calls).1 ⟨⟨5⟩, 9, .inc⟩).2.2
    exact put.trans ((congrArg (putRecent 2 · _) first).trans (by decide))
  have last : third.channel.recent = [⟨⟨5⟩, 1, .inc⟩, ⟨⟨7⟩, 1, .out⟩] := by
    have put := ((keeps (calls ++ [.enqueue ⟨⟨5⟩, 9, .inc⟩])).1 ⟨⟨7⟩, 9, .out⟩).2.2
    exact put.trans ((congrArg (putRecent 2 · _) second).trans (by decide))
  refine ⟨first, ?_, second, ?_, last⟩
  · obtain ⟨-, -, -, -, -, -, taken, -⟩ := keeps calls
    exact taken.trans ((congrArg (fun live : List Request => (live.dropWhile _).head?) first).trans
      (by decide))
  · obtain ⟨-, -, -, -, -, -, taken, -⟩ := keeps (calls ++ [.enqueue ⟨⟨5⟩, 9, .inc⟩])
    exact taken.trans ((congrArg (fun live : List Request => (live.dropWhile _).head?) second).trans
      (by decide))

end LayeredGraph
