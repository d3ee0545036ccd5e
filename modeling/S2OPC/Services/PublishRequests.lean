import S2OPC.Services.Publishing

/-!
# S2OPC.Services.PublishRequests

The publish requests that a server queues: each is answered once, or dropped when its session leaves
the channel, and they are consumed in the order in which they came. Where the queue is full,
however, it is the newest of them that has to go (`Event.Overflows`).
-/

namespace S2OPC
namespace Subscriptions

open List Subscription Treatment

variable {N : Type}

def waiting : Option (Subscription N) → List PublishRequest
  | none => []
  | some s => s.publishRequestQueue

def consumed (out : Output N) : List PublishRequest :=
  (out.posted.reverse.filter fun a => a.message.isSome).map (·.request)

def Subscription.Waits (s : Subscription N) : Prop :=
  s.state = .keepAlive ∨
    s.state = .normal ∧ (s.publishingEnabled = false ∨ s.moreNotifications = false)

variable (limits : Limits)

def Subscription.Queues (s : Subscription N) (acks : List (Bool × UInt32)) : Prop :=
  acks.length ≤ limits.operationsPerRequest ∧ s.Waits

/-- A request is queued where the queue is full, and has more than one place. -/
def Event.Overflows (s : Subscription N) : Event N → Prop
  | .publishRequest _ acks => s.Queues limits acks ∧
      s.publishRequestQueue.length = limits.publishRequests ∧ limits.publishRequests ≠ 1
  | _ => False

structure Serves (s : Subscription N) (after : Option (Subscription N)) (out : Output N) :
    Prop where
  balance : (s.publishRequestQueue ++ out.queued).Perm
    (out.posted.map (·.request) ++ out.dropped ++ waiting after)
  order : (consumed out ++ waiting after).Sublist (s.publishRequestQueue ++ out.queued)
  bound : s.publishRequestQueue.length ≤ limits.publishRequests →
    (waiting after).length ≤ limits.publishRequests

variable {limits} {s s₁ : Subscription N} {after : Option (Subscription N)} {out : Output N}

theorem Serves.of_head {gen : List (Answer N)} (hposted : out.posted = gen.reverse)
    (hqueued : out.queued = []) (hdropped : out.dropped = [])
    (hrequests : gen.map (·.request) ++ waiting after = s.publishRequestQueue) :
    Serves limits s after out where
  balance := by
    rw [hposted, hqueued, hdropped, append_nil, append_nil, ← hrequests, map_reverse]
    exact ((reverse_perm _).symm).append_right _
  order := by
    rw [consumed, hposted, hqueued, append_nil, reverse_reverse, ← hrequests]
    exact (filter_sublist.map _).append_right _
  bound := by rw [← hrequests, length_append]; omega

theorem Serves.unchanged (hposted : out.posted = []) (hqueued : out.queued = [])
    (hdropped : out.dropped = []) (hqueue : s₁.publishRequestQueue = s.publishRequestQueue) :
    Serves limits s (some s₁) out :=
  .of_head (hposted.trans reverse_nil.symm) hqueued hdropped hqueue

theorem Serves.drop (hposted : out.posted = []) (hqueued : out.queued = [])
    (hdropped : out.dropped = s.publishRequestQueue) (hwaiting : waiting after = []) :
    Serves limits s after out where
  balance := by rw [hposted, hqueued, hdropped, hwaiting]; exact .refl _
  order := by rw [consumed, hposted, hwaiting]; exact nil_sublist _
  bound := by
    rw [hwaiting]
    exact fun _ => Nat.zero_le _

theorem queueRequest_of_full (req : PublishRequest)
    (hfull : s.publishRequestQueue.length = limits.publishRequests) :
    ∃ (hne : s.publishRequestQueue ≠ []),
      queueRequest limits ⟨s, []⟩ req =
        ⟨{ s with publishRequestQueue := s.publishRequestQueue.dropLast ++ [req] },
          [⟨s.publishRequestQueue.getLast hne, .fault .badTooManyPublishRequests⟩]⟩ := by
  have hne : s.publishRequestQueue ≠ [] := by
    intro hnil; rw [hnil] at hfull
    exact absurd hfull.symm limits.publishRequests_pos.ne'
  refine ⟨hne, ?_⟩
  unfold queueRequest
  simp only [if_pos hfull, discardOldestPublishRequest, getLast?_eq_some_getLast hne]
  rfl

theorem queueRequest_of_room (req : PublishRequest)
    (hroom : s.publishRequestQueue.length ≠ limits.publishRequests) :
    queueRequest limits ⟨s, []⟩ req =
      ⟨{ s with publishRequestQueue := s.publishRequestQueue ++ [req] }, []⟩ := by
  unfold queueRequest
  simp only [if_neg hroom]

variable (limits) in
theorem Serves.queue (s : Subscription N) (req : PublishRequest) :
    Serves limits s (some (queueRequest limits ⟨s, []⟩ req).sub)
      { Output.none with
        posted := (queueRequest limits ⟨s, []⟩ req).posted, queued := [req] } := by
  by_cases hfull : s.publishRequestQueue.length = limits.publishRequests
  · obtain ⟨hne, heq⟩ := queueRequest_of_full req hfull
    rw [heq]
    have hsplit := dropLast_append_getLast hne
    refine ⟨?_, ?_, ?_⟩
    · show (s.publishRequestQueue ++ [req]).Perm
        (s.publishRequestQueue.getLast hne :: (s.publishRequestQueue.dropLast ++ [req]))
      nth_rewrite 1 [← hsplit]
      rw [append_assoc]
      exact perm_middle
    · exact (dropLast_sublist _).append_right _
    · intro _; show (s.publishRequestQueue.dropLast ++ [req]).length ≤ _
      rw [length_append, length_dropLast, length_singleton]
      have := limits.publishRequests_pos
      omega
  · rw [queueRequest_of_room req hfull]
    refine ⟨.refl _, .refl _, ?_⟩
    intro hbound; show (s.publishRequestQueue ++ [req]).length ≤ _
    simp; omega

structure Counters where
  lifetimeMax : Int
  keepAliveMax : Int
  lifetime : Int
  keepAlive : Int

def Subscription.counters (s : Subscription N) : Counters :=
  ⟨s.lifetimeExpCount, s.keepAliveExpCount, s.lifetimeCounter, s.keepAliveCounter⟩

theorem answerNotifications_requests (s : Subscription N) :
    ∃ s' response, s.answerNotifications limits = (⟨s', []⟩, some response) ∧
      s'.publishRequestQueue = s.publishRequestQueue ∧
      s'.counters = s.resetLifetimeCounter.counters :=
  ⟨_, _, rfl, s.resetLifetimeCounter.sendNotificationMsg_requests limits, rfl⟩

variable (limits) in
theorem receivePublishRequest_cases (s : Subscription N) (req : PublishRequest) :
    (s.Waits ∧
      s.receivePublishRequest limits req = (queueRequest limits ⟨s, []⟩ req, none)) ∨
    (¬s.Waits ∧ ∃ s' response,
      s.receivePublishRequest limits req = (⟨s', []⟩, some response) ∧
        s'.publishRequestQueue = s.publishRequestQueue ∧
        s'.counters = s.resetLifetimeCounter.counters) := by
  unfold receivePublishRequest
  cases hstate : s.state with
  | normal =>
    simp only
    split
    · rename_i h; exact .inl ⟨.inr ⟨hstate, h⟩, rfl⟩
    · rename_i h; refine .inr ⟨?_, answerNotifications_requests s⟩
      rintro (hkeep | ⟨-, h'⟩)
      · rw [hstate] at hkeep; cases hkeep
      · exact h h'
  | late =>
    have hlate : ¬s.Waits := by
      unfold Subscription.Waits
      rw [hstate]
      rintro (h | ⟨h, -⟩) <;> cases h
    simp only
    split
    · exact .inr ⟨hlate, answerNotifications_requests { s with state := .normal }⟩
    · exact .inr ⟨hlate, _, _, rfl, rfl, rfl⟩
  | keepAlive => exact .inl ⟨.inl hstate, rfl⟩

theorem acknowledge_waits (s : Subscription N) (acks : List (Bool × UInt32)) :
    (s.acknowledge acks).Waits ↔ s.Waits := by
  rw [s.acknowledge_eq acks]; exact Iff.rfl

theorem acknowledge_requests (s : Subscription N) (acks : List (Bool × UInt32)) :
    (s.acknowledge acks).publishRequestQueue = s.publishRequestQueue := by
  rw [s.acknowledge_eq acks]

variable (limits) in
theorem step_publishRequest_cases (s : Subscription N) (req : PublishRequest)
    (acks : List (Bool × UInt32)) :
    (s.Queues limits acks ∧ s.step limits (.publishRequest req acks) =
      (some (queueRequest limits ⟨s.acknowledge acks, []⟩ req).sub,
        { Output.none with
          posted := (queueRequest limits ⟨s.acknowledge acks, []⟩ req).posted
          queued := [req] })) ∨
    (¬s.Queues limits acks ∧ ∃ s' response, s.step limits (.publishRequest req acks) =
      (some s', { Output.none with direct := [⟨req, response⟩] }) ∧
        s'.publishRequestQueue = s.publishRequestQueue ∧
        s'.counters = if limits.operationsPerRequest < acks.length then s.counters
          else s.resetLifetimeCounter.counters) := by
  simp only [step, treatPublishRequest]
  by_cases hops : limits.operationsPerRequest < acks.length
  · simp only [if_pos hops]
    exact .inr ⟨fun h => absurd h.1 (Nat.not_le.mpr hops), s, _, rfl, rfl, rfl⟩
  simp only [if_neg hops]
  obtain ⟨hwaits, heq⟩ | ⟨hwaits, s', response, heq, hqueue, hcounters⟩ :=
    receivePublishRequest_cases limits (s.acknowledge acks) req
  · rw [heq]; exact .inl ⟨⟨Nat.le_of_not_lt hops, (acknowledge_waits s acks).mp hwaits⟩, rfl⟩
  · rw [heq]
    refine .inr ⟨fun h => hwaits ((acknowledge_waits s acks).mpr h.2), s', response, rfl, ?_, ?_⟩
    · rw [hqueue, acknowledge_requests]
    · rw [hcounters, s.acknowledge_eq acks]; rfl

variable (limits) in
theorem publishTimer_requests (clock : Nat → Nat) (s : Subscription N) :
    (∃ gen : List (Answer N), (s.publishTimer limits clock).2 = gen.reverse ∧
      gen.map (·.request) ++ waiting (s.publishTimer limits clock).1 = s.publishRequestQueue) ∧
    (unexpired clock 0 s.publishRequestQueue = [] →
      waiting (s.publishTimer limits clock).1 = []) := by
  have htick : Tick limits s clock (s.publishTimer limits clock) := publishTimer_spec clock s
  generalize s.publishTimer limits clock = r at htick
  cases htick with
  | closes t gen hgen hfaults hempty =>
    refine ⟨⟨gen, hgen.posted.trans (append_nil _), ?_⟩, fun _ => rfl⟩
    have hrequests := hgen.requests
    rwa [hempty] at hrequests
  | quiet t gen hgen hexpired | notifies t gen hgen hexpired =>
    exact ⟨⟨gen, hgen.posted.trans (append_nil _), hgen.requests⟩, hexpired⟩

theorem step_serves (s : Subscription N) (e : Event N) :
    Serves limits s (s.step limits e).1 (s.step limits e).2 := by
  cases e with
  | publishRequest req acks =>
    obtain ⟨-, heq⟩ | ⟨-, s', response, heq, hqueue, -⟩ :=
      step_publishRequest_cases limits s req acks
    · rw [heq]
      have h := Serves.queue limits (s.acknowledge acks) req
      have hqueue := acknowledge_requests s acks
      exact ⟨hqueue ▸ h.balance, hqueue ▸ h.order, hqueue ▸ h.bound⟩
    · rw [heq]; exact .unchanged rfl rfl rfl hqueue
  | notification notif =>
    simp only [step]
    split
    · exact .unchanged rfl rfl rfl rfl
    · exact .unchanged rfl rfl rfl rfl
  | publishTimer clock =>
    obtain ⟨⟨gen, hposted, hrequests⟩, -⟩ := publishTimer_requests limits clock s
    exact .of_head hposted rfl rfl hrequests
  | setPublishingMode | modify => exact .unchanged rfl rfl rfl rfl
  | sessionInactive newState =>
    simp only [step]
    split
    · refine .drop rfl rfl rfl ?_
      split <;> rfl
    · exact .unchanged rfl rfl rfl rfl
  | delete =>
    refine .of_head ((answerNoSubscription_posted _ _).trans (append_nil _)) rfl rfl ?_
    rw [map_map]
    exact (append_nil _).trans (map_id _)

variable (limits) in
theorem run_entries (events : List (Event N)) (s : Subscription N) :
    ∀ entry ∈ (s.run limits events).2,
      entry.before.step limits entry.event = (entry.after, entry.out) := by
  refine run_induction (P := fun _ _ history => ∀ entry ∈ history,
    entry.before.step limits entry.event = (entry.after, entry.out)) ?_ ?_ ?_ events s
  · simp
  · simp
  · intro s e s₁ out last history hstep ih; simpa using ⟨hstep, ih⟩

def queuedRequests (history : List (Entry N)) : List PublishRequest :=
  history.flatMap fun entry => entry.out.queued

def answeredRequests (history : List (Entry N)) : List PublishRequest :=
  history.flatMap fun entry => entry.out.posted.map (·.request)

def droppedRequests (history : List (Entry N)) : List PublishRequest :=
  history.flatMap fun entry => entry.out.dropped

def consumedRequests (history : List (Entry N)) : List PublishRequest :=
  history.flatMap fun entry => consumed entry.out

variable (limits) in
structure Serving (s : Subscription N) (last : Option (Subscription N)) (history : List (Entry N)) :
    Prop where
  balance : (s.publishRequestQueue ++ queuedRequests history).Perm
    (answeredRequests history ++ droppedRequests history ++ waiting last)
  order : (consumedRequests history ++ waiting last).Sublist
    (s.publishRequestQueue ++ queuedRequests history)
  bound : ∀ entry ∈ history, entry.before.publishRequestQueue.length ≤ limits.publishRequests ∧
    (waiting entry.after).length ≤ limits.publishRequests

theorem Serving.cons {e : Event N} {last : Option (Subscription N)} {history : List (Entry N)}
    (hbound : s.publishRequestQueue.length ≤ limits.publishRequests)
    (h : Serves limits s (some s₁) out) (hrun : Serving limits s₁ last history) :
    Serving limits s last (⟨s, e, some s₁, out⟩ :: history) where
  balance := by
    refine perm_iff_count.mpr fun req => ?_
    have hstep := h.balance.count_eq req
    have hrest := hrun.balance.count_eq req
    simp only [queuedRequests, answeredRequests, droppedRequests, waiting, flatMap_cons,
      count_append] at hstep hrest ⊢
    omega
  order := by
    have hrest := hrun.order.append_left (consumed out)
    have hstep := h.order.append_right (queuedRequests history)
    simp only [queuedRequests, consumedRequests, waiting, flatMap_cons,
      append_assoc] at hrest hstep ⊢
    exact hrest.trans hstep
  bound := forall_mem_cons.mpr ⟨⟨hbound, h.bound hbound⟩, hrun.bound⟩

theorem run_serves (events : List (Event N)) (s : Subscription N) :
    s.publishRequestQueue.length ≤ limits.publishRequests →
    Serving limits s (s.run limits events).1 (s.run limits events).2 := by
  refine run_induction (P := fun s last history =>
    s.publishRequestQueue.length ≤ limits.publishRequests → Serving limits s last history)
    ?_ ?_ ?_ events s
  · intro s _
    refine ⟨?_, ?_, by simp⟩ <;>
      simp [queuedRequests, answeredRequests, droppedRequests, consumedRequests, waiting]
  · intro s e out hstep hbound; have h : Serves limits s _ _ := step_serves s e
    rw [hstep] at h
    refine ⟨?_, ?_, ?_⟩
    · simpa [queuedRequests, answeredRequests, droppedRequests] using h.balance
    · simpa [queuedRequests, consumedRequests] using h.order
    · simpa using ⟨hbound, h.bound hbound⟩
  · intro s e s₁ out last history hstep ih hbound; have h : Serves limits s _ _ := step_serves s e
    rw [hstep] at h
    exact .cons hbound h (ih (h.bound hbound))

variable (limits) in
structure RequestsServed (last : Option (Subscription N)) (history : List (Entry N)) : Prop where
  -- a request is answered at once, or it is queued
  arrival : ∀ entry ∈ history, ∀ req acks, entry.event = .publishRequest req acks →
    (entry.out.direct.map (·.request) = [req] ∧ entry.out.queued = []) ∨
      (entry.out.direct = [] ∧ entry.out.queued = [req])
  -- a queued request has one response, or is dropped, or waits
  balance : (queuedRequests history).Perm
    (answeredRequests history ++ droppedRequests history ++ waiting last)
  -- requests are dropped where the session leaves its channel
  dropped : ∀ entry ∈ history, entry.out.dropped ≠ [] → ∃ newState,
    entry.event = .sessionInactive newState ∧
      (newState = .scOrphaned ∨ newState = .scActivating ∨ newState = .closed)
  -- a request does not outlast a publish timer at which it has expired
  expired : ∀ entry ∈ history, ∀ clock, entry.event = .publishTimer clock →
    unexpired clock 0 entry.before.publishRequestQueue = [] → waiting entry.after = []
  order : (consumedRequests history ++ waiting last).Sublist (queuedRequests history)
  bound : ∀ entry ∈ history, entry.before.publishRequestQueue.length ≤ limits.publishRequests ∧
    (waiting entry.after).length ≤ limits.publishRequests
  -- it is the oldest request that makes room for another one
  discards : ∀ entry ∈ history, ∀ req acks, entry.event = .publishRequest req acks →
    entry.out.queued = [req] →
    entry.before.publishRequestQueue.length = limits.publishRequests →
    entry.out.posted = entry.before.publishRequestQueue.head?.toList.map
      fun old => ⟨old, .fault .badTooManyPublishRequests⟩

variable (limits) in
theorem step_arrival (s : Subscription N) (req : PublishRequest) (acks : List (Bool × UInt32)) :
    ((s.step limits (.publishRequest req acks)).2.direct.map (·.request) = [req] ∧
        (s.step limits (.publishRequest req acks)).2.queued = []) ∨
      ((s.step limits (.publishRequest req acks)).2.direct = [] ∧
        (s.step limits (.publishRequest req acks)).2.queued = [req]) := by
  obtain ⟨-, heq⟩ | ⟨-, s', response, heq, -⟩ := step_publishRequest_cases limits s req acks
  · rw [heq]; exact .inr ⟨rfl, rfl⟩
  · rw [heq]; exact .inl ⟨rfl, rfl⟩

variable (limits) in
theorem step_dropped (s : Subscription N) (e : Event N) (h : (s.step limits e).2.dropped ≠ []) :
    ∃ newState, e = .sessionInactive newState ∧
      (newState = .scOrphaned ∨ newState = .scActivating ∨ newState = .closed) := by
  cases e with
  | publishRequest req acks =>
    obtain ⟨-, heq⟩ | ⟨-, s', response, heq, -⟩ := step_publishRequest_cases limits s req acks
    · rw [heq] at h; exact absurd rfl h
    · rw [heq] at h; exact absurd rfl h
  | notification notif =>
    simp only [step] at h
    split at h <;> exact absurd rfl h
  | publishTimer clock => exact absurd rfl h
  | setPublishingMode enabled => exact absurd rfl h
  | modify lifetimeCount maxKeepAlive maxNotifs => exact absurd rfl h
  | sessionInactive newState =>
    refine ⟨newState, rfl, ?_⟩
    by_contra hleft
    simp only [step, if_neg hleft] at h
    exact absurd rfl h
  | delete => exact absurd rfl h

variable (limits) in
theorem step_discards (s : Subscription N) (req : PublishRequest) (acks : List (Bool × UInt32))
    (hoverflow : ¬Event.Overflows limits s (.publishRequest req acks))
    (hqueued : (s.step limits (.publishRequest req acks)).2.queued = [req])
    (hfull : s.publishRequestQueue.length = limits.publishRequests) :
    (s.step limits (.publishRequest req acks)).2.posted =
      s.publishRequestQueue.head?.toList.map
        fun old => ⟨old, .fault .badTooManyPublishRequests⟩ := by
  obtain ⟨hqueues, heq⟩ | ⟨-, s', response, heq, -⟩ := step_publishRequest_cases limits s req acks
  · have hone : limits.publishRequests = 1 := by
      by_contra hne
      exact hoverflow ⟨hqueues, hfull, hne⟩
    have hqueue := acknowledge_requests s acks
    obtain ⟨hne, hpost⟩ := queueRequest_of_full req (hqueue ▸ hfull : _ = limits.publishRequests)
    obtain ⟨old, hold⟩ := length_eq_one_iff.mp (hfull.trans hone)
    rw [heq, hpost]
    simp [hqueue, hold]
  · rw [heq] at hqueued; cases hqueued

/-- In a run in which no request is queued where the queue is full, each is answered once and in
order. -/
theorem requests_served (limits : Limits) (lifetimeCount maxKeepAlive maxNotifs : Int)
    (enabled : Bool) (events : List (Event N))
    (hoverflow : ∀ entry ∈ ((create N lifetimeCount maxKeepAlive maxNotifs enabled).run
      limits events).2, ¬entry.event.Overflows limits entry.before) :
    RequestsServed limits
      ((create N lifetimeCount maxKeepAlive maxNotifs enabled).run limits events).1
      ((create N lifetimeCount maxKeepAlive maxNotifs enabled).run limits
        events).2 := by
  have hrun : Serving limits _ _ _ := run_serves events
    (create N lifetimeCount maxKeepAlive maxNotifs enabled) (Nat.zero_le _)
  have hentries := run_entries limits events
    (create N lifetimeCount maxKeepAlive maxNotifs enabled)
  exact {
    arrival := by
      intro entry hentry req acks hevent; have h := step_arrival limits entry.before req acks
      rwa [← hevent, hentries entry hentry] at h
    balance := hrun.balance
    dropped := by
      intro entry hentry hdropped; have h := step_dropped limits entry.before entry.event
      rw [hentries entry hentry] at h
      exact h hdropped
    expired := by
      intro entry hentry clock hevent hexpired
      have h := (publishTimer_requests limits clock entry.before).2 hexpired
      have hstep := hentries entry hentry
      rw [hevent] at hstep
      rwa [← show (entry.before.publishTimer limits clock).1 = entry.after from
        congrArg Prod.fst hstep]
    order := hrun.order
    bound := hrun.bound
    discards := by
      intro entry hentry req acks hevent hqueued hfull
      have h := step_discards limits entry.before req acks
      rw [← hevent, hentries entry hentry] at h
      exact h (hoverflow entry hentry) hqueued hfull }

instance (s : Subscription N) : Decidable s.Waits :=
  inferInstanceAs (Decidable (_ ∨ _ ∧ (_ ∨ _)))

instance (s : Subscription N) (e : Event N) : Decidable (e.Overflows limits s) :=
  match e with
  | .publishRequest _ _ => inferInstanceAs (Decidable ((_ ≤ _ ∧ s.Waits) ∧ _ = _ ∧ _ ≠ _))
  | .publishTimer _ | .notification _ | .setPublishingMode _ | .modify _ _ _
  | .sessionInactive _ | .delete => inferInstanceAs (Decidable False)

def arrivals (handles : List Nat) : List (Event Nat) :=
  handles.map fun handle => .publishRequest ⟨1, 1000, handle, handle⟩ []

def servedEvents : List (Event Nat) :=
  .publishRequest ⟨1, 5, 0, 0⟩ [] :: arrivals [1, 2] ++
    [.notification 10, .publishTimer fun _ => 7, .sessionInactive .scOrphaned]

theorem requests_served_sample :
    answeredRequests ((create Nat 100 10 0 true).run .default servedEvents).2 =
        [⟨1, 1000, 1, 1⟩, ⟨1, 5, 0, 0⟩] ∧
      droppedRequests ((create Nat 100 10 0 true).run .default servedEvents).2 =
        [⟨1, 1000, 2, 2⟩] ∧
      RequestsServed .default
        ((create Nat 100 10 0 true).run .default servedEvents).1
        ((create Nat 100 10 0 true).run .default servedEvents).2 :=
  ⟨rfl, rfl,
    requests_served .default 100 10 0 true servedEvents (by decide)⟩

def overflowEntry : Entry Nat :=
  let full : Subscription Nat := { Subscription.create Nat 100 10 0 true with
    publishRequestQueue := (List.range 10).map fun handle => ⟨1, 1000, handle, handle⟩ }
  let event : Event Nat := .publishRequest ⟨1, 1000, 10, 10⟩ []
  ⟨full, event, (full.step .default event).1, (full.step .default event).2⟩

theorem overflowEntry_mem : overflowEntry ∈
    ((create Nat 100 10 0 true).run .default (arrivals (List.range 11))).2 :=
  mem_of_getElem? (i := 10) rfl

/-- The eleventh request takes the place of the tenth. -/
theorem newest_request_discarded :
    answeredRequests ((create Nat 100 10 0 true).run .default
        (arrivals (List.range 11))).2 = [⟨1, 1000, 9, 9⟩] ∧
      ¬RequestsServed .default
        ((create Nat 100 10 0 true).run .default (arrivals (List.range 11))).1
        ((create Nat 100 10 0 true).run .default (arrivals (List.range 11))).2 := by
  refine ⟨rfl, ?_⟩
  intro h; have hdiscards := h.discards overflowEntry overflowEntry_mem _ _ rfl rfl rfl
  exact absurd hdiscards (by decide)

end Subscriptions
end S2OPC
