import S2OPC.Lib.Fallible
import S2OPC.Services.Session

/-!
# S2OPC.Services.Subscription

A subscription of a server: `subscription_core` and the operations of `subscription_mgr` on it, with
their queues.

A publish request is answered at once, or it is queued and answered by an event that the services post
to themselves (`SOPC_EventHandler_PostAsNext`). Such an event comes before all those that wait, also
before the ones posted the same way a moment ago. `posted` is that part of the event queue. Allocations
do not fail.
-/

namespace S2OPC
namespace Subscriptions

open Fallible

/-- `k_n_publishRequestPerSub_max`, `k_n_republishNotifPerSub_max`, `k_n_monitoredItemNotif_max` and
`k_n_genericOperationPerReq_max`. -/
structure Limits where
  publishRequests : Nat
  republishNotifs : Nat
  notifsPerMessage : Nat
  operationsPerRequest : Nat
  publishRequests_pos : 0 < publishRequests
  notifsPerMessage_pos : 0 < notifsPerMessage

def Limits.default : Limits where
  publishRequests := 10
  republishNotifs := 20
  notifsPerMessage := 5000
  operationsPerRequest := 5000
  publishRequests_pos := by decide
  notifsPerMessage_pos := by decide

inductive SubscriptionState where
  | normal
  | late
  | keepAlive
  deriving DecidableEq, Repr

structure PublishRequest where
  session : Nat
  expirationTime : Nat
  requestHandle : Nat
  requestContext : Nat
  deriving DecidableEq, Repr

structure NotificationMessage (N : Type) where
  sequenceNumber : UInt32
  notifications : List N
  deriving DecidableEq, Repr

inductive FaultStatus where
  | badTimeout
  | badNoSubscription
  | badTooManyPublishRequests
  | badTooManyOps
  deriving DecidableEq, Repr

inductive PublishResponse (N : Type) where
  | message (message : NotificationMessage N) (availableSequenceNumbers : List UInt32)
      (moreNotifications : Bool)
  | fault (status : FaultStatus)
  deriving DecidableEq, Repr

structure Answer (N : Type) where
  request : PublishRequest
  response : PublishResponse N
  deriving DecidableEq, Repr

structure Subscription (N : Type) where
  state : SubscriptionState
  publishingEnabled : Bool
  moreNotifications : Bool
  messageSent : Bool
  lifetimeExpCount : Int
  keepAliveExpCount : Int
  lifetimeCounter : Int
  keepAliveCounter : Int
  maxNotifsPerPublish : Int
  seqNum : UInt32
  notificationQueue : List N
  publishRequestQueue : List PublishRequest
  republishQueue : List (NotificationMessage N)
  deriving DecidableEq, Repr

def Subscription.create (N : Type) (lifetimeCount maxKeepAlive maxNotifs : Int) (enabled : Bool) :
    Subscription N where
  state := .normal
  publishingEnabled := enabled
  moreNotifications := false
  messageSent := false
  lifetimeExpCount := lifetimeCount
  keepAliveExpCount := maxKeepAlive
  lifetimeCounter := lifetimeCount
  keepAliveCounter := maxKeepAlive
  maxNotifsPerPublish := maxNotifs
  seqNum := 1
  notificationQueue := []
  publishRequestQueue := []
  republishQueue := []

section

variable {N : Type} (limits : Limits)

def nextSeqNum (n : UInt32) : UInt32 := if n = 0xFFFFFFFF then 1 else n + 1

def fillNotificationMessage : Nat → List N → List N × List N
  | 0, queue => ([], queue)
  | _ + 1, [] => ([], [])
  | n + 1, notif :: queue =>
    let (filled, rest) := fillNotificationMessage n queue
    (notif :: filled, rest)

def Subscription.maxNotifs (s : Subscription N) : Nat :=
  if 0 < s.maxNotifsPerPublish ∧ s.maxNotifsPerPublish < limits.notifsPerMessage then
    s.maxNotifsPerPublish.toNat
  else limits.notifsPerMessage

/-- `add_republish_notif_to_queue` after `discard_oldest_republish_notif` where the queue is full. It
is the last message of the queue that is discarded. -/
def addRepublishNotif (queue : List (NotificationMessage N)) (msg : NotificationMessage N) :
    List (NotificationMessage N) :=
  (if queue.length = limits.republishNotifs then queue.dropLast else queue) ++ [msg]

def Subscription.sendNotificationMsg (s : Subscription N) :
    Subscription N × NotificationMessage N × Bool :=
  let max := s.maxNotifs limits
  let moreNotifs := decide (max < s.notificationQueue.length)
  let nb := if max < s.notificationQueue.length then max else s.notificationQueue.length
  let (filled, rest) := fillNotificationMessage nb s.notificationQueue
  let msg : NotificationMessage N := ⟨s.seqNum, filled⟩
  ({ s with
      seqNum := nextSeqNum s.seqNum
      notificationQueue := rest
      republishQueue := addRepublishNotif limits s.republishQueue msg
      moreNotifications := moreNotifs
      messageSent := true }, msg, moreNotifs)

def Subscription.sendKeepaliveMsg (s : Subscription N) : Subscription N × NotificationMessage N :=
  ({ s with messageSent := true }, ⟨s.seqNum, []⟩)

def Subscription.fillPublishResponseMsg (s : Subscription N) (msg : NotificationMessage N)
    (moreNotifs : Bool) : PublishResponse N :=
  .message msg (s.republishQueue.map (·.sequenceNumber)) moreNotifs

def Subscription.resetLifetimeCounter (s : Subscription N) : Subscription N :=
  { s with lifetimeCounter := s.lifetimeExpCount }

def Subscription.resetKeepAliveCounter (s : Subscription N) : Subscription N :=
  { s with keepAliveCounter := s.keepAliveExpCount }

structure Treatment (N : Type) where
  sub : Subscription N
  posted : List (Answer N)

def Treatment.post (t : Treatment N) (req : PublishRequest) (resp : PublishResponse N) :
    Treatment N :=
  { t with posted := ⟨req, resp⟩ :: t.posted }

/-- It is the last request of the queue that is removed, where `append_publish_request_to_queue`
adds one. -/
def discardOldestPublishRequest (queue : List PublishRequest) :
    Option (PublishRequest × List PublishRequest) :=
  queue.getLast?.map fun old => (old, queue.dropLast)

/-- The request is appended, after another one was discarded if the queue is full. -/
def Treatment.queueRequest (t : Treatment N) (req : PublishRequest) : Treatment N :=
  let t :=
    if t.sub.publishRequestQueue.length = limits.publishRequests then
      match discardOldestPublishRequest t.sub.publishRequestQueue with
      | none => t
      | some (old, queue) =>
        { t with sub := { t.sub with publishRequestQueue := queue } }.post old
          (.fault .badTooManyPublishRequests)
    else t
  { t with sub := { t.sub with publishRequestQueue := t.sub.publishRequestQueue ++ [req] } }

abbrev Received (N : Type) := Treatment N × Option (PublishResponse N)

def Subscription.answerNotifications (s : Subscription N) : Received N :=
  let (s, msg, moreNotifs) := s.resetLifetimeCounter.sendNotificationMsg limits
  (⟨s, []⟩, some (s.fillPublishResponseMsg msg moreNotifs))

def Subscription.receivePublishRequest (s : Subscription N) (req : PublishRequest) : Received N :=
  let notificationAvailable := !s.notificationQueue.isEmpty
  match s.state with
  | .normal =>
    -- 4 and 5
    if s.publishingEnabled = false ∨ s.moreNotifications = false then
      (Treatment.queueRequest limits ⟨s, []⟩ req, none)
    else s.answerNotifications limits
  | .late =>
    -- 10 and 11
    if s.publishingEnabled ∧ (s.moreNotifications ∨ notificationAvailable) then
      { s with state := .normal }.answerNotifications limits
    else
      let (s, msg) := { s with state := .keepAlive }.resetLifetimeCounter.sendKeepaliveMsg
      (⟨s, []⟩, some (s.fillPublishResponseMsg msg false))
  | .keepAlive =>
    -- 13
    (Treatment.queueRequest limits ⟨s, []⟩ req, none)

/-- `subscription_ack_notif_msg` for each acknowledgement that names the subscription. -/
def Subscription.acknowledge (s : Subscription N) (acks : List (Bool × UInt32)) : Subscription N :=
  acks.foldl (fun s (own, seqNum) =>
    if own then
      { s with
        republishQueue := s.republishQueue.eraseP fun msg => msg.sequenceNumber == seqNum }
    else s) s

def Subscription.treatPublishRequest (s : Subscription N) (acks : List (Bool × UInt32))
    (req : PublishRequest) : Received N :=
  if limits.operationsPerRequest < acks.length then (⟨s, []⟩, some (.fault .badTooManyOps))
  else (s.acknowledge acks).receivePublishRequest limits req

/-- `pop_invalid_and_check_valid_publishReqQueued`. The requests that expired are answered; the first
one that did not is put back in front. `clock i` is the time of the check of request `i` of the queue
at the start of the event. -/
def popInvalid (clock : Nat → Nat) : Nat → List PublishRequest → List (Answer N) →
    List (Answer N) × List PublishRequest × Nat
  | i, [], posted => (posted, [], i)
  | i, req :: queue, posted =>
    if req.expirationTime ≤ clock i then
      popInvalid clock (i + 1) queue (⟨req, .fault .badTimeout⟩ :: posted)
    else (posted, req :: queue, i + 1)

def Treatment.popInvalidAndCheckValid (clock : Nat → Nat) (i : Nat) (t : Treatment N) :
    Treatment N × Bool × Nat :=
  let (posted, queue, i) := popInvalid clock i t.sub.publishRequestQueue t.posted
  (⟨{ t.sub with publishRequestQueue := queue }, posted⟩, !queue.isEmpty, i)

def Subscription.popValid (s : Subscription N) : Option (PublishRequest × Subscription N) :=
  match s.publishRequestQueue with
  | [] => none
  | req :: queue => some (req, { s with publishRequestQueue := queue })

/-- A message for the next valid request: `fill_publish_response_msg` and the event of the
response. -/
def Treatment.publishNotifications (t : Treatment N) : Treatment N × Bool :=
  match t.sub.popValid with
  | none => (t, false)
  | some (req, s) =>
    let (s, msg, moreNotifs) := s.sendNotificationMsg limits
    ({ t with sub := s }.post req (s.fillPublishResponseMsg msg moreNotifs), moreNotifs)

def Treatment.publishKeepalive (t : Treatment N) : Treatment N :=
  match t.sub.popValid with
  | none => t
  | some (req, s) =>
    let (s, msg) := s.sendKeepaliveMsg
    { t with sub := s }.post req (s.fillPublishResponseMsg msg false)

/-- `server_subscription_core_publish_timeout` with the response to a message, and whether more
notifications are left. -/
def Treatment.publishTimeout (validReqQueued : Bool) (t : Treatment N) : Treatment N × Bool :=
  let s := t.sub
  let notifying := s.publishingEnabled && !s.notificationQueue.isEmpty
  let update (s : Subscription N) : Treatment N := { t with sub := s }
  match s.state with
  | .normal =>
    if validReqQueued && notifying then
      -- 6
      (update s.resetLifetimeCounter).publishNotifications limits
    else if validReqQueued && !s.messageSent && !notifying then
      -- 7
      ((update s.resetLifetimeCounter).publishKeepalive, false)
    else if !validReqQueued && (!s.messageSent || notifying) then
      -- 8
      (update { s with state := .late }, false)
    else if s.messageSent && !notifying then
      -- 9
      let s := { s with state := .keepAlive }.resetKeepAliveCounter
      (update { s with keepAliveCounter := s.keepAliveCounter - 1 }, false)
    else (t, false)
  | .late => (t, false)
  | .keepAlive =>
    if notifying && validReqQueued then
      -- 14
      (update { s with state := .normal }.resetLifetimeCounter).publishNotifications limits
    else if validReqQueued && decide (s.keepAliveCounter ≤ 1) && !notifying then
      -- 15
      ((update s.resetKeepAliveCounter).publishKeepalive, false)
    else if decide (1 < s.keepAliveCounter) && !notifying then
      -- 16
      (update { s with keepAliveCounter := s.keepAliveCounter - 1 }, false)
    else if !validReqQueued && (decide (s.keepAliveCounter ≤ 1) || notifying) then
      -- 17
      (update { s with state := .late }, false)
    else (t, false)

/-- The loop of `server_subscription_publish_timeout`: as long as notifications are left and a valid
request is queued. Each round takes a request from the queue, whose length is the fuel. -/
def Treatment.moreNotifsLoop (clock : Nat → Nat) : (fuel : Nat) → Nat → Treatment N → Treatment N
  | 0, _, t => t
  | fuel + 1, i, t =>
    let (t, valid, i) := t.popInvalidAndCheckValid clock i
    if valid then
      let (t, moreNotifs) := t.publishNotifications limits
      if moreNotifs then moreNotifsLoop clock fuel i t else t
    else t

/-- `local_close_subscription`: the requests that are left are answered. -/
def Treatment.answerNoSubscription (t : Treatment N) : Treatment N :=
  { t with
    sub := { t.sub with publishRequestQueue := [] }
    posted := t.sub.publishRequestQueue.foldl
      (fun posted req => ⟨req, .fault .badNoSubscription⟩ :: posted) t.posted }

/-- `server_subscription_publish_timeout`: the subscription if it is not closed, and the responses. -/
def Subscription.publishTimer (clock : Nat → Nat) (s : Subscription N) :
    Option (Subscription N) × List (Answer N) :=
  let (t, valid, i) := Treatment.popInvalidAndCheckValid clock 0 ⟨s, []⟩
  if !valid && decide (t.sub.lifetimeCounter ≤ 1) then (none, t.answerNoSubscription.posted)
  else
    let t : Treatment N :=
      if valid then t
      else { t with sub := { t.sub with lifetimeCounter := t.sub.lifetimeCounter - 1 } }
    let (t, moreNotifs) := t.publishTimeout limits valid
    let t :=
      if moreNotifs then t.moreNotifsLoop limits clock t.sub.publishRequestQueue.length i else t
    (some t.sub, t.posted)

def Subscription.emptySessionPublishRequests (s : Subscription N) : Subscription N :=
  { s with publishRequestQueue := [], republishQueue := [] }

inductive Event (N : Type) where
  /-- a publish request, with the acknowledgements: whether they name the subscription, and the
  sequence number -/
  | publishRequest (req : PublishRequest) (acks : List (Bool × UInt32))
  -- a notification of a monitored item
  | notification (notif : N)
  -- `TIMER_SE_PUBLISH_CYCLE_TIMEOUT`
  | publishTimer (clock : Nat → Nat)
  | setPublishingMode (enabled : Bool)
  -- with the revised parameters
  | modify (lifetimeCount maxKeepAlive maxNotifs : Int)
  -- the session is not active any more, or it is closed, or it leaves its secure channel
  | sessionInactive (newState : Session.State)
  | delete

/-- What comes out of an event: the response to the request itself, the responses to queued requests
in the order in which they are sent, the requests that are dropped, the request that is queued, and
the notification that is added. -/
structure Output (N : Type) where
  direct : List (Answer N)
  posted : List (Answer N)
  dropped : List PublishRequest
  queued : List PublishRequest
  added : List N
  deriving DecidableEq, Repr

def Output.none : Output N := ⟨[], [], [], [], []⟩

def Output.sent (out : Output N) : List (Answer N) := out.direct ++ out.posted

def Subscription.step (s : Subscription N) : Event N → Option (Subscription N) × Output N
  | .publishRequest req acks =>
    let (t, response) := s.treatPublishRequest limits acks req
    match response with
    | Option.none => (some t.sub, { Output.none with posted := t.posted, queued := [req] })
    | some response =>
      (some t.sub, { Output.none with direct := [⟨req, response⟩], posted := t.posted })
  | .notification notif =>
    -- the number of notifications is an `int32`
    if 2 ^ 31 - 1 ≤ s.notificationQueue.length then (some s, .none)
    else
      (some { s with notificationQueue := s.notificationQueue ++ [notif] },
        { Output.none with added := [notif] })
  | .publishTimer clock =>
    let (s, posted) := s.publishTimer limits clock
    (s, { Output.none with posted })
  | .setPublishingMode enabled => (some { s with publishingEnabled := enabled }, .none)
  | .modify lifetimeCount maxKeepAlive maxNotifs =>
    (some { s with
      lifetimeExpCount := lifetimeCount
      keepAliveExpCount := maxKeepAlive
      maxNotifsPerPublish := maxNotifs }, .none)
  | .sessionInactive newState =>
    if newState = .scOrphaned ∨ newState = .scActivating ∨ newState = .closed then
      (if newState = .closed then Option.none else some s.emptySessionPublishRequests,
        { Output.none with dropped := s.publishRequestQueue })
    else (some s, .none)
  | .delete => (Option.none, { Output.none with
      posted := (Treatment.answerNoSubscription ⟨s, []⟩).posted })

structure Entry (N : Type) where
  before : Subscription N
  event : Event N
  after : Option (Subscription N)
  out : Output N

def Subscription.run : Subscription N → List (Event N) → Option (Subscription N) × List (Entry N)
  | s, [] => (some s, [])
  | s, e :: events =>
    match s.step limits e with
    | (none, out) => (none, [⟨s, e, none, out⟩])
    | (some s', out) =>
      let (last, history) := run s' events
      (last, ⟨s, e, some s', out⟩ :: history)

end

end Subscriptions
end S2OPC
