import S2OPC.Services.Subscription

/-!
# S2OPC.Services.Publishing

What a publish timer does, in the order in which it does it: the requests it takes from the queue,
the notifications it takes from theirs, and the responses it posts (`Generates`).
-/

namespace S2OPC
namespace Subscriptions

open List Subscription Treatment

variable {N : Type}

def Answer.message : Answer N → Option (NotificationMessage N)
  | ⟨_, .message msg _ _⟩ => some msg
  | ⟨_, .fault _⟩ => none

def Answer.notificationMessage (a : Answer N) : Option (NotificationMessage N) :=
  a.message.filter fun msg => !msg.notifications.isEmpty

def Answer.keepAliveNumber (a : Answer N) : Option UInt32 :=
  (a.message.filter fun msg => msg.notifications.isEmpty).map (·.sequenceNumber)

def Answer.moreNotifications : Answer N → Bool
  | ⟨_, .message _ _ more⟩ => more
  | ⟨_, .fault _⟩ => false

def messages (answers : List (Answer N)) : List (NotificationMessage N) :=
  answers.filterMap Answer.notificationMessage

@[simp] theorem messages_nil : messages ([] : List (Answer N)) = [] := rfl

@[simp] theorem messages_append (l r : List (Answer N)) :
    messages (l ++ r) = messages l ++ messages r :=
  filterMap_append

theorem messages_reverse (l : List (Answer N)) : messages l.reverse = (messages l).reverse :=
  filterMap_reverse

variable {more : Bool} {req : PublishRequest} {i' i : Nat} {a : Answer N}

theorem Answer.notificationMessage_message {msg : NotificationMessage N} {available : List UInt32}
    (h : msg.notifications ≠ []) :
    Answer.notificationMessage ⟨req, .message msg available more⟩ = some msg := by
  cases hn : msg.notifications with
  | nil => exact absurd hn h
  | cons notif rest => simp [notificationMessage, message, hn]

def Faults (answers : List (Answer N)) : Prop := ∀ a ∈ answers, a.message = none

theorem Faults.nil : Faults ([] : List (Answer N)) := fun _ h => absurd h not_mem_nil

variable {answers : List (Answer N)} {clock : Nat → Nat} {valid : Bool}

theorem Faults.messages (h : Faults answers) : messages answers = [] := by
  refine filterMap_eq_nil_iff.mpr ?_
  intro a ha; rw [Answer.notificationMessage, h a ha]
  rfl

theorem Faults.keepAliveNumber (h : Faults answers) : ∀ a ∈ answers, a.keepAliveNumber = none := by
  intro a ha; rw [Answer.keepAliveNumber, h a ha]; rfl

theorem Faults.moreNotifications (h : Faults answers) :
    ∀ a ∈ answers, a.moreNotifications = false := by
  rintro ⟨req, response⟩ ha
  cases response with
  | message msg available more => cases h _ ha
  | fault status => rfl

theorem answerNoSubscription_posted (queue : List PublishRequest) (posted : List (Answer N)) :
    queue.foldl (fun posted req => ⟨req, .fault .badNoSubscription⟩ :: posted) posted =
      (queue.map fun req => ⟨req, .fault .badNoSubscription⟩).reverse ++ posted := by
  induction queue generalizing posted with
  | nil => rfl
  | cons req queue ih => simp [ih]

theorem answerNoSubscription_faults {t : Treatment N} (h : Faults t.posted) :
    Faults t.answerNoSubscription.posted := by
  intro a ha
  rw [answerNoSubscription, answerNoSubscription_posted, mem_append,
    mem_reverse, mem_map] at ha
  obtain ⟨req, -, rfl⟩ | hmem := ha
  · rfl
  · exact h a hmem

variable (limits : Limits)

theorem fillNotificationMessage_eq (n : Nat) (queue : List N) :
    fillNotificationMessage n queue = (queue.take n, queue.drop n) := by
  induction n generalizing queue with
  | zero => rfl
  | succ n ih =>
    cases queue with
    | nil => rfl
    | cons notif queue => rw [fillNotificationMessage, ih, take_succ_cons, drop_succ_cons]

theorem Subscription.maxNotifs_pos (s : Subscription N) : 0 < s.maxNotifs limits := by
  unfold maxNotifs
  split
  · omega
  · exact limits.notifsPerMessage_pos

theorem Subscription.sendNotificationMsg_eq (s : Subscription N) :
    s.sendNotificationMsg limits =
      ({ s with
          seqNum := nextSeqNum s.seqNum
          notificationQueue := s.notificationQueue.drop (s.maxNotifs limits)
          republishQueue := addRepublishNotif limits s.republishQueue
            ⟨s.seqNum, s.notificationQueue.take (s.maxNotifs limits)⟩
          moreNotifications := decide (s.maxNotifs limits < s.notificationQueue.length)
          messageSent := true },
        ⟨s.seqNum, s.notificationQueue.take (s.maxNotifs limits)⟩,
        decide (s.maxNotifs limits < s.notificationQueue.length)) := by
  unfold sendNotificationMsg
  by_cases hmore : s.maxNotifs limits < s.notificationQueue.length
  · simp only [fillNotificationMessage_eq, if_pos hmore]
  · have hle : s.notificationQueue.length ≤ s.maxNotifs limits := Nat.le_of_not_lt hmore
    simp only [fillNotificationMessage_eq, if_neg hmore, take_length, drop_length,
      take_of_length_le hle, drop_of_length_le hle]

def Subscription.Sound (s : Subscription N) : Prop :=
  s.moreNotifications = true → s.notificationQueue ≠ []

structure SameMessages (s s' : Subscription N) : Prop where
  queue : s'.notificationQueue = s.notificationQueue
  next : s'.seqNum = s.seqNum
  max : s'.maxNotifsPerPublish = s.maxNotifsPerPublish
  more : s'.moreNotifications = s.moreNotifications

theorem Subscription.sendNotificationMsg_requests (s : Subscription N) :
    (s.sendNotificationMsg limits).1.publishRequestQueue = s.publishRequestQueue := by
  rw [s.sendNotificationMsg_eq limits]

theorem Subscription.sendNotificationMsg_filled {s : Subscription N}
    (hnotifs : s.notificationQueue ≠ []) :
    (s.sendNotificationMsg limits).2.1.notifications ≠ [] := by
  rw [s.sendNotificationMsg_eq limits]
  intro hnil
  cases take_eq_nil_iff.mp hnil with
  | inl hzero => exact absurd hzero (s.maxNotifs_pos limits).ne'
  | inr hnil => exact hnotifs hnil

theorem Subscription.sendNotificationMsg_more_iff (s : Subscription N) :
    (s.sendNotificationMsg limits).2.2 = true ↔
      s.maxNotifs limits < s.notificationQueue.length := by
  exact decide_eq_true_iff

theorem Subscription.sendNotificationMsg_left {s : Subscription N}
    (hmore : (s.sendNotificationMsg limits).2.2 = true) :
    (s.sendNotificationMsg limits).1.notificationQueue ≠ [] := by
  have hlt := (s.sendNotificationMsg_more_iff limits).mp hmore
  rw [s.sendNotificationMsg_eq limits]
  intro hnil; have hle := drop_eq_nil_iff.mp hnil
  omega

/-- From one state to the other the messages took the notifications, in order and with consecutive
numbers. -/
structure Produces (s s' : Subscription N) (msgs : List (NotificationMessage N)) : Prop where
  queue : msgs.flatMap (·.notifications) ++ s'.notificationQueue = s.notificationQueue
  numbers : msgs.map (·.sequenceNumber) = List.iterate nextSeqNum s.seqNum msgs.length
  next : s'.seqNum = nextSeqNum^[msgs.length] s.seqNum
  max : s'.maxNotifsPerPublish = s.maxNotifsPerPublish
  size : ∀ msg ∈ msgs, msg.notifications.length ≤ s.maxNotifs limits
  sound : s.Sound → s'.Sound

variable {limits} {s s₁ s₂ : Subscription N} {msgs msgs' : List (NotificationMessage N)}

theorem Subscription.maxNotifs_congr (h : s₁.maxNotifsPerPublish = s.maxNotifsPerPublish) :
    s₁.maxNotifs limits = s.maxNotifs limits := by
  unfold maxNotifs; rw [h]

theorem SameMessages.produces (h : SameMessages s s₁) : Produces limits s s₁ [] where
  queue := h.queue
  numbers := rfl
  next := h.next
  max := h.max
  size := by simp
  sound := by intro hs; rw [Subscription.Sound, h.more, h.queue]; exact hs

theorem Produces.trans (h : Produces limits s s₁ msgs) (h' : Produces limits s₁ s₂ msgs') :
    Produces limits s s₂ (msgs ++ msgs') where
  queue := by rw [flatMap_append, append_assoc, h'.queue, h.queue]
  numbers := by rw [map_append, h.numbers, h'.numbers, h.next, length_append, iterate_add]
  next := by rw [h'.next, h.next, length_append, Nat.add_comm, Function.iterate_add_apply]
  max := h'.max.trans h.max
  size := by
    intro msg hmsg
    cases mem_append.mp hmsg with
    | inl hl => exact h.size msg hl
    | inr hr => exact maxNotifs_congr h.max ▸ h'.size msg hr
  sound := fun hs => h'.sound (h.sound hs)

theorem Produces.sendNotificationMsg (s : Subscription N) :
    Produces limits s (s.sendNotificationMsg limits).1 [(s.sendNotificationMsg limits).2.1] where
  queue := by rw [s.sendNotificationMsg_eq limits]; simp
  numbers := by rw [s.sendNotificationMsg_eq limits]; rfl
  next := by rw [s.sendNotificationMsg_eq limits]; rfl
  max := by rw [s.sendNotificationMsg_eq limits]
  size := by
    intro msg hmsg; rw [mem_singleton.mp hmsg, s.sendNotificationMsg_eq limits]
    exact length_take_le _ _
  sound := by
    intro _ hmore
    have hflag : (s.sendNotificationMsg limits).2.2 = true := by
      rw [← hmore, s.sendNotificationMsg_eq limits]
    exact sendNotificationMsg_left limits hflag

theorem Subscription.acknowledge_eq (acks : List (Bool × UInt32)) (s : Subscription N) :
    s.acknowledge acks =
      { s with republishQueue := (s.acknowledge acks).republishQueue } := by
  induction acks generalizing s with
  | nil => rfl
  | cons ack acks ih =>
    obtain ⟨own, seqNum⟩ := ack
    cases own with
    | false => exact ih s
    | true =>
      exact ih { s with
        republishQueue := s.republishQueue.eraseP fun msg => msg.sequenceNumber == seqNum }

inductive RepublishOp (N : Type) where
  | ack (seqNum : UInt32)
  | answer (a : Answer N)

def RepublishOp.available : RepublishOp N → Option (List UInt32)
  | .answer ⟨_, .message _ available _⟩ => some available
  | _ => none

def numbers (msgs : List (NotificationMessage N)) : List UInt32 := msgs.map (·.sequenceNumber)

variable (limits)

def RepublishOp.apply (queue : List (NotificationMessage N)) :
    RepublishOp N → List (NotificationMessage N)
  | .ack seqNum => queue.eraseP fun msg => msg.sequenceNumber == seqNum
  | .answer a => a.notificationMessage.elim queue (addRepublishNotif limits queue)

def queueAfter (queue : List (NotificationMessage N)) (ops : List (RepublishOp N)) :
    List (NotificationMessage N) :=
  ops.foldl (RepublishOp.apply limits) queue

def Listed : List (NotificationMessage N) → List (RepublishOp N) → Prop
  | _, [] => True
  | queue, op :: ops =>
    (∀ l ∈ op.available, l = numbers (op.apply limits queue)) ∧ Listed (op.apply limits queue) ops

variable {limits}

theorem queueAfter_append {queue : List (NotificationMessage N)} {ops ops' : List (RepublishOp N)} :
    queueAfter limits queue (ops ++ ops') = queueAfter limits (queueAfter limits queue ops) ops' :=
  foldl_append

theorem listed_append : ∀ {ops ops' : List (RepublishOp N)} {queue : List (NotificationMessage N)},
    Listed limits queue (ops ++ ops') ↔
      Listed limits queue ops ∧ Listed limits (queueAfter limits queue ops) ops' := by
  intro ops ops'
  induction ops with
  | nil => intro queue; simp [Listed, queueAfter]
  | cons op ops ih => intro queue; rw [cons_append, Listed, ih, Listed, and_assoc]; rfl

theorem queueAfter_faults {gen : List (Answer N)} (h : Faults gen)
    (queue : List (NotificationMessage N)) : queueAfter limits queue (gen.map .answer) = queue := by
  induction gen with
  | nil => rfl
  | cons a gen ih =>
    have ha : a.notificationMessage = none := by
      rw [Answer.notificationMessage, h a mem_cons_self]
      rfl
    rw [map_cons, queueAfter, foldl_cons, RepublishOp.apply, ha]
    exact ih (fun b hb => h b (mem_cons_of_mem a hb))

theorem available_fault {a : Answer N} (h : a.message = none) :
    (RepublishOp.answer a).available = none := by
  obtain ⟨req, response⟩ := a
  cases response with
  | message msg available more => cases h
  | fault status => rfl

theorem listed_faults {gen : List (Answer N)} (h : Faults gen)
    (queue : List (NotificationMessage N)) : Listed limits queue (gen.map .answer) := by
  induction gen generalizing queue with
  | nil => trivial
  | cons a gen ih =>
    refine ⟨fun l hl => ?_, ih (fun b hb => h b (mem_cons_of_mem a hb)) _⟩
    rw [available_fault (h a mem_cons_self)] at hl
    cases hl

theorem apply_sendNotificationMsg (req : PublishRequest) (hnotifs : s.notificationQueue ≠ []) :
    (s.sendNotificationMsg limits).1.republishQueue =
      (RepublishOp.answer ⟨req, (s.sendNotificationMsg limits).1.fillPublishResponseMsg
        (s.sendNotificationMsg limits).2.1 (s.sendNotificationMsg limits).2.2⟩).apply limits
          s.republishQueue := by
  have hmsg : Answer.notificationMessage ⟨req,
      (s.sendNotificationMsg limits).1.fillPublishResponseMsg
        (s.sendNotificationMsg limits).2.1 (s.sendNotificationMsg limits).2.2⟩ =
      some (s.sendNotificationMsg limits).2.1 :=
    Answer.notificationMessage_message (sendNotificationMsg_filled limits hnotifs)
  rw [RepublishOp.apply, hmsg, s.sendNotificationMsg_eq limits]
  rfl

variable (limits)

/-- From one treatment to the other these responses were posted, one after the other; their requests
were at the head of the queue, and their messages took the notifications and are kept. -/
structure Generates (t t' : Treatment N) (gen : List (Answer N)) : Prop where
  posted : t'.posted = gen.reverse ++ t.posted
  requests : gen.map (·.request) ++ t'.sub.publishRequestQueue = t.sub.publishRequestQueue
  produces : Produces limits t.sub t'.sub (messages gen)
  more : ∀ a ∈ gen, a.moreNotifications = true → a.notificationMessage ≠ none
  republish : t'.sub.republishQueue = queueAfter limits t.sub.republishQueue (gen.map .answer)
  listed : Listed limits t.sub.republishQueue (gen.map .answer)

variable {limits} {t t₁ t₂ : Treatment N} {gen gen' : List (Answer N)}

theorem Generates.trans (h : Generates limits t t₁ gen) (h' : Generates limits t₁ t₂ gen') :
    Generates limits t t₂ (gen ++ gen') where
  posted := by rw [h'.posted, h.posted, reverse_append, append_assoc]
  requests := by rw [map_append, append_assoc, h'.requests, h.requests]
  produces := by rw [messages_append]; exact h.produces.trans h'.produces
  more := forall_mem_append.mpr ⟨h.more, h'.more⟩
  republish := by rw [map_append, queueAfter_append, ← h.republish]; exact h'.republish
  listed := by rw [map_append, listed_append, ← h.republish]; exact ⟨h.listed, h'.listed⟩

theorem Generates.requests_nil (h : Generates limits t t₁ gen)
    (hnil : t.sub.publishRequestQueue = []) : t₁.sub.publishRequestQueue = [] :=
  (append_eq_nil_iff.mp (h.requests.trans hnil)).2

structure Same (t t' : Treatment N) : Prop extends SameMessages t.sub t'.sub where
  posted : t'.posted = t.posted
  requests : t'.sub.publishRequestQueue = t.sub.publishRequestQueue
  republish : t'.sub.republishQueue = t.sub.republishQueue

theorem Same.refl (t : Treatment N) : Same t t := ⟨⟨rfl, rfl, rfl, rfl⟩, rfl, rfl, rfl⟩

theorem Generates.of_same (h : Same t t₁) : Generates limits t t₁ [] where
  posted := h.posted
  requests := h.requests
  produces := h.toSameMessages.produces
  more := by simp
  republish := h.republish
  listed := trivial

def unexpired (clock : Nat → Nat) : Nat → List PublishRequest → List PublishRequest
  | _, [] => []
  | i, req :: queue =>
    if req.expirationTime ≤ clock i then unexpired clock (i + 1) queue
    else req :: unexpired clock (i + 1) queue

theorem popInvalid_spec (clock : Nat → Nat) (queue : List PublishRequest) (i : Nat)
    (posted : List (Answer N)) : ∃ gen,
      (popInvalid clock i queue posted).1 = gen.reverse ++ posted ∧
      gen.map (·.request) ++ (popInvalid clock i queue posted).2.1 = queue ∧ Faults gen ∧
      unexpired clock i queue = (popInvalid clock i queue posted).2.1.head?.toList ++
        unexpired clock (popInvalid clock i queue posted).2.2
          (popInvalid clock i queue posted).2.1.tail := by
  fun_induction popInvalid clock i queue posted with
  | case1 i posted => exact ⟨[], rfl, rfl, fun _ h => absurd h not_mem_nil, rfl⟩
  | case2 i req queue posted hexp ih =>
    obtain ⟨gen, hposted, hqueue, hfaults, hvalid⟩ := ih
    rw [unexpired, if_pos hexp]
    refine ⟨⟨req, .fault .badTimeout⟩ :: gen, ?_, ?_, forall_mem_cons.mpr ⟨rfl, hfaults⟩, hvalid⟩
    · rw [hposted, reverse_cons, append_assoc, singleton_append]
    · rw [map_cons, cons_append, hqueue]
  | case3 i req queue posted hexp =>
    rw [unexpired, if_neg hexp]
    exact ⟨[], rfl, rfl, fun _ h => absurd h not_mem_nil, rfl⟩

variable (limits) in
structure Checked (clock : Nat → Nat) (i : Nat) (t t' : Treatment N) (valid : Bool) (i' : Nat)
    (gen : List (Answer N)) : Prop where
  generates : Generates limits t t' gen
  faults : Faults gen
  rest : t'.sub = { t.sub with publishRequestQueue := t'.sub.publishRequestQueue }
  valid_eq : valid = !t'.sub.publishRequestQueue.isEmpty
  unexpired_eq : unexpired clock i t.sub.publishRequestQueue =
    t'.sub.publishRequestQueue.head?.toList ++ unexpired clock i' t'.sub.publishRequestQueue.tail

theorem popInvalidAndCheckValid_spec (clock : Nat → Nat) (i : Nat) (t : Treatment N) :
    ∃ gen, Checked limits clock i t (t.popInvalidAndCheckValid clock i).1
      (t.popInvalidAndCheckValid clock i).2.1 (t.popInvalidAndCheckValid clock i).2.2 gen := by
  obtain ⟨gen, hposted, hqueue, hfaults, hvalid⟩ :=
    popInvalid_spec clock t.sub.publishRequestQueue i t.posted
  refine ⟨gen, ?_, hfaults, rfl, rfl, hvalid⟩
  exact {
    posted := hposted
    requests := hqueue
    produces := by rw [hfaults.messages]; exact SameMessages.produces ⟨rfl, rfl, rfl, rfl⟩
    more := by
      intro a ha hmore; rw [hfaults.moreNotifications a ha] at hmore
      cases hmore
    republish := (queueAfter_faults hfaults _).symm
    listed := listed_faults hfaults _ }

theorem Checked.ne_nil (h : Checked limits clock i t t₁ valid i' gen) (hvalid : valid = true) :
    t₁.sub.publishRequestQueue ≠ [] := by
  intro hnil; rw [h.valid_eq, hnil] at hvalid; cases hvalid

theorem Checked.eq_nil (h : Checked limits clock i t t₁ valid i' gen) (hvalid : valid = false) :
    t₁.sub.publishRequestQueue = [] := by
  rw [h.valid_eq, Bool.not_eq_false'] at hvalid; exact isEmpty_iff.mp hvalid

theorem Checked.unexpired_length (h : Checked limits clock i t t₁ valid i' gen)
    (hvalid : valid = true) :
    (unexpired clock i t.sub.publishRequestQueue).length =
      (unexpired clock i' t₁.sub.publishRequestQueue.tail).length + 1 := by
  rw [h.unexpired_eq]
  cases hqueue : t₁.sub.publishRequestQueue with
  | nil => exact absurd hqueue (h.ne_nil hvalid)
  | cons req queue => rfl

theorem Generates.single {response : PublishResponse N}
    (hposted : t₁.posted = ⟨req, response⟩ :: t.posted)
    (hreq : t.sub.publishRequestQueue = req :: t₁.sub.publishRequestQueue)
    (hproduces : Produces limits t.sub t₁.sub (messages [⟨req, response⟩]))
    (hmore : Answer.moreNotifications ⟨req, response⟩ = true →
      Answer.notificationMessage ⟨req, response⟩ ≠ none)
    (hqueue : t₁.sub.republishQueue =
      (RepublishOp.answer ⟨req, response⟩).apply limits t.sub.republishQueue)
    (havailable : ∀ l ∈ (RepublishOp.answer ⟨req, response⟩).available,
      l = numbers t₁.sub.republishQueue) :
    Generates limits t t₁ [⟨req, response⟩] where
  posted := hposted
  requests := hreq.symm
  produces := hproduces
  more := by intro a ha; rw [mem_singleton.mp ha]; exact hmore
  republish := hqueue
  listed := ⟨by rw [← hqueue]; exact havailable, trivial⟩

variable (limits) in
structure Published (t t' : Treatment N) (a : Answer N) (more : Bool) : Prop where
  generates : Generates limits t t' [a]
  message : (messages [a]).length = 1
  flag : a.moreNotifications = more
  more_iff : more = true ↔ t.sub.maxNotifs limits < t.sub.notificationQueue.length
  left : more = true → t'.sub.notificationQueue ≠ []

theorem Published.of_same (h : Published limits t₁ t₂ a more) (hsame : Same t t₁) :
    Published limits t t₂ a more where
  generates := (Generates.of_same hsame).trans h.generates
  message := h.message
  flag := h.flag
  more_iff := by rw [h.more_iff, maxNotifs_congr hsame.max, hsame.queue]
  left := h.left

theorem Published.keepAliveNumber (h : Published limits t t₁ a more) :
    a.keepAliveNumber = none := by
  have hmsg := h.message
  unfold messages Answer.notificationMessage at hmsg
  unfold Answer.keepAliveNumber
  cases hm : a.message with
  | none => rfl
  | some msg => cases hn : msg.notifications <;> simp_all

theorem Subscription.popValid_spec (hpop : s.popValid = some (req, s₁)) :
    s.publishRequestQueue = req :: s₁.publishRequestQueue ∧ SameMessages s s₁ ∧
      s₁.republishQueue = s.republishQueue := by
  unfold popValid at hpop
  cases hqueue : s.publishRequestQueue with
  | nil => rw [hqueue] at hpop; cases hpop
  | cons first queue => rw [hqueue] at hpop; cases hpop; exact ⟨rfl, ⟨rfl, rfl, rfl, rfl⟩, rfl⟩

theorem Subscription.popValid_of_ne_nil (h : s.publishRequestQueue ≠ []) :
    ∃ req s₁, s.popValid = some (req, s₁) := by
  unfold popValid
  cases hqueue : s.publishRequestQueue with
  | nil => exact absurd hqueue h
  | cons req queue => exact ⟨req, _, rfl⟩

theorem publishNotifications_spec (hreq : t.sub.publishRequestQueue ≠ [])
    (hnotifs : t.sub.notificationQueue ≠ []) :
    ∃ a, Published limits t (t.publishNotifications limits).1 a
      (t.publishNotifications limits).2 := by
  obtain ⟨req, s, hpop⟩ := popValid_of_ne_nil hreq
  obtain ⟨hqueue, hsame, hkept⟩ := popValid_spec hpop
  have heq : t.publishNotifications limits =
      (⟨(s.sendNotificationMsg limits).1,
        ⟨req, (s.sendNotificationMsg limits).1.fillPublishResponseMsg
          (s.sendNotificationMsg limits).2.1 (s.sendNotificationMsg limits).2.2⟩ :: t.posted⟩,
        (s.sendNotificationMsg limits).2.2) := by
    unfold publishNotifications
    rw [hpop]
    rfl
  have hfilled : (s.sendNotificationMsg limits).2.1.notifications ≠ [] :=
    sendNotificationMsg_filled limits (hsame.queue ▸ hnotifs)
  have hmsgs : messages [⟨req, (s.sendNotificationMsg limits).1.fillPublishResponseMsg
      (s.sendNotificationMsg limits).2.1 (s.sendNotificationMsg limits).2.2⟩] =
      [(s.sendNotificationMsg limits).2.1] := by
    rw [messages, fillPublishResponseMsg, filterMap_cons,
      Answer.notificationMessage_message hfilled]
    rfl
  have hproduces : Produces limits t.sub (s.sendNotificationMsg limits).1
      [(s.sendNotificationMsg limits).2.1] :=
    hsame.produces.trans (.sendNotificationMsg s)
  rw [heq]
  refine ⟨_, ?_, by rw [hmsgs]; rfl, rfl, ?_, sendNotificationMsg_left limits⟩
  · refine Generates.single rfl ?_ (by rw [hmsgs]; exact hproduces) ?_ ?_ ?_
    · exact hqueue
    · intro _ hnone; rw [messages, filterMap_cons, hnone] at hmsgs; cases hmsgs
    · rw [← hkept]; exact apply_sendNotificationMsg req (hsame.queue ▸ hnotifs)
    · intro l hl; cases hl; rfl
  · rw [s.sendNotificationMsg_more_iff limits, maxNotifs_congr hsame.max, hsame.queue]

theorem publishKeepalive_spec (hreq : t.sub.publishRequestQueue ≠ []) :
    ∃ a, Generates limits t t.publishKeepalive [a] ∧ messages [a] = [] ∧
      a.keepAliveNumber = some t.sub.seqNum := by
  obtain ⟨req, s, hpop⟩ := popValid_of_ne_nil hreq
  obtain ⟨hqueue, hsame, hkept⟩ := popValid_spec hpop
  have heq : t.publishKeepalive = ⟨{ s with messageSent := true },
      ⟨req, .message ⟨s.seqNum, []⟩ (s.republishQueue.map (·.sequenceNumber)) false⟩ ::
        t.posted⟩ := by
    unfold publishKeepalive
    rw [hpop]
    rfl
  rw [heq]
  refine ⟨_, Generates.single rfl hqueue ?_ (fun h => absurd h Bool.false_ne_true) hkept ?_, rfl, ?_⟩
  · exact SameMessages.produces ⟨hsame.queue, hsame.next, hsame.max, hsame.more⟩
  · intro l hl; cases hl; rfl
  · rw [← hsame.next]; rfl

structure Quiet (s : Subscription N) (gen : List (Answer N)) : Prop where
  messages : messages gen = []
  keepAlive : ∀ a ∈ gen, ∀ n, a.keepAliveNumber = some n → n = s.seqNum

theorem Faults.quiet (h : Faults gen) : Quiet s gen where
  messages := h.messages
  keepAlive := by intro a ha n hn; rw [h.keepAliveNumber a ha] at hn; cases hn

theorem Quiet.append (h : Faults gen) (h' : Quiet s gen') : Quiet s (gen ++ gen') where
  messages := by rw [messages_append, h.messages, h'.messages]; rfl
  keepAlive := forall_mem_append.mpr ⟨h.quiet.keepAlive, h'.keepAlive⟩

variable (limits) in
inductive Timeout (t t' : Treatment N) : Bool → Prop where
  | quiet (gen : List (Answer N)) (generates : Generates limits t t' gen)
      (quiet : Quiet t.sub gen) : Timeout t t' false
  | notifies {more : Bool} (a : Answer N) (published : Published limits t t' a more)
      (enabled : t.sub.publishingEnabled = true) (state : t.sub.state ≠ .late) : Timeout t t' more

theorem Timeout.of_same (h : Same t t₁) : Timeout limits t t₁ false :=
  .quiet [] (.of_same h) ⟨rfl, by simp⟩

theorem Timeout.notifications (hreq : t.sub.publishRequestQueue ≠ [])
    (hnotifs : t.sub.notificationQueue ≠ []) (henabled : t.sub.publishingEnabled = true)
    (hstate : t.sub.state ≠ .late) (hsame : Same t t₁) :
    Timeout limits t (t₁.publishNotifications limits).1 (t₁.publishNotifications limits).2 := by
  obtain ⟨a, ha⟩ : ∃ a, Published limits t₁ (t₁.publishNotifications limits).1 a
      (t₁.publishNotifications limits).2 :=
    publishNotifications_spec (hsame.requests ▸ hreq) (hsame.queue ▸ hnotifs)
  exact .notifies a (ha.of_same hsame) henabled hstate

theorem Timeout.keepalive (hreq : t.sub.publishRequestQueue ≠ []) (hsame : Same t t₁) :
    Timeout limits t t₁.publishKeepalive false := by
  obtain ⟨a, hgen, hmsgs, hnumber⟩ : ∃ a, Generates limits t₁ t₁.publishKeepalive [a] ∧
      messages [a] = [] ∧ a.keepAliveNumber = some t₁.sub.seqNum :=
    publishKeepalive_spec (hsame.requests ▸ hreq)
  refine .quiet [a] ((Generates.of_same hsame).trans hgen) ⟨hmsgs, ?_⟩
  intro b hb n hn; rw [mem_singleton.mp hb, hnumber, hsame.next] at hn
  exact (Option.some.inj hn).symm

theorem publishTimeout_spec (hvalid : valid = !t.sub.publishRequestQueue.isEmpty) :
    Timeout limits t (t.publishTimeout limits valid).1 (t.publishTimeout limits valid).2 := by
  have hreq : valid = true → t.sub.publishRequestQueue ≠ [] := by
    rintro h hnil; rw [hvalid, hnil] at h
    cases h
  fun_cases publishTimeout limits valid t with
  | case1 s notifying update hstate h | case7 s notifying update hstate h =>
    -- transitions 6 and 14
    simp only [Bool.and_eq_true, notifying, s] at h
    exact .notifications (hreq (by tauto)) (by simp_all) (by tauto) (by rw [hstate]; decide)
      ⟨⟨rfl, rfl, rfl, rfl⟩, rfl, rfl, rfl⟩
  | case2 s notifying update hstate _ h | case8 s notifying update hstate _ h =>
    -- transitions 7 and 15
    simp only [Bool.and_eq_true] at h
    exact .keepalive (hreq h.1.1) ⟨⟨rfl, rfl, rfl, rfl⟩, rfl, rfl, rfl⟩
  | _ => exact .of_same ⟨⟨rfl, rfl, rfl, rfl⟩, rfl, rfl, rfl⟩

theorem moreNotifsLoop_succ (clock : Nat → Nat) (fuel i : Nat) (t : Treatment N) :
    t.moreNotifsLoop limits clock (fuel + 1) i =
      if (t.popInvalidAndCheckValid clock i).2.1 then
        if ((t.popInvalidAndCheckValid clock i).1.publishNotifications limits).2 then
          ((t.popInvalidAndCheckValid clock i).1.publishNotifications limits).1.moreNotifsLoop
            limits clock fuel (t.popInvalidAndCheckValid clock i).2.2
        else ((t.popInvalidAndCheckValid clock i).1.publishNotifications limits).1
      else (t.popInvalidAndCheckValid clock i).1 :=
  rfl

theorem Published.requests_tail (h : Published limits t t₁ a more) :
    t₁.sub.publishRequestQueue = t.sub.publishRequestQueue.tail := by
  rw [← h.generates.requests]; rfl

theorem moreNotifsLoop_spec (clock : Nat → Nat) (fuel i : Nat) (t : Treatment N)
    (hnotifs : t.sub.notificationQueue ≠ []) :
    ∃ gen, Generates limits t (t.moreNotifsLoop limits clock fuel i) gen ∧
      (∀ a ∈ gen, a.keepAliveNumber = none) ∧
      (messages gen).length ≤ (unexpired clock i t.sub.publishRequestQueue).length := by
  induction fuel generalizing i t with
  | zero => exact ⟨[], .of_same (.refl t), by simp, Nat.zero_le _⟩
  | succ fuel ih =>
    obtain ⟨gen, hchecked⟩ : ∃ gen, Checked limits clock i t _ _ _ gen :=
      popInvalidAndCheckValid_spec clock i t
    rw [moreNotifsLoop_succ]
    generalize t.popInvalidAndCheckValid clock i = r at hchecked
    obtain ⟨t₁, valid, i'⟩ := r
    dsimp only at hchecked ⊢
    cases valid with
    | false =>
      refine ⟨gen, hchecked.generates, hchecked.faults.keepAliveNumber, ?_⟩
      rw [hchecked.faults.messages]
      exact Nat.zero_le _
    | true =>
      have hnotifs₁ : t₁.sub.notificationQueue ≠ [] := by rw [hchecked.rest]; exact hnotifs
      obtain ⟨a, ha⟩ : ∃ a, Published limits t₁ (t₁.publishNotifications limits).1 a
          (t₁.publishNotifications limits).2 :=
        publishNotifications_spec (hchecked.ne_nil rfl) hnotifs₁
      have hlength := hchecked.unexpired_length rfl
      have hgen := hchecked.generates.trans ha.generates
      have hkeep : ∀ b ∈ gen ++ [a], b.keepAliveNumber = none := forall_mem_append.mpr
        ⟨hchecked.faults.keepAliveNumber, forall_mem_singleton.mpr ha.keepAliveNumber⟩
      have hone : (messages (gen ++ [a])).length = 1 := by
        rw [messages_append, hchecked.faults.messages]
        exact ha.message
      cases hmore : (t₁.publishNotifications limits).2 with
      | false =>
        exact ⟨gen ++ [a], hgen, hkeep, by omega⟩
      | true =>
        obtain ⟨gen', hgen', hkeep', hlength'⟩ := ih i' _ (ha.left hmore)
        refine ⟨gen ++ [a] ++ gen', hgen.trans hgen', forall_mem_append.mpr ⟨hkeep, hkeep'⟩, ?_⟩
        rw [ha.requests_tail] at hlength'; rw [messages_append, length_append]; omega

theorem popInvalid_length (clock : Nat → Nat) :
    ∀ (queue : List PublishRequest) (i : Nat) (posted : List (Answer N)),
      (popInvalid clock i queue posted).2.1.length ≤ queue.length := by
  intro queue i posted; obtain ⟨gen, -, hqueue, -⟩ := popInvalid_spec clock queue i posted
  have hlength := congrArg List.length hqueue
  rw [length_append] at hlength
  omega

theorem publishNotifications_requests (t : Treatment N) :
    (t.publishNotifications limits).1.sub.publishRequestQueue = t.sub.publishRequestQueue.tail := by
  unfold publishNotifications
  cases hpop : t.sub.popValid with
  | none =>
    have hqueue : t.sub.publishRequestQueue = [] := by
      by_contra hne
      obtain ⟨req, s, hsome⟩ := popValid_of_ne_nil hne
      rw [hpop] at hsome
      cases hsome
    simp [hqueue]
  | some popped =>
    obtain ⟨req, s⟩ := popped
    rw [(popValid_spec hpop).1]
    exact s.sendNotificationMsg_requests limits

theorem moreNotifsLoop_fuel (clock : Nat → Nat) (fuel i : Nat) (t : Treatment N)
    (hlength : t.sub.publishRequestQueue.length ≤ fuel) :
    t.moreNotifsLoop limits clock (fuel + 1) i = t.moreNotifsLoop limits clock fuel i := by
  induction fuel generalizing i t with
  | zero =>
    have hqueue : t.sub.publishRequestQueue = [] := length_eq_zero_iff.mp (Nat.le_zero.mp hlength)
    obtain ⟨s, posted⟩ := t
    rw [moreNotifsLoop_succ]
    simp only [popInvalidAndCheckValid]
    simp only at hqueue
    simp only [hqueue, popInvalid, isEmpty_nil, Bool.not_true, Bool.false_eq_true, if_false,
      moreNotifsLoop]
    rw [← hqueue]
  | succ fuel ih =>
    rw [moreNotifsLoop_succ, moreNotifsLoop_succ clock fuel i t]
    have hpopped : (t.popInvalidAndCheckValid clock i).1.sub.publishRequestQueue.length ≤
        t.sub.publishRequestQueue.length := popInvalid_length clock _ i t.posted
    rw [ih]
    rw [publishNotifications_requests, length_tail]
    omega

/-- The loop ends before its fuel does. -/
theorem moreNotifsLoop_ends (clock : Nat → Nat) (i k : Nat) (t : Treatment N) :
    t.moreNotifsLoop limits clock (t.sub.publishRequestQueue.length + k) i =
      t.moreNotifsLoop limits clock t.sub.publishRequestQueue.length i := by
  induction k with
  | zero => rfl
  | succ k ih => rw [← Nat.add_assoc, moreNotifsLoop_fuel _ _ _ _ (Nat.le_add_right ..), ih]

variable (limits) in
/-- A tick that finds more notifications than one message takes, and more than one request. -/
def Subscription.Bursts (s : Subscription N) (clock : Nat → Nat) : Prop :=
  s.publishingEnabled = true ∧ s.state ≠ .late ∧
    s.maxNotifs limits < s.notificationQueue.length ∧
    2 ≤ (unexpired clock 0 s.publishRequestQueue).length

instance (s : Subscription N) (clock : Nat → Nat) : Decidable (s.Bursts limits clock) :=
  inferInstanceAs (Decidable (_ ∧ _ ∧ _ ∧ _))

variable (limits) in
inductive Tick (s : Subscription N) (clock : Nat → Nat) :
    Option (Subscription N) × List (Answer N) → Prop where
  | closes (t : Treatment N) (gen : List (Answer N)) (generates : Generates limits ⟨s, []⟩ t gen)
      (faults : Faults gen) (empty : t.sub.publishRequestQueue = []) :
      Tick s clock (none, t.posted)
  | quiet (t : Treatment N) (gen : List (Answer N)) (generates : Generates limits ⟨s, []⟩ t gen)
      (expired : unexpired clock 0 s.publishRequestQueue = [] → t.sub.publishRequestQueue = [])
      (quiet : Quiet s gen) : Tick s clock (some t.sub, t.posted)
  | notifies (t : Treatment N) (gen : List (Answer N)) (generates : Generates limits ⟨s, []⟩ t gen)
      (expired : unexpired clock 0 s.publishRequestQueue = [] → t.sub.publishRequestQueue = [])
      (keepAlive : ∀ a ∈ gen, a.keepAliveNumber = none)
      (single : ¬s.Bursts limits clock → (messages gen).length = 1 ∧
        ∀ a ∈ gen, a.moreNotifications = true → t.sub.notificationQueue ≠ []) :
      Tick s clock (some t.sub, t.posted)

theorem Checked.same (h : Checked limits clock i t t₁ valid i' gen) :
    SameMessages t.sub t₁.sub := by
  constructor <;> rw [h.rest]

theorem Checked.all_expired (h : Checked limits clock i t t₁ valid i' gen)
    (hnone : unexpired clock i t.sub.publishRequestQueue = []) :
    t₁.sub.publishRequestQueue = [] := by
  rw [h.unexpired_eq] at hnone
  cases hqueue : t₁.sub.publishRequestQueue with
  | nil => rfl
  | cons req queue => rw [hqueue] at hnone; cases hnone

theorem Tick.of_timeout (fuel : Nat) (hgen : Generates limits ⟨s, []⟩ t₁ gen)
    (hfaults : Faults gen) (henabled : t₁.sub.publishingEnabled = s.publishingEnabled)
    (hstate : t₁.sub.state = s.state) (hsame : SameMessages s t₁.sub)
    (hunexpired : t₁.sub.publishRequestQueue ≠ [] →
      (unexpired clock 0 s.publishRequestQueue).length =
        (unexpired clock i t₁.sub.publishRequestQueue.tail).length + 1)
    (hexpired : unexpired clock 0 s.publishRequestQueue = [] → t₁.sub.publishRequestQueue = [])
    (hout : Timeout limits t₁ t₂ more) :
    Tick limits s clock
      (some (if more then t₂.moreNotifsLoop limits clock fuel i else t₂).sub,
        (if more then t₂.moreNotifsLoop limits clock fuel i else t₂).posted) := by
  cases hout with
  | quiet gen' hgen' hquiet =>
    refine .quiet t₂ (gen ++ gen') (hgen.trans hgen') (fun h => hgen'.requests_nil (hexpired h))
      (.append hfaults ⟨hquiet.messages, ?_⟩)
    rw [← hsame.next]
    exact hquiet.keepAlive
  | notifies a hpub hon hnotLate =>
    have hgenA := hgen.trans hpub.generates
    have hexpiredA : unexpired clock 0 s.publishRequestQueue = [] →
        t₂.sub.publishRequestQueue = [] :=
      fun h => hpub.generates.requests_nil (hexpired h)
    have hkeep : ∀ b ∈ gen ++ [a], b.keepAliveNumber = none := forall_mem_append.mpr
      ⟨hfaults.keepAliveNumber, forall_mem_singleton.mpr hpub.keepAliveNumber⟩
    have hone : (messages (gen ++ [a])).length = 1 := by
      rw [messages_append, hfaults.messages]
      exact hpub.message
    have hflag : ∀ b ∈ gen ++ [a], b.moreNotifications = true → more = true := by
      intro b hb hb'
      cases mem_append.mp hb with
      | inl hl => rw [hfaults.moreNotifications b hl] at hb'; cases hb'
      | inr hr => rw [← hpub.flag, ← mem_singleton.mp hr, hb']
    cases more with
    | false =>
      refine .notifies t₂ (gen ++ [a]) hgenA hexpiredA hkeep (fun _ => ⟨hone, ?_⟩)
      intro b hb hb'; exact absurd (hflag b hb hb') Bool.false_ne_true
    | true =>
      have hleft := hpub.left rfl
      obtain ⟨gen', hgen', hkeep', hlength⟩ := moreNotifsLoop_spec clock fuel i t₂ hleft
      refine .notifies _ (gen ++ [a] ++ gen') (hgenA.trans hgen')
        (fun h => hgen'.requests_nil (hexpiredA h)) (forall_mem_append.mpr ⟨hkeep, hkeep'⟩) ?_
      · intro hburst
        -- without a burst no valid request is left for the loop
        have hne : t₁.sub.publishRequestQueue ≠ [] := by
          rw [← hpub.generates.requests]
          exact cons_ne_nil _ _
        have hlt := hpub.more_iff.mp rfl
        rw [maxNotifs_congr hsame.max, hsame.queue] at hlt
        have htwo : ¬2 ≤ (unexpired clock 0 s.publishRequestQueue).length :=
          fun h => hburst ⟨henabled ▸ hon, hstate ▸ hnotLate, hlt, h⟩
        have hcount := hunexpired hne
        rw [hpub.requests_tail] at hlength
        have hnone : messages gen' = [] := length_eq_zero_iff.mp (by omega)
        have hqueue := hgen'.produces.queue
        rw [hnone] at hqueue
        refine ⟨by rw [messages_append, hnone, append_nil, hone], ?_⟩
        intro b hb hb' hnil; exact hleft (hqueue.symm.trans hnil)

theorem publishTimer_spec (clock : Nat → Nat) (s : Subscription N) :
    Tick limits s clock (s.publishTimer limits clock) := by
  obtain ⟨gen, hchecked⟩ : ∃ gen, Checked limits clock 0 ⟨s, []⟩ _ _ _ gen :=
    popInvalidAndCheckValid_spec clock 0 ⟨s, []⟩
  unfold publishTimer
  generalize popInvalidAndCheckValid clock 0 ⟨s, []⟩ = r at hchecked
  obtain ⟨t₁, valid, i⟩ := r
  have henabled : t₁.sub.publishingEnabled = s.publishingEnabled := by rw [hchecked.rest]
  have hstate : t₁.sub.state = s.state := by rw [hchecked.rest]
  have hsame : SameMessages s t₁.sub := hchecked.same
  have hexpired : unexpired clock 0 s.publishRequestQueue = [] → t₁.sub.publishRequestQueue = [] :=
    hchecked.all_expired
  cases valid with
  | false =>
    have hqueue := hchecked.eq_nil rfl
    by_cases hlife : t₁.sub.lifetimeCounter ≤ 1
    · simp only [Bool.not_false, hlife, decide_true, Bool.and_true, if_true]
      have hposted : t₁.answerNoSubscription.posted = t₁.posted := by
        rw [answerNoSubscription, hqueue]
        rfl
      rw [hposted]
      exact .closes t₁ gen hchecked.generates hchecked.faults hqueue
    · simp only [hlife, decide_false, Bool.and_false, Bool.false_eq_true, if_false]
      have hgen : Generates limits ⟨s, []⟩
          { t₁ with sub := { t₁.sub with lifetimeCounter := t₁.sub.lifetimeCounter - 1 } } gen := by
        -- the counter is nothing that a message depends on
        rw [← append_nil gen]
        exact hchecked.generates.trans (.of_same ⟨⟨rfl, rfl, rfl, rfl⟩, rfl, rfl, rfl⟩)
      exact Tick.of_timeout _ hgen hchecked.faults henabled hstate
        ⟨hsame.queue, hsame.next, hsame.max, hsame.more⟩ (fun hne => absurd hqueue hne)
        hexpired (publishTimeout_spec hchecked.valid_eq)
  | true =>
    exact Tick.of_timeout _ hchecked.generates hchecked.faults henabled hstate hsame
      (fun _ => hchecked.unexpired_length rfl) hexpired (publishTimeout_spec hchecked.valid_eq)

theorem run_induction {P : Subscription N → Option (Subscription N) → List (Entry N) → Prop}
    (nil : ∀ s, P s (some s) [])
    (closes : ∀ s e out, s.step limits e = (none, out) → P s none [⟨s, e, none, out⟩])
    (cons : ∀ s e s₁ out last history, s.step limits e = (some s₁, out) → P s₁ last history →
      P s last (⟨s, e, some s₁, out⟩ :: history))
    (events : List (Event N)) (s : Subscription N) :
    P s (s.run limits events).1 (s.run limits events).2 := by
  induction events generalizing s with
  | nil => exact nil s
  | cons e events ih =>
    rw [run]
    cases hstep : s.step limits e with
    | mk after out =>
      cases after with
      | none => exact closes s e out hstep
      | some s₁ => exact cons s e s₁ out _ _ hstep (ih s₁)

end Subscriptions
end S2OPC
