import S2OPC.Services.Publishing

/-!
# S2OPC.Services.Notifications

The notifications of a subscription over its life: those of the messages sent, with those that still
wait, are the ones that were added. A publish timer that has several messages to send is the
exception: their responses are posted one before the other, so the last message goes out first
(`Subscription.Bursts`).
-/

namespace S2OPC
namespace Subscriptions

open List Option Subscription Treatment

variable {N : Type} (limits : Limits)

/-- A treatment sent these responses, with what is true of notifications in them. -/
structure Delivers (s s' : Subscription N) (sent : List (Answer N)) : Prop where
  produces : Produces limits s s' (messages sent)
  keepAlive : ∀ a ∈ sent, ∀ n, a.keepAliveNumber = some n → n = s.seqNum ∧ messages sent = []
  more : ∀ a ∈ sent, a.moreNotifications = true → s'.notificationQueue ≠ []

variable {limits} {s s₁ s₂ : Subscription N} {sent : List (Answer N)}

theorem Faults.delivers (h : Faults sent) (hsame : SameMessages s s₁) :
    Delivers limits s s₁ sent where
  produces := by rw [h.messages]; exact hsame.produces
  keepAlive := by intro a ha n hn; rw [h.keepAliveNumber a ha] at hn; cases hn
  more := by intro a ha hmore; rw [h.moreNotifications a ha] at hmore; cases hmore

theorem Delivers.of_same (hsame : SameMessages s s₁) (h : Delivers limits s₁ s₂ sent) :
    Delivers limits s s₂ sent where
  produces := hsame.produces.trans h.produces
  keepAlive := by rw [← hsame.next]; exact h.keepAlive
  more := h.more

def Received.answers (req : PublishRequest) (r : Received N) : List (Answer N) :=
  r.2.toList.map (fun response => ⟨req, response⟩) ++ r.1.posted

theorem queueRequest_faults (t : Treatment N) (req : PublishRequest) (h : Faults t.posted) :
    Faults (t.queueRequest limits req).posted ∧
      SameMessages t.sub (t.queueRequest limits req).sub := by
  unfold queueRequest
  by_cases hfull : t.sub.publishRequestQueue.length = limits.publishRequests
  · simp only [if_pos hfull]
    cases discardOldestPublishRequest t.sub.publishRequestQueue with
    | none => exact ⟨h, rfl, rfl, rfl, rfl⟩
    | some popped =>
      refine ⟨?_, rfl, rfl, rfl, rfl⟩
      intro a ha
      cases mem_cons.mp ha with
      | inl heq => rw [heq]; rfl
      | inr hmem => exact h a hmem
  · simp only [if_neg hfull]; exact ⟨h, rfl, rfl, rfl, rfl⟩

theorem queueRequest_delivers (s : Subscription N) (req : PublishRequest) :
    Delivers limits s (queueRequest limits ⟨s, []⟩ req).sub
      (queueRequest limits ⟨s, []⟩ req).posted := by
  obtain ⟨hfaults, hsame⟩ : Faults (queueRequest limits ⟨s, []⟩ req).posted ∧
      SameMessages s (queueRequest limits ⟨s, []⟩ req).sub :=
    queueRequest_faults ⟨s, []⟩ req (fun _ h => absurd h not_mem_nil)
  exact hfaults.delivers hsame

theorem answerNotifications_delivers (req : PublishRequest) (hnotifs : s.notificationQueue ≠ []) :
    Delivers limits s (s.answerNotifications limits).1.sub
      (Received.answers req (s.answerNotifications limits)) := by
  have hsame : SameMessages s s.resetLifetimeCounter := ⟨rfl, rfl, rfl, rfl⟩
  have hfilled := sendNotificationMsg_filled limits
    (s := s.resetLifetimeCounter) hnotifs
  have hsent : Received.answers req (s.answerNotifications limits) =
      [⟨req, .message (s.resetLifetimeCounter.sendNotificationMsg limits).2.1
        ((s.resetLifetimeCounter.sendNotificationMsg limits).1.republishQueue.map
          (·.sequenceNumber)) (s.resetLifetimeCounter.sendNotificationMsg limits).2.2⟩] := rfl
  have hmsg : messages (Received.answers req (s.answerNotifications limits)) =
      [(s.resetLifetimeCounter.sendNotificationMsg limits).2.1] := by
    rw [hsent, messages, filterMap_cons, Answer.notificationMessage_message hfilled]
    rfl
  refine .of_same hsame ⟨?_, ?_, ?_⟩
  · rw [hmsg]; exact .sendNotificationMsg _
  · intro a ha n hn; rw [hsent] at ha
    rw [mem_singleton.mp ha] at hn
    simp [Answer.keepAliveNumber, Answer.message, hfilled] at hn
  · intro a ha hmore; rw [hsent] at ha
    rw [mem_singleton.mp ha] at hmore
    exact sendNotificationMsg_left limits hmore

theorem receivePublishRequest_delivers (hs : s.Sound) (req : PublishRequest) :
    Delivers limits s (s.receivePublishRequest limits req).1.sub
      (Received.answers req (s.receivePublishRequest limits req)) := by
  unfold receivePublishRequest
  cases hstate : s.state with
  | normal =>
    simp only
    split
    · exact queueRequest_delivers s req
    · rename_i h; rw [not_or, Bool.not_eq_false, Bool.not_eq_false] at h
      exact answerNotifications_delivers req (hs h.2)
  | late =>
    simp only
    split
    · rename_i h
      have hnotifs : s.notificationQueue ≠ [] := by
        cases h.2 with
        | inl hmore => exact hs hmore
        | inr havail => intro hnil; rw [hnil] at havail; cases havail
      have hsame : SameMessages s { s with state := .normal } := ⟨rfl, rfl, rfl, rfl⟩
      exact .of_same hsame (answerNotifications_delivers req hnotifs)
    · -- a keep alive message
      refine ⟨SameMessages.produces ⟨rfl, rfl, rfl, rfl⟩, ?_, ?_⟩
      · intro a ha n hn; rw [mem_singleton.mp ha] at hn; exact ⟨(Option.some.inj hn).symm, rfl⟩
      · intro a ha hmore; rw [mem_singleton.mp ha] at hmore; cases hmore
  | keepAlive => simp only; exact queueRequest_delivers s req

theorem acknowledge_same (acks : List (Bool × UInt32)) (s : Subscription N) :
    SameMessages s (s.acknowledge acks) := by
  rw [s.acknowledge_eq acks]; exact ⟨rfl, rfl, rfl, rfl⟩

theorem treatPublishRequest_delivers (hs : s.Sound) (acks : List (Bool × UInt32))
    (req : PublishRequest) :
    Delivers limits s (s.treatPublishRequest limits acks req).1.sub
      (Received.answers req (s.treatPublishRequest limits acks req)) := by
  unfold treatPublishRequest
  split
  · refine Faults.delivers ?_ ⟨rfl, rfl, rfl, rfl⟩; intro a ha; rw [mem_singleton.mp ha]; rfl
  have hsame := acknowledge_same acks s
  have hs' : (s.acknowledge acks).Sound := by
    rw [Subscription.Sound, hsame.more, hsame.queue]
    exact hs
  exact .of_same hsame (receivePublishRequest_delivers hs' req)

/-- Without a burst a tick has at most one message, so that it does not matter in which order the
responses are sent. -/
theorem publishTimer_delivers {clock : Nat → Nat} (hburst : ¬s.Bursts limits clock)
    (hlive : (s.publishTimer limits clock).1 = some s₁) :
    Delivers limits s s₁ (s.publishTimer limits clock).2 := by
  have htick : Tick limits s clock (s.publishTimer limits clock) := publishTimer_spec clock s
  generalize s.publishTimer limits clock = r at htick hlive
  cases htick with
  | closes t gen hgen hfaults hempty => cases hlive
  | quiet t gen hgen hexpired hquiet =>
    cases hlive; have hposted : t.posted = gen.reverse := hgen.posted.trans (append_nil _)
    have hmsgs : messages t.posted = messages gen := by
      rw [hposted, messages_reverse, hquiet.messages]
      rfl
    refine ⟨by rw [hmsgs]; exact hgen.produces, ?_, ?_⟩
    · intro a ha n hn; rw [hposted, mem_reverse] at ha
      exact ⟨hquiet.keepAlive a ha n hn, hmsgs.trans hquiet.messages⟩
    · intro a ha hmore; rw [hposted, mem_reverse] at ha
      exact absurd (filterMap_eq_nil_iff.mp hquiet.messages a ha) (hgen.more a ha hmore)
  | notifies t gen hgen hexpired hkeep hsingle =>
    cases hlive; obtain ⟨hone, hmore⟩ := hsingle hburst
    have hposted : t.posted = gen.reverse := hgen.posted.trans (append_nil _)
    have hmsgs : messages t.posted = messages gen := by
      obtain ⟨msg, hmsg⟩ := length_eq_one_iff.mp hone
      rw [hposted, messages_reverse, hmsg]
      rfl
    refine ⟨by rw [hmsgs]; exact hgen.produces, ?_, ?_⟩
    · intro a ha n hn; rw [hposted, mem_reverse] at ha; rw [hkeep a ha] at hn; cases hn
    · intro a ha; rw [hposted, mem_reverse] at ha; exact hmore a ha

theorem publishTimer_closes {clock : Nat → Nat} (hclosed : (s.publishTimer limits clock).1 = none) :
    Faults (s.publishTimer limits clock).2 := by
  have htick : Tick limits s clock (s.publishTimer limits clock) := publishTimer_spec clock s
  generalize s.publishTimer limits clock = r at htick hclosed
  cases htick with
  | closes t gen hgen hfaults hempty =>
    intro a ha; have hposted : t.posted = gen.reverse := hgen.posted.trans (append_nil _)
    rw [hposted, mem_reverse] at ha
    exact hfaults a ha
  | quiet t gen hgen hexpired hquiet => cases hclosed
  | notifies t gen hgen hexpired hkeep hsingle => cases hclosed

variable (limits) in
structure Notifies (s : Subscription N) (after : Option (Subscription N)) (out : Output N) :
    Prop where
  queue : ∀ s', after = some s' →
    (messages out.sent).flatMap (·.notifications) ++ s'.notificationQueue =
      s.notificationQueue ++ out.added
  numbers : (messages out.sent).map (·.sequenceNumber) =
    List.iterate nextSeqNum s.seqNum (messages out.sent).length
  next : ∀ s', after = some s' → s'.seqNum = nextSeqNum^[(messages out.sent).length] s.seqNum
  size : ∀ msg ∈ messages out.sent, msg.notifications.length ≤ s.maxNotifs limits
  keepAlive : ∀ a ∈ out.sent, ∀ n, a.keepAliveNumber = some n →
    n = s.seqNum ∧ messages out.sent = []
  more : ∀ a ∈ out.sent, a.moreNotifications = true →
    ∃ s', after = some s' ∧ s'.notificationQueue ≠ []
  sound : ∀ s', after = some s' → s'.Sound

variable {out : Output N}

theorem Delivers.notifies (h : Delivers limits s s₁ out.sent) (hs : s.Sound)
    (hadded : out.added = []) : Notifies limits s (some s₁) out where
  queue := by intro s' hs'; cases hs'; rw [h.produces.queue, hadded, append_nil]
  numbers := h.produces.numbers
  next := by intro s' hs'; cases hs'; exact h.produces.next
  size := h.produces.size
  keepAlive := h.keepAlive
  more := fun a ha hmore => ⟨s₁, rfl, h.more a ha hmore⟩
  sound := by intro s' hs'; cases hs'; exact h.produces.sound hs

theorem Faults.notifies (h : Faults out.sent) : Notifies limits s none out where
  queue := fun s' hs' => absurd hs' (some_ne_none s').symm
  numbers := by rw [h.messages]; rfl
  next := fun s' hs' => absurd hs' (some_ne_none s').symm
  size := by
    rw [h.messages]
    exact by simp
  keepAlive := by intro a ha n hn; rw [h.keepAliveNumber a ha] at hn; cases hn
  more := by intro a ha hmore; rw [h.moreNotifications a ha] at hmore; cases hmore
  sound := fun s' hs' => absurd hs' (some_ne_none s').symm

theorem Notifies.silent (hs : s.Sound) (hsent : out.sent = [])
    (hqueue : s₁.notificationQueue = s.notificationQueue ++ out.added)
    (hnext : s₁.seqNum = s.seqNum) (hmore : s₁.moreNotifications = s.moreNotifications) :
    Notifies limits s (some s₁) out where
  queue := by
    intro s' hs'; cases hs'
    rw [hsent]
    exact hqueue
  numbers := by rw [hsent]; rfl
  next := by
    intro s' hs'; cases hs'
    rw [hsent]
    exact hnext
  size := by
    rw [hsent]
    exact by simp
  keepAlive := by
    rw [hsent]
    exact by simp
  more := by
    rw [hsent]
    exact by simp
  sound := by
    intro s' hs' hflag; cases hs'
    rw [hqueue]
    rw [hmore] at hflag
    exact append_ne_nil_of_left_ne_nil (hs hflag) _

variable (limits) in
def Event.Bursts (s : Subscription N) : Event N → Prop
  | .publishTimer clock => s.Bursts limits clock
  | _ => False

theorem step_notifies (hs : s.Sound) (e : Event N) (hburst : ¬e.Bursts limits s) :
    Notifies limits s (s.step limits e).1 (s.step limits e).2 := by
  cases e with
  | publishRequest req acks =>
    have h : Delivers limits s (s.treatPublishRequest limits acks req).1.sub
        (Received.answers req (s.treatPublishRequest limits acks req)) :=
      treatPublishRequest_delivers hs acks req
    simp only [step]
    generalize s.treatPublishRequest limits acks req = r at h
    obtain ⟨t, response⟩ := r
    cases response <;> exact Delivers.notifies h hs rfl
  | notification notif =>
    simp only [step]
    split
    · exact .silent hs rfl (append_nil _).symm rfl rfl
    · exact .silent hs rfl rfl rfl rfl
  | publishTimer clock =>
    simp only [step]
    cases hafter : (s.publishTimer limits clock).1 with
    | none => exact Faults.notifies (publishTimer_closes hafter)
    | some s₁ => exact Delivers.notifies (publishTimer_delivers hburst hafter) hs rfl
  | setPublishingMode | modify => exact .silent hs rfl (append_nil _).symm rfl rfl
  | sessionInactive newState =>
    simp only [step]
    split
    · split
      · exact Faults.notifies Faults.nil
      · exact .silent hs rfl (append_nil _).symm rfl rfl
    · exact .silent hs rfl (append_nil _).symm rfl rfl
  | delete => exact Faults.notifies (answerNoSubscription_faults Faults.nil)

def sentMessages (history : List (Entry N)) : List (NotificationMessage N) :=
  history.flatMap fun entry => messages entry.out.sent

def addedNotifications (history : List (Entry N)) : List N :=
  history.flatMap fun entry => entry.out.added

variable (limits) in
structure Run (s : Subscription N) (last : Option (Subscription N)) (history : List (Entry N)) :
    Prop where
  queue : ∀ s', last = some s' →
    (sentMessages history).flatMap (·.notifications) ++ s'.notificationQueue =
      s.notificationQueue ++ addedNotifications history
  numbers : (sentMessages history).map (·.sequenceNumber) =
    List.iterate nextSeqNum s.seqNum (sentMessages history).length
  entries : ∀ entry ∈ history, Notifies limits entry.before entry.after entry.out

theorem Run.closes {e : Event N} (h : Notifies limits s none out) :
    Run limits s none [⟨s, e, none, out⟩] where
  queue := fun s' hs' => absurd hs' (some_ne_none s').symm
  numbers := by rw [sentMessages, flatMap_singleton]; exact h.numbers
  entries := forall_mem_singleton.mpr h

theorem Run.cons {e : Event N} {last : Option (Subscription N)} {history : List (Entry N)}
    (h : Notifies limits s (some s₁) out) (hrun : Run limits s₁ last history) :
    Run limits s last (⟨s, e, some s₁, out⟩ :: history) where
  queue := by
    intro s' hs'
    simp only [sentMessages, addedNotifications, flatMap_cons, flatMap_append, append_assoc]
    rw [← append_assoc s.notificationQueue, ← h.queue s₁ rfl, append_assoc]
    exact congrArg _ (hrun.queue s' hs')
  numbers := by
    have hnumbers := hrun.numbers
    rw [h.next s₁ rfl] at hnumbers
    simp only [sentMessages, flatMap_cons, map_append, length_append] at hnumbers ⊢
    rw [h.numbers, hnumbers, iterate_add]
  entries := forall_mem_cons.mpr ⟨h, hrun.entries⟩

theorem run_notifies (events : List (Event N)) (s : Subscription N) : s.Sound →
    (∀ entry ∈ (s.run limits events).2, ¬entry.event.Bursts limits entry.before) →
    Run limits s (s.run limits events).1 (s.run limits events).2 := by
  refine run_induction (P := fun s last history => s.Sound →
    (∀ entry ∈ history, ¬entry.event.Bursts limits entry.before) → Run limits s last history)
    ?_ ?_ ?_ events s
  · intro s _ _; refine ⟨?_, rfl, by simp⟩; intro s' hs'; cases hs'; exact (append_nil _).symm
  · intro s e out hstep hs hbursts
    have h : Notifies limits s _ _ := step_notifies hs e (hbursts _ mem_cons_self)
    rw [hstep] at h
    exact .closes h
  · intro s e s₁ out last history hstep ih hs hbursts
    obtain ⟨hburst, hbursts⟩ := forall_mem_cons.mp hbursts
    have h : Notifies limits s _ _ := step_notifies hs e hburst
    rw [hstep] at h
    exact .cons h (ih (h.sound s₁ rfl) hbursts)

theorem nextSeqNum_ne_zero (n : UInt32) : nextSeqNum n ≠ 0 := by
  unfold nextSeqNum
  split
  · decide
  · rename_i hmax; intro hzero; exact hmax (eq_neg_of_add_eq_zero_left hzero)

theorem iterate_nextSeqNum_ne_zero (k : Nat) {n : UInt32} (hn : n ≠ 0) :
    ∀ m ∈ List.iterate nextSeqNum n k, m ≠ 0 := by
  induction k generalizing n with
  | zero => simp
  | succ k ih => exact forall_mem_cons.mpr ⟨hn, ih (nextSeqNum_ne_zero n)⟩

structure NotifiedInOrder (last : Option (Subscription N)) (history : List (Entry N)) : Prop where
  -- those of the messages sent, with those that wait, are the ones added
  notifications : ∀ s, last = some s →
    (sentMessages history).flatMap (·.notifications) ++ s.notificationQueue =
      addedNotifications history
  -- notification messages are numbered from 1 on
  numbers : (sentMessages history).map (·.sequenceNumber) =
    List.iterate nextSeqNum 1 (sentMessages history).length
  nonzero : ∀ msg ∈ sentMessages history, msg.sequenceNumber ≠ 0
  size : ∀ entry ∈ history, ∀ msg ∈ messages entry.out.sent,
    0 < entry.before.maxNotifsPerPublish →
      (msg.notifications.length : Int) ≤ entry.before.maxNotifsPerPublish
  -- a keep alive message has the number of the next notification message
  keepAlive : ∀ entry ∈ history, ∀ a ∈ entry.out.sent, ∀ n, a.keepAliveNumber = some n →
    n = entry.before.seqNum ∧ ∀ s, entry.after = some s → s.seqNum = n
  more : ∀ entry ∈ history, ∀ a ∈ entry.out.sent, a.moreNotifications = true →
    ∃ s, entry.after = some s ∧ s.notificationQueue ≠ []

theorem Subscription.maxNotifs_le (s : Subscription N) (h : 0 < s.maxNotifsPerPublish) :
    (s.maxNotifs limits : Int) ≤ s.maxNotifsPerPublish := by
  unfold maxNotifs
  split <;> omega

def sampleRequest (handle : Nat) : PublishRequest := ⟨1, 1000, handle, handle⟩

instance (s : Subscription N) (e : Event N) : Decidable (e.Bursts limits s) :=
  match e with
  | .publishTimer clock => inferInstanceAs (Decidable (s.Bursts limits clock))
  | .publishRequest _ _ | .notification _ | .setPublishingMode _ | .modify _ _ _
  | .sessionInactive _ | .delete => inferInstanceAs (Decidable False)

def sampleEvents : List (Event Nat) :=
  [.publishRequest (sampleRequest 1) [], .notification 10, .notification 11, .notification 12,
    .publishTimer fun _ => 0, .sessionInactive .scOrphaned, .publishRequest (sampleRequest 2) []]

def burstEvents : List (Event Nat) :=
  [.publishRequest (sampleRequest 1) [], .publishRequest (sampleRequest 2) [], .notification 10,
    .notification 11, .publishTimer fun _ => 0]

end Subscriptions
end S2OPC
