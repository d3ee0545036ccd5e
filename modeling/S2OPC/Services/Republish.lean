import S2OPC.Services.Publishing

/-!
# S2OPC.Services.Republish

The messages that a subscription keeps for a Republish request, against the history of what it sent
and of what was acknowledged.

* `Republishes`: the queue of the subscription follows the history, and responses list it.
-/

namespace S2OPC
namespace Subscriptions

open List Option Subscription RepublishOp

variable {N : Type}

inductive RepublishFault where
  | badSubscriptionIdInvalid
  | badMessageNotAvailable
  deriving DecidableEq, Repr

/-- `treat_subscription_republish_request`, for the subscription of the session or for another
identifier. -/
def Subscription.treatRepublishRequest (s : Subscription N) (own : Bool) (seqNum : UInt32) :
    Except RepublishFault (NotificationMessage N) :=
  if own then
    match s.republishQueue.find? fun msg => msg.sequenceNumber == seqNum with
    | some msg => .ok msg
    | none => .error .badMessageNotAvailable
  else .error .badSubscriptionIdInvalid

def RepublishOp.sent : RepublishOp N → Option (NotificationMessage N)
  | .ack _ => none
  | .answer a => a.notificationMessage

def RepublishOp.acked : RepublishOp N → Option UInt32
  | .ack seqNum => some seqNum
  | .answer _ => none

/-- The messages that no acknowledgement came for after they were sent, in the order in which they
were sent. -/
def unacknowledged : List (RepublishOp N) → List (NotificationMessage N)
  | [] => []
  | op :: ops =>
    (op.sent.filter fun msg => msg.sequenceNumber ∉ ops.filterMap acked).toList ++
      unacknowledged ops

variable (limits : Limits)

def recent (ops : List (RepublishOp N)) : List (NotificationMessage N) :=
  (unacknowledged ops).rtake limits.republishNotifs

def ListsRecent : List (RepublishOp N) → List (RepublishOp N) → Prop
  | _, [] => True
  | past, op :: ops =>
    (∀ l ∈ op.available, l = numbers (recent limits (past ++ [op]))) ∧
      ListsRecent (past ++ [op]) ops

/-- No message is sent while there are as many to acknowledge as can be kept, or one with the same
number. -/
def Fits : List (RepublishOp N) → List (RepublishOp N) → Prop
  | _, [] => True
  | past, op :: ops =>
    (∀ msg ∈ op.sent, (unacknowledged past).length < limits.republishNotifs ∧
      msg.sequenceNumber ∉ numbers (unacknowledged past)) ∧ Fits (past ++ [op]) ops

variable {limits} {queue : List (NotificationMessage N)} {s s₁ : Subscription N}

variable (limits) in
structure Republishes (queue : List (NotificationMessage N)) (after : Option (Subscription N))
    (ops : List (RepublishOp N)) : Prop where
  listed : Listed limits queue ops
  follows : ∀ s' ∈ after, s'.republishQueue = queueAfter limits queue ops
  sound : ∀ s' ∈ after, s'.Sound

def Event.acks (limits : Limits) : Event N → List UInt32
  | .publishRequest _ acks =>
    if limits.operationsPerRequest < acks.length then []
    else acks.filterMap fun ack => if ack.1 then some ack.2 else none
  | _ => []

/-- What happens in an event: first the acknowledgements, then the responses as they are made. -/
def Entry.ops (limits : Limits) (entry : Entry N) : List (RepublishOp N) :=
  (entry.event.acks limits).map .ack ++ (entry.out.posted.reverse ++ entry.out.direct).map .answer

def Event.Clears (s : Subscription N) : Event N → Prop
  | .sessionInactive newState =>
    (newState = .scOrphaned ∨ newState = .scActivating) ∧ s.republishQueue ≠ []
  | _ => False

theorem publishTimer_republishes (hs : s.Sound) (clock : Nat → Nat) :
    Republishes limits s.republishQueue (s.publishTimer limits clock).1
      ((s.publishTimer limits clock).2.reverse.map .answer) := by
  have htick : Tick limits s clock (s.publishTimer limits clock) := publishTimer_spec clock s
  generalize s.publishTimer limits clock = r at htick
  have hsent {t : Treatment N} {gen : List (Answer N)} (hgen : Generates limits ⟨s, []⟩ t gen) :
      t.posted.reverse = gen := by
    rw [hgen.posted, append_nil, reverse_reverse]
  have hlive {t : Treatment N} {gen : List (Answer N)} (hgen : Generates limits ⟨s, []⟩ t gen) :
      Republishes limits s.republishQueue (some t.sub) (t.posted.reverse.map .answer) := by
    rw [hsent hgen]
    refine ⟨hgen.listed, fun s' hs' => ?_, fun s' hs' => ?_⟩
    · cases hs'; exact hgen.republish
    · cases hs'; exact hgen.produces.sound hs
  cases htick with
  | closes t gen hgen hfaults hempty =>
    rw [hsent hgen]
    exact ⟨hgen.listed, fun s' hs' => (by cases hs'), fun s' hs' => (by cases hs')⟩
  | quiet t gen hgen hexpired hquiet => exact hlive hgen
  | notifies t gen hgen hexpired hkeep hsingle => exact hlive hgen

theorem acknowledge_queue (acks : List (Bool × UInt32)) (s : Subscription N) :
    (s.acknowledge acks).republishQueue = queueAfter limits s.republishQueue
      ((acks.filterMap fun ack => if ack.1 then some ack.2 else none).map .ack) := by
  induction acks generalizing s with
  | nil => rfl
  | cons ack acks ih =>
    obtain ⟨own, seqNum⟩ := ack
    cases own with
    | false => exact ih s
    | true =>
      exact ih { s with
        republishQueue := s.republishQueue.eraseP fun msg => msg.sequenceNumber == seqNum }

theorem listed_acks (acks : List UInt32) :
    ∀ queue : List (NotificationMessage N), Listed limits queue (acks.map .ack) := by
  induction acks with
  | nil => exact fun queue => trivial
  | cons ack acks ih => exact fun queue => ⟨fun l hl => (by cases hl), ih _⟩

theorem acknowledge_sound (acks : List (Bool × UInt32)) (hs : s.Sound) :
    (s.acknowledge acks).Sound := by
  rw [s.acknowledge_eq acks]; exact hs

theorem Republishes.single {a : Answer N}
    (hqueue : s₁.republishQueue = (answer a).apply limits queue)
    (havailable : ∀ l ∈ (answer a).available, l = numbers s₁.republishQueue)
    (hsound : s₁.Sound) : Republishes limits queue (some s₁) [.answer a] := by
  refine ⟨⟨?_, trivial⟩, ?_, ?_⟩
  · rw [← hqueue]; exact havailable
  · intro s' hs'; cases hs'; exact hqueue
  · intro s' hs'; cases hs'; exact hsound

theorem Republishes.silent (hqueue : s₁.republishQueue = queue) (hsound : s₁.Sound) :
    Republishes limits queue (some s₁) [] := by
  refine ⟨trivial, fun s' hs' => ?_, fun s' hs' => ?_⟩
  · cases hs'; exact hqueue
  · cases hs'; exact hsound

def Received.ops (req : PublishRequest) (r : Received N) : List (RepublishOp N) :=
  (r.1.posted.reverse ++ (r.2.map (Answer.mk req)).toList).map .answer

theorem queueRequest_republishes (hs : s.Sound) (req : PublishRequest) :
    Republishes limits s.republishQueue (some (Treatment.queueRequest limits ⟨s, []⟩ req).sub)
      (Received.ops req (Treatment.queueRequest limits ⟨s, []⟩ req, none)) := by
  unfold Treatment.queueRequest
  split
  · cases discardOldestPublishRequest s.publishRequestQueue with
    | none => exact .silent rfl hs
    | some popped => exact .single rfl (fun l hl => by cases hl) hs
  · exact .silent rfl hs

theorem answerNotifications_republishes (hs : s.Sound) (req : PublishRequest)
    (hnotifs : s.notificationQueue ≠ []) :
    Republishes limits s.republishQueue (some (s.answerNotifications limits).1.sub)
      (Received.ops req (s.answerNotifications limits)) := by
  refine Republishes.single ?_ ?_ ((Produces.sendNotificationMsg s.resetLifetimeCounter).sound hs)
  · exact apply_sendNotificationMsg (s := s.resetLifetimeCounter) req hnotifs
  · intro l hl; cases hl; rfl

theorem receivePublishRequest_republishes (hs : s.Sound) (req : PublishRequest) :
    Republishes limits s.republishQueue (some (s.receivePublishRequest limits req).1.sub)
      (Received.ops req (s.receivePublishRequest limits req)) := by
  unfold receivePublishRequest
  cases hstate : s.state with
  | normal =>
    simp only
    split
    · exact queueRequest_republishes hs req
    · rename_i hmore; refine answerNotifications_republishes hs req (hs ?_)
      cases hflag : s.moreNotifications with
      | false => exact absurd (.inr hflag) hmore
      | true => rfl
  | late =>
    simp only
    split
    · rename_i hsend
      refine answerNotifications_republishes (s := { s with state := .normal }) hs req ?_
      obtain hflag | havailable := hsend.2
      · exact hs hflag
      · simpa using havailable
    · refine Republishes.single rfl ?_ hs; intro l hl; cases hl; rfl
  | keepAlive => exact queueRequest_republishes hs req

theorem treatPublishRequest_republishes (hs : s.Sound) (acks : List (Bool × UInt32))
    (req : PublishRequest) :
    Republishes limits s.republishQueue (some (s.treatPublishRequest limits acks req).1.sub)
      (((Event.publishRequest req acks : Event N).acks limits).map .ack ++
        Received.ops req (s.treatPublishRequest limits acks req)) := by
  unfold treatPublishRequest Event.acks
  by_cases hops : limits.operationsPerRequest < acks.length
  · simp only [if_pos hops, map_nil, nil_append]
    exact Republishes.single rfl (fun l hl => (by cases hl)) hs
  simp only [if_neg hops]
  obtain ⟨hlisted, hfollows, hsound⟩ : Republishes limits _ _ _ :=
    receivePublishRequest_republishes (acknowledge_sound acks hs) req
  rw [acknowledge_queue] at hlisted hfollows
  refine ⟨listed_append.mpr ⟨listed_acks _ _, hlisted⟩, ?_, hsound⟩
  intro s' hs'; rw [queueAfter_append]
  exact hfollows s' hs'

theorem Republishes.closes (gen : List (Answer N)) (h : Faults gen) :
    Republishes limits queue none (gen.map .answer) :=
  ⟨listed_faults h queue, fun s' hs' => (by cases hs'), fun s' hs' => (by cases hs')⟩

theorem step_republishes (hs : s.Sound) (e : Event N) (hclear : ¬ e.Clears s) :
    Republishes limits s.republishQueue (s.step limits e).1
      (Entry.ops limits ⟨s, e, (s.step limits e).1, (s.step limits e).2⟩) := by
  cases e with
  | publishRequest req acks =>
    have h : Republishes limits s.republishQueue _ _ := treatPublishRequest_republishes hs acks req
    simp only [step, Entry.ops]
    generalize s.treatPublishRequest limits acks req = r at h
    obtain ⟨t, response⟩ := r
    cases response with
    | none => exact h
    | some response => exact h
  | notification notif =>
    simp only [step]
    split
    · exact .silent rfl hs
    · exact .silent rfl fun _ => append_ne_nil_of_right_ne_nil _ (cons_ne_nil _ _)
  | publishTimer clock =>
    have h : Republishes limits s.republishQueue _ _ := publishTimer_republishes hs clock
    simp only [step, Entry.ops, Event.acks, map_nil, nil_append]
    rw [show Output.none.direct = ([] : List (Answer N)) from rfl, append_nil]
    exact h
  | setPublishingMode enabled => exact .silent rfl hs
  | modify lifetimeCount maxKeepAlive maxNotifs => exact .silent rfl hs
  | sessionInactive newState =>
    simp only [step]
    split
    · rename_i hleft
      split
      · exact Republishes.closes [] Faults.nil
      · rename_i hopen; refine .silent ?_ hs
        by_contra hqueue
        refine hclear ⟨?_, Ne.symm hqueue⟩
        exact hleft.imp_right (Or.resolve_right · hopen)
    · exact .silent rfl hs
  | delete =>
    refine Republishes.closes (List.reverse _ ++ []) fun a ha => ?_
    rw [append_nil, mem_reverse] at ha
    exact answerNoSubscription_faults Faults.nil a ha

def historyOps (limits : Limits) (history : List (Entry N)) : List (RepublishOp N) :=
  history.flatMap (Entry.ops limits)

theorem run_republishes (events : List (Event N)) {s : Subscription N} : s.Sound →
    (∀ entry ∈ (s.run limits events).2, ¬ entry.event.Clears entry.before) →
    Republishes limits s.republishQueue (s.run limits events).1
      (historyOps limits (s.run limits events).2) := by
  refine run_induction (P := fun s last history => s.Sound →
    (∀ entry ∈ history, ¬ entry.event.Clears entry.before) →
      Republishes limits s.republishQueue last (historyOps limits history)) ?_ ?_ ?_ events s
  · exact fun s hs _ => .silent rfl hs
  · intro s e out heq hs hclear
    have hstep : Republishes limits s.republishQueue _ _ :=
      step_republishes hs e (hclear _ mem_cons_self)
    rw [heq] at hstep
    rw [historyOps, flatMap_singleton]; exact hstep
  · intro s e s₁ out last history heq ih hs hclear
    obtain ⟨hfirst, hclear⟩ := forall_mem_cons.mp hclear
    have hstep : Republishes limits s.republishQueue _ _ := step_republishes hs e hfirst
    rw [heq] at hstep
    have hrest := ih (hstep.sound s₁ rfl) hclear
    rw [hstep.follows s₁ rfl] at hrest
    rw [historyOps, flatMap_cons]
    refine ⟨listed_append.mpr ⟨hstep.listed, hrest.listed⟩, fun s' hs' => ?_, hrest.sound⟩
    rw [queueAfter_append]; exact hrest.follows s' hs'

theorem acked_append {ops ops' : List (RepublishOp N)} :
    (ops ++ ops').filterMap acked =
      ops.filterMap acked ++ ops'.filterMap acked :=
  filterMap_append

theorem unacknowledged_ack (seqNum : UInt32) : ∀ ops : List (RepublishOp N),
    unacknowledged (ops ++ [.ack seqNum]) =
      (unacknowledged ops).filter fun msg => msg.sequenceNumber != seqNum := by
  intro ops
  induction ops with
  | nil => rfl
  | cons op ops ih =>
    rw [cons_append, unacknowledged, ih, unacknowledged, filter_append, acked_append]
    cases op.sent with
    | none => rfl
    | some msg =>
      by_cases h : msg.sequenceNumber ∈ ops.filterMap acked
      · simp [h, Option.filter]
      · by_cases heq : msg.sequenceNumber = seqNum
        · simp [heq, Option.filter, acked]
        · simp [h, heq, Option.filter, acked]

theorem unacknowledged_answer (a : Answer N) : ∀ ops : List (RepublishOp N),
    unacknowledged (ops ++ [.answer a]) = unacknowledged ops ++ a.notificationMessage.toList := by
  intro ops
  induction ops with
  | nil =>
    simp only [nil_append, unacknowledged, sent, append_nil]
    cases a.notificationMessage <;> rfl
  | cons op ops ih =>
    rw [cons_append, unacknowledged, ih, unacknowledged, acked_append]
    simp [acked]

theorem eraseP_eq_filter {seqNum : UInt32} {queue : List (NotificationMessage N)}
    (hnodup : (numbers queue).Nodup) : queue.eraseP (fun msg => msg.sequenceNumber == seqNum) =
      queue.filter fun msg => msg.sequenceNumber != seqNum := by
  induction queue with
  | nil => rfl
  | cons msg queue ih =>
    obtain ⟨hnew, hnodup⟩ := nodup_cons.mp hnodup
    by_cases heq : msg.sequenceNumber = seqNum
    · rw [eraseP_cons_of_pos (by simp [heq]), filter_cons_of_neg (by simp [heq])]
      refine (filter_eq_self.mpr fun other hother => ?_).symm
      rw [bne_iff_ne, ← heq]
      exact fun h => hnew (mem_map.mpr ⟨other, hother, h⟩)
    · rw [eraseP_cons_of_neg (by simp [heq]), filter_cons_of_pos (by simp [heq]),
        ih hnodup]

theorem apply_unacknowledged {past : List (RepublishOp N)} {op : RepublishOp N}
    (hnodup : (numbers (unacknowledged past)).Nodup)
    (hle : (unacknowledged past).length ≤ limits.republishNotifs)
    (hfits : ∀ msg ∈ op.sent, (unacknowledged past).length < limits.republishNotifs ∧
      msg.sequenceNumber ∉ numbers (unacknowledged past)) :
    op.apply limits (unacknowledged past) = unacknowledged (past ++ [op]) ∧
      (numbers (unacknowledged (past ++ [op]))).Nodup ∧
      (unacknowledged (past ++ [op])).length ≤ limits.republishNotifs := by
  cases op with
  | ack seqNum =>
    rw [unacknowledged_ack, apply, eraseP_eq_filter hnodup]
    refine ⟨rfl, hnodup.sublist (List.Sublist.map _ filter_sublist), ?_⟩
    exact Nat.le_trans (length_filter_le _ _) hle
  | answer a =>
    rw [unacknowledged_answer, apply]
    cases hmsg : a.notificationMessage with
    | none => rw [toList_none, append_nil]; exact ⟨rfl, hnodup, hle⟩
    | some msg =>
      obtain ⟨hlt, hnew⟩ := hfits msg hmsg
      rw [toList_some]
      refine ⟨?_, ?_, ?_⟩
      · rw [elim_some, addRepublishNotif, if_neg (Nat.ne_of_lt hlt)]
      · rw [numbers, map_append]
        refine List.Nodup.append hnodup (nodup_singleton _) ?_
        intro n hn hn'; rw [map_singleton, mem_singleton] at hn'
        exact hnew (hn' ▸ hn)
      · rw [length_append, length_singleton]; exact hlt

theorem recent_eq {ops : List (RepublishOp N)}
    (hle : (unacknowledged ops).length ≤ limits.republishNotifs) :
    recent limits ops = unacknowledged ops := by
  rw [recent, List.rtake, Nat.sub_eq_zero_of_le hle, drop_zero]

theorem queueAfter_unacknowledged (ops past : List (RepublishOp N))
    (hnodup : (numbers (unacknowledged past)).Nodup)
    (hle : (unacknowledged past).length ≤ limits.republishNotifs) (hfits : Fits limits past ops)
    (hlisted : Listed limits (unacknowledged past) ops) :
    queueAfter limits (unacknowledged past) ops = recent limits (past ++ ops) ∧
      (numbers (recent limits (past ++ ops))).Nodup ∧ ListsRecent limits past ops := by
  induction ops generalizing past with
  | nil => rw [append_nil, recent_eq hle]; exact ⟨rfl, hnodup, trivial⟩
  | cons op ops ih =>
    obtain ⟨happly, hnodup', hle'⟩ := apply_unacknowledged hnodup hle hfits.1
    obtain ⟨hlists, hlisted⟩ := hlisted
    rw [happly] at hlists hlisted
    obtain ⟨hqueue, hnumbers, hrest⟩ := ih (past ++ [op]) hnodup' hle' hfits.2 hlisted
    rw [append_assoc, singleton_append] at hqueue hnumbers
    refine ⟨?_, hnumbers, ?_, hrest⟩
    · rw [queueAfter, foldl_cons, happly]; exact hqueue
    · rw [recent_eq hle']; exact hlists

theorem find_eq_some_iff {queue : List (NotificationMessage N)} (hnodup : (numbers queue).Nodup)
    (seqNum : UInt32) (msg : NotificationMessage N) :
    queue.find? (fun m => m.sequenceNumber == seqNum) = some msg ↔
      msg ∈ queue ∧ msg.sequenceNumber = seqNum := by
  constructor
  · intro h; have hnumber := find?_some h; exact ⟨mem_of_find?_eq_some h, beq_iff_eq.mp hnumber⟩
  rintro ⟨hmem, rfl⟩
  induction queue with
  | nil => cases hmem
  | cons first queue ih =>
    obtain ⟨hnew, hnodup⟩ := nodup_cons.mp hnodup
    cases mem_cons.mp hmem with
    | inl heq => rw [heq]; exact find?_cons_of_pos (by simp)
    | inr htail =>
      have hne : first.sequenceNumber ≠ msg.sequenceNumber :=
        fun h => hnew (mem_map.mpr ⟨msg, htail, h.symm⟩)
      rw [find?_cons_of_neg (by simp [hne])]
      exact ih hnodup htail

theorem treatRepublishRequest_eq_ok_iff {seqNum : UInt32} {msg : NotificationMessage N} :
    s.treatRepublishRequest true seqNum = .ok msg ↔
      s.republishQueue.find? (fun m => m.sequenceNumber == seqNum) = some msg := by
  rw [treatRepublishRequest, if_pos rfl]
  cases s.republishQueue.find? (fun m => m.sequenceNumber == seqNum) with
  | none => simp
  | some found => simp

variable (limits) in
structure RepublishesRecent (history : List (Entry N)) (last : Option (Subscription N)) : Prop where
  lists : ListsRecent limits [] (historyOps limits history)
  republishes : ∀ s ∈ last, ∀ seqNum msg, s.treatRepublishRequest true seqNum = .ok msg ↔
    msg ∈ recent limits (historyOps limits history) ∧ msg.sequenceNumber = seqNum

/-- In every history in which no message is sent while the queue is full, or with a number that is to
be acknowledged, the recent messages are listed and can be republished. -/
theorem republish_recent (limits : Limits) (lifetimeCount maxKeepAlive maxNotifs : Int)
    (enabled : Bool) (events : List (Event N))
    (hfits : Fits limits [] (historyOps limits
      ((create N lifetimeCount maxKeepAlive maxNotifs enabled).run limits events).2))
    (hclear : ∀ entry ∈
      ((create N lifetimeCount maxKeepAlive maxNotifs enabled).run limits events).2,
      ¬ entry.event.Clears entry.before) :
    RepublishesRecent limits
      ((create N lifetimeCount maxKeepAlive maxNotifs enabled).run limits events).2
      ((create N lifetimeCount maxKeepAlive maxNotifs enabled).run limits
        events).1 := by
  have hsound : (create N lifetimeCount maxKeepAlive maxNotifs enabled).Sound :=
    fun h => Bool.noConfusion h
  have hrun : Republishes limits _ _ _ := run_republishes events hsound hclear
  obtain ⟨hqueue, hnodup, hlists⟩ := queueAfter_unacknowledged _ [] nodup_nil (Nat.zero_le _)
    hfits hrun.listed
  refine ⟨hlists, fun s hs seqNum msg => ?_⟩
  have hfollows : s.republishQueue = recent limits _ := (hrun.follows s hs).trans hqueue
  rw [treatRepublishRequest_eq_ok_iff, hfollows]
  exact find_eq_some_iff hnodup seqNum msg

instance Fits.decidable (limits : Limits) :
    ∀ past ops : List (RepublishOp N), Decidable (Fits limits past ops)
  | _, [] => inferInstanceAs (Decidable True)
  | past, op :: ops =>
    @instDecidableAnd _ _ inferInstance (Fits.decidable limits (past ++ [op]) ops)

instance (s : Subscription N) (e : Event N) : Decidable (e.Clears s) :=
  match e with
  | .sessionInactive _ => inferInstanceAs (Decidable ((_ ∨ _) ∧ ¬ s.republishQueue = []))
  | .publishRequest _ _ | .publishTimer _ | .notification _ | .setPublishingMode _ | .modify _ _ _
  | .delete => inferInstanceAs (Decidable False)

def sendEvents (acks : Nat → List (Bool × UInt32)) (n : Nat) : List (Event Nat) :=
  (List.range n).flatMap fun i =>
    [.publishRequest ⟨1, 1000, i, i⟩ (acks i), .notification i, .publishTimer fun _ => 0]

theorem republish_recent_sample :
    Fits .default [] (historyOps .default ((create Nat 100 10 0 true).run .default
        (sendEvents (fun i => if i = 2 then [(true, 1)] else []) 3)).2) ∧
      RepublishesRecent .default
        ((create Nat 100 10 0 true).run .default
          (sendEvents (fun i => if i = 2 then [(true, 1)] else []) 3)).2
        ((create Nat 100 10 0 true).run .default
          (sendEvents (fun i => if i = 2 then [(true, 1)] else []) 3)).1 :=
  ⟨by decide, republish_recent .default 100 10 0 true _ (by decide) (by decide)⟩

def fullSubscription : Option (Subscription Nat) :=
  ((Subscription.create Nat 100 10 0 true).run .default (sendEvents (fun _ => []) 21)).1

def fullHistory : List (Entry Nat) :=
  ((Subscription.create Nat 100 10 0 true).run .default (sendEvents (fun _ => []) 21)).2

/-- Of 21 messages the twentieth is not kept, and the first one is. -/
theorem newest_message_discarded :
    ¬ RepublishesRecent .default fullHistory fullSubscription ∧
    numbers (recent .default (historyOps .default fullHistory)) =
        [2, 3, 4, 5, 6, 7, 8, 9, 10, 11, 12, 13, 14, 15, 16, 17, 18, 19, 20, 21] ∧
      fullSubscription.map (fun s => numbers s.republishQueue) =
        some [1, 2, 3, 4, 5, 6, 7, 8, 9, 10, 11, 12, 13, 14, 15, 16, 17, 18, 19, 21] ∧
      fullSubscription.map (fun s => s.treatRepublishRequest true 20) =
        some (.error .badMessageNotAvailable) ∧
      fullSubscription.map (fun s => s.treatRepublishRequest true 1) = some (.ok ⟨1, [0]⟩) := by
  refine ⟨fun h => ?_, rfl, rfl, rfl, rfl⟩
  have hsome : fullSubscription.isSome = true := rfl
  have hfirst := (h.republishes (fullSubscription.get hsome) (get_mem hsome) 1 ⟨1, [0]⟩).mp rfl
  exact absurd hfirst.1 (by decide)

end Subscriptions
end S2OPC
