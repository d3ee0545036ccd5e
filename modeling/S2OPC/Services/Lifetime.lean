import S2OPC.Services.PublishRequests

/-!
# S2OPC.Services.Lifetime

The lifetime and keep alive counters of a subscription. A modification keeps the counters, which may
then be above the new counts. A request that is queued does not start the lifetime counter again.
-/

namespace S2OPC
namespace Subscriptions

open Treatment

variable {N : Type} {limits : Limits} {s s₁ : Subscription N} {t : Treatment N} {out : Output N}

/-- A counter is kept or starts again; that of the keep alive messages may also come down. -/
structure Steady (c c' : Counters) : Prop where
  lifetimeMax : c'.lifetimeMax = c.lifetimeMax
  keepAliveMax : c'.keepAliveMax = c.keepAliveMax
  lifetime : c'.lifetime = c.lifetime ∨ c'.lifetime = c.lifetimeMax
  keepAlive : c'.keepAlive ≤ max c.keepAlive c.keepAliveMax

theorem Steady.refl (c : Counters) : Steady c c := ⟨rfl, rfl, .inl rfl, le_max_left _ _⟩

theorem counters_publishNotifications :
    (t.publishNotifications limits).1.sub.counters = t.sub.counters := by
  unfold publishNotifications Subscription.popValid
  cases t.sub.publishRequestQueue <;> rfl

theorem counters_publishKeepalive : t.publishKeepalive.sub.counters = t.sub.counters := by
  unfold publishKeepalive Subscription.popValid
  cases t.sub.publishRequestQueue <;> rfl

theorem counters_moreNotifsLoop (clock : Nat → Nat) (fuel i : Nat) (t : Treatment N) :
    (t.moreNotifsLoop limits clock fuel i).sub.counters = t.sub.counters := by
  induction fuel generalizing i t with
  | zero => rfl
  | succ fuel ih =>
    rw [moreNotifsLoop_succ]
    split
    · split
      · rw [ih, counters_publishNotifications]; rfl
      · rw [counters_publishNotifications]; rfl
    · rfl

theorem publishTimeout_steady (valid : Bool) (t : Treatment N) :
    Steady t.sub.counters (t.publishTimeout limits valid).1.sub.counters := by
  have hreset : Steady t.sub.counters t.sub.resetLifetimeCounter.counters :=
    ⟨rfl, rfl, .inr rfl, le_max_left _ _⟩
  fun_cases publishTimeout limits valid t with
  | case1 | case7 => rw [counters_publishNotifications]; exact hreset
  | case2 => rw [counters_publishKeepalive]; exact hreset
  | case8 => rw [counters_publishKeepalive]; exact ⟨rfl, rfl, .inl rfl, le_max_right _ _⟩
  | case4 => exact ⟨rfl, rfl, .inl rfl, le_max_of_le_right (sub_le_self _ zero_le_one)⟩
  | case9 => exact ⟨rfl, rfl, .inl rfl, le_max_of_le_left (sub_le_self _ zero_le_one)⟩
  | _ => exact .refl _

def Subscription.ticked (s : Subscription N) (clock : Nat → Nat) : Counters :=
  if unexpired clock 0 s.publishRequestQueue = [] then
    { s.counters with lifetime := s.lifetimeCounter - 1 }
  else s.counters

theorem publishTimer_counters (clock : Nat → Nat) (s : Subscription N) :
    (unexpired clock 0 s.publishRequestQueue = [] ∧ s.lifetimeCounter ≤ 1 ∧
      (s.publishTimer limits clock).1 = none) ∨
    ∃ s₁, (s.publishTimer limits clock).1 = some s₁ ∧ Steady (s.ticked clock) s₁.counters := by
  obtain ⟨gen, hchecked⟩ : ∃ gen, Checked limits clock 0 ⟨s, []⟩ _ _ _ gen :=
    popInvalidAndCheckValid_spec clock 0 ⟨s, []⟩
  unfold Subscription.publishTimer
  generalize popInvalidAndCheckValid clock 0 ⟨s, []⟩ = r at hchecked
  obtain ⟨t, valid, i⟩ := r
  have hcounters : t.sub.counters = s.counters := by rw [hchecked.rest]; rfl
  have hsteady : ∀ t : Treatment N, Steady t.sub.counters
      (if (t.publishTimeout limits valid).2 then (t.publishTimeout limits valid).1.moreNotifsLoop
        limits clock (t.publishTimeout limits valid).1.sub.publishRequestQueue.length i
      else (t.publishTimeout limits valid).1).sub.counters := by
    intro t
    split
    · rw [counters_moreNotifsLoop]; exact publishTimeout_steady valid t
    · exact publishTimeout_steady valid t
  cases valid with
  | false =>
    have hnone : unexpired clock 0 s.publishRequestQueue = [] := by
      have := hchecked.unexpired_eq
      rwa [hchecked.eq_nil rfl] at this
    have hcounter : t.sub.lifetimeCounter = s.lifetimeCounter := congrArg (·.lifetime) hcounters
    rw [Subscription.ticked, if_pos hnone]
    simp only [hnone, hcounter, Bool.not_false, Bool.true_and, decide_eq_true_eq, Bool.false_eq_true,
      if_false]
    split
    · rename_i hlow; exact .inl ⟨trivial, hlow, rfl⟩
    · refine .inr ⟨_, rfl, ?_⟩
      rw [← hcounters]; exact hsteady ⟨{ t.sub with lifetimeCounter := s.lifetimeCounter - 1 }, t.posted⟩
  | true =>
    have hsome : unexpired clock 0 s.publishRequestQueue ≠ [] := by
      intro hnone; exact hchecked.ne_nil rfl (hchecked.all_expired hnone)
    rw [Subscription.ticked, if_neg hsome, ← hcounters]
    exact .inr ⟨_, rfl, hsteady t⟩

theorem counters_queueRequest (s : Subscription N) (req : PublishRequest) :
    (queueRequest limits ⟨s, []⟩ req).sub.counters = s.counters := by
  by_cases hfull : s.publishRequestQueue.length = limits.publishRequests
  · obtain ⟨hne, heq⟩ := queueRequest_of_full req hfull; rw [heq]; rfl
  · rw [queueRequest_of_room req hfull]; rfl

variable {e : Event N} {n : Nat}

def Event.counted (s : Subscription N) : Event N → Counters
  | .publishTimer clock => s.ticked clock
  | .modify lifetimeCount maxKeepAlive _ =>
    { s.counters with lifetimeMax := lifetimeCount, keepAliveMax := maxKeepAlive }
  | _ => s.counters

theorem step_steady (hstep : s.step limits e = (some s₁, out)) :
    Steady (e.counted s) s₁.counters := by
  cases e with
  | publishRequest req acks =>
    obtain ⟨-, heq⟩ | ⟨-, s', response, heq, -, hcounters⟩ :=
      step_publishRequest_cases limits s req acks
    · rw [heq] at hstep
      cases hstep
      rw [counters_queueRequest, s.acknowledge_eq acks]; exact .refl _
    · rw [heq] at hstep
      cases hstep
      rw [hcounters]
      split
      · exact .refl _
      · exact ⟨rfl, rfl, .inr rfl, le_max_left _ _⟩
  | notification notif =>
    simp only [Subscription.step] at hstep
    split at hstep <;> cases hstep <;> exact .refl _
  | publishTimer clock =>
    obtain ⟨-, -, hnone⟩ | ⟨s', hsome, hsteady⟩ := @publishTimer_counters N limits clock s
    · simp only [Subscription.step, hnone] at hstep; cases hstep
    · simp only [Subscription.step, hsome] at hstep; cases hstep; exact hsteady
  | setPublishingMode enabled => cases hstep; exact .refl _
  | modify lifetimeCount maxKeepAlive maxNotifs => cases hstep; exact .refl _
  | sessionInactive newState =>
    simp only [Subscription.step] at hstep
    split at hstep
    · split at hstep <;> cases hstep; exact .refl _
    · cases hstep; exact .refl _
  | delete => cases hstep

def Counters.InRange (c : Counters) : Prop :=
  c.lifetime ≤ c.lifetimeMax ∧ c.keepAlive ≤ c.keepAliveMax

def Event.Undercuts (s : Subscription N) : Event N → Prop
  | .modify lifetimeCount maxKeepAlive _ =>
    lifetimeCount < s.lifetimeCounter ∨ maxKeepAlive < s.keepAliveCounter
  | _ => False

theorem step_inRange_iff (hs : s.counters.InRange) (hstep : s.step limits e = (some s₁, out)) :
    s₁.counters.InRange ↔ ¬e.Undercuts s := by
  obtain ⟨hlifetimeMax, hkeepAliveMax, hlifetime, hkeepAlive⟩ := step_steady hstep
  have hcounted : (∀ l k m, e ≠ .modify l k m) → (e.counted s).InRange := by
    intro hmodify
    cases e with
    | publishTimer clock =>
      simp only [Event.counted, Subscription.ticked]
      split
      · exact ⟨(Int.sub_one_lt_of_le hs.1).le, hs.2⟩
      · exact hs
    | modify l k m => exact absurd rfl (hmodify l k m)
    | _ => exact hs
  cases e with
  | modify l k m =>
    cases hstep
    simp only [Counters.InRange, Event.Undercuts, Subscription.counters, not_or, not_lt]
  | _ =>
    obtain ⟨_, _⟩ := hcounted (by simp)
    refine iff_of_true ⟨?_, ?_⟩ id <;> omega

/-- The counters of a subscription never exceed the counts exactly if no modification brings a count
below its counter. -/
theorem counters_in_range (limits : Limits) (lifetimeCount maxKeepAlive maxNotifs : Int)
    (enabled : Bool) (events : List (Event N)) :
    let history := ((Subscription.create N lifetimeCount maxKeepAlive maxNotifs enabled).run limits
      events).2
    (∀ entry ∈ history, ∀ s, entry.after = some s → s.counters.InRange) ↔
      ∀ entry ∈ history, ¬entry.event.Undercuts entry.before := by
  refine run_induction (P := fun s _ history => s.counters.InRange →
    ((∀ entry ∈ history, ∀ s, entry.after = some s → s.counters.InRange) ↔
      ∀ entry ∈ history, ¬entry.event.Undercuts entry.before)) ?_ ?_ ?_ events _
    ⟨le_refl _, le_refl _⟩
  · simp
  · intro s e out hstep _
    cases e with
    | modify l k m => cases hstep
    | _ => simp [Event.Undercuts]
  · intro s e s₁ out last history hstep ih hs
    simp only [List.forall_mem_cons, Option.some.injEq, forall_eq', step_inRange_iff hs hstep]
    exact and_congr_right fun h => ih ((step_inRange_iff hs hstep).mpr h)

theorem counters_above_new_counts : ∃ entry ∈ ((Subscription.create Nat 300 100 0 true).run .default
    [.modify 3 1 0]).2, ∃ s, entry.after = some s ∧ s.counters = ⟨3, 1, 300, 100⟩ :=
  ⟨_, List.mem_singleton_self _, _, rfl, rfl⟩

variable (limits) in
/-- The ticks in a row without a usable request, after one more event. -/
def Event.idle (s : Subscription N) (n : Nat) : Event N → Nat
  | .publishTimer clock => if unexpired clock 0 s.publishRequestQueue = [] then n + 1 else 0
  | .publishRequest _ acks => if limits.operationsPerRequest < acks.length then n else 0
  | _ => n

variable (limits) in
/-- If a publish timer closes the subscription, it is the last of so many ticks in a row. -/
def ExpiresLate (lifetimeCount : Int) (n : Nat) (history : List (Entry N)) : Prop :=
  ∀ entry clock, history.getLast? = some entry → entry.event = .publishTimer clock →
    entry.after = none →
      lifetimeCount ≤ history.foldl (fun n entry => entry.event.idle limits entry.before n) n

def Event.isModify : Event N → Bool
  | .modify _ _ _ => true
  | _ => false

variable (limits) in
/-- A request is queued when the lifetime counter has already come down. -/
def Event.QueuesLate (s : Subscription N) : Event N → Prop
  | .publishRequest _ acks => s.Queues limits acks ∧ s.lifetimeCounter ≠ s.lifetimeExpCount
  | _ => False

/-- The lifetime counter follows the ticks in a row, and has not come down while a request waits. -/
structure Counted (s : Subscription N) (n : Nat) : Prop where
  queue : s.publishRequestQueue ≠ [] → s.lifetimeCounter = s.lifetimeExpCount
  idle : s.lifetimeExpCount ≤ s.lifetimeCounter + n

theorem Counted.of_max (h : s₁.lifetimeCounter = s₁.lifetimeExpCount) (n : Nat) : Counted s₁ n :=
  ⟨fun _ => h, by omega⟩

theorem Counted.step (h : Counted s n) (hmodify : e.isModify = false)
    (hqueue : ¬e.QueuesLate limits s) (hstep : s.step limits e = (some s₁, out)) :
    Counted s₁ (e.idle limits s n) ∧ s₁.lifetimeExpCount = s.lifetimeExpCount := by
  obtain ⟨hwait, hidle⟩ := h
  obtain ⟨hcount, -, hlifetime, -⟩ := step_steady hstep
  cases e with
  | publishRequest req acks =>
    refine ⟨?_, hcount⟩
    obtain ⟨hqueues, -⟩ | ⟨-, s', response, heq, hsame, hcounters⟩ :=
      step_publishRequest_cases limits s req acks
    · have hmax : s.lifetimeCounter = s.lifetimeExpCount := by
        by_contra hne
        exact hqueue ⟨hqueues, hne⟩
      exact .of_max ((hlifetime.elim (·.trans hmax) id).trans hcount.symm) _
    · rw [heq] at hstep
      cases hstep
      simp only [Subscription.counters, Event.idle] at hcounters ⊢
      split at hcounters <;> rw [Counters.mk.injEq] at hcounters
      · rename_i hops
        rw [if_pos hops]
        exact ⟨fun hne => by rw [hsame] at hne; have := hwait hne; omega, by omega⟩
      · exact .of_max (hcounters.2.2.1.trans hcounters.1.symm) _
  | publishTimer clock =>
    have hwaiting := (publishTimer_requests limits clock s).2
    simp only [Subscription.step, Prod.mk.injEq] at hstep
    rw [hstep.1] at hwaiting
    simp only [Event.counted, Subscription.ticked, Event.idle] at hlifetime hcount ⊢
    by_cases hnone : unexpired clock 0 s.publishRequestQueue = []
    · simp only [if_pos hnone, Subscription.counters] at hlifetime hcount ⊢
      exact ⟨⟨fun hne => absurd (hwaiting hnone) hne, by push_cast; omega⟩, hcount⟩
    · simp only [if_neg hnone, Subscription.counters] at hlifetime hcount ⊢
      have hmax := hwait fun hnil => hnone (by rw [hnil]; rfl)
      exact ⟨.of_max (by omega) 0, hcount⟩
  | modify l k m => cases hmodify
  | notification notif =>
    simp only [Subscription.step] at hstep
    split at hstep <;> cases hstep <;> exact ⟨⟨hwait, hidle⟩, rfl⟩
  | setPublishingMode enabled => cases hstep; exact ⟨⟨hwait, hidle⟩, rfl⟩
  | sessionInactive newState =>
    simp only [Subscription.step] at hstep
    split at hstep
    · split at hstep <;> cases hstep; exact ⟨⟨fun hne => absurd rfl hne, hidle⟩, rfl⟩
    · cases hstep; exact ⟨⟨hwait, hidle⟩, rfl⟩
  | delete => cases hstep

theorem Counted.expires (h : Counted s n) {clock : Nat → Nat}
    (hstep : s.step limits (.publishTimer clock) = (none, out)) :
    s.lifetimeExpCount ≤ Event.idle limits s n (.publishTimer clock) := by
  have hidle := h.idle
  obtain ⟨hnone, hlow, -⟩ | ⟨s', hsome, -⟩ := @publishTimer_counters N limits clock s
  · rw [Event.idle, if_pos hnone]; omega
  · simp only [Subscription.step, hsome] at hstep; cases hstep

/-- Without a modification of the counts, and if no request is queued when the lifetime counter has
come down, a subscription expires after its lifetime count of ticks in a row without a request. -/
theorem expires_after_idle_ticks (limits : Limits) (lifetimeCount maxKeepAlive maxNotifs : Int)
    (enabled : Bool) (events : List (Event N)) :
    let history := ((Subscription.create N lifetimeCount maxKeepAlive maxNotifs enabled).run limits
      events).2
    (∀ entry ∈ history, entry.event.isModify = false) →
    (∀ entry ∈ history, ¬entry.event.QueuesLate limits entry.before) →
      ExpiresLate limits lifetimeCount 0 history := by
  refine run_induction (P := fun s _ history => ∀ n, Counted s n →
    (∀ entry ∈ history, entry.event.isModify = false) →
    (∀ entry ∈ history, ¬entry.event.QueuesLate limits entry.before) →
      ExpiresLate limits s.lifetimeExpCount n history) ?_ ?_ ?_ events _ 0 (.of_max rfl 0)
  · intro s n _ _ _ entry clock hlast; cases hlast
  · intro s e out hstep n h _ _ entry clock hlast hevent _
    cases hlast; cases hevent; exact h.expires hstep
  intro s e s₁ out last history hstep ih n h hmodify hqueue entry clock hlast hevent hafter
  obtain ⟨hfirst, hmodify⟩ := List.forall_mem_cons.mp hmodify
  obtain ⟨hqueue₁, hqueue⟩ := List.forall_mem_cons.mp hqueue
  obtain ⟨h₁, hcount⟩ := h.step hfirst hqueue₁ hstep
  cases history with
  | nil => cases hlast; cases hafter
  | cons next history =>
    rw [← hcount]
    exact ih _ h₁ hmodify hqueue entry clock hlast hevent hafter

def alternating (n : Nat) : List (Event Nat) :=
  (List.range n).flatMap fun i =>
    [.publishRequest ⟨1, 1000, i, i⟩ [], .publishTimer fun _ => 0, .publishTimer fun _ => 0]

instance (s : Subscription N) (e : Event N) : Decidable (e.QueuesLate limits s) :=
  match e with
  | .publishRequest _ _ => inferInstanceAs (Decidable ((_ ≤ _ ∧ s.Waits) ∧ _ ≠ _))
  | .publishTimer _ | .notification _ | .setPublishingMode _ | .modify _ _ _
  | .sessionInactive _ | .delete => inferInstanceAs (Decidable False)

def sixTicks : List (Event Nat) :=
  .publishRequest ⟨1, 1000, 0, 0⟩ [] :: List.replicate 7 (.publishTimer fun _ => 0)

theorem expires_after_six_ticks :
    ((Subscription.create Nat 6 2 0 true).run .default sixTicks).1 = none ∧
      ExpiresLate .default 6 0 ((Subscription.create Nat 6 2 0 true).run .default sixTicks).2 :=
  ⟨rfl, expires_after_idle_ticks .default 6 2 0 true sixTicks (by decide) (by decide)⟩

theorem expires_after_one_tick : ¬ExpiresLate .default 6 0
    ((Subscription.create Nat 6 2 0 true).run .default (alternating 6)).2 := by
  intro h; exact absurd (h _ _ rfl rfl rfl) (by decide)

end Subscriptions
end S2OPC
