import S2OPC.Services.RequestHandles

/-!
# S2OPC.Services.RequestCallbacks

The calls of the application over the runs of a client. `CallsOnce` says that no request has been
called for twice, and that a request which has not been called for is still outstanding on its
channel. A step keeps this if a response to the application is one to its request and can be
delivered, and if a channel is lost when the requests of the application on it have ended.
-/

namespace S2OPC
namespace ClientServices

open List Client

open Session (State Channel)
open Fallible (Each)

structure Waiting (max : Nat) (c : Client) (ticket : Nat) (ch : Channel) (handle : Nat)
    (ctx : RequestContext) : Prop where
  inUse : InUse max c.handles ch handle ctx
  ticket : ctx.ticket = ticket
  applicative : ctx.hasAppContext = true
  outstanding : (ch, handle) ∈ c.outstanding

structure CallsOnce (max : Nat) (c : Client) : Prop where
  issued : ∀ handle ctx, c.handles.contexts handle = some ctx →
    ctx.ticket < c.handles.nextTicket ∧ ctx.ticket ∉ c.called
  unique : ∀ handle handle' ctx ctx', c.handles.contexts handle = some ctx →
    c.handles.contexts handle' = some ctx' → ctx.ticket = ctx'.ticket → handle = handle'
  calledBelow : ∀ ticket ∈ c.called, ticket < c.handles.nextTicket
  nodup : c.called.Nodup
  pending : ∀ p ∈ c.accepted, p.1 ∈ c.called ∨ ∃ handle ctx, Waiting max c p.1 p.2 handle ctx

/-- No call is lost by the event: a response to a request of the application answers it, a response
that answers one can be delivered, and a channel is lost when no request of the application is
outstanding on it. -/
def Event.Delivered (c : Client) : Event → Prop
  | .response ch answered r =>
    (∀ ctx ∈ c.handles.contexts answered, ctx.hasAppContext = true →
      c.handles.channel answered = some ch → r.Answers answered ctx) ∧
    ∀ header ∈ r.header, ∀ ctx ∈ c.handles.contexts header.1, ctx.hasAppContext = true →
      c.handles.channel header.1 = some ch → r.Answers header.1 ctx → c.Delivers ch header.1 ctx r
  | .channelLost ch => ∀ p ∈ c.outstanding, p.1 = ch → ∀ ctx ∈ c.handles.contexts p.2,
    c.handles.channel p.2 = some ch → ctx.hasAppContext = false
  | _ => True

instance Event.Delivered.decidable (c : Client) : ∀ e : Event, Decidable (e.Delivered c)
  | .response ch answered r => inferInstanceAs (Decidable (
      (∀ ctx ∈ c.handles.contexts answered, ctx.hasAppContext = true →
        c.handles.channel answered = some ch → r.Answers answered ctx) ∧
      ∀ header ∈ r.header, ∀ ctx ∈ c.handles.contexts header.1, ctx.hasAppContext = true →
        c.handles.channel header.1 = some ch → r.Answers header.1 ctx →
          c.Delivers ch header.1 ctx r))
  | .channelLost ch => inferInstanceAs (Decidable (∀ p ∈ c.outstanding, p.1 = ch →
      ∀ ctx ∈ c.handles.contexts p.2, c.handles.channel p.2 = some ch → ctx.hasAppContext = false))
  | .activateNewSession .. => .isTrue trivial
  | .createSession .. => .isTrue trivial
  | .activateOrphanedSession .. => .isTrue trivial
  | .activateSession .. => .isTrue trivial
  | .closeSession .. => .isTrue trivial
  | .serviceRequest .. => .isTrue trivial
  | .discoveryRequest .. => .isTrue trivial
  | .sndFailure .. => .isTrue trivial
  | .channelConnected .. => .isTrue trivial
  | .connectionTimeout .. => .isTrue trivial

section Steps

variable {max : Nat} {c : Client} {e : Event}

variable {c' : Client} {handle : Nat} {ctx : RequestContext}

theorem CallsOnce.move (h : CallsOnce max c) (hcontexts : c'.handles.contexts = c.handles.contexts)
    (hticket : c.handles.nextTicket ≤ c'.handles.nextTicket) (hcalled : c'.called = c.called)
    (hpending : ∀ p ∈ c'.accepted, p.1 ∈ c.called ∨ ∃ handle ctx, Waiting max c' p.1 p.2 handle ctx) :
    CallsOnce max c' where
  issued := by
    intro handle ctx hctx; rw [hcontexts] at hctx
    rw [hcalled]
    exact ⟨(h.issued handle ctx hctx).1.trans_le hticket, (h.issued handle ctx hctx).2⟩
  unique := by rw [hcontexts]; exact h.unique
  calledBelow := by
    rw [hcalled]
    exact fun ticket ht => (h.calledBelow ticket ht).trans_le hticket
  nodup := hcalled ▸ h.nodup
  pending := hcalled ▸ hpending

variable {ticket : Nat} {ch : Channel} {app : Bool} {t : Handles} {ss : Sessions} {calls : List Nat}

theorem Waiting.move (h : Waiting max c ticket ch handle ctx)
    (hcontext : c'.handles.contexts handle = c.handles.contexts handle)
    (hchannel : c'.handles.channel handle = c.handles.channel handle)
    (hout : (ch, handle) ∈ c'.outstanding) : Waiting max c' ticket ch handle ctx :=
  ⟨⟨h.inUse.pos, h.inUse.le, hcontext.trans h.inUse.context, hchannel.trans h.inUse.channel⟩,
    h.ticket, h.applicative, hout⟩

theorem Waiting.reserve {k : Nat}
    (h : Waiting max c ticket ch k ctx) (hr : Reserved max app c.handles t handle)
    (hhandles : c'.handles = t) (hout : (ch, k) ∈ c'.outstanding) :
    Waiting max c' ticket ch k ctx := by
  have hne := hr.ne_of_inUse h.inUse
  subst hhandles; exact h.move (hr.contexts_of_ne hne) (hr.channel k hne) hout

theorem CallsOnce.keep (h : CallsOnce max c) (hhandles : c'.handles = c.handles)
    (hcalled : c'.called = c.called) (haccepted : c'.accepted = c.accepted)
    (hout : ∀ ticket ch handle ctx, Waiting max c ticket ch handle ctx →
      (ch, handle) ∈ c'.outstanding) : CallsOnce max c' := by
  refine h.move (by rw [hhandles]) (by rw [hhandles]) hcalled fun p hp => ?_
  rw [haccepted] at hp
  refine (h.pending p hp).imp_right ?_
  rintro ⟨k, ctx, hw⟩
  exact ⟨k, ctx, hw.move (by rw [hhandles]) (by rw [hhandles]) (hout _ _ k ctx hw)⟩

theorem CallsOnce.ended (h : CallsOnce max c) {handle : Nat}
    (hnone : ∀ ticket ctx, ¬Waiting max c ticket ch handle ctx) :
    CallsOnce max { c.ended ch handle with sessions := ss } := by
  refine h.keep rfl rfl rfl fun ticket k handle' ctx hw => ?_
  refine (mem_erase_of_ne ?_).mpr hw.outstanding
  intro heq; cases heq
  exact hnone ticket ctx hw

theorem CallsOnce.reserve (h : CallsOnce max c)
    (hr : Reserved max app c.handles t handle) (hhandles : c'.handles = t)
    (hcalled : c'.called = c.called)
    (hpending : ∀ p ∈ c'.accepted, p.1 ∈ c.called ∨ ∃ handle ctx, Waiting max c' p.1 p.2 handle ctx) :
    CallsOnce max c' where
  issued := by
    intro k ctx hk; rw [hhandles] at hk
    rw [hhandles, hcalled, hr.ticket]
    rcases hr.contexts_cases hk with ⟨-, hticket, -⟩ | ⟨-, hold⟩
    · refine ⟨by omega, fun hmem => ?_⟩; have := h.calledBelow _ hmem; omega
    · have hissued := h.issued k ctx hold; exact ⟨by omega, hissued.2⟩
  unique := by
    intro k k' ctx ctx' hk hk' heq; rw [hhandles] at hk hk'
    -- the new ticket is above those of the handles in use
    rcases hr.contexts_cases hk with ⟨rfl, hticket, -⟩ | ⟨-, hold⟩ <;>
      rcases hr.contexts_cases hk' with ⟨rfl, hticket', -⟩ | ⟨-, hold'⟩
    · rfl
    · have := (h.issued k' ctx' hold').1; omega
    · have := (h.issued k ctx hold).1; omega
    · exact h.unique k k' ctx ctx' hold hold' heq
  calledBelow := by
    intro ticket ht; rw [hcalled] at ht
    rw [hhandles, hr.ticket]
    exact (h.calledBelow ticket ht).trans (Nat.lt_succ_self _)
  nodup := hcalled ▸ h.nodup
  pending := hcalled ▸ hpending

theorem CallsOnce.free (h : CallsOnce max c) (hctx : c.handles.contexts handle = some ctx)
    (hcalls : calls = [ctx.ticket] ∨ calls = [])
    (hhandles : c'.handles = c.handles.remove handle) (hcalled : c'.called = c.called ++ calls)
    (hpending : ∀ p ∈ c'.accepted,
      p.1 ∈ c'.called ∨ ∃ handle ctx, Waiting max c' p.1 p.2 handle ctx) : CallsOnce max c' where
  issued := by
    intro k ctx' hk; rw [hhandles] at hk
    obtain ⟨hne, hold⟩ := remove_contexts_eq_some.mp hk
    refine ⟨?_, ?_⟩
    · rw [hhandles]; exact (h.issued k ctx' hold).1
    rw [hcalled, mem_append, not_or]
    refine ⟨(h.issued k ctx' hold).2, fun hmem => ?_⟩
    rcases hcalls with rfl | rfl
    · exact hne (h.unique k handle ctx' ctx hold hctx (mem_singleton.mp hmem))
    · cases hmem
  unique := by
    intro k k' ctx₁ ctx₂ hk hk' heq; rw [hhandles] at hk hk'
    exact h.unique k k' ctx₁ ctx₂ (remove_contexts_eq_some.mp hk).2
      (remove_contexts_eq_some.mp hk').2 heq
  calledBelow := by
    intro ticket ht; rw [hcalled, mem_append] at ht
    rw [hhandles]
    rcases ht with ht | ht
    · exact h.calledBelow ticket ht
    · rcases hcalls with rfl | rfl
      · rw [mem_singleton.mp ht]; exact (h.issued handle ctx hctx).1
      · cases ht
  nodup := by
    rw [hcalled]
    rcases hcalls with rfl | rfl
    · refine nodup_append.mpr ⟨h.nodup, nodup_singleton _, ?_⟩
      rintro ticket ht _ hmem rfl; rw [mem_singleton.mp hmem] at ht
      exact (h.issued handle ctx hctx).2 ht
    · rw [append_nil]; exact h.nodup
  pending := hpending

theorem CallsOnce.freed (h : CallsOnce max c) {k : Channel} {answered : Nat}
    (hin : InUse max c.handles k handle ctx)
    (hcalls : calls = [ctx.ticket] ∨ calls = [])
    (hcall : ctx.hasAppContext = true → calls = [ctx.ticket])
    (hother : ∀ ticket ctx, answered ≠ handle → ¬Waiting max c ticket ch answered ctx) :
    CallsOnce max ((c.ended ch answered).freed ss handle calls) := by
  refine h.free hin.context hcalls rfl rfl fun p hp => ?_
  rcases h.pending p hp with hcalled | ⟨handle', ctx', hw⟩
  · exact .inl (mem_append_left _ hcalled)
  by_cases hsame : handle' = handle
  · subst hsame; have heq := Option.some.inj (hin.context.symm.trans hw.inUse.context)
    subst heq; refine .inl (mem_append_right _ ?_)
    rw [hcall hw.applicative, hw.ticket]
    exact mem_singleton_self _
  · refine .inr ⟨handle', ctx', hw.move (Function.update_of_ne hsame _ _) (remove_channel hsame)
      ((mem_erase_of_ne ?_).mpr hw.outstanding)⟩
    intro heq; cases heq
    exact hother p.1 ctx' hsame hw

theorem Stepped.callsOnce (hwf : WellFormed max c) (h : CallsOnce max c) (hd : e.Delivered c)
    (hstep : Stepped max c e c') : CallsOnce max c' := by
  cases hstep with
  | unchanged bound contexts channel ticket =>
    refine h.move contexts ticket rfl fun p hp => (h.pending p hp).imp_right ?_
    rintro ⟨k, ctx, hw⟩
    exact ⟨k, ctx, hw.move (congrFun contexts k) (channel k (by simp [hw.inUse.context]))
      hw.outstanding⟩
  | @sent e t ss handle ch bound reserved channel conn =>
    refine h.reserve reserved rfl rfl fun p hp => ?_
    have hcases : p ∈ c.accepted ∨ (e.isApplicative = true ∧ p = (c.handles.nextTicket, ch)) := by
      split at hp
      · rcases mem_cons.mp hp with hnew | hold
        · exact .inr ⟨‹_›, hnew⟩
        · exact .inl hold
      · exact .inl hp
    rcases hcases with hold | ⟨happ, rfl⟩
    · refine (h.pending p hold).imp_right ?_
      rintro ⟨k, ctx, hw⟩
      exact ⟨k, ctx, hw.reserve reserved rfl (mem_cons_of_mem _ hw.outstanding)⟩
    · obtain ⟨ctx, s, hctx, hticket, hs⟩ := reserved.context
      refine .inr ⟨handle, ctx, ⟨reserved.pos, reserved.le, ?_, channel⟩, hticket, ?_,
        mem_cons_self⟩
      · exact (congrFun hctx handle).trans (Function.update_self _ _ _)
      · rw [hs.applicative, happ]
  | leaked bound reserved free vain =>
    refine h.reserve reserved rfl rfl fun p hp => (h.pending p hp).imp_right ?_
    rintro ⟨k, ctx, hw⟩; exact ⟨k, ctx, hw.reserve reserved rfl hw.outstanding⟩
  | connected bound => exact h.keep rfl rfl rfl fun _ _ _ _ hw => hw.outstanding
  | ignored unanswered =>
    refine h.ended fun ticket ctx hw => ?_
    exact unanswered (hwf.live _ hw.outstanding) _ ctx hw.inUse
      (hd.1 ctx hw.inUse.context hw.applicative hw.inUse.channel)
  | @answered ch answered handle r ctx ss bound inUse answers =>
    refine h.freed inUse ?_ (fun happ => ?_) fun ticket ctx' hne hw => ?_
    · unfold calls
      split
      · exact .inl rfl
      · exact .inr rfl
    · obtain ⟨header, hheader, hfst⟩ := Option.map_eq_some_iff.mp answers.1
      have hdeliver := hd.2 header hheader
      rw [hfst] at hdeliver
      exact if_pos ⟨happ, hwf.not_treatment inUse.context happ,
        hdeliver ctx inUse.context happ inUse.channel answers⟩
    · -- the response carries the handle of the message that it answers
      have hanswers := hd.1 ctx' hw.inUse.context hw.applicative hw.inUse.channel
      exact hne (Option.some.inj (hanswers.1.symm.trans answers.1))
  | kept bound treatment =>
    refine h.ended fun ticket ctx hw => ?_
    exact hwf.not_treatment hw.inUse.context hw.applicative
      (treatment (hwf.live _ hw.outstanding) ctx hw.inUse)
  | failed inUse =>
    refine h.freed inUse ?_ (fun happ => if_pos happ) fun _ _ hne => absurd rfl hne
    split
    · exact .inl rfl
    · exact .inr rfl
  | lost bound =>
    refine h.keep rfl rfl rfl fun ticket ch handle ctx hw => ?_
    refine mem_filter.mpr ⟨hw.outstanding, bne_iff_ne.mpr ?_⟩
    rintro rfl; have happ := hd _ hw.outstanding rfl ctx hw.inUse.context hw.inUse.channel
    rw [hw.applicative] at happ
    cases happ

end Steps

theorem initial_callsOnce (max : Nat) : CallsOnce max .initial where
  issued := fun _ _ h => (nomatch h)
  unique := fun _ _ _ _ h => (nomatch h)
  calledBelow := fun _ h => (nomatch h)
  nodup := nodup_nil
  pending := fun _ h => (nomatch h)

/-- The application is never called twice for a request that was accepted, and it has been called
once when the channel of the request is lost. -/
theorem one_call_per_accepted_request (limits : Limits) (events : List Event)
    (h : EachEvent limits (fun c e => e.Delivered c) .initial events) :
    let c := initial.run limits events
    ∀ p ∈ c.accepted, c.called.count p.1 ≤ 1 ∧
      (c.isConnected p.2 = false → c.called.count p.1 = 1) := by
  obtain ⟨hwf, hcalls⟩ := run_invariant (fun c e c' hwf hc hce hs => hs.callsOnce hwf hc hce)
    (initial_callsOnce _) h
  intro c p hp; refine ⟨nodup_iff_count_le_one.mp hcalls.nodup p.1, fun hlost => ?_⟩
  rcases hcalls.pending p hp with hcalled | ⟨k, ctx, hw⟩
  · exact count_eq_one_of_mem hcalls.nodup hcalled
  · have hconn := hwf.live _ hw.outstanding; rw [hlost] at hconn; cases hconn

def readAnsweredThenLost : List Event := readAnswered ++ [.channelLost 1]

theorem read_answered_called_once :
    (initial.run smallLimits readAnsweredThenLost).accepted = [(2, 1)] ∧
      (initial.run smallLimits readAnsweredThenLost).called.count 2 = 1 := by
  have hregular : EachEvent smallLimits (fun c e => e.Delivered c) .initial
      readAnsweredThenLost := by decide
  exact ⟨by decide,
    (one_call_per_accepted_request smallLimits _ hregular (2, 1) (by decide)).2 (by decide)⟩

def readUndecodable : List Event :=
  activatedSession ++ [.serviceRequest allGood 2 (.request .read) 0,
    .response 1 3 ⟨some (.response .read), some (3, true), false, true⟩, .channelLost 1]

def readDuringActivation : List Event :=
  activatedSession ++ [.serviceRequest allGood 2 (.request .read) 0, .activateSession allGood 2,
    goodResponse .read 3, .channelLost 1]

/-- The request is accepted, its channel is lost, and the application is never called. -/
theorem read_never_called :
    (initial.run smallLimits readUndecodable).accepted = [(2, 1)] ∧
      (initial.run smallLimits readUndecodable).isConnected 1 = false ∧
      (initial.run smallLimits readUndecodable).called = [] ∧
      (initial.run smallLimits readDuringActivation).accepted = [(2, 1)] ∧
      (initial.run smallLimits readDuringActivation).isConnected 1 = false ∧
      (initial.run smallLimits readDuringActivation).called = [] := by
  decide

end ClientServices
end S2OPC
