import S2OPC.Services.ClientSteps
import S2OPC.Lib.Fallible

/-!
# S2OPC.Services.RequestHandles

The request handles in use over the runs of a client. `Tidy` says that each is that of an outstanding
message. A step keeps this if no handle is reserved in vain and a message ends in a way that frees its
handle (`Event.Frees`).
-/

namespace S2OPC
namespace ClientServices

open List Client

open Session (State Channel)
open Fallible (Each)

structure Tidy (c : Client) : Prop where
  outstanding : ∀ handle ctx, c.handles.contexts handle = some ctx →
    ∃ ch, c.handles.channel handle = some ch ∧ (ch, handle) ∈ c.outstanding

/-- No handle is lost by the event: a response carries the handle of the message it answers and is of
the expected type, a failure is not that of a message of the treatment of sessions, a channel is lost
when its messages have ended, and no handle is reserved for a message that cannot be made. -/
def Event.Frees (max : Nat) (c : Client) : Event → Prop
  | .response ch answered r => ∀ ctx ∈ c.handles.contexts answered,
    c.handles.channel answered = some ch → r.Answers answered ctx
  | .sndFailure ch handle => ∀ ctx ∈ c.handles.contexts handle,
    c.handles.channel handle = some ch → getMsgServiceClass ctx.response ≠ .sessionTreatment
  | .channelLost ch => ∀ p ∈ c.outstanding, p.1 ≠ ch
  | e => c.handles.freeHandle max = none ∨ ¬e.InVain c

instance Event.Frees.decidable (max : Nat) (c : Client) : ∀ e : Event, Decidable (e.Frees max c)
  | .response ch answered r => inferInstanceAs (Decidable (∀ ctx ∈ c.handles.contexts answered,
      c.handles.channel answered = some ch → r.Answers answered ctx))
  | .sndFailure ch handle => inferInstanceAs (Decidable (∀ ctx ∈ c.handles.contexts handle,
      c.handles.channel handle = some ch → getMsgServiceClass ctx.response ≠ .sessionTreatment))
  | .channelLost ch => inferInstanceAs (Decidable (∀ p ∈ c.outstanding, p.1 ≠ ch))
  | .activateNewSession .. => inferInstanceAs (Decidable (_ ∨ ¬_))
  | .createSession .. => inferInstanceAs (Decidable (_ ∨ ¬_))
  | .activateOrphanedSession .. => inferInstanceAs (Decidable (_ ∨ ¬_))
  | .activateSession .. => inferInstanceAs (Decidable (_ ∨ ¬_))
  | .closeSession .. => inferInstanceAs (Decidable (_ ∨ ¬_))
  | .serviceRequest .. => inferInstanceAs (Decidable (_ ∨ ¬_))
  | .discoveryRequest .. => inferInstanceAs (Decidable (_ ∨ ¬_))
  | .channelConnected .. => inferInstanceAs (Decidable (_ ∨ ¬_))
  | .connectionTimeout .. => inferInstanceAs (Decidable (_ ∨ ¬_))

section Steps

variable {max : Nat} {c : Client} {e : Event}

theorem Event.Frees.not_inVain (h : e.Frees max c) {handle : Nat}
    (hfree : c.handles.freeHandle max = some handle) : ¬e.InVain c := by
  cases e with
  | response => exact id
  | sndFailure => exact id
  | channelLost => exact id
  | _ => exact h.resolve_left (by simp [hfree])

theorem Tidy.ended (h : Tidy c) {ch : Channel} {answered handle : Nat} {ctx : RequestContext}
    (hctx : c.handles.contexts handle = some ctx)
    (hne : handle = answered → c.handles.channel handle ≠ some ch) :
    ∃ k, c.handles.channel handle = some k ∧ (k, handle) ∈ (c.ended ch answered).outstanding := by
  obtain ⟨k, hk, hout⟩ := h.outstanding handle ctx hctx
  refine ⟨k, hk, (mem_erase_of_ne ?_).mpr hout⟩
  intro heq; cases heq
  exact hne rfl hk

theorem Tidy.connected (h : Tidy c) (hwf : WellFormed max c) {ch : Channel} {handle : Nat}
    {ctx : RequestContext} (hctx : c.handles.contexts handle = some ctx)
    (hch : c.handles.channel handle = some ch) : c.isConnected ch = true := by
  obtain ⟨k, hk, hout⟩ := h.outstanding handle ctx hctx
  rw [hk] at hch
  cases hch; exact hwf.live _ hout

theorem Stepped.tidy {c' : Client} (hwf : WellFormed max c) (h : Tidy c) (hfrees : e.Frees max c)
    (hstep : Stepped max c e c') : Tidy c' := by
  constructor
  intro k ctx hk
  cases hstep with
  | unchanged bound contexts channel ticket =>
    have hold : c.handles.contexts k = some ctx := contexts ▸ hk
    obtain ⟨ch, hch, hout⟩ := h.outstanding k ctx hold
    exact ⟨ch, (channel k (by simp [hold])).trans hch, hout⟩
  | sent bound reserved channel conn =>
    rcases reserved.contexts_cases hk with ⟨rfl, -⟩ | ⟨hne, hold⟩
    · exact ⟨_, channel, mem_cons_self⟩
    · obtain ⟨ch, hch, hout⟩ := h.outstanding k ctx hold
      exact ⟨ch, (reserved.channel k hne).trans hch, mem_cons_of_mem _ hout⟩
  | leaked bound reserved free vain => exact absurd vain (hfrees.not_inVain free)
  | connected bound => exact h.outstanding k ctx hk
  | ignored unanswered =>
    refine h.ended hk ?_
    rintro rfl hch
    exact unanswered (h.connected hwf hk hch) k ctx (hwf.inUse hk hch) (hfrees ctx hk hch)
  | @answered ch answered handle r _ _ bound inUse answers =>
    obtain ⟨hne, hold⟩ := remove_contexts_eq_some.mp hk
    -- the handle of the message that is answered is the one in the header, which is freed
    have hother : k = answered → c.handles.channel k ≠ some ch := by
      rintro rfl hch; have hheader := (hfrees ctx hold hch).1.symm.trans answers.1
      exact hne (Option.some.inj hheader)
    obtain ⟨k', hk', hout⟩ := h.ended hold hother
    exact ⟨k', (remove_channel hne).trans hk', hout⟩
  | kept bound treatment =>
    refine h.ended hk ?_
    rintro rfl hch
    exact hfrees ctx hk hch (treatment (h.connected hwf hk hch) ctx (hwf.inUse hk hch))
  | failed inUse =>
    obtain ⟨hne, hold⟩ := remove_contexts_eq_some.mp hk
    obtain ⟨k', hk', hout⟩ := h.ended hold (fun heq => absurd heq hne)
    exact ⟨k', (remove_channel hne).trans hk', hout⟩
  | lost bound =>
    obtain ⟨ch, hch, hout⟩ := h.outstanding k ctx hk
    exact ⟨ch, hch, mem_filter.mpr ⟨hout, bne_iff_ne.mpr (hfrees _ hout)⟩⟩

end Steps

def EachEvent (limits : Limits) (C : Client → Event → Prop) (c : Client) (events : List Event) :
    Prop :=
  Each (fun c e => some (c.step limits e)) C c events

instance EachEvent.decidable (limits : Limits) (C : Client → Event → Prop)
    [∀ c e, Decidable (C c e)] (c : Client) (events : List Event) :
    Decidable (EachEvent limits C c events) :=
  Each.decidable c events

theorem run_invariant {limits : Limits} {C : Client → Event → Prop} {P : Client → Prop}
    (hstep : ∀ c e c', WellFormed limits.maxPendingRequests c → P c → C c e →
      Stepped limits.maxPendingRequests c e c' → P c')
    (hinitial : P .initial) {events : List Event}
    (h : EachEvent limits C .initial events) :
    WellFormed limits.maxPendingRequests (initial.run limits events) ∧
      P (initial.run limits events) := by
  obtain ⟨c', hrun, hc'⟩ := Each.foldlM_some
    (P := fun c => WellFormed limits.maxPendingRequests c ∧ P c)
    (fun c e _ hc hce => by
      have hs := step_stepped hc.1.bound limits hc.1.typed e
      exact ⟨_, rfl, hs.wellFormed hc.1, hstep c e _ hc.1 hc.2 hce hs⟩)
    ⟨initial_wellFormed, hinitial⟩ h
  have hfold : events.foldlM (fun c e => some (step limits c e)) initial =
      some (initial.run limits events) := foldlM_pure
  rw [hfold] at hrun
  cases hrun; exact hc'

/-- A handle in use is that of an outstanding message, so that a client with no outstanding message
has no handle in use. -/
theorem handles_in_use_are_outstanding (limits : Limits) (events : List Event)
    (h : EachEvent limits (fun c e => e.Frees limits.maxPendingRequests c) .initial events) :
    let c := initial.run limits events
    (∀ handle, c.handles.contexts handle ≠ none →
      ∃ ch, c.handles.channel handle = some ch ∧ (ch, handle) ∈ c.outstanding) ∧
    (c.outstanding = [] → ∀ handle, c.handles.contexts handle = none) := by
  have htidy := (run_invariant (fun c e c' hwf hc hce hs => hs.tidy hwf hc hce)
    ⟨fun _ _ h => (nomatch h)⟩ h).2
  have hused : ∀ handle, (initial.run limits events).handles.contexts handle ≠ none →
      ∃ ch, (initial.run limits events).handles.channel handle = some ch ∧
        (ch, handle) ∈ (initial.run limits events).outstanding := by
    intro handle hne; obtain ⟨ctx, hctx⟩ := Option.ne_none_iff_exists'.mp hne
    exact htidy.outstanding handle ctx hctx
  refine ⟨hused, fun hnil handle => ?_⟩
  by_contra hne
  obtain ⟨ch, -, hout⟩ := hused handle hne
  rw [hnil] at hout
  cases hout

def smallLimits : Limits := ⟨4, 2⟩

def allGood : SendEnv := ⟨true, true, true⟩

def goodResponse (service : Service) (handle : Nat) : Event :=
  .response 1 handle ⟨some (.response service), some (handle, true), true, true⟩

def activatedSession : List Event :=
  [.channelConnected 7 1, .activateNewSession 7 true, .createSession allGood 2 7,
    goodResponse .createSession 1, .activateSession allGood 2, goodResponse .activateSession 2]

def readAnswered : List Event :=
  activatedSession ++ [.serviceRequest allGood 2 (.request .read) 0, goodResponse .read 3]

theorem read_answered_frees_handles :
    (initial.run smallLimits readAnswered).outstanding = [] ∧
      ∀ handle, (initial.run smallLimits readAnswered).handles.contexts handle = none := by
  have hregular : EachEvent smallLimits (fun c e => e.Frees smallLimits.maxPendingRequests c)
      .initial readAnswered := by decide
  exact ⟨by decide, (handles_in_use_are_outstanding smallLimits _ hregular).2 (by decide)⟩

def readTooEarly : List Event :=
  [.channelConnected 7 1, .activateNewSession 7 true,
    .serviceRequest allGood 2 (.request .read) 0]

def createNotSent : List Event :=
  [.channelConnected 7 1, .activateNewSession 7 true, .createSession allGood 2 7, .sndFailure 1 1]

/-- No message is outstanding, and a handle is in use. -/
theorem handles_leak :
    (initial.run smallLimits readTooEarly).outstanding = [] ∧
      (initial.run smallLimits readTooEarly).handles.contexts 1 ≠ none ∧
      (initial.run smallLimits createNotSent).outstanding = [] ∧
      (initial.run smallLimits createNotSent).handles.contexts 1 ≠ none := by
  decide

end ClientServices
end S2OPC
