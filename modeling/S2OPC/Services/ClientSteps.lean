import S2OPC.Services.ClientServices

/-!
# S2OPC.Services.ClientSteps

What the operations of a client do, said once for each.

* `BoundOn`: the channel of a session is connected, and a session past its creation has one;
* `Issued`: a handle that is reserved is that of the message that is returned, or it is given back,
  or it leaks; `Issues` adds what holds of the sessions;
* `Treated`: a response is ignored, or it frees the handle in its header.
-/

namespace S2OPC
namespace ClientServices

open List Function Client

open Session (State Channel)

def onChannel : State → Bool
  | .creating | .created | .userActivating | .userActivated | .scActivating | .closing => true
  | .init | .scOrphaned | .closed => false

structure Bound (conn : Channel → Bool) (e : ClientSession) : Prop where
  connected : ∀ ch, e.channel = some ch → conn ch = true
  channel : onChannel e.state = true → e.channel ≠ none

def BoundOn (conn : Channel → Bool) (ss : Sessions) : Prop := ∀ s, Bound conn (ss.entry s)

section Sessions

variable {conn : Channel → Bool} {ss : Sessions} {s handle : Nat} {ch : Channel}

theorem bound_closed : Bound conn .closed := ⟨fun _ h => (nomatch h), fun h => (nomatch h)⟩

theorem bound_on (hch : conn ch = true) (e : ClientSession) (state : State) :
    Bound conn { e with state := state, channel := some ch } := by
  refine ⟨fun k hk => ?_, fun _ h => (nomatch h)⟩; cases hk; exact hch

theorem Bound.withState {e : ClientSession} (h : Bound conn e) (hch : e.channel ≠ none)
    (state : State) : Bound conn { e with state := state } :=
  ⟨h.connected, fun _ => hch⟩

theorem BoundOn.set (h : BoundOn conn ss) {e : ClientSession} (he : Bound conn e) :
    BoundOn conn (ss.set s e) := by
  intro k
  by_cases hk : k = s
  · subst hk; simpa only [Sessions.set, update_self] using he
  · simpa only [Sessions.set, update_of_ne hk] using h k

theorem BoundOn.close (h : BoundOn conn ss) : BoundOn conn (ss.close s) := by
  have h' : BoundOn conn (ss.removeAllRequests s) := h; exact h'.set bound_closed

theorem BoundOn.addRequest (h : BoundOn conn ss) : BoundOn conn (ss.addRequest s handle) := h

theorem BoundOn.connectedChannel (h : BoundOn conn ss)
    (hstate : onChannel (ss.stateOrClosed s) = true) :
    ∃ ch, (ss.entry s).channel = some ch ∧ conn ch = true ∧ ss.connectedChannel conn s = some ch := by
  unfold Sessions.stateOrClosed at hstate
  split at hstate
  · obtain ⟨ch, hch⟩ := Option.ne_none_iff_exists'.mp ((h s).channel hstate)
    have hconn := (h s).connected ch hch
    refine ⟨ch, hch, hconn, ?_⟩
    rw [Sessions.connectedChannel, hch, Option.filter_some, if_pos hconn]
  · cases hstate

theorem createReq_bound (h : BoundOn conn ss) (hch : conn ch = true) (s handle : Nat)
    (filled : Bool) : BoundOn conn (ss.createReq s ch handle filled).1 := by
  unfold Sessions.createReq
  split
  · cases filled <;> exact h.set (bound_on hch _ _)
  · exact h

theorem scActivateReq_spec (h : BoundOn conn ss) (hch : conn ch = true) (s handle : Nat) :
    ∃ ss' made, ss.scActivateReq s ch handle = (ss', made) ∧ BoundOn conn ss' ∧ (made = false →
      ¬(ss.stateOrClosed s = .scOrphaned ∨ ss.stateOrClosed s = .userActivated)) := by
  unfold Sessions.scActivateReq
  split
  · exact ⟨_, _, rfl, (h.set (bound_on hch _ _)).addRequest, fun h => nomatch h⟩
  · rename_i hstate; exact ⟨_, _, rfl, h, fun _ => hstate⟩

/-- A message is made for the channel of the session, which is connected, or the session is not in a
state for it. -/
def Made (conn : Channel → Bool) (possible : Prop) (req : Sessions × Option Channel) : Prop :=
  ∃ ss' made, req = (ss', made) ∧ BoundOn conn ss' ∧ (∀ ch, made = some ch → conn ch = true) ∧
    (made = none → ¬possible)

theorem userActivateReq_made (h : BoundOn conn ss) (s handle : Nat) (filled : Bool) :
    Made conn ((ss.stateOrClosed s = .created ∨ ss.stateOrClosed s = .userActivated) ∧
      filled = true) (ss.userActivateReq conn s handle filled) := by
  unfold Sessions.userActivateReq
  split
  · rename_i hstate
    obtain ⟨ch, hchannel, hconn, hch⟩ :=
      h.connectedChannel (s := s) (by rcases hstate with hs | hs <;> rw [hs] <;> rfl)
    rw [hch]
    cases filled
    · exact ⟨_, _, rfl, h, by simp, by simp⟩
    · exact ⟨_, _, rfl, (h.set ((h s).withState (by simp [hchannel]) _)).addRequest,
        by rintro _ ⟨⟩; exact hconn, by simp⟩
  · rename_i hstate; exact ⟨_, _, rfl, h, by simp, fun _ h => hstate h.1⟩

theorem closeReq_made (h : BoundOn conn ss) (s handle : Nat) :
    Made conn (ss.stateOrClosed s = .created ∨ ss.stateOrClosed s = .userActivating ∨
      ss.stateOrClosed s = .userActivated) (ss.closeReq conn s handle) := by
  cases hvalid : (ss.entry s).valid with
  | false =>
    exact ⟨ss, none, by simp [Sessions.closeReq, hvalid], h, by simp,
      by simp [Sessions.stateOrClosed, hvalid]⟩
  | true =>
    have hstate : ss.stateOrClosed s = (ss.entry s).state := if_pos hvalid
    rw [hstate, Sessions.closeReq, if_neg (by simp [hvalid])]
    split
    · rename_i hopen
      obtain ⟨ch, hchannel, hconn, hch⟩ := h.connectedChannel (s := s)
        (by rw [hstate]; rcases hopen with hs | hs | hs <;> rw [hs] <;> rfl)
      rw [hch]
      exact ⟨_, _, rfl, (h.set ((h s).withState (by simp [hchannel]) _)).addRequest,
        by rintro _ ⟨⟩; exact hconn, by simp⟩
    · rename_i hopen; exact ⟨_, _, rfl, h.close, by simp, fun _ => hopen⟩

theorem validateReq_made (h : BoundOn conn ss) (s handle : Nat) :
    Made conn (ss.stateOrClosed s = .userActivated) (ss.validateReq s handle) := by
  unfold Sessions.validateReq
  split
  · rename_i hstate
    obtain ⟨ch, hchannel, hconn, -⟩ := h.connectedChannel (s := s) (by rw [hstate]; rfl)
    rw [hchannel]
    exact ⟨_, _, rfl, h.addRequest, by rintro _ ⟨⟩; exact hconn, by simp⟩
  · rename_i hstate; exact ⟨_, _, rfl, h, by simp, fun _ => hstate⟩

theorem validateResp_bound (h : BoundOn conn ss) (ch : Channel) (handle : Nat) :
    BoundOn conn (ss.validateResp ch handle).1 := by
  unfold Sessions.validateResp Sessions.removeRequest
  cases ss.requests handle with
  | none => exact h
  | some s =>
    have h' : BoundOn conn { ss with requests := Function.update ss.requests handle none } := h
    dsimp only
    split
    · exact h
    · split
      · exact h
      · exact h'.close

theorem validateResp_isSome : (ss.validateResp ch handle).2.isSome = ss.servesResp ch handle := by
  unfold Sessions.validateResp Sessions.removeRequest Sessions.servesResp
  cases hreq : ss.requests handle with
  | none => rfl
  | some s =>
    dsimp only
    by_cases hvalid : (ss.entry s).valid = false
    · simp [hvalid]
    · rw [if_neg hvalid]
      split <;> simp_all

theorem sessionResp_bound (h : BoundOn conn ss) (r : Response) :
    BoundOn conn (ss.sessionResp ch s r) := by
  unfold Sessions.sessionResp
  dsimp only
  split
  · split
    · rename_i hc; exact h.set ((h s).withState (by simp [hc.2.1]) _)
    · exact h.close
  · split
    · rename_i hc; exact h.set ((h s).withState (by simp [hc.2.1]) _)
    · exact h.close
  · exact h.close

theorem receiveSessionResp_bound (h : BoundOn conn ss) (good : Bool) (r : Response) :
    BoundOn conn (ss.receiveSessionResp ch handle good r) := by
  unfold Sessions.receiveSessionResp Sessions.removeRequest
  cases ss.requests handle with
  | none => exact h
  | some s =>
    have h' : BoundOn conn { ss with requests := Function.update ss.requests handle none } := h
    dsimp only
    split
    · exact h
    · split
      · exact sessionResp_bound h' r
      · exact h'.close

theorem finalConnectionFailure_bound (h : BoundOn conn ss) (maxSessions config : Nat) :
    BoundOn conn (ss.finalConnectionFailure maxSessions config) := by
  unfold Sessions.finalConnectionFailure
  induction (List.range maxSessions).reverse generalizing ss with
  | nil => exact h
  | cons i is ih =>
    rw [foldl_cons]
    split
    · exact ih h.close
    · exact ih h

theorem initSession_bound (h : BoundOn conn ss) (maxSessions : Nat) (toCreate : Option Nat) :
    BoundOn conn (ss.initSession maxSessions toCreate) := by
  unfold Sessions.initSession
  split
  · exact h.set ⟨fun _ h => (nomatch h), fun h => (nomatch h)⟩
  · exact h

end Sessions

theorem handleModulus_pos (max : Nat) : 0 < handleModulus max :=
  Nat.lt_min.mpr ⟨Nat.succ_pos max, by decide⟩

theorem freeHandle_spec {max handle : Nat} {t : Handles} (h : t.freeHandle max = some handle) :
    0 < handle ∧ handle ≤ max ∧ t.contexts handle = none := by
  obtain ⟨i, -, hi⟩ := exists_of_findSome?_eq_some h
  dsimp only at hi
  split at hi
  · rename_i hfree; cases hi
    have hlt := Nat.mod_lt (t.cpt + 1 + i) (handleModulus_pos max)
    have hle : handleModulus max ≤ max + 1 := Nat.min_le_left _ _
    exact ⟨Nat.pos_of_ne_zero hfree.1, by omega, hfree.2⟩
  · cases hi

structure Expects (isApplicative : Bool) (ctx : RequestContext) (s : Service) : Prop where
  response : ctx.response = .response s
  applicative : ctx.hasAppContext = isApplicative
  service : isApplicative = true → s.serviceClass ≠ .sessionTreatment

structure Reserved (max : Nat) (isApplicative : Bool) (t t' : Handles) (handle : Nat) : Prop where
  pos : 0 < handle
  le : handle ≤ max
  free : t.contexts handle = none
  context : ∃ ctx s, t'.contexts = Function.update t.contexts handle (some ctx) ∧
    ctx.ticket = t.nextTicket ∧ Expects isApplicative ctx s
  channel : ∀ k, k ≠ handle → t'.channel k = t.channel k
  ticket : t'.nextTicket = t.nextTicket + 1

section Reservation

variable {max handle : Nat} {app : Bool} {t t' : Handles}

theorem Reserved.setChannel (h : Reserved max app t t' handle) (ch : Channel) :
    Reserved max app t (t'.setChannel handle ch) handle where
  pos := h.pos
  le := h.le
  free := h.free
  context := h.context
  channel := by intro k hk; rw [← h.channel k hk]; exact update_of_ne hk _ _
  ticket := h.ticket

theorem fresh_cases {request : MessageType} {s : Service} {appContext : Nat} {found : Option Nat}
    (hs : app = true → s.serviceClass ≠ .sessionTreatment)
    (h : t.fresh max request (some (.response s)) app appContext = (t', found)) :
    (found = none ∧ t' = t) ∨
      ∃ handle, found = some handle ∧ t.freeHandle max = some handle ∧
        Reserved max app t t' handle := by
  unfold Handles.fresh at h
  cases hfree : t.freeHandle max with
  | none => rw [hfree] at h; cases h; exact .inl ⟨rfl, rfl⟩
  | some handle =>
    rw [hfree] at h
    cases h; obtain ⟨hpos, hle, hnone⟩ := freeHandle_spec hfree
    exact .inr ⟨handle, rfl, rfl, hpos, hle, hnone, ⟨_, s, rfl, rfl, rfl, rfl, hs⟩,
      fun _ _ => rfl, rfl⟩

inductive Issued (max : Nat) (app : Bool) (leak : Prop) (t : Handles) (i : Issue) : Prop
  | unchanged (contexts : i.handles.contexts = t.contexts)
      (channel : ∀ k, t.contexts k ≠ none → i.handles.channel k = t.channel k)
      (ticket : t.nextTicket ≤ i.handles.nextTicket) (message : i.message = none)
  | sent {handle : Nat} {ch : Channel} (reserved : Reserved max app t i.handles handle)
      (channel : i.handles.channel handle = some ch) (message : i.message = some (ch, handle))
  | leaked {handle : Nat} (reserved : Reserved max app t i.handles handle)
      (message : i.message = none) (free : t.freeHandle max = some handle) (leaks : leak)

/-- What holds of the sessions that an operation leaves and of the channel it returns a message for. -/
structure Issue.Sound (conn : Channel → Bool) (i : Issue) : Prop where
  sessions : BoundOn conn i.sessions
  message : ∀ ch handle, i.message = some (ch, handle) → conn ch = true

structure Issues (max : Nat) (app : Bool) (leak : Prop) (conn : Channel → Bool) (t : Handles)
    (i : Issue) : Prop where
  issued : Issued max app leak t i
  sound : i.Sound conn

variable {leak leak' : Prop} {conn : Channel → Bool} {ss : Sessions}

theorem Issues.imp {i : Issue} (h : Issues max app leak conn t i) (himp : leak → leak') :
    Issues max app leak' conn t i := by
  refine ⟨?_, h.sound⟩
  cases h.issued with
  | unchanged contexts channel ticket message => exact .unchanged contexts channel ticket message
  | sent reserved channel message => exact .sent reserved channel message
  | leaked reserved message free leaks => exact .leaked reserved message free (himp leaks)

theorem Issue.Sound.silent (h : BoundOn conn ss) : Issue.Sound conn ⟨t, ss, none⟩ :=
  ⟨h, fun _ _ h => (nomatch h)⟩

theorem Issues.same (h : BoundOn conn ss) : Issues max app leak conn t ⟨t, ss, none⟩ :=
  ⟨.unchanged rfl (fun _ _ => rfl) le_rfl rfl, .silent h⟩

theorem Reserved.removed (h : Reserved max app t t' handle) (hss : BoundOn conn ss) :
    Issues max app leak conn t ⟨t'.remove handle, ss, none⟩ := by
  obtain ⟨ctx, s, hctx, -⟩ := h.context
  refine ⟨.unchanged ?_ (fun k hk => ?_) ?_ rfl, .silent hss⟩
  · simp only [Handles.remove, hctx, update_idem]; rw [← h.free, update_eq_self]
  · have hne : k ≠ handle := by rintro rfl; exact hk h.free
    rw [← h.channel k hne]
    exact update_of_ne hne _ _
  · have hticket : (t'.remove handle).nextTicket = t.nextTicket + 1 := h.ticket; dsimp only; omega

theorem Reserved.sent (h : Reserved max app t t' handle) {ch : Channel} (hss : BoundOn conn ss)
    (hch : conn ch = true) :
    Issues max app leak conn t ⟨t'.setChannel handle ch, ss, some (ch, handle)⟩ := by
  refine ⟨.sent (h.setChannel ch) (update_self _ _ _) rfl, hss, fun k handle hk => ?_⟩
  cases hk; exact hch

theorem Reserved.leaked (h : Reserved max app t t' handle) (hss : BoundOn conn ss)
    (hfree : t.freeHandle max = some handle) (hleak : leak) :
    Issues max app leak conn t ⟨t', ss, none⟩ :=
  ⟨.leaked h rfl hfree hleak, .silent hss⟩

theorem Reserved.encodeSession (h : Reserved max app t t' handle) (s : Nat) {ch : Channel}
    (env : SendEnv) (hss : BoundOn conn ss) (hch : conn ch = true) :
    Issues max app leak conn t (encodeSession (t'.setChannel handle ch) ss s ch handle env) := by
  unfold ClientServices.encodeSession
  split
  · exact h.sent hss hch
  · exact (h.setChannel ch).removed hss.close

theorem Reserved.encodeRequest (h : Reserved max app t t' handle)
    (hfree : t.freeHandle max = some handle) {ch : Option Channel} (env : SendEnv)
    (hss : BoundOn conn ss) (hch : ∀ k, ch = some k → conn k = true)
    (hleak : ch = none ∨ env.encoded = false → leak) :
    Issues max app leak conn t (encodeRequest t' ss ch handle env) := by
  unfold ClientServices.encodeRequest
  cases ch with
  | none => exact h.leaked hss hfree (hleak (.inl rfl))
  | some ch =>
    cases hencoded : env.encoded with
    | false => exact (h.setChannel ch).leaked hss hfree (hleak (.inr hencoded))
    | true => exact h.sent hss (hch ch rfl)

end Reservation

section Operations

variable {max : Nat} {c : Client} {env : SendEnv}

theorem freshSession_cases {t t' : Handles} {s : Service} {found : Option Nat}
    (h : t.freshSession max s = (t', found)) :
    (found = none ∧ t' = t) ∨
      ∃ handle, found = some handle ∧ t.freeHandle max = some handle ∧
        Reserved max false t t' handle :=
  fresh_cases (fun h => nomatch h) h

theorem isRequestOf_eq_true {cls : ServiceClass} {msgType : MessageType}
    (h : msgType.isRequestOf cls = true) : ∃ s, msgType = .request s ∧ s.serviceClass = cls := by
  cases msgType with
  | request s => exact ⟨s, rfl, by simpa [MessageType.isRequestOf] using h⟩
  | response s => cases h
  | serviceFault => cases h

variable (hb : BoundOn c.isConnected c.sessions)

include hb

theorem createSession_issues (s : Nat) {ch : Channel} (hch : c.isConnected ch = true) :
    Issues max false False c.isConnected c.handles (clientServiceCreateSession max c env s ch) := by
  unfold clientServiceCreateSession
  split
  · rcases hfresh : c.handles.freshSession max .createSession with ⟨t, found⟩
    rcases freshSession_cases hfresh with ⟨rfl, rfl⟩ | ⟨handle, rfl, -, hreserved⟩
    · exact .same hb.close
    dsimp only
    rcases hreq : c.sessions.createReq s ch handle env.filled with ⟨ss, made⟩
    have hss := createReq_bound hb hch s handle env.filled
    rw [hreq] at hss
    cases made
    · exact (hreserved.setChannel ch).removed hss.close
    · exact hreserved.encodeSession s env hss hch
  · exact .same hb

theorem activateOrphanedSession_issues (s : Nat)
    {ch : Channel} (hch : c.isConnected ch = true) :
    Issues max false (env.allocated = true ∧ ¬(c.sessions.stateOrClosed s = .scOrphaned ∨
      c.sessions.stateOrClosed s = .userActivated)) c.isConnected c.handles
      (clientServiceActivateOrphanedSession max c env s ch) := by
  unfold clientServiceActivateOrphanedSession
  split
  · rename_i halloc
    rcases hfresh : c.handles.freshSession max .activateSession with ⟨t, found⟩
    rcases freshSession_cases hfresh with ⟨rfl, rfl⟩ | ⟨handle, rfl, hfree, hreserved⟩
    · exact .same hb
    dsimp only
    obtain ⟨ss, made, hreq, hss, hstate⟩ := scActivateReq_spec hb hch s handle
    rw [hreq]
    cases made
    · exact (hreserved.setChannel ch).leaked hss hfree ⟨halloc, hstate rfl⟩
    · exact hreserved.encodeSession s env hss hch
  · exact .same hb.close

theorem activateSession_issues (s : Nat) :
    Issues max false (env.allocated = true ∧ ¬((c.sessions.stateOrClosed s = .created ∨
      c.sessions.stateOrClosed s = .userActivated) ∧ env.filled = true)) c.isConnected c.handles
      (clientServiceActivateSession max c env s) := by
  unfold clientServiceActivateSession
  split
  · rename_i halloc
    rcases hfresh : c.handles.freshSession max .activateSession with ⟨t, found⟩
    rcases freshSession_cases hfresh with ⟨rfl, rfl⟩ | ⟨handle, rfl, hfree, hreserved⟩
    · exact .same hb.close
    dsimp only
    obtain ⟨ss, made, hreq, hss, hch, hstate⟩ := userActivateReq_made hb s handle env.filled
    rw [hreq]
    cases made with
    | none => exact hreserved.leaked hss.close hfree ⟨halloc, hstate rfl⟩
    | some ch => exact hreserved.encodeSession s env hss (hch ch rfl)
  · exact .same hb.close

theorem closeSession_issues (s : Nat) :
    Issues max false (env.allocated = true ∧ ¬(c.sessions.stateOrClosed s = .created ∨
      c.sessions.stateOrClosed s = .userActivating ∨ c.sessions.stateOrClosed s = .userActivated))
      c.isConnected c.handles (clientServiceCloseSession max c env s) := by
  unfold clientServiceCloseSession
  split
  · rename_i halloc
    rcases hfresh : c.handles.freshSession max .closeSession with ⟨t, found⟩
    rcases freshSession_cases hfresh with ⟨rfl, rfl⟩ | ⟨handle, rfl, hfree, hreserved⟩
    · exact .same hb
    dsimp only
    obtain ⟨ss, made, hreq, hss, hch, hstate⟩ := closeReq_made hb s handle
    rw [hreq]
    cases made with
    | none => exact hreserved.leaked hss hfree ⟨halloc, hstate rfl⟩
    | some ch => exact hreserved.encodeSession s env hss (hch ch rfl)
  · exact .same hb

theorem discoveryRequest_issues {ch : Option Channel}
    (hch : ∀ k, ch = some k → c.isConnected k = true) (msgType : MessageType) (appContext : Nat) :
    Issues max true (msgType.isRequestOf .discovery = true ∧
      ¬(env.allocated = true ∧ env.encoded = true ∧ ch ≠ none)) c.isConnected c.handles
      (localClientDiscoveryServiceRequest max c env ch msgType appContext) := by
  unfold localClientDiscoveryServiceRequest
  split
  · rename_i htype; obtain ⟨service, rfl, hclass⟩ := isRequestOf_eq_true htype
    rcases hfresh : c.handles.fresh max (.request service)
      (getResponseType (.request service)) true appContext with ⟨t, found⟩
    rcases fresh_cases (fun _ => by simp [hclass]) hfresh with
      ⟨rfl, rfl⟩ | ⟨handle, rfl, hfree, hreserved⟩
    · exact .same hb
    dsimp only
    split
    · refine hreserved.encodeRequest hfree env hb hch (fun hleak => ⟨htype, ?_⟩)
      rintro ⟨-, hencoded, hne⟩; exact hleak.elim hne (by simp [hencoded])
    · rename_i halloc; exact hreserved.leaked hb hfree ⟨htype, fun h => halloc h.1⟩
  · exact .same hb

theorem sessionServiceRequest_issues (s : Nat)
    {service : Service} (hclass : service.serviceClass = .sessionService) (appContext : Nat) :
    Issues max true (¬(env.allocated = true ∧ env.encoded = true ∧
      c.sessions.stateOrClosed s = .userActivated)) c.isConnected c.handles
      (clientSessionServiceRequest max c env s (.request service) appContext) := by
  unfold clientSessionServiceRequest
  rcases hfresh : c.handles.fresh max (.request service)
    (getResponseType (.request service)) true appContext with ⟨t, found⟩
  rcases fresh_cases (fun _ => by simp [hclass]) hfresh with
    ⟨rfl, rfl⟩ | ⟨handle, rfl, hfree, hreserved⟩
  · exact .same hb
  dsimp only
  split
  · obtain ⟨ss, ch, hreq, hss, hch, hnone⟩ := validateReq_made hb s handle
    rw [hreq]
    refine hreserved.encodeRequest hfree env hss hch ?_
    rintro hleak ⟨-, hencoded, hstate⟩
    rcases hleak with rfl | h
    · exact hnone rfl hstate
    · rw [hencoded] at h; cases h
  · rename_i halloc; exact hreserved.leaked hb hfree (fun h => halloc h.1)

end Operations

/-- The event reserves a handle, if one is free, for a message that cannot be made. -/
def Event.InVain (c : Client) : Event → Prop
  | .activateOrphanedSession env s config =>
    (c.getConnectedChannel config).isSome = true ∧ env.allocated = true ∧
      ¬(c.sessions.stateOrClosed s = .scOrphaned ∨ c.sessions.stateOrClosed s = .userActivated)
  | .activateSession env s =>
    (c.sessions.entry s).valid = true ∧ env.allocated = true ∧
      ¬((c.sessions.stateOrClosed s = .created ∨ c.sessions.stateOrClosed s = .userActivated) ∧
        env.filled = true)
  | .closeSession env s =>
    (c.sessions.entry s).valid = true ∧ env.allocated = true ∧
      ¬(c.sessions.stateOrClosed s = .created ∨ c.sessions.stateOrClosed s = .userActivating ∨
        c.sessions.stateOrClosed s = .userActivated)
  | .serviceRequest env s msgType _ =>
    (c.sessions.entry s).valid = true ∧
      ((msgType.isRequestOf .sessionService = true ∧ ¬(env.allocated = true ∧ env.encoded = true ∧
          c.sessions.stateOrClosed s = .userActivated)) ∨
        (msgType.isRequestOf .discovery = true ∧ ¬(env.allocated = true ∧ env.encoded = true ∧
          (c.sessions.entry s).channel ≠ none)))
  | .discoveryRequest env config msgType _ =>
    (c.getConnectedChannel config).isSome = true ∧ msgType.isRequestOf .discovery = true ∧
      ¬(env.allocated = true ∧ env.encoded = true)
  | _ => False

instance Event.InVain.decidable (c : Client) : ∀ e : Event, Decidable (e.InVain c)
  | .activateOrphanedSession _ _ _ => inferInstanceAs (Decidable (_ ∧ _ ∧ ¬(_ ∨ _)))
  | .activateSession _ _ => inferInstanceAs (Decidable (_ ∧ _ ∧ ¬((_ ∨ _) ∧ _)))
  | .closeSession _ _ => inferInstanceAs (Decidable (_ ∧ _ ∧ ¬(_ ∨ _ ∨ _)))
  | .serviceRequest _ _ _ _ =>
    inferInstanceAs (Decidable (_ ∧ ((_ ∧ ¬(_ ∧ _ ∧ _)) ∨ (_ ∧ ¬(_ ∧ _ ∧ _ ≠ _)))))
  | .discoveryRequest _ _ _ _ => inferInstanceAs (Decidable (_ ∧ _ ∧ ¬(_ ∧ _)))
  | .activateNewSession _ _ => .isFalse id
  | .createSession _ _ _ => .isFalse id
  | .response _ _ _ => .isFalse id
  | .sndFailure _ _ => .isFalse id
  | .channelConnected _ _ => .isFalse id
  | .connectionTimeout _ => .isFalse id
  | .channelLost _ => .isFalse id

theorem isConnected_of_getConnectedChannel {c : Client} {config : Nat} {ch : Channel}
    (h : c.getConnectedChannel config = some ch) : c.isConnected ch = true := by
  obtain ⟨p, hp, rfl⟩ := Option.map_eq_some_iff.mp h
  exact any_eq_true.mpr ⟨p, mem_of_find?_eq_some hp, beq_self_eq_true p.1⟩

section Events

variable {limits : Limits} {c : Client}

variable (hb : BoundOn c.isConnected c.sessions)

include hb

theorem serviceRequest_issues (env : SendEnv) (s : Nat)
    (hvalid : (c.sessions.entry s).valid = true) (msgType : MessageType) (appContext : Nat) :
    Issues limits.maxPendingRequests true
      ((Event.serviceRequest env s msgType appContext).InVain c) c.isConnected c.handles
      (clientServiceRequest limits.maxPendingRequests c env s msgType appContext) := by
  unfold clientServiceRequest
  split
  · rename_i htype
    rcases htype with htype | rfl
    · obtain ⟨service, rfl, hclass⟩ := isRequestOf_eq_true htype
      exact (sessionServiceRequest_issues hb s hclass appContext).imp
        fun hleak => ⟨hvalid, .inl ⟨htype, hleak⟩⟩
    · exact .same hb
  · exact (discoveryRequest_issues hb (hb s).connected msgType appContext).imp
      fun hleak => ⟨hvalid, .inr hleak⟩

theorem issueOf_spec {e : Event} {i : Issue} (h : issueOf limits c e = some i) :
    Issues limits.maxPendingRequests e.isApplicative (e.InVain c) c.isConnected c.handles i := by
  cases e with
  | createSession env s config =>
    obtain ⟨ch, hch, rfl⟩ := Option.map_eq_some_iff.mp h
    exact (createSession_issues hb s (isConnected_of_getConnectedChannel hch)).imp False.elim
  | activateOrphanedSession env s config =>
    obtain ⟨ch, hch, rfl⟩ := Option.map_eq_some_iff.mp h
    refine (activateOrphanedSession_issues hb s (isConnected_of_getConnectedChannel hch)).imp
      fun hleak => ⟨?_, hleak⟩
    rw [hch]
    rfl
  | activateSession env s =>
    obtain ⟨hvalid, hi⟩ := Option.ite_none_right_eq_some.mp h
    cases hi
    exact (activateSession_issues hb s).imp fun hleak => ⟨hvalid, hleak⟩
  | closeSession env s =>
    obtain ⟨hvalid, hi⟩ := Option.ite_none_right_eq_some.mp h
    cases hi
    exact (closeSession_issues hb s).imp fun hleak => ⟨hvalid, hleak⟩
  | serviceRequest env s msgType appContext =>
    obtain ⟨hvalid, hi⟩ := Option.ite_none_right_eq_some.mp h
    cases hi; exact serviceRequest_issues hb env s hvalid msgType appContext
  | discoveryRequest env config msgType appContext =>
    obtain ⟨ch, hch, rfl⟩ := Option.map_eq_some_iff.mp h
    have hconn : ∀ k, some ch = some k → c.isConnected k = true := by
      rintro _ ⟨⟩; exact isConnected_of_getConnectedChannel hch
    refine (discoveryRequest_issues hb hconn msgType appContext).imp fun hleak =>
      ⟨?_, hleak.1, fun henv => hleak.2 ⟨henv.1, henv.2, fun h => nomatch h⟩⟩
    rw [hch]
    rfl
  | _ => cases h

end Events

structure InUse (max : Nat) (t : Handles) (ch : Channel) (handle : Nat) (ctx : RequestContext) :
    Prop where
  pos : 0 < handle
  le : handle ≤ max
  context : t.contexts handle = some ctx
  channel : t.channel handle = some ch

/-- The response is one to the request of the context: it carries its handle, and it is of the
expected type or a fault. -/
def Response.Answers (r : Response) (handle : Nat) (ctx : RequestContext) : Prop :=
  r.header.map Prod.fst = some handle ∧
    (r.msgType = some ctx.response ∨ r.msgType = some .serviceFault)

instance (r : Response) (handle : Nat) (ctx : RequestContext) : Decidable (r.Answers handle ctx) :=
  inferInstanceAs (Decidable (_ ∧ (_ ∨ _)))

/-- The application is called for the response: its body is decoded, and a session serves it if its
service is on a session. -/
def Client.Delivers (c : Client) (ch : Channel) (handle : Nat) (ctx : RequestContext)
    (r : Response) : Prop :=
  r.body = true ∧ (getMsgServiceClass ctx.response = .sessionService →
    c.sessions.servesResp ch handle = true)

instance (c : Client) (ch : Channel) (handle : Nat) (ctx : RequestContext) (r : Response) :
    Decidable (c.Delivers ch handle ctx r) :=
  inferInstanceAs (Decidable (_ ∧ (_ → _)))

def Client.freed (c : Client) (ss : Sessions) (handle : Nat) (calls : List Nat) : Client :=
  { c with
    handles := c.handles.remove handle
    sessions := ss
    called := c.called ++ calls }

def Client.calls (c : Client) (ch : Channel) (handle : Nat) (ctx : RequestContext) (r : Response) :
    List Nat :=
  if ctx.hasAppContext = true ∧ getMsgServiceClass ctx.response ≠ .sessionTreatment ∧
      c.Delivers ch handle ctx r then [ctx.ticket] else []

section Treatment

variable {max : Nat} {c : Client} {ch : Channel} {r : Response} {msgType : MessageType}

variable {handle : Nat}

theorem validContext_eq_some {t : Handles} {ctx : RequestContext} :
    t.validContext max handle = some ctx ↔
      (0 < handle ∧ handle ≤ max) ∧ t.contexts handle = some ctx :=
  Option.ite_none_right_eq_some

theorem validateResponse_eq_some {t : Handles} {ctx : RequestContext} :
    t.validateResponse max ch handle msgType = some ctx ↔
      InUse max t ch handle ctx ∧ (ctx.response = msgType ∨ msgType = .serviceFault) := by
  simp only [Handles.validateResponse, Option.filter_eq_some_iff, validContext_eq_some,
    decide_eq_true_eq]
  constructor
  · rintro ⟨⟨⟨hpos, hle⟩, hctx⟩, htype, hch⟩; exact ⟨⟨hpos, hle, hctx, hch⟩, htype⟩
  · rintro ⟨⟨hpos, hle, hctx, hch⟩, htype⟩; exact ⟨⟨⟨hpos, hle⟩, hctx⟩, htype, hch⟩

inductive Treated (max : Nat) (c : Client) (ch : Channel) (r : Response) (msgType : MessageType) :
    Client → Prop
  | ignored (none : ∀ handle, r.header.map Prod.fst = some handle →
      c.handles.validateResponse max ch handle msgType = none) : Treated max c ch r msgType c
  | freed {handle : Nat} {ctx : RequestContext} {ss : Sessions}
      (header : r.header.map Prod.fst = some handle)
      (valid : c.handles.validateResponse max ch handle msgType = some ctx)
      (bound : ∀ conn, BoundOn conn c.sessions → BoundOn conn ss) :
      Treated max c ch r msgType (c.freed ss handle (c.calls ch handle ctx r))

def OfClass (max : Nat) (c : Client) (ch : Channel) (r : Response) (msgType : MessageType)
    (cls : ServiceClass) : Prop :=
  ∀ handle ctx, r.header.map Prod.fst = some handle →
    c.handles.validateResponse max ch handle msgType = some ctx →
    getMsgServiceClass ctx.response = cls

theorem Treated.of_header_none (h : r.header = none) : Treated max c ch r msgType c :=
  .ignored fun handle hhandle => by simp [h] at hhandle

theorem Treated.of_invalid {good : Bool} (hheader : r.header = some (handle, good))
    (h : c.handles.validateResponse max ch handle msgType = none) :
    Treated max c ch r msgType c := by
  refine .ignored fun k hk => ?_
  rw [hheader] at hk
  cases hk; exact h

theorem receiveSessionTreatmentResp_treated
    (hcls : OfClass max c ch r msgType .sessionTreatment) :
    Treated max c ch r msgType (c.receiveSessionTreatmentResp max ch r msgType) := by
  fun_cases receiveSessionTreatmentResp max c ch r msgType with
  | case1 hheader => exact .of_header_none hheader
  | case2 handle good hheader hvalid => exact .of_invalid hheader hvalid
  | case3 handle good hheader ctx hvalid c' =>
    have hhandle : r.header.map Prod.fst = some handle := by rw [hheader]; rfl
    have hcalls : c.calls ch handle ctx r = [] :=
      if_neg fun h => h.2.1 (hcls handle ctx hhandle hvalid)
    have hfreed := fun (ss : Sessions) (hss : ∀ conn, BoundOn conn c.sessions → BoundOn conn ss) =>
      Treated.freed hhandle hvalid hss
    simp only [hcalls, freed, append_nil] at hfreed
    by_cases hbody : r.body = true
    · rw [show c' = _ from if_pos hbody]
      exact hfreed _ fun conn h => receiveSessionResp_bound h good r
    · rw [show c' = _ from if_neg hbody]
      exact hfreed c.sessions fun _ h => h

theorem receiveDiscoveryServiceResp_treated (hcls : OfClass max c ch r msgType .discovery) :
    Treated max c ch r msgType (c.receiveDiscoveryServiceResp max ch r msgType) := by
  fun_cases receiveDiscoveryServiceResp max c ch r msgType with
  | case1 hheader => exact .of_header_none hheader
  | case2 handle good hheader hvalid => exact .of_invalid hheader hvalid
  | case3 handle good hheader ctx hvalid =>
    have hhandle : r.header.map Prod.fst = some handle := by rw [hheader]; rfl
    have hclass := hcls handle ctx hhandle hvalid
    have hfreed := Treated.freed hhandle hvalid (fun _ h => h)
    simp only [calls, Client.Delivers, hclass, freed] at hfreed
    simp only [callApplication, removeHandle]
    by_cases hbody : r.body = true <;> by_cases happ : ctx.hasAppContext = true <;>
      simpa [hbody, happ] using hfreed

theorem receiveSessionServiceResp_treated (hcls : OfClass max c ch r msgType .sessionService) :
    Treated max c ch r msgType (c.receiveSessionServiceResp max ch r msgType) := by
  have hserves := fun handle => @validateResp_isSome c.sessions handle ch
  have hbound := fun handle conn (h : BoundOn conn c.sessions) => validateResp_bound h ch handle
  fun_cases receiveSessionServiceResp max c ch r msgType with
  | case1 hheader => exact .of_header_none hheader
  | case2 handle good hheader hvalid => exact .of_invalid hheader hvalid
  | case3 handle good hheader ctx hvalid ss hresp
  | case4 handle good hheader ctx hvalid ss s hresp =>
    have hhandle : r.header.map Prod.fst = some handle := by rw [hheader]; rfl
    have hclass := hcls handle ctx hhandle hvalid
    have hfreed := Treated.freed hhandle hvalid (hbound handle)
    simp only [calls, Client.Delivers, hclass, ← hserves, hresp, freed] at hfreed
    by_cases hbody : r.body = true <;> by_cases happ : ctx.hasAppContext = true <;>
      simpa [callApplication, removeHandle, hbody, happ] using hfreed

def Typed (t : Handles) : Prop :=
  ∀ handle ctx, t.contexts handle = some ctx → ∃ s, ctx.response = .response s

theorem serviceClass_ne_fault (s : Service) : s.serviceClass ≠ .serviceFault := by
  cases s <;> decide

theorem respServiceClass_ofClass {cls : ServiceClass}
    (h : c.respServiceClass max r msgType = some cls) : OfClass max c ch r msgType cls := by
  intro handle ctx hheader hvalid; obtain ⟨hin, htype⟩ := validateResponse_eq_some.mp hvalid
  unfold respServiceClass at h
  split at h
  · obtain ⟨hdr, hhdr, rfl⟩ := Option.map_eq_some_iff.mp hheader
    have hctx := validContext_eq_some.mpr ⟨⟨hin.pos, hin.le⟩, hin.context⟩
    rw [hhdr, Option.bind_some, hctx] at h
    cases h; rfl
  · rename_i hfault; rw [htype.resolve_right hfault]; exact Option.some.inj h

theorem respServiceClass_none (h : c.respServiceClass max r msgType = none) :
    Treated max c ch r msgType c := by
  refine .ignored fun handle hheader => ?_
  unfold respServiceClass at h
  split at h
  · obtain ⟨hdr, hhdr, rfl⟩ := Option.map_eq_some_iff.mp hheader
    rw [hhdr, Option.bind_some, Option.map_eq_none_iff] at h
    rw [Handles.validateResponse, h]
    rfl
  · cases h

/-- A fault is not expected as a response, so nothing is validated under its class. -/
theorem Treated.of_fault (htyped : Typed c.handles)
    (hcls : OfClass max c ch r msgType .serviceFault) : Treated max c ch r msgType c := by
  refine .ignored fun handle hheader => ?_
  cases hvalid : c.handles.validateResponse max ch handle msgType with
  | none => rfl
  | some ctx =>
    obtain ⟨s, hs⟩ := htyped handle ctx (validateResponse_eq_some.mp hvalid).1.context
    have hclass := hcls handle ctx hheader hvalid
    rw [hs] at hclass
    exact absurd hclass (serviceClass_ne_fault s)

def Received (max : Nat) (c : Client) (ch : Channel) (r : Response) (c' : Client) : Prop :=
  (c' = c ∧ ∀ handle ctx, InUse max c.handles ch handle ctx → ¬r.Answers handle ctx) ∨
    ∃ handle ctx ss, InUse max c.handles ch handle ctx ∧ r.Answers handle ctx ∧
      c' = c.freed ss handle (c.calls ch handle ctx r) ∧
      ∀ conn, BoundOn conn c.sessions → BoundOn conn ss

theorem Treated.received {c' : Client} (htype : r.msgType = some msgType)
    (h : Treated max c ch r msgType c') : Received max c ch r c' := by
  cases h with
  | ignored hnone =>
    refine .inl ⟨rfl, fun handle ctx hin hanswers => ?_⟩
    have htypes : ctx.response = msgType ∨ msgType = .serviceFault := by
      rcases hanswers.2 with h | h
      · exact .inl (Option.some.inj (h.symm.trans htype))
      · exact .inr (Option.some.inj (htype.symm.trans h))
    have hvalid := validateResponse_eq_some.mpr ⟨hin, htypes⟩
    rw [hnone handle hanswers.1] at hvalid
    cases hvalid
  | freed hheader hvalid hbound =>
    obtain ⟨hin, htypes⟩ := validateResponse_eq_some.mp hvalid
    refine .inr ⟨_, _, _, hin, ⟨hheader, ?_⟩, rfl, hbound⟩
    rcases htypes with rfl | rfl
    · exact .inl htype
    · exact .inr htype

theorem receiveMsgBuffer_treated (htyped : Typed c.handles) (hconn : c.isConnected ch = true)
    (htype : r.msgType = some msgType) (hresp : ∀ s, msgType ≠ .request s) :
    Treated max c ch r msgType (c.receiveMsgBuffer max ch r) := by
  unfold receiveMsgBuffer
  rw [if_neg (by simp [hconn]), htype]
  cases msgType with
  | request s => exact absurd rfl (hresp s)
  | _ =>
    dsimp only
    cases hclass : c.respServiceClass max r _ with
    | none => exact respServiceClass_none hclass
    | some cls =>
      have hof : OfClass max c ch r _ cls := respServiceClass_ofClass hclass
      cases cls with
      | sessionTreatment => exact receiveSessionTreatmentResp_treated hof
      | sessionService => exact receiveSessionServiceResp_treated hof
      | discovery => exact receiveDiscoveryServiceResp_treated hof
      | serviceFault => exact .of_fault htyped hof

theorem receiveMsgBuffer_received (max : Nat) (r : Response) (htyped : Typed c.handles)
    (hconn : c.isConnected ch = true) : Received max c ch r (c.receiveMsgBuffer max ch r) := by
  have hconn' : c.isConnected ch ≠ false := by simp [hconn]
  cases htype : r.msgType with
  | none =>
    refine .inl ⟨by rw [receiveMsgBuffer, if_neg hconn', htype], fun handle ctx _ h => ?_⟩
    simp [Response.Answers, htype] at h
  | some msgType =>
    cases msgType with
    | request s =>
      refine .inl ⟨by rw [receiveMsgBuffer, if_neg hconn', htype], ?_⟩
      intro handle ctx hin h; obtain ⟨service, hservice⟩ := htyped handle ctx hin.context
      simp [Response.Answers, htype, hservice] at h
    | response | serviceFault =>
      exact (receiveMsgBuffer_treated htyped hconn htype (fun _ h => nomatch h)).received htype

theorem sndMsgFailure_cases (max : Nat) (c : Client) (ch : Channel) (handle : Nat) :
    (∃ ss, c.sndMsgFailure max ch handle = { c with sessions := ss } ∧
      (∀ conn, BoundOn conn c.sessions → BoundOn conn ss) ∧
      ∀ ctx, InUse max c.handles ch handle ctx →
        getMsgServiceClass ctx.response = .sessionTreatment) ∨
    ∃ ctx, InUse max c.handles ch handle ctx ∧
      c.sndMsgFailure max ch handle =
        c.freed c.sessions handle (if ctx.hasAppContext then [ctx.ticket] else []) := by
  unfold sndMsgFailure
  cases hvalid : c.handles.validContext max handle with
  | none =>
    refine .inl ⟨c.sessions, rfl, fun _ h => h, fun ctx hin => ?_⟩
    rw [validContext_eq_some.mpr ⟨⟨hin.pos, hin.le⟩, hin.context⟩] at hvalid
    cases hvalid
  | some ctx =>
    obtain ⟨hrange, hctx⟩ := validContext_eq_some.mp hvalid
    dsimp only
    by_cases hch : c.handles.channel handle = some ch
    · rw [if_pos hch]
      by_cases hclass : getMsgServiceClass ctx.response = .sessionTreatment
      · rw [if_pos hclass]
        have hsame : ∀ ctx', InUse max c.handles ch handle ctx' →
            getMsgServiceClass ctx'.response = .sessionTreatment := by
          intro ctx' hin; rw [Option.some.inj (hin.context.symm.trans hctx)]
          exact hclass
        have hbound := fun conn (h : BoundOn conn c.sessions) => validateResp_bound h ch handle
        rcases hresp : c.sessions.validateResp ch handle with ⟨ss, found⟩
        rw [hresp] at hbound
        cases found with
        | none => exact .inl ⟨ss, rfl, hbound, hsame⟩
        | some s => exact .inl ⟨ss.close s, rfl, fun conn h => (hbound conn h).close, hsame⟩
      · rw [if_neg hclass]
        refine .inr ⟨ctx, ⟨hrange.1, hrange.2, hctx, hch⟩, ?_⟩
        unfold callApplication removeHandle freed
        by_cases happ : ctx.hasAppContext = true <;> simp [happ]
    · rw [if_neg hch]
      exact .inl ⟨c.sessions, rfl, fun _ h => h, fun ctx' hin => absurd hin.channel hch⟩

end Treatment

inductive Stepped (max : Nat) (c : Client) : Event → Client → Prop
  | unchanged {e : Event} {t : Handles} {ss : Sessions} (bound : BoundOn c.isConnected ss)
      (contexts : t.contexts = c.handles.contexts)
      (channel : ∀ k, c.handles.contexts k ≠ none → t.channel k = c.handles.channel k)
      (ticket : c.handles.nextTicket ≤ t.nextTicket) :
      Stepped max c e { c with handles := t, sessions := ss }
  | sent {e : Event} {t : Handles} {ss : Sessions} {handle : Nat} {ch : Channel}
      (bound : BoundOn c.isConnected ss) (reserved : Reserved max e.isApplicative c.handles t handle)
      (channel : t.channel handle = some ch) (conn : c.isConnected ch = true) :
      Stepped max c e { c with
        handles := t
        sessions := ss
        outstanding := (ch, handle) :: c.outstanding
        accepted := if e.isApplicative then (c.handles.nextTicket, ch) :: c.accepted else c.accepted }
  | leaked {e : Event} {t : Handles} {ss : Sessions} {handle : Nat}
      (bound : BoundOn c.isConnected ss) (reserved : Reserved max e.isApplicative c.handles t handle)
      (free : c.handles.freeHandle max = some handle) (vain : e.InVain c) :
      Stepped max c e { c with handles := t, sessions := ss }
  | connected {config : Nat} {ch : Channel} {ss : Sessions} (bound : BoundOn c.isConnected ss) :
      Stepped max c (.channelConnected config ch)
        { c with connected := (ch, config) :: c.connected, sessions := ss }
  | ignored {ch : Channel} {answered : Nat} {r : Response}
      (unanswered : c.isConnected ch = true → ∀ handle ctx, InUse max c.handles ch handle ctx →
        ¬r.Answers handle ctx) :
      Stepped max c (.response ch answered r) (c.ended ch answered)
  | answered {ch : Channel} {answered handle : Nat} {r : Response} {ctx : RequestContext}
      {ss : Sessions} (bound : BoundOn c.isConnected ss)
      (inUse : InUse max c.handles ch handle ctx) (answers : r.Answers handle ctx) :
      Stepped max c (.response ch answered r)
        ((c.ended ch answered).freed ss handle (c.calls ch handle ctx r))
  | kept {ch : Channel} {handle : Nat} {ss : Sessions} (bound : BoundOn c.isConnected ss)
      (treatment : c.isConnected ch = true → ∀ ctx, InUse max c.handles ch handle ctx →
        getMsgServiceClass ctx.response = .sessionTreatment) :
      Stepped max c (.sndFailure ch handle) { c.ended ch handle with sessions := ss }
  | failed {ch : Channel} {handle : Nat} {ctx : RequestContext}
      (inUse : InUse max c.handles ch handle ctx) :
      Stepped max c (.sndFailure ch handle)
        ((c.ended ch handle).freed c.sessions handle
          (if ctx.hasAppContext then [ctx.ticket] else []))
  | lost {ch : Channel} {ss : Sessions}
      (bound : BoundOn (fun k => c.isConnected k && k != ch) ss) :
      Stepped max c (.channelLost ch)
        { c with
          sessions := ss
          connected := c.connected.filter fun p => p.1 != ch
          outstanding := c.outstanding.filter fun p => p.1 != ch }

section Step

variable {c : Client}

theorem Bound.lost {conn : Channel → Bool} {e : ClientSession} (h : Bound conn e) (ch : Channel)
    (config : Nat) : Bound (fun k => conn k && k != ch) (e.lost ch config) := by
  unfold ClientSession.lost
  split
  · split
    · exact ⟨fun _ h => (nomatch h), fun h => (nomatch h)⟩
    · exact bound_closed
  · rename_i hne; refine ⟨fun k hk => ?_, h.channel⟩
    have hkch : k ≠ ch := by rintro rfl; exact hne hk
    simp [h.connected k hk, hkch]

variable {max : Nat}

theorem Stepped.sessions {e : Event} {ss : Sessions} (h : BoundOn c.isConnected ss) :
    Stepped max c e { c with sessions := ss } :=
  .unchanged h rfl (fun _ _ => rfl) le_rfl

theorem issued_stepped {e : Event} {i : Issue}
    (h : Issued max e.isApplicative (e.InVain c) c.handles i) (hsound : i.Sound c.isConnected) :
    Stepped max c e (if e.isApplicative then (c.send i).accept i else c.send i) := by
  obtain ⟨t, ss, message⟩ := i
  cases h with
  | unchanged contexts channel ticket hmessage =>
    cases hmessage; simp only [send, accept, ite_self]
    exact .unchanged hsound.sessions contexts channel ticket
  | @sent handle ch reserved channel hmessage =>
    cases hmessage; have hconn := hsound.message ch handle rfl
    have hsent : Stepped max c e _ := .sent hsound.sessions reserved channel hconn
    obtain ⟨ctx, s, hctx, hticket, -⟩ := reserved.context
    have hconn' : isConnected { c with handles := t, sessions := ss } ch = true := hconn
    have hentry : t.contexts handle = some ctx := by
      rw [show t.contexts = _ from hctx, update_self]
    simp only [send, accept, hconn', hentry, if_true, hticket]
    cases happ : e.isApplicative <;> simpa [happ] using hsent
  | leaked reserved hmessage free leaks =>
    cases hmessage; simp only [send, accept, ite_self]
    exact .leaked hsound.sessions reserved free leaks

variable (hb : BoundOn c.isConnected c.sessions)

include hb

theorem activateNewSession_stepped (e : Event) (maxSessions config : Nat) (opened : Bool) :
    Stepped max c e (c.activateNewSession maxSessions config opened) := by
  unfold activateNewSession
  split
  · exact .sessions (initSession_bound hb _ _)
  · split
    · exact .sessions (initSession_bound hb _ _)
    · exact .sessions hb

theorem channelConnected_stepped (config : Nat) (ch : Channel) :
    Stepped max c (.channelConnected config ch) (c.channelConnected config ch) := by
  unfold channelConnected
  split
  · exact .sessions hb
  refine .connected fun s => ?_
  dsimp only
  split
  · exact ⟨(hb s).connected, (hb s).channel⟩
  · exact hb s

theorem secureChannelLost_stepped (ch : Channel) :
    Stepped max c (.channelLost ch) (c.secureChannelLost ch) := by
  unfold secureChannelLost
  split
  · exact .sessions hb
  · exact .lost fun s => (hb s).lost ch _

theorem response_stepped (htyped : Typed c.handles)
    (ch : Channel) (answered : Nat) (r : Response) :
    Stepped max c (.response ch answered r)
      ((c.ended ch answered).receiveMsgBuffer max ch r) := by
  by_cases hconn : c.isConnected ch = true
  · have htyped' : Typed (c.ended ch answered).handles := htyped
    have hconn' : (c.ended ch answered).isConnected ch = true := hconn
    rcases receiveMsgBuffer_received max r htyped' hconn' with
      ⟨heq, hnone⟩ | ⟨handle, ctx, ss, hin, hanswers, heq, hss⟩
    · rw [heq]
      exact .ignored fun _ => hnone
    · rw [heq]; exact .answered (hss _ hb) hin hanswers
  · have hoff : (c.ended ch answered).isConnected ch = false := Bool.eq_false_iff.mpr hconn
    rw [receiveMsgBuffer, if_pos hoff]
    exact .ignored fun h => absurd h hconn

theorem sndFailure_stepped (ch : Channel) (handle : Nat) :
    Stepped max c (.sndFailure ch handle)
      (if c.isConnected ch then (c.ended ch handle).sndMsgFailure max ch handle
        else c.ended ch handle) := by
  split
  · rcases sndMsgFailure_cases max (c.ended ch handle) ch handle with
      ⟨ss, heq, hss, htreatment⟩ | ⟨ctx, hin, heq⟩
    · rw [heq]
      exact .kept (hss _ hb) fun _ => htreatment
    · rw [heq]; exact .failed hin
  · rename_i hconn
    have hkept : Stepped max c (.sndFailure ch handle)
        { c.ended ch handle with sessions := c.sessions } := .kept hb fun h => absurd h hconn
    exact hkept

theorem step_stepped (limits : Limits) (htyped : Typed c.handles) (e : Event) :
    Stepped limits.maxPendingRequests c e (c.step limits e) := by
  unfold step
  cases hissue : issueOf limits c e with
  | some i =>
    obtain ⟨hissued, hsound⟩ := issueOf_spec hb hissue
    exact issued_stepped hissued hsound
  | none =>
    cases e with
    | activateNewSession config opened => exact activateNewSession_stepped hb _ _ config opened
    | createSession env s config => exact .sessions hb.close
    | response ch answered r => exact response_stepped hb htyped ch answered r
    | sndFailure ch handle => exact sndFailure_stepped hb ch handle
    | channelConnected config ch => exact channelConnected_stepped hb config ch
    | connectionTimeout config => exact .sessions (finalConnectionFailure_bound hb _ config)
    | channelLost ch => exact secureChannelLost_stepped hb ch
    | _ => exact .sessions hb

end Step

/-- What holds of every client: its sessions are on connected channels, its contexts are those of
requests, and the messages that have not ended are on connected channels. -/
structure WellFormed (max : Nat) (c : Client) : Prop where
  bound : BoundOn c.isConnected c.sessions
  context : ∀ handle ctx, c.handles.contexts handle = some ctx →
    0 < handle ∧ handle ≤ max ∧ ∃ s, Expects ctx.hasAppContext ctx s
  live : ∀ p ∈ c.outstanding, c.isConnected p.1 = true

section WellFormed

variable {max : Nat} {c : Client}

theorem WellFormed.typed (h : WellFormed max c) : Typed c.handles := by
  intro handle ctx hctx; obtain ⟨-, -, s, hs⟩ := h.context handle ctx hctx; exact ⟨s, hs.response⟩

variable {handle : Nat} {ctx : RequestContext} {t : Handles}

theorem WellFormed.inUse (h : WellFormed max c) {ch : Channel}
    (hctx : c.handles.contexts handle = some ctx) (hch : c.handles.channel handle = some ch) :
    InUse max c.handles ch handle ctx :=
  ⟨(h.context handle ctx hctx).1, (h.context handle ctx hctx).2.1, hctx, hch⟩

theorem WellFormed.not_treatment (h : WellFormed max c)
    (hctx : c.handles.contexts handle = some ctx) (happ : ctx.hasAppContext = true) :
    getMsgServiceClass ctx.response ≠ .sessionTreatment := by
  obtain ⟨-, -, s, hs⟩ := h.context handle ctx hctx
  rw [hs.response]
  exact hs.service happ

theorem initial_wellFormed : WellFormed max .initial :=
  ⟨fun _ => bound_closed, fun _ _ h => (nomatch h), fun _ h => (nomatch h)⟩

theorem isConnected_cons (c : Client) (config : Nat) (ch k : Channel) (ss : Sessions)
    (h : c.isConnected k = true) :
    isConnected { c with connected := (ch, config) :: c.connected, sessions := ss } k =
      true := by
  simp only [isConnected, any_cons, Bool.or_eq_true]
  exact .inr h

theorem isConnected_filter (c : Client) (ch k : Channel) (ss : Sessions)
    (out : List (Channel × Nat)) :
    isConnected { c with
      sessions := ss
      connected := c.connected.filter fun p => p.1 != ch
      outstanding := out } k = (c.isConnected k && k != ch) := by
  rw [Bool.eq_iff_iff]
  simp only [isConnected, any_eq_true, mem_filter, Bool.and_eq_true, beq_iff_eq, bne_iff_ne]
  constructor
  · rintro ⟨p, ⟨hp, hne⟩, rfl⟩; exact ⟨⟨p, hp, rfl⟩, hne⟩
  · rintro ⟨⟨p, hp, rfl⟩, hne⟩; exact ⟨p, ⟨hp, hne⟩, rfl⟩

variable {k : Nat} {t' : Handles} {app : Bool}

theorem Reserved.contexts_cases (h : Reserved max app t t' handle) (hk : t'.contexts k = some ctx) :
    (k = handle ∧ ctx.ticket = t.nextTicket ∧ ∃ s, Expects app ctx s) ∨
      (k ≠ handle ∧ t.contexts k = some ctx) := by
  obtain ⟨ctx', s, hctx, hticket, hs⟩ := h.context
  rw [hctx] at hk
  by_cases hne : k = handle
  · subst hne; rw [update_self] at hk; cases hk; exact .inl ⟨rfl, hticket, s, hs⟩
  · rw [update_of_ne hne] at hk; exact .inr ⟨hne, hk⟩

theorem Reserved.ne_of_inUse {ch : Channel} (h : Reserved max app t t' handle)
    (hk : InUse max t ch k ctx) : k ≠ handle := by
  rintro rfl; have hfree := h.free
  rw [hk.context] at hfree
  cases hfree

theorem Reserved.contexts_of_ne (h : Reserved max app t t' handle) (hk : k ≠ handle) :
    t'.contexts k = t.contexts k := by
  obtain ⟨ctx, s, hctx, -⟩ := h.context; rw [hctx, update_of_ne hk]

theorem remove_contexts_eq_some :
    (t.remove handle).contexts k = some ctx ↔ k ≠ handle ∧ t.contexts k = some ctx := by
  by_cases hk : k = handle
  · subst hk; simp [Handles.remove]
  · simp [Handles.remove, hk]

theorem remove_channel (hk : k ≠ handle) : (t.remove handle).channel k = t.channel k :=
  update_of_ne hk _ _

theorem Expects.self {s : Service} (h : Expects app ctx s) : Expects ctx.hasAppContext ctx s := by
  rw [h.applicative]; exact h

theorem WellFormed.reserved (h : WellFormed max c) (hr : Reserved max app c.handles t handle)
    (hk : t.contexts k = some ctx) : 0 < k ∧ k ≤ max ∧ ∃ s, Expects ctx.hasAppContext ctx s := by
  rcases hr.contexts_cases hk with ⟨rfl, -, s, hs⟩ | ⟨-, hk⟩
  · exact ⟨hr.pos, hr.le, s, hs.self⟩
  · exact h.context k ctx hk

theorem Stepped.wellFormed {e : Event} {c' : Client} (h : WellFormed max c)
    (hstep : Stepped max c e c') : WellFormed max c' := by
  have hended : ∀ ch handle, ∀ p ∈ (c.ended ch handle).outstanding, c.isConnected p.1 = true :=
    fun ch handle p hp => h.live p (mem_of_mem_erase hp)
  have hremoved : ∀ handle k ctx, (c.handles.remove handle).contexts k = some ctx →
      0 < k ∧ k ≤ max ∧ ∃ s, Expects ctx.hasAppContext ctx s :=
    fun handle k ctx hk => h.context k ctx (remove_contexts_eq_some.mp hk).2
  cases hstep with
  | unchanged bound contexts channel ticket =>
    exact ⟨bound, fun k ctx hk => h.context k ctx (contexts ▸ hk), h.live⟩
  | sent bound reserved channel conn =>
    refine ⟨bound, fun k ctx hk => h.reserved reserved hk, fun p hp => ?_⟩
    rcases mem_cons.mp hp with rfl | hp
    · exact conn
    · exact h.live p hp
  | leaked bound reserved free vain => exact ⟨bound, fun k ctx hk => h.reserved reserved hk, h.live⟩
  | connected bound =>
    refine ⟨fun s => ⟨fun k hk => ?_, (bound s).channel⟩, h.context, fun p hp => ?_⟩
    · exact isConnected_cons c _ _ k _ ((bound s).connected k hk)
    · exact isConnected_cons c _ _ p.1 _ (h.live p hp)
  | ignored unanswered => exact ⟨h.bound, h.context, hended _ _⟩
  | answered bound inUse answers => exact ⟨bound, hremoved _, hended _ _⟩
  | kept bound treatment => exact ⟨bound, h.context, hended _ _⟩
  | failed inUse => exact ⟨h.bound, hremoved _, hended _ _⟩
  | lost bound =>
    refine ⟨fun s => ⟨fun k hk => ?_, (bound s).channel⟩, h.context, fun p hp => ?_⟩
    · rw [isConnected_filter]; exact (bound s).connected k hk
    · obtain ⟨hp, hne⟩ := mem_filter.mp hp; rw [isConnected_filter, h.live p hp]; exact hne

end WellFormed

end ClientServices
end S2OPC
