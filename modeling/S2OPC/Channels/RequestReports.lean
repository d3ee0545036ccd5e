import S2OPC.Channels.ClientRequests
import S2OPC.Lib.Scan

/-!
# S2OPC.Channels.RequestReports

What the services are told about the requests of a client channel.

A request is *owed* a report while it is recorded and has not expired, and while an event that
reports it is queued. `Balanced` says that the requests handed over are those that were reported and
those that are owed a report. A step keeps it under `StepRegular`, and so does a run.
-/

namespace S2OPC
namespace Channels

open List ChannelEvent

open Fallible (Each)
open Scan (countP_of_find?)

def SentRequest.owes (handle : Nat) (r : SentRequest) : Bool :=
  r.msgType == .msg && !r.timeoutExpired && r.requestHandle == handle

/-- The handle that an event will report, or pass on to one that does. -/
def ChannelEvent.owed : ChannelEvent → Option Nat
  | .sndMsgChunks handle => some handle
  | .rcvMsgChunks handle => some handle
  | .rcvMsgChunkAbort handle _ => some handle
  | .sndFatalFailure handle => some handle
  | .sentAbortFailure handle => some handle
  | _ => none

def ChannelEvent.owes (handle : Nat) (e : ChannelEvent) : Bool := e.owed == some handle

def owedRequests (handle : Nat) (requests : List SentRequest) : Nat :=
  requests.countP (SentRequest.owes handle)

def owedEvents (handle : Nat) (events : List ChannelEvent) : Nat :=
  events.countP (ChannelEvent.owes handle)

def ClientChannel.owed (c : ClientChannel) (handle : Nat) : Nat :=
  owedRequests handle c.sentRequests + owedEvents handle c.queue

def ClientChannel.reported (c : ClientChannel) (handle : Nat) : Nat :=
  c.reports.countP fun r => r.2 == handle

/-- The handle 0 is that of no request. -/
structure Balanced (c : ClientChannel) : Prop where
  balance : ∀ handle, handle ≠ 0 →
    c.accepted.count handle = c.reported handle + c.owed handle
  idle : c.state.isScConnected = false → ∀ handle, handle ≠ 0 → c.owed handle = 0

/-- Nothing is lost or told twice when the connection is closed: no recorded request has expired, and
no event for a request is left in the queue. -/
structure ClientChannel.Settled (c : ClientChannel) : Prop where
  unexpired : ∀ r ∈ c.sentRequests, r.msgType = .msg → r.timeoutExpired = false
  drained : ∀ e ∈ c.queue, e.owed.getD 0 = 0

instance (c : ClientChannel) : Decidable c.Settled :=
  decidable_of_iff ((∀ r ∈ c.sentRequests, r.msgType = .msg → r.timeoutExpired = false) ∧
    ∀ e ∈ c.queue, e.owed.getD 0 = 0) ⟨fun h => ⟨h.1, h.2⟩, fun h => ⟨h.1, h.2⟩⟩

/-- Once its request is found, the chunk of a response is treated to its end. -/
def ReceivedPart.Regular : ReceivedPart → Prop
  | .chunk _ msgType isFinal prepended completed _ => msgType = .msg →
      if isFinal = .intermediate then prepended = true else completed = true
  | _ => True

instance : ∀ p : ReceivedPart, Decidable p.Regular
  | .chunk _ msgType isFinal prepended completed _ => inferInstanceAs (Decidable (msgType = .msg →
      if isFinal = .intermediate then prepended = true else completed = true))
  | .refused => .isTrue trivial
  | .ack _ => .isTrue trivial
  | .err => .isTrue trivial

def ClientChannel.ClosesSettled (c : ClientChannel) (env : EventEnv) (immediateClose : Bool) : Prop :=
  c.closesNow env immediateClose = true → c.Settled

instance (c : ClientChannel) (env : EventEnv) (immediateClose : Bool) :
    Decidable (c.ClosesSettled env immediateClose) :=
  inferInstanceAs (Decidable (c.closesNow env immediateClose = true → c.Settled))

def ClientChannel.closing (c : ClientChannel) (env : EventEnv) : ChannelEvent → Option Bool
  | .socketFailure | .rcvErr | .close => some true
  | .disconnect | .rcvFailure | .sndFatalFailure _ => some false
  | .socketConnection =>
    if c.state = .tcpInit then if env.encoded then none else some false else none
  | .connectionTimeout => if c.state.isScConnected then none else some false
  | .opnRenew => if c.state = .scConnected then if env.encoded then none else some false else none
  | .rcvAck valid =>
    if c.state = .tcpNegotiate ∧ valid = true ∧ env.encoded = true then none else some false
  | .rcvOpn valid =>
    if (c.state = .scConnecting ∨ c.state = .scConnectedRenew) ∧ valid = true then none
    else some false
  | .rcvMsgChunks _ => if c.state.isScConnected then none else some false
  | .rcvMsgChunkAbort _ valid => if valid then none else some false
  | _ => none

def ClientChannel.Keeps (c : ClientChannel) : ChannelEvent → Prop
  | .rcvBytes parts => ∀ p ∈ parts, p.Regular
  | .requestTimeout requestId =>
    ∀ r ∈ c.sentRequests.find? fun r => r.requestId == requestId,
      r.msgType = .msg → r.timeoutExpired = false
  | .rcvMsgChunkAbort _ valid => valid = true
  | _ => True

instance (c : ClientChannel) : ∀ e, Decidable (c.Keeps e)
  | .rcvBytes parts => inferInstanceAs (Decidable (∀ p ∈ parts, p.Regular))
  | .requestTimeout requestId =>
    inferInstanceAs (Decidable (∀ r ∈ c.sentRequests.find? fun r => r.requestId == requestId,
      r.msgType = .msg → r.timeoutExpired = false))
  | .rcvMsgChunkAbort _ valid => inferInstanceAs (Decidable (valid = true))
  | .sndMsg _ | .disconnect | .socketConnection | .socketFailure | .connectionTimeout | .opnRenew
  | .sndHel | .sndOpn | .sndMsgChunks _ | .sndClo | .rcvAck _ | .rcvOpn _ | .rcvMsgChunks _
  | .rcvErr | .rcvFailure | .sndFatalFailure _ | .sentAbortFailure _ | .close => .isTrue trivial

def ClientChannel.Regular (c : ClientChannel) (env : EventEnv) (e : ChannelEvent) : Prop :=
  (∀ immediateClose ∈ c.closing env e, c.ClosesSettled env immediateClose) ∧ c.Keeps e

instance (c : ClientChannel) (env : EventEnv) (e : ChannelEvent) : Decidable (c.Regular env e) :=
  inferInstanceAs (Decidable ((∀ immediateClose ∈ c.closing env e,
    c.ClosesSettled env immediateClose) ∧ c.Keeps e))

def ClientChannel.StepRegular (c : ClientChannel) : ChannelInput → Prop
  | .post _ _ => True
  | .handle env => ∀ e ∈ c.queue.head?, ClientChannel.Regular { c with queue := c.queue.tail } env e

instance (c : ClientChannel) : ∀ i, Decidable (c.StepRegular i)
  | .post _ _ => .isTrue trivial
  | .handle env => inferInstanceAs (Decidable (∀ e ∈ c.queue.head?,
      ClientChannel.Regular { c with queue := c.queue.tail } env e))

@[simp] theorem owedRequests_nil (n : Nat) : owedRequests n [] = 0 := rfl

@[simp] theorem owedRequests_cons (n : Nat) (r : SentRequest) (requests : List SentRequest) :
    owedRequests n (r :: requests) = (r.owes n).toNat + owedRequests n requests := by
  cases h : r.owes n <;> simp [owedRequests, h, Nat.add_comm]

@[simp] theorem owedRequests_append (n : Nat) (a b : List SentRequest) :
    owedRequests n (a ++ b) = owedRequests n a + owedRequests n b := countP_append

@[simp] theorem owedEvents_nil (n : Nat) : owedEvents n [] = 0 := rfl

@[simp] theorem owedEvents_cons (n : Nat) (e : ChannelEvent) (events : List ChannelEvent) :
    owedEvents n (e :: events) = (e.owes n).toNat + owedEvents n events := by
  cases h : e.owes n <;> simp [owedEvents, h, Nat.add_comm]

@[simp] theorem owedEvents_append (n : Nat) (a b : List ChannelEvent) :
    owedEvents n (a ++ b) = owedEvents n a + owedEvents n b := countP_append

@[simp] theorem reported_report (c : ClientChannel) (r : Report) (handle n : Nat) :
    (c.report r handle).reported n = c.reported n + (handle == n).toNat := by
  cases h : handle == n <;> simp [ClientChannel.report, ClientChannel.reported, h]

variable {r : SentRequest} {c : ClientChannel}

theorem owes_of_not_msg (h : r.msgType ≠ .msg) (n : Nat) : r.owes n = false := by
  simp [SentRequest.owes, h]

theorem owes_of_expired (h : r.timeoutExpired = true) (n : Nat) : r.owes n = false := by
  simp [SentRequest.owes, h]

theorem owes_of_pending (hmsg : r.msgType = .msg) (h : r.timeoutExpired = false) (n : Nat) :
    r.owes n = (r.requestHandle == n) := by
  simp [SentRequest.owes, hmsg, h]

theorem clearPendingRequest_count (h : r.msgType = .msg → r.timeoutExpired = false) (n : Nat) :
    (clearPendingRequest r).countP (fun r => r.2 == n) = (r.owes n).toNat := by
  by_cases hmsg : r.msgType = .msg
  · rw [owes_of_pending hmsg (h hmsg)]
    cases hn : r.requestHandle == n <;> simp [clearPendingRequest, hmsg, hn]
  · simp [clearPendingRequest, hmsg, owes_of_not_msg hmsg]

theorem clearPendingRequests_count {requests : List SentRequest}
    (h : ∀ r ∈ requests, r.msgType = .msg → r.timeoutExpired = false) (n : Nat) :
    (requests.flatMap clearPendingRequest).countP (fun r => r.2 == n) = owedRequests n requests := by
  induction requests with
  | nil => rfl
  | cons r requests ih =>
    rw [forall_mem_cons] at h
    rw [flatMap_cons, countP_append, clearPendingRequest_count h.1, ih h.2, owedRequests_cons]

theorem ClientChannel.Settled.owedEvents_eq_zero (h : c.Settled) {n : Nat} (hn : n ≠ 0) :
    owedEvents n c.queue = 0 := by
  refine countP_eq_zero.mpr fun e he howes => ?_
  have hzero := h.drained e he
  have howed : e.owed = some n := by simpa [owes] using howes
  rw [howed] at hzero
  exact hn hzero

theorem closeConnection_reported (h : c.Settled) (n : Nat) :
    c.closeConnection.reported n = c.reported n + owedRequests n c.sentRequests := by
  simp [ClientChannel.closeConnection, ClientChannel.reported, clearPendingRequests_count h.unexpired]

theorem closeSecureConnection_balanced {env : EventEnv} {immediateClose : Bool} (hc : Balanced c)
    (h : c.ClosesSettled env immediateClose) :
    Balanced (c.closeSecureConnection env immediateClose) := by
  unfold ClientChannel.closeSecureConnection
  split
  · rename_i hnow; have hs := h hnow
    have howed : ∀ n, n ≠ 0 → c.closeConnection.owed n = 0 := by
      intro n hn
      simpa [ClientChannel.closeConnection, ClientChannel.owed] using hs.owedEvents_eq_zero hn
    refine ⟨?_, fun _ => howed⟩
    intro n hn; have hbalance := hc.balance n hn
    have hdrained := hs.owedEvents_eq_zero hn
    rw [closeConnection_reported hs, howed n hn]
    simp only [ClientChannel.owed] at hbalance
    simp only [ClientChannel.closeConnection]
    omega
  · split
    · -- the two events that are put in front owe nothing
      refine ⟨fun n hn => ?_, fun hstate n hn => ?_⟩
      · simpa [ClientChannel.owed, ClientChannel.reported, owes, owed]
          using hc.balance n hn
      · simpa [ClientChannel.owed, owes, owed] using hc.idle hstate n hn
    · exact hc

section Handled

variable {c c' : ClientChannel} {env : EventEnv} {e : ChannelEvent}

theorem Balanced.move (hc : Balanced c) (haccepted : c'.accepted = c.accepted)
    (hmove : ∀ n, n ≠ 0 → c'.reported n + c'.owed n = c.reported n + c.owed n)
    (hreported : ∀ n, c.reported n ≤ c'.reported n)
    (hstate : c'.state.isScConnected = false → c.state.isScConnected = false) : Balanced c' := by
  refine ⟨fun n hn => ?_, fun hidle n hn => ?_⟩
  · rw [haccepted, hc.balance n hn, hmove n hn]
  · have howed := hc.idle (hstate hidle) n hn; have hle := hreported n; have hm := hmove n hn; omega

theorem Balanced.shift (hc : Balanced c) (howed : ∀ n, n ≠ 0 → c'.owed n = c.owed n)
    (haccepted : c'.accepted = c.accepted) (hreported : c'.reported = c.reported)
    (hstate : c'.state.isScConnected = false → c.state.isScConnected = false) : Balanced c' :=
  hc.move haccepted (fun n hn => by rw [hreported, howed n hn]) (fun n => by rw [hreported]) hstate

theorem Balanced.pop (hc : Balanced { c with queue := e :: c.queue })
    (he : ∀ n, n ≠ 0 → e.owes n = false) : Balanced c := by
  refine hc.shift (fun n hn => ?_) rfl rfl fun h => h
  simp [ClientChannel.owed, he n hn]

variable {handle : Nat}

theorem Balanced.pop_report (hc : Balanced { c with queue := e :: c.queue })
    (he : e.owed = some handle) (r : Report) : Balanced (c.report r handle) := by
  refine hc.move rfl (fun n hn => ?_) (fun n => ?_) (fun h => h)
  · rw [reported_report]
    simp [ClientChannel.owed, ClientChannel.reported, ClientChannel.report, owes, he]
    omega
  · rw [reported_report]; exact Nat.le_add_right _ _

theorem Balanced.pop_idle (hc : Balanced { c with queue := e :: c.queue })
    (hidle : c.state.isScConnected = false) : Balanced c := by
  apply hc.pop
  intro n hn; have howed := hc.idle hidle n hn
  simp only [ClientChannel.owed, owedEvents_cons] at howed
  cases he : e.owes n with
  | false => rfl
  | true => rw [he] at howed; simp at howed

def RequestFound.owes (handle : Nat) : RequestFound → Bool
  | .complete r => r.owes handle
  | _ => false

variable {requestId : Nat}

variable {requests requests' : List SentRequest} {msgType : MsgType} {isFinal : IsFinal}
  {prepended valid : Bool} {parts : List ReceivedPart}

theorem findRequest_owed
    {found : RequestFound}
    (hregular : msgType = .msg → isFinal = .intermediate → prepended = true)
    (h : findRequest requests requestId msgType isFinal prepended = (requests', found)) (n : Nat) :
    owedRequests n requests = owedRequests n requests' + (found.owes n).toNat := by
  unfold findRequest at h
  split at h
  · cases h; simp [RequestFound.owes]
  rename_i r hr; have hcount := countP_of_find? (q := SentRequest.owes n) hr
  rw [← owedRequests, ← owedRequests] at hcount
  split at h
  · cases h; simp [RequestFound.owes, hcount, Nat.add_comm]
  rename_i htype
  split at h
  · rename_i hintermediate
    split at h
    · cases h; simp [RequestFound.owes, hcount]
    -- the request is lost, which matters for a message only
    rename_i hprepended; cases h
    have hmsg : r.msgType ≠ .msg := by
      intro hmsg; rw [not_not.mp htype] at hmsg
      exact hprepended (hregular hmsg hintermediate)
    simp [RequestFound.owes, hcount, owes_of_not_msg hmsg]
  · cases h; simp [RequestFound.owes, hcount, Nat.add_comm]

theorem findRequest_complete
        (h : findRequest requests requestId msgType isFinal prepended = (requests', .complete r)) :
    r.msgType = msgType ∧ isFinal ≠ .intermediate := by
  unfold findRequest at h
  split at h
  · cases h
  split at h
  · cases h
  · rename_i htype
    split at h
    · split at h <;> cases h
    · rename_i hfinal; cases h; exact ⟨not_not.mp htype, hfinal⟩

theorem rcvEvent_owes (hexpired : r.timeoutExpired = false) (isFinal : IsFinal) (valid : Bool)
    (n : Nat) : (rcvEvent r isFinal valid).owes n = r.owes n := by
  by_cases hmsg : r.msgType = .msg
  · rw [owes_of_pending hmsg hexpired]
    by_cases habort : isFinal = .abort <;>
      simp [rcvEvent, hmsg, habort, owes, owed]
  · rw [owes_of_not_msg hmsg]; simp [rcvEvent, hmsg, owes, owed]

theorem treatParts_owed (n : Nat)
    (hregular : ∀ p ∈ parts, p.Regular) :
    owedRequests n (treatParts requests parts).requests +
      owedEvents n (treatParts requests parts).front +
      owedEvents n (treatParts requests parts).back = owedRequests n requests := by
  induction parts generalizing requests with
  | nil => rfl
  | cons p parts ih =>
    rw [forall_mem_cons] at hregular
    obtain ⟨hp, hparts⟩ := hregular
    cases p with
    | refused => simp [treatParts, owes, owed]
    | ack | err =>
      have hrest := @ih requests hparts
      simpa [treatParts, owes, owed] using hrest
    | chunk requestId msgType isFinal prepended completed valid =>
      rw [treatParts]
      rcases hfind : findRequest requests requestId msgType isFinal prepended with ⟨requests', found⟩
      have hprepended : msgType = .msg → isFinal = .intermediate → prepended = true := by
        intro hmsg hintermediate; have hp' := hp hmsg
        rwa [if_pos hintermediate] at hp'
      rw [findRequest_owed hprepended hfind n]
      cases found with
      | failure => simp [RequestFound.owes, owes, owed]
      | intermediate =>
        dsimp only
        split
        · rw [ih hparts]; rfl
        · simp [RequestFound.owes, owes, owed]
      | complete r =>
        obtain ⟨htype, hfinal⟩ := findRequest_complete hfind
        have hrest := @ih requests' hparts
        dsimp only [RequestFound.owes]
        split
        · split
          · rename_i hexpired; rw [hrest, owes_of_expired hexpired]; rfl
          · rename_i hexpired; dsimp only
            rw [owedEvents_cons, rcvEvent_owes (Bool.not_eq_true _ ▸ hexpired)]
            omega
        · -- only a response that is not a message may be lost here
          rename_i hcompleted
          have hmsg : r.msgType ≠ .msg := by
            intro hmsg; have hp' := hp (htype ▸ hmsg)
            rw [if_neg hfinal] at hp'
            exact hcompleted hp'
          simp [owes_of_not_msg hmsg, owes, owed]

theorem expireRequest_owed (n : Nat)
    (h : requests.find? (fun r => r.requestId == requestId) = some r) :
    owedRequests n requests = owedRequests n (expireRequest requestId requests) +
      (r.owes n).toNat := by
  induction requests with
  | nil => cases h
  | cons x requests ih =>
    by_cases hx : (x.requestId == requestId) = true
    · rw [find?_cons_of_pos (by simpa using hx)] at h
      obtain rfl : x = r := Option.some.inj h
      have hexpired : SentRequest.owes n { x with timeoutExpired := true } = false :=
        owes_of_expired rfl n
      rw [expireRequest, if_pos hx, owedRequests_cons, owedRequests_cons, hexpired]
      simp [Nat.add_comm]
    · rw [find?_cons_of_neg (by simpa using hx)] at h
      rw [expireRequest, if_neg hx, owedRequests_cons, owedRequests_cons, ih h]
      omega

theorem timeout_balanced (hc : Balanced c)
    (h : ∀ r, c.sentRequests.find? (fun r => r.requestId == requestId) = some r →
      r.msgType = .msg → r.timeoutExpired = false) : Balanced (c.timeout requestId) := by
  unfold ClientChannel.timeout
  split
  · exact hc
  split
  · exact hc
  rename_i r hr
  have hexpire := fun n => expireRequest_owed n hr
  split
  · rename_i hmsg
    refine hc.move rfl (fun n hn => ?_) (fun n => ?_) (fun h => h)
    · have he := hexpire n
      rw [owes_of_pending hmsg (h r hr hmsg)] at he
      rw [reported_report]
      simp only [ClientChannel.owed, ClientChannel.reported, ClientChannel.report]
      omega
    · rw [reported_report]; exact Nat.le_add_right _ _
  · rename_i hmsg; refine hc.shift (fun n hn => ?_) rfl rfl fun h => h
    have he := hexpire n
    rw [owes_of_not_msg hmsg] at he
    simp only [ClientChannel.owed]
    simp only [Bool.toNat_false, Nat.add_zero] at he
    omega

theorem renew_balanced (hc : Balanced c) (h : c.Regular env .opnRenew) :
    Balanced (c.renew env) := by
  unfold ClientChannel.renew
  split
  · rename_i hconnected
    split
    · refine hc.move rfl (fun n hn => ?_) (fun n => le_rfl) (fun h => ?_)
      · simp [ClientChannel.owed, ClientChannel.reported, owes, owed]
      · simp [ChannelState.isScConnected] at h
    · rename_i hencoded
      exact closeSecureConnection_balanced hc
        (h.1 false (by simp [ClientChannel.closing, hconnected, hencoded]))
  · exact hc

theorem recordSent_owed (c : ClientChannel) (msgType : MsgType) (handle n : Nat) :
    (c.recordSent msgType handle).owed n =
      c.owed n + (msgType == .msg && handle == n).toNat := by
  simp [ClientChannel.recordSent, ClientChannel.owed, SentRequest.owes]
  omega

theorem sendMsg_balanced (hc : Balanced { c with queue := .sndMsgChunks handle :: c.queue }) :
    Balanced (c.sendMsg env handle) := by
  by_cases hclosed : c.state = .closed
  · rw [ClientChannel.sendMsg, if_pos hclosed]; exact hc.pop_idle (by rw [hclosed]; rfl)
  rw [ClientChannel.sendMsg, if_neg hclosed]
  split
  · refine hc.shift (fun n hn => ?_) rfl rfl fun h => h
    rw [recordSent_owed]
    simp [ClientChannel.owed, owes, owed]
    omega
  · refine hc.shift (fun n hn => ?_) rfl rfl fun h => h
    simp [ClientChannel.owed, owes, owed]
    omega
  · refine hc.shift (fun n hn => ?_) rfl rfl fun h => h
    simp [ClientChannel.owed, owes, owed]

theorem fatalFailure_zero_owes {n : Nat} (hn : n ≠ 0) :
    (sndFatalFailure 0).owes n = false := by
  simp [owes, owed, hn.symm]

theorem sendOpn_balanced (hc : Balanced c) : Balanced (c.sendOpn env) := by
  unfold ClientChannel.sendOpn
  split
  · exact hc
  · split
    · refine hc.shift (fun n hn => ?_) rfl rfl fun h => h; rw [recordSent_owed]; rfl
    · refine hc.shift (fun n hn => ?_) rfl rfl fun h => h
      simp [ClientChannel.owed, fatalFailure_zero_owes hn]

theorem sendHel_balanced (hc : Balanced c) : Balanced (c.sendHel env) := by
  unfold ClientChannel.sendHel
  split
  · exact hc
  · refine hc.shift (fun n hn => ?_) rfl rfl fun h => h
    simp [ClientChannel.owed, fatalFailure_zero_owes hn]

theorem sendClo_balanced (hc : Balanced c) : Balanced (c.sendClo env) := by
  unfold ClientChannel.sendClo
  split
  · exact hc
  · exact hc.shift (fun n hn => rfl) rfl rfl fun h => h

theorem rcvAck_balanced (hc : Balanced c) (h : c.Regular env (.rcvAck valid)) :
    Balanced (c.rcvAck env valid) := by
  unfold ClientChannel.rcvAck
  split
  · rename_i hack
    refine hc.move rfl (fun n hn => ?_) (fun n => le_rfl) (fun _ => ?_)
    · simp [ClientChannel.owed, ClientChannel.reported, owes, owed]
    · rw [hack.1]; rfl
  · rename_i hack
    exact closeSecureConnection_balanced hc (h.1 false (by simp [ClientChannel.closing, hack]))

theorem rcvOpn_balanced (hc : Balanced c) (h : c.Regular env (.rcvOpn valid)) :
    Balanced (c.rcvOpn env valid) := by
  unfold ClientChannel.rcvOpn
  split
  · exact hc.move rfl (fun n hn => rfl) (fun n => le_rfl) (fun h => by cases h)
  · rename_i hopn
    exact closeSecureConnection_balanced hc (h.1 false (by simp [ClientChannel.closing, hopn]))

theorem socketConnected_balanced (hc : Balanced c) (h : c.Regular env .socketConnection) :
    Balanced (c.socketConnected env) := by
  unfold ClientChannel.socketConnected
  split
  · rename_i hinit
    split
    · refine hc.move rfl (fun n hn => ?_) (fun n => le_rfl) (fun _ => ?_)
      · simp [ClientChannel.owed, ClientChannel.reported, owes, owed]
      · rw [hinit]; rfl
    · rename_i hencoded
      exact closeSecureConnection_balanced hc
        (h.1 false (by simp [ClientChannel.closing, hinit, hencoded]))
  · exact hc

theorem serviceSndMsg_balanced (hc : Balanced c) : Balanced (c.serviceSndMsg handle) := by
  unfold ClientChannel.serviceSndMsg
  split
  · rename_i hconnected
    refine ⟨fun n hn => ?_, fun hidle => ?_⟩
    · have hbalance := hc.balance n hn
      simp only [ClientChannel.owed, ClientChannel.reported] at hbalance ⊢
      rw [count_append, count_singleton, owedEvents_append, hbalance]
      by_cases hhandle : handle = n
      · simp [owes, owed, hhandle]; omega
      · simp [owes, owed, hhandle]
    · rw [hconnected] at hidle; cases hidle
  · refine ⟨fun n hn => ?_, hc.idle⟩
    have hbalance := hc.balance n hn
    simp only [ClientChannel.owed, ClientChannel.reported, ClientChannel.report] at hbalance ⊢
    rw [count_append, count_singleton, hbalance]
    by_cases hhandle : handle = n
    · simp [hhandle]; omega
    · simp [hhandle]

theorem rcvBytes_balanced (hc : Balanced c)
    (h : ∀ p ∈ parts, p.Regular) : Balanced (c.handle env (.rcvBytes parts)) := by
  rw [ClientChannel.handle]
  split
  · exact hc
  · refine hc.shift (fun n hn => ?_) rfl rfl fun h => h
    have howed := @treatParts_owed c.sentRequests parts n h
    simp only [ClientChannel.owed, owedEvents_append]
    omega

theorem handle_balanced (hc : Balanced { c with queue := e :: c.queue })
    (h : c.Regular env e) : Balanced (c.handle env e) := by
  cases e with
  | sndMsg handle => exact serviceSndMsg_balanced (hc.pop fun _ _ => rfl)
  | disconnect | socketFailure | rcvErr | rcvFailure | close =>
    exact closeSecureConnection_balanced (hc.pop fun _ _ => rfl) (h.1 _ rfl)
  | socketConnection => exact socketConnected_balanced (hc.pop fun _ _ => rfl) h
  | rcvBytes parts => exact rcvBytes_balanced (hc.pop fun _ _ => rfl) h.2
  | connectionTimeout =>
    have hpop := hc.pop fun _ _ => rfl
    rw [ClientChannel.handle]
    split
    · exact hpop
    · rename_i hstate
      exact closeSecureConnection_balanced hpop
        (h.1 false (by simp [ClientChannel.closing, hstate]))
  | opnRenew => exact renew_balanced (hc.pop fun _ _ => rfl) h
  | requestTimeout requestId => exact timeout_balanced (hc.pop fun _ _ => rfl) h.2
  | sndHel => exact sendHel_balanced (hc.pop fun _ _ => rfl)
  | sndOpn => exact sendOpn_balanced (hc.pop fun _ _ => rfl)
  | sndMsgChunks handle => exact sendMsg_balanced hc
  | sndClo => exact sendClo_balanced (hc.pop fun _ _ => rfl)
  | rcvAck valid => exact rcvAck_balanced (hc.pop fun _ _ => rfl) h
  | rcvOpn valid => exact rcvOpn_balanced (hc.pop fun _ _ => rfl) h
  | rcvMsgChunks handle =>
    rw [ClientChannel.handle]
    split
    · exact hc.pop_report rfl _
    · rename_i hidle
      exact closeSecureConnection_balanced (hc.pop_idle (Bool.not_eq_true _ ▸ hidle))
        (h.1 false (by simp [ClientChannel.closing, hidle]))
  | rcvMsgChunkAbort handle valid =>
    have hvalid : valid = true := h.2
    rw [ClientChannel.handle, if_pos hvalid]
    exact hc.pop_report rfl _
  | sndFatalFailure handle =>
    have hclose := h.1 false rfl
    exact closeSecureConnection_balanced (hc.pop_report rfl _) fun hnow =>
      ⟨(hclose hnow).1, (hclose hnow).2⟩
  | sentAbortFailure handle => exact hc.pop_report rfl _

theorem external_owes (he : e.isExternal = true) (n : Nat) : e.owes n = false := by
  cases e <;> first | rfl | cases he

theorem step_balanced {i : ChannelInput} (hc : Balanced c) (h : c.StepRegular i) :
    Balanced (c.step i) := by
  cases i with
  | post e he =>
    refine hc.shift (fun n hn => ?_) rfl rfl fun h => h
    simp [ClientChannel.step, ClientChannel.owed, external_owes he]
  | handle env =>
    rw [ClientChannel.step]
    split
    · exact hc
    rename_i e queue hqueue; have hregular := h e (by rw [hqueue]; rfl)
    rw [hqueue] at hregular
    apply handle_balanced (c := { c with queue := queue }) _ hregular
    rw [← hqueue]
    exact hc

end Handled

theorem initial_balanced : Balanced .initial :=
  ⟨fun _ _ => rfl, fun _ _ _ => rfl⟩

def RunRegular (c : ClientChannel) (inputs : List ChannelInput) : Prop :=
  Each (fun c i => some (ClientChannel.step c i)) ClientChannel.StepRegular c inputs

instance (c : ClientChannel) (inputs : List ChannelInput) : Decidable (RunRegular c inputs) :=
  Each.decidable c inputs

theorem run_balanced {inputs : List ChannelInput} (hc : Balanced c) (h : RunRegular c inputs) :
    Balanced (c.run inputs) := by
  obtain ⟨c', hrun, hc'⟩ := Each.foldlM_some (fun s i _ hs hi => ⟨_, rfl, step_balanced hs hi⟩) hc h
  have hfold : inputs.foldlM (fun c i => some (ClientChannel.step c i)) c = some (c.run inputs) :=
    foldlM_pure
  rw [hfold] at hrun
  cases hrun; exact hc'

/-- The services are never told twice about a request of a client channel, and they have been told
about each of them when the channel is closed. -/
theorem one_report_per_request (inputs : List ChannelInput) (h : RunRegular .initial inputs)
    (handle : Nat) (hhandle : handle ≠ 0) :
    let c := ClientChannel.initial.run inputs
    c.reported handle ≤ c.accepted.count handle ∧
      (c.state = .closed → c.reported handle = c.accepted.count handle) := by
  have hc := run_balanced initial_balanced h
  have hbalance := hc.balance handle hhandle
  refine ⟨by omega, fun hclosed => ?_⟩
  have howed := hc.idle (by rw [hclosed]; rfl) handle hhandle
  omega

def sendsAll : EventEnv := ⟨.sent, 0, true⟩

def establishedAndSent (handle : Nat) : List ChannelInput :=
  [.post .socketConnection rfl, .handle sendsAll, .handle sendsAll,
    .post (.rcvBytes [.ack true]) rfl, .handle sendsAll, .handle sendsAll, .handle sendsAll,
    .post (.rcvBytes [.chunk 1 .opn .final true true true]) rfl, .handle sendsAll,
    .handle sendsAll, .post (.sndMsg handle) rfl, .handle sendsAll, .handle sendsAll]

def answeredAndClosed (handle : Nat) : List ChannelInput :=
  establishedAndSent handle ++
    [.post (.rcvBytes [.chunk 2 .msg .final true true true]) rfl, .handle sendsAll,
      .handle sendsAll, .post .disconnect rfl, .handle sendsAll, .handle sendsAll, .handle sendsAll]

theorem answered_request_reported :
    (ClientChannel.initial.run (answeredAndClosed 5)).state = .closed ∧
      (ClientChannel.initial.run (answeredAndClosed 5)).reported 5 =
        (ClientChannel.initial.run (answeredAndClosed 5)).accepted.count 5 := by
  have hregular : RunRegular .initial (answeredAndClosed 5) := by decide
  exact ⟨rfl, (one_report_per_request _ hregular 5 (by decide)).2 rfl⟩

def timedOutThenClosed (handle : Nat) : List ChannelInput :=
  establishedAndSent handle ++
    [.post (.requestTimeout 2) rfl, .handle sendsAll, .post .socketFailure rfl, .handle sendsAll]

def closedBeforeSent (handle : Nat) : List ChannelInput :=
  establishedAndSent 1 ++
    [.post (.sndMsg handle) rfl, .post .socketFailure rfl, .handle sendsAll, .handle sendsAll,
      .handle sendsAll]

/-- One request is told twice, and one is never told. -/
theorem expired_request_reported_twice :
    (ClientChannel.initial.run (timedOutThenClosed 5)).reports =
        [(.requestTimeout, 5), (.sndFailure, 5)] ∧
      (ClientChannel.initial.run (timedOutThenClosed 5)).accepted = [5] ∧
      (ClientChannel.initial.run (closedBeforeSent 5)).state = .closed ∧
      (ClientChannel.initial.run (closedBeforeSent 5)).accepted = [1, 5] ∧
      (ClientChannel.initial.run (closedBeforeSent 5)).reports = [(.sndFailure, 1)] := by
  decide

end Channels
end S2OPC
