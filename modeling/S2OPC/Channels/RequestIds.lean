import S2OPC.Channels.SequenceNumbers

/-!
# S2OPC.Channels.RequestIds

The request ids of the chunks of a message.

A client goes on to the next id as soon as the sequence header of a last chunk is encoded, so that an
abort chunk that replaces a last chunk may have another id than the chunks before. The ids are used
in a cycle of `2 ^ 32 - 2`, whatever is pending.
-/

namespace S2OPC
namespace Channels

open List

open BodySize (CryptoSizes)

def idAfter (id : Nat) : Nat :=
  if (id + 1) % (2 ^ 32 - 1) = 0 then 1 else (id + 1) % (2 ^ 32 - 1)

def idAt (k : Nat) : Nat := 1 + k % (2 ^ 32 - 2)

theorem idAfter_idAt (k : Nat) : idAfter (idAt k) = idAt (k + 1) := by
  unfold idAfter idAt
  split <;> omega

theorem idAt_ne_zero (k : Nat) : idAt k ≠ 0 := by
  unfold idAt; omega

theorem idAt_ne {j k : Nat} (hjk : j < k) (hk : k < j + (2 ^ 32 - 2)) : idAt j ≠ idAt k := by
  unfold idAt; omega

theorem exists_idAt {id : Nat} (hpos : 0 < id) (hlt : id < 2 ^ 32 - 1) : ∃ k, id = idAt k := by
  refine ⟨id - 1, ?_⟩
  unfold idAt
  omega

structure IdKept (s s' : Sender) : Prop where
  id : ∀ requestIdOrHandle, s'.requestId requestIdOrHandle = s.requestId requestIdOrHandle
  requests : s'.sentRequests = s.sentRequests

structure IdUsed (s s' : Sender) : Prop where
  client : s.isServer = false
  id : s'.requestId 0 = idAfter (s.requestId 0)
  requests : ∃ added, s'.sentRequests = s.sentRequests ++ added ∧
    ∀ r ∈ added, r.requestId = s.requestId 0

theorem IdKept.refl (s : Sender) : IdKept s s := ⟨fun _ => rfl, rfl⟩

variable {s : Sender} {isFinal : IsFinal}

theorem IdKept.trans {s₁ s₂ : Sender} (h : IdKept s s₁) (h₁ : IdKept s₁ s₂) : IdKept s s₂ :=
  ⟨fun n => (h₁.id n).trans (h.id n), h₁.requests.trans h.requests⟩

theorem IdKept.used {s₁ s₂ : Sender} (h : IdKept s s₁) (hserver : s₁.isServer = s.isServer)
    (h₁ : IdUsed s₁ s₂) : IdUsed s s₂ := by
  refine ⟨hserver ▸ h₁.client, ?_, ?_⟩
  · rw [h₁.id, h.id]
  · rw [← h.requests, ← h.id]; exact h₁.requests

theorem requestId_client (h : s.isServer = false) (requestIdOrHandle : Nat) :
    s.requestId requestIdOrHandle = s.requestId 0 := by
  unfold Sender.requestId
  rw [h]
  rfl

theorem requestId_server (h : s.isServer = true) (requestIdOrHandle : Nat) :
    s.requestId requestIdOrHandle = requestIdOrHandle := by
  unfold Sender.requestId; rw [if_pos h]

theorem sequenced_kept (h : s.isServer = true ∨ isFinal = .intermediate) :
    IdKept s (s.sequenced isFinal) := by
  refine ⟨fun n => ?_, rfl⟩
  cases hserver : s.isServer with
  | true =>
    rw [requestId_server hserver, requestId_server ((sequenced_same s isFinal).isServer.trans hserver)]
  | false =>
    have hfinal : isFinal = .intermediate := by
      rcases h with h | h
      · rw [hserver] at h; cases h
      · exact h
    rw [hfinal]
    exact sequenced_requestId hserver

theorem sequenced_used (hclient : s.isServer = false) (hfinal : isFinal ≠ .intermediate) :
    IdUsed s (s.sequenced isFinal) := by
  refine ⟨hclient, ?_, [], (append_nil _).symm, by simp⟩
  simp only [Sender.sequenced, Sender.requestId, hclient, if_neg hfinal, idAfter]
  rfl

section

variable {env : SendEnv} {s s' : Sender} {requestIdOrHandle : Nat} {msgType : MsgType}
  {isFinal : IsFinal} {r : Except ChunkStatus (List UInt8)}

theorem ChunkSent.kept (h : ChunkSent env s requestIdOrHandle msgType isFinal s' r)
    (hkept : s.isServer = true ∨ isFinal = .intermediate) : IdKept s s' := by
  cases h with
  | early => exact .refl s
  | late => exact sequenced_kept hkept
  | sent bytes hrecord =>
    obtain ⟨added, rfl, -, hnone⟩ := recordRequest_added hrecord
    rw [hnone hkept, append_nil]
    exact sequenced_kept hkept

theorem ChunkSent.kept_or_used (h : ChunkSent env s requestIdOrHandle msgType isFinal s' r) :
    IdKept s s' ∨ IdUsed s s' := by
  by_cases hkept : s.isServer = true ∨ isFinal = .intermediate
  · exact .inl (h.kept hkept)
  rw [not_or, Bool.not_eq_true] at hkept
  obtain ⟨hclient, hfinal⟩ := hkept
  have hused := sequenced_used hclient hfinal
  cases h with
  | early => exact .inl (.refl s)
  | late => exact .inr hused
  | sent bytes hrecord =>
    obtain ⟨added, rfl, hid, -⟩ := recordRequest_added hrecord
    exact .inr ⟨hclient, hused.id, added, rfl, fun r hr =>
      (hid r hr).trans (requestId_client hclient _)⟩

end

section

variable {keys : SendKeys} {env : Nat → SendEnv} {abortEnv : SendEnv}
  {abortBody : ChunkStatus → Option (List UInt8)} {requestIdOrHandle : Nat} {msgType : MsgType}

def OneId (s : Sender) (requestIdOrHandle : Nat) (ws : List Wire) : Prop :=
  ∀ w ∈ ws, w.requestId = s.requestId requestIdOrHandle

theorem oneId_nil (s : Sender) : OneId s requestIdOrHandle [] :=
  fun _ h => absurd h not_mem_nil

variable {s : Sender}

theorem oneId_append {s₁ : Sender} {ws ws₁ : List Wire} (h : OneId s requestIdOrHandle ws)
    (hid : s₁.requestId requestIdOrHandle = s.requestId requestIdOrHandle)
    (h₁ : OneId s₁ requestIdOrHandle ws₁) : OneId s requestIdOrHandle (ws ++ ws₁) := by
  intro w hw
  rcases mem_append.mp hw with hw | hw
  · exact h w hw
  · exact (h₁ w hw).trans hid

theorem sentWires_oneId (s : Sender) (r : Except ChunkStatus (List UInt8)) :
    OneId s requestIdOrHandle (sentWires requestIdOrHandle s r) := by
  cases r with
  | error status => exact oneId_nil s
  | ok bytes => intro w hw; rw [mem_singleton.mp hw]

/-- What chunks that are sent in a row do: they have one id, which is kept where one of them
fails. -/
structure ChunksIds (requestIdOrHandle : Nat) (s : Sender) (ws : List Wire) (s' : Sender)
    (error : Option ChunkStatus) : Prop where
  one : OneId s requestIdOrHandle ws
  same : s.Same s'
  failed : error.isSome = true → IdKept s s'
  last : IdKept s s' ∨ IdUsed s s'

theorem row_ids {s' : Sender} {ws : List Wire} {error : Option ChunkStatus}
    (hrow : Row keys env requestIdOrHandle msgType s ws s' error)
    (hs : s.isServer = true ∨ Secures keys (env 0) s) :
    ChunksIds requestIdOrHandle s ws s' error := by
  induction hrow with
  | stop s status => exact ⟨oneId_nil s, .refl s, fun _ => .refl s, .inl (.refl s)⟩
  | @failed s s' n isFinal chunk status hkind h =>
    have hsent := treatSendBuffer_chunkSent h
    -- a failed final chunk is one of a server, or it failed before its sequence number was used
    have hkept : IdKept s s' := by
      rcases hkind with hkind | rfl
      · exact hsent.kept (.inr hkind)
      rcases hs with hserver | hsecures
      · exact hsent.kept (.inl hserver)
      obtain ⟨rfl, -⟩ | ⟨bytes, hok, -⟩ := treatSendBuffer_secured hsecures h
      · exact .refl _
      · cases hok
    exact ⟨oneId_nil s, hsent.same, fun _ => hkept, .inl hkept⟩
  | last h =>
    have hsent := treatSendBuffer_chunkSent h
    exact ⟨sentWires_oneId _ _, hsent.same, fun hsome => absurd hsome Bool.false_ne_true,
      hsent.kept_or_used⟩
  | next h hrow ih =>
    have hsent := treatSendBuffer_chunkSent h
    have hkept := hsent.kept (.inr rfl)
    have hrest := ih (hs.imp hsent.same.isServer.trans fun hs => hs.same hsent.same)
    exact ⟨oneId_append (sentWires_oneId _ _) (hkept.id _) hrest.one, hsent.same.trans hrest.same,
      fun hsome => hkept.trans (hrest.failed hsome),
      hrest.last.imp hkept.trans (hkept.used hsent.same.isServer)⟩

structure MessageIds (requestIdOrHandle : Nat) (s : Sender) (ws : List Wire) (s' : Sender) :
    Prop where
  one : OneId s requestIdOrHandle ws
  same : s.Same s'
  last : IdKept s s' ∨ IdUsed s s'

theorem message_ids {s s' : Sender} {body : List UInt8} {ws : List Wire} {outcome : SendOutcome}
    (h : body.length ≤ s.symmSecuMaxBodySize ∨ msgType ≠ .msg ∨ s.isServer = true ∨
      Secures keys (env 0) s)
    (hrow : MessageRow keys env abortEnv requestIdOrHandle msgType s body ws s' outcome) :
    MessageIds requestIdOrHandle s ws s' := by
  have hids : ∀ {ws s' error}, Row keys env requestIdOrHandle msgType s ws s' error →
      (body.length ≤ s.symmSecuMaxBodySize ∨ msgType ≠ .msg → ws = [] ∧ s' = s) →
      ChunksIds requestIdOrHandle s ws s' error := by
    intro ws s' error hrow hmany
    rcases or_assoc.mpr h with hsmall | hs
    · obtain ⟨rfl, rfl⟩ := hmany hsmall
      exact ⟨oneId_nil s', .refl s', fun _ => .refl s', .inl (.refl s')⟩
    · exact row_ids hrow hs
  cases hrow with
  | single h =>
    have hsent := treatSendBuffer_chunkSent h
    exact ⟨sentWires_oneId s _, hsent.same, hsent.kept_or_used⟩
  | row hrow hmany => exact ⟨(hids hrow hmany).one, (hids hrow hmany).same, (hids hrow hmany).last⟩
  | aborted hrow hmany h =>
    have hsent := treatSendBuffer_chunkSent h
    have hchunks := hids hrow hmany
    have hkept := hchunks.failed rfl
    exact ⟨oneId_append hchunks.one (hkept.id _) (sentWires_oneId _ _), hchunks.same.trans hsent.same,
      hsent.kept_or_used.imp hkept.trans (hkept.used hchunks.same.isServer)⟩

end

theorem opn_ids (symmetric : CryptoSizes) (c : Channel) (a : OpnAttempt) :
    OneId c.sender.toSender a.requestIdOrHandle (c.sendOpn symmetric a).2 ∧
      (c.sendOpn symmetric a).1.sender.isServer = c.sender.isServer ∧
      (IdKept c.sender.toSender (c.sendOpn symmetric a).1.sender.toSender ∨
        IdUsed c.sender.toSender (c.sendOpn symmetric a).1.sender.toSender) := by
  unfold Channel.sendOpn
  rcases treatSendBufferOPN_cases a.headers symmetric a.crypto a.env c.sender a.requestIdOrHandle
      a.body with ⟨-, status, hr⟩ | ⟨-, s₁, hset, hr⟩
  · rw [hr]; exact ⟨oneId_nil _, rfl, .inl (.refl _)⟩
  have hserver : s₁.isServer = c.sender.isServer := by rw [hset.sender]
  have hkept : IdKept c.sender.toSender s₁.toSender := by
    rw [hset.sender]
    exact ⟨fun _ => rfl, rfl⟩
  rcases hr with ⟨status, hr⟩ | ⟨security, z, size, -, -, -, hr⟩
  · rw [hr]; exact ⟨oneId_nil _, hserver, .inl hkept⟩
  have hsent := sendOpn_chunkSent a.crypto a.env s₁ a.requestIdOrHandle security
    (a.body ++ opnPadding a.crypto c.sender.mode z a.body) size
  have hlast := hsent.kept_or_used.imp hkept.trans (hkept.used hserver)
  have hsame := hsent.same.isServer.trans hserver
  rw [hr]
  rcases hsend : sendOpn a.crypto a.env s₁ a.requestIdOrHandle security
    (a.body ++ opnPadding a.crypto c.sender.mode z a.body) size with ⟨s', status | bytes⟩
  · rw [hsend] at hlast hsame; exact ⟨oneId_nil _, hsame, hlast⟩
  · rw [hsend] at hlast hsame; refine ⟨fun w hw => ?_, hsame, hlast⟩; rw [mem_singleton.mp hw]

/-- The ids of the pending requests lie before the next one, in a stretch of at most `n` ids from the
one at `first`. A server has no such requests. -/
structure IdInv (first n : Nat) (s : Sender) : Prop where
  server : s.isServer = true → s.sentRequests = []
  client : s.isServer = false → ∃ k, first ≤ k ∧ k ≤ first + n ∧ s.requestId 0 = idAt k ∧
    ∀ r ∈ s.sentRequests, ∃ j, first ≤ j ∧ j < k ∧ r.requestId = idAt j

section

variable {first n : Nat} {s s' : Sender}

theorem IdInv.kept (h : IdInv first n s) (hserver : s'.isServer = s.isServer)
    (hid : s'.requestId 0 = s.requestId 0)
    (hrequests : ∀ r' ∈ s'.sentRequests, ∃ r ∈ s.sentRequests, r'.requestId = r.requestId) :
    IdInv first (n + 1) s' := by
  constructor
  · intro hs; rw [hserver] at hs
    refine eq_nil_iff_forall_not_mem.mpr fun r' hr' => ?_
    obtain ⟨r, hr, -⟩ := hrequests r' hr'
    rw [h.server hs] at hr
    cases hr
  · intro hc; rw [hserver] at hc
    obtain ⟨k, hfirst, hk, hnext, hpending⟩ := h.client hc
    refine ⟨k, hfirst, by omega, hid.trans hnext, fun r' hr' => ?_⟩
    obtain ⟨r, hr, heq⟩ := hrequests r' hr'
    rw [heq]
    exact hpending r hr

theorem IdInv.used (h : IdInv first n s) (hserver : s'.isServer = s.isServer)
    (hused : IdUsed s s') : IdInv first (n + 1) s' := by
  constructor
  · intro hs; rw [hserver, hused.client] at hs; cases hs
  intro _; obtain ⟨k, hfirst, hk, hnext, hpending⟩ := h.client hused.client
  obtain ⟨added, hadded, hid⟩ := hused.requests
  refine ⟨k + 1, by omega, by omega, ?_, ?_⟩
  · rw [hused.id, hnext, idAfter_idAt]
  · intro r hr; rw [hadded] at hr
    rcases mem_append.mp hr with hr | hr
    · obtain ⟨j, hj, hjk, heq⟩ := hpending r hr; exact ⟨j, hj, by omega, heq⟩
    · exact ⟨k, hfirst, by omega, (hid r hr).trans hnext⟩

theorem IdInv.kept_or_used (h : IdInv first n s) (hserver : s'.isServer = s.isServer)
    (hlast : IdKept s s' ∨ IdUsed s s') : IdInv first (n + 1) s' := by
  rcases hlast with hkept | hused
  · refine h.kept hserver (hkept.id 0) fun r hr => ?_
    rw [hkept.requests] at hr
    exact ⟨r, hr, rfl⟩
  · exact h.used hserver hused

def Consistent (s : Sender) (ws : List Wire) : Prop :=
  ∀ w ∈ ws, w.requestId ≠ 0 ∧ (∀ w' ∈ ws, w'.requestId = w.requestId) ∧
    ∀ r ∈ s.sentRequests, r.requestId ≠ w.requestId

theorem IdInv.consistent (h : IdInv first n s) (hn : n < 2 ^ 32 - 2) {requestIdOrHandle : Nat}
    (hanswered : s.isServer = true → requestIdOrHandle ≠ 0) {ws : List Wire}
    (hone : OneId s requestIdOrHandle ws) : Consistent s ws := by
  intro w hw; rw [hone w hw]
  refine ⟨?_, hone, ?_⟩
  · cases hserver : s.isServer with
    | true => rw [requestId_server hserver]; exact hanswered hserver
    | false =>
      obtain ⟨k, -, -, hnext, -⟩ := h.client hserver
      rw [requestId_client hserver, hnext]
      exact idAt_ne_zero k
  · intro r hr
    cases hserver : s.isServer with
    | true => rw [h.server hserver] at hr; cases hr
    | false =>
      obtain ⟨k, -, hk, hnext, hpending⟩ := h.client hserver
      obtain ⟨j, hj, hjk, heq⟩ := hpending r hr
      rw [requestId_client hserver, hnext, heq]
      exact idAt_ne hjk (by omega)

end

/-- What is asked of an event: a server answers requests with an id that is not zero, and the last
chunk of a request in several chunks does not fail behind its sequence number. -/
def IdCondition (c : Channel) : SendEvent → Prop
  | .opn a => c.sender.isServer = true → a.requestIdOrHandle ≠ 0
  | .msg m =>
    (c.sender.isServer = true → m.requestIdOrHandle ≠ 0) ∧
      (m.body.length ≤ c.sender.symmSecuMaxBodySize ∨ c.sender.isServer = true ∨
        Secures m.keys (m.env 0) c.sender.toSender)
  | _ => True

theorem mem_expireRequest {id : Nat} {r' : SentRequest} {requests : List SentRequest}
    (h : r' ∈ expireRequest id requests) : ∃ r ∈ requests, r'.requestId = r.requestId := by
  fun_induction expireRequest id requests with
  | case1 => cases h
  | case2 r requests hid =>
    rcases mem_cons.mp h with rfl | h
    · exact ⟨r, mem_cons_self, rfl⟩
    · exact ⟨r', mem_cons_of_mem r h, rfl⟩
  | case3 r requests hid ih =>
    rcases mem_cons.mp h with rfl | h
    · exact ⟨r', mem_cons_self, rfl⟩
    · obtain ⟨r₁, hr₁, heq⟩ := ih h; exact ⟨r₁, mem_cons_of_mem r hr₁, heq⟩

theorem sendMsg_sender (c : Channel) (m : Message) :
    (c.sendMsg m).1.sender.toSender =
      (treatSendMessageBuffer m.keys m.env m.abortEnv m.abortBody c.sender.toSender
        m.requestIdOrHandle .msg m.body).1 := by
  unfold Channel.sendMsg
  dsimp only
  cases (treatSendMessageBuffer m.keys m.env m.abortEnv m.abortBody c.sender.toSender
    m.requestIdOrHandle .msg m.body).2.2 <;> rfl

def StepIds (first n : Nat) (c : Channel) (r : Channel × List Wire) : Prop :=
  IdInv first (n + 1) r.1.sender.toSender ∧ Consistent c.sender.toSender r.2

section

variable {symmetric : CryptoSizes} {c : Channel} {first n : Nat}

theorem stepIds_silent {c' : Channel} (h : IdInv first n c.sender.toSender)
    (hserver : c'.sender.isServer = c.sender.isServer)
    (hid : c'.sender.requestId 0 = c.sender.requestId 0)
    (hrequests : ∀ r' ∈ c'.sender.sentRequests, ∃ r ∈ c.sender.sentRequests,
      r'.requestId = r.requestId) : StepIds first n c (c', []) :=
  ⟨h.kept hserver hid hrequests, fun _ hw => absurd hw not_mem_nil⟩

theorem sendMsg_ids {m : Message} (h : IdInv first n c.sender.toSender) (hn : n < 2 ^ 32 - 2)
    (hcond : IdCondition c (.msg m)) : StepIds first n c (c.sendMsg m) := by
  have hids := message_ids (hcond.2.imp id .inr) (message_row m.keys m.env m.abortEnv m.abortBody
    m.requestIdOrHandle .msg c.sender.toSender m.body)
  refine ⟨?_, h.consistent hn hcond.1 hids.one⟩
  rw [sendMsg_sender]
  exact h.kept_or_used hids.same.isServer hids.last

theorem sendClo_ids (m : Message) (h : IdInv first n c.sender.toSender) (hn : n < 2 ^ 32 - 2)
    (hclient : c.sender.isServer = false) : StepIds first n c (c.sendClo m) := by
  have hids := message_ids (.inr (.inl (by decide))) (message_row m.keys m.env m.abortEnv m.abortBody
    m.requestIdOrHandle .clo c.sender.toSender m.body)
  refine ⟨h.kept_or_used hids.same.isServer hids.last, h.consistent hn ?_ hids.one⟩
  intro hserver; rw [hclient] at hserver
  cases hserver

theorem sendOpn_ids {a : OpnAttempt} (h : IdInv first n c.sender.toSender) (hn : n < 2 ^ 32 - 2)
    (hcond : IdCondition c (.opn a)) : StepIds first n c (c.sendOpn symmetric a) := by
  obtain ⟨hone, hserver, hlast⟩ := opn_ids symmetric c a
  exact ⟨h.kept_or_used hserver hlast, h.consistent hn hcond hone⟩

end

def ClosedByClient (c : Channel) : Prop := c.phase = .closing → c.sender.isServer = false

theorem step_ids {symmetric : CryptoSizes} {c : Channel} {e : SendEvent} {first n : Nat}
    (h : IdInv first n c.sender.toSender) (hclosing : ClosedByClient c) (hn : n < 2 ^ 32 - 2)
    (hcond : IdCondition c e) : StepIds first n c (c.step symmetric e) := by
  have hidle : StepIds first n c (c, []) := stepIds_silent h rfl rfl fun r hr => ⟨r, hr, rfl⟩
  unfold Channel.step
  cases hphase : c.phase with
  | closed => exact hidle
  | closing =>
    cases e with
    | clo m => exact sendClo_ids m h hn (hclosing hphase)
    | _ => exact hidle
  | opened =>
    cases e with
    | opn a => exact sendOpn_ids h hn hcond
    | msg m => exact sendMsg_ids h hn hcond
    | clo m =>
      dsimp only
      split
      · exact hidle
      · rename_i hclient; exact sendClo_ids m h hn (Bool.not_eq_true _ ▸ hclient)
    | tokens | disconnected => exact stepIds_silent h rfl rfl fun r hr => ⟨r, hr, rfl⟩
    | answered requestId =>
      exact stepIds_silent h rfl rfl fun r hr => ⟨r, mem_of_mem_eraseP hr, rfl⟩
    | expired requestId => exact stepIds_silent h rfl rfl fun r hr => mem_expireRequest hr

theorem failed_closedByClient (s : OpnSender) : ClosedByClient (.failed s) := by
  unfold ClosedByClient Channel.failed
  cases hserver : s.isServer with
  | true => intro hphase; cases hphase
  | false => exact fun _ => rfl

theorem step_closedByClient {symmetric : CryptoSizes} {c : Channel} (e : SendEvent)
    (h : ClosedByClient c) : ClosedByClient (c.step symmetric e).1 := by
  have hclosed : ∀ {c' : Channel}, c'.phase = .closed → ClosedByClient c' := by
    intro c' hclosed hclosing; rw [hclosed] at hclosing
    cases hclosing
  have hopened : ∀ {c' : Channel}, c'.phase = .opened → ClosedByClient c' := by
    intro c' hopened hclosing; rw [hopened] at hclosing
    cases hclosing
  unfold Channel.step
  cases hphase : c.phase with
  | closed => exact h
  | closing =>
    cases e with
    | clo m => exact hclosed rfl
    | _ => exact h
  | opened =>
    cases e with
    | opn a =>
      dsimp only
      unfold Channel.sendOpn
      rcases treatSendBufferOPN a.headers symmetric a.crypto a.env c.sender a.requestIdOrHandle a.body
        with ⟨s, status | bytes⟩
      · exact failed_closedByClient s
      · exact hopened hphase
    | msg m =>
      unfold Channel.sendMsg
      dsimp only
      cases (treatSendMessageBuffer m.keys m.env m.abortEnv m.abortBody c.sender.toSender
        m.requestIdOrHandle .msg m.body).2.2 with
      | failed status => exact failed_closedByClient _
      | sent => exact hopened hphase
      | aborted status => exact hopened hphase
    | clo m =>
      dsimp only
      split
      · exact h
      · exact hclosed rfl
    | disconnected => exact hclosed rfl
    | _ => exact hopened hphase

theorem run_ids {symmetric : CryptoSizes} {first : Nat} {events : List SendEvent} {n : Nat}
    {c : Channel} (hinv : IdInv first n c.sender.toSender) (hclosing : ClosedByClient c)
    (hn : n + events.length ≤ 2 ^ 32 - 2) (heach : EachEvent symmetric IdCondition c events) :
    EachEvent symmetric (fun c e => Consistent c.sender.toSender (c.step symmetric e).2) c
      events := by
  induction events generalizing n c with
  | nil => trivial
  | cons e events ih =>
    rw [length_cons] at hn
    obtain ⟨hnext, hconsistent⟩ := step_ids hinv hclosing (by omega) heach.1
    refine ⟨hconsistent, fun c' hc' => ?_⟩
    have hrest := heach.2 c' hc'
    cases hc'; exact ih hnext (step_closedByClient e hclosing) (by omega) hrest

/-- The request ids from any moment on at which no request is pending, over fewer events than there
are ids: the chunks of each message have one id, not zero, and different from that of every pending
request. -/
theorem request_ids {symmetric : CryptoSizes} {c : Channel} {events : List SendEvent}
    (hopen : c.phase = .opened) (hpending : c.sender.sentRequests = [])
    (hnext : c.sender.clientNextReqId < 2 ^ 32 - 1) (hlength : events.length ≤ 2 ^ 32 - 2)
    (h : EachEvent symmetric IdCondition c events) :
    EachEvent symmetric (fun c e => Consistent c.sender.toSender (c.step symmetric e).2) c
      events := by
  have hclosing : ClosedByClient c := by intro hphase; rw [hopen] at hphase; cases hphase
  obtain ⟨first, hfirst⟩ := @exists_idAt
    (if c.sender.clientNextReqId = 0 then 1 else c.sender.clientNextReqId)
    (by split <;> omega) (by split <;> omega)
  refine @run_ids symmetric first events 0 c ⟨fun _ => hpending, ?_⟩ hclosing (by omega) h
  intro hclient
  refine ⟨first, Nat.le_refl _, Nat.le_refl _, ?_, ?_⟩
  · unfold Sender.requestId; rw [hclient, ← hfirst]; rfl
  · intro r hr; rw [hpending] at hr; cases hr

theorem request_ids_request :
    EachEvent (BodySize.symmetricSizes .basic256Sha256 false)
      (fun c e => Consistent c.sender.toSender
        (c.step (BodySize.symmetricSizes .basic256Sha256 false) e).2) signChannel
      [.msg (signedRequest 8137 fun _ => false), .expired 2, .disconnected] := by
  refine request_ids rfl rfl (by decide) (by decide) ⟨⟨fun h => absurd h Bool.false_ne_true, ?_⟩, ?_⟩
  · exact .inr (.inr (signedRequest_secures 8137))
  · exact fun _ _ => ⟨trivial, fun _ _ => ⟨trivial, fun _ _ => trivial⟩⟩

/-- The last chunk of a request in two chunks cannot be signed: the abort chunk has the id of the
next request. -/
theorem failed_signature_changes_id :
    (signChannel.run (BodySize.symmetricSizes .basic256Sha256 false)
        [.msg (signedRequest 8137 fun data => data.length == 25)]).2.map Wire.requestId = [2, 3] := by
  decide +kernel

end Channels
end S2OPC
