import S2OPC.Channels.SendRun

/-!
# S2OPC.Channels.SequenceNumbers

The sequence numbers on the wire against the check of the receiver.

A sequence number is used up as soon as the sequence header of a chunk is encoded. Where a later part
of the chunk fails, its number never reaches the wire, and the abort chunk or the `CLO` message that
is sent next has the number behind it.
-/

namespace S2OPC
namespace Channels

open List

open BodySize (CryptoSizes)

def nextNumber (n : Nat) : Nat := if 2 ^ 32 - 1 - 1024 < n then 1 else n + 1

def Numbered : Nat → List Wire → Nat → Prop
  | n, [], m => m = n
  | n, w :: ws, m => w.seqNumber = nextNumber n ∧ Numbered (nextNumber n) ws m

variable {n size : Nat} {ws : List Wire} {s₁ : OpnSender} {z : CryptoSizes} {security : List UInt8}

theorem numbered_append {k m : Nat} {ws' : List Wire} (h : Numbered n ws k)
    (h' : Numbered k ws' m) : Numbered n (ws ++ ws') m := by
  induction ws generalizing n with
  | nil => rw [Numbered] at h; rwa [nil_append, ← h]
  | cons w ws ih => exact ⟨h.1, ih h.2⟩

def opnPlainLength (a : OpnAttempt) (mode : SecurityMode) (z : CryptoSizes) : Nat :=
  8 + a.body.length + (opnPadding a.crypto mode z a.body).length

structure OpnSecures (a : OpnAttempt) (s : OpnSender) : Prop where
  signs : isMsgSigned s.mode = true → ∀ z, a.crypto.sizes = some z → ∀ data, ∃ signature,
    a.crypto.sign data = some signature ∧ signature.length = opnSignatureSize s.mode z
  encrypts : isMsgEncrypted s.mode true = true → a.env.encryptAlloc = true ∧
    ∀ z, a.crypto.sizes = some z → ∀ data : List UInt8,
      data.length = opnPlainLength a s.mode z + opnSignatureSize s.mode z →
        ∃ cipher, a.crypto.encrypt data = some cipher
  fits : ∀ z security, a.crypto.sizes = some z →
    encodeAsymSecurityHeader s.mode a.headers = some security →
      12 + security.length + opnPlainLength a s.mode z + opnSignatureSize s.mode z ≤
          s.props.sendBufferSize ∧
        ∀ size, opnSize a.crypto s.mode z (12 + security.length) (opnPlainLength a s.mode z) =
          some size → size ≤ s.props.sendBufferSize
  records : s.isServer = false → a.env.contextAlloc = true

theorem length_opnHeader (s : Sender) (size : Nat) : (opnHeader s size).length = 12 := by
  simp [opnHeader, msgTypeBytes, Codec.length_leBytes]

variable {a : OpnAttempt} {s : OpnSender} {c : Channel} {conn' conn : Connection}

theorem OpnSecures.secured (h : OpnSecures a s) (hmode : s₁.mode = s.mode)
    (hprops : s₁.props = s.props)
    (hz : a.crypto.sizes = some z)
    (hsecurity : encodeAsymSecurityHeader s.mode a.headers = some security)
    (hsize : opnSize a.crypto s.mode z (12 + security.length) (opnPlainLength a s.mode z) =
      some size) {headers content : List UInt8} (hheaders : headers.length = 12 + security.length)
    (hcontent : content.length = opnPlainLength a s.mode z) :
    ∃ bytes, secureOpn a.crypto a.env s₁ headers content size = .ok bytes := by
  obtain ⟨hroom, hfits⟩ := h.fits z security hz hsecurity
  unfold secureOpn
  rw [hmode, hprops]
  cases hsign : isMsgSigned s.mode with
  | false => exact ⟨headers ++ content, rfl⟩
  | true =>
    obtain ⟨signature, hsignature, hlength⟩ := h.signs hsign z hz (headers ++ content)
    simp only [if_true, hsignature]
    rw [if_neg (by omega)]
    cases hencrypted : isMsgEncrypted s.mode true with
    | false => exact ⟨headers ++ content ++ signature, rfl⟩
    | true =>
      obtain ⟨halloc, hencrypt⟩ := h.encrypts hencrypted
      obtain ⟨cipher, hcipher⟩ := hencrypt z hz (content ++ signature)
        (by rw [length_append]; omega)
      have hbuffer := hfits size hsize
      rw [if_pos rfl, if_neg (by simp [halloc]; omega), hcipher]
      exact ⟨headers ++ cipher, rfl⟩

variable {symmetric : CryptoSizes}

theorem OpnSecures.sendOpn_ok (h : OpnSecures a s)
    (hset : s.SizesSet symmetric s₁)
    (hz : a.crypto.sizes = some z)
    (hsecurity : encodeAsymSecurityHeader s.mode a.headers = some security)
    (hsize : opnSize a.crypto s.mode z (12 + security.length)
      (8 + a.body.length + (opnPadding a.crypto s.mode z a.body).length) = some size) :
    ∃ s' bytes, sendOpn a.crypto a.env s₁ a.requestIdOrHandle security
      (a.body ++ opnPadding a.crypto s.mode z a.body) size = (s', .ok bytes) := by
  have hmode : s₁.mode = s.mode := by rw [hset.sender]
  have hprops : s₁.props = s.props := by rw [hset.sender]
  have hserver : s₁.isServer = s.isServer := by rw [hset.sender]
  have hheaders : (opnHeader s₁.toSender size ++ security).length = 12 + security.length := by
    rw [length_append, length_opnHeader]
  have hcontent : (Codec.leBytes 4 s₁.nextSN ++
      Codec.leBytes 4 (s₁.requestId a.requestIdOrHandle) ++
      (a.body ++ opnPadding a.crypto s.mode z a.body)).length = opnPlainLength a s.mode z := by
    simp only [opnPlainLength, length_append, Codec.length_leBytes]
    omega
  obtain ⟨bytes, hbytes⟩ := h.secured hmode hprops hz hsecurity hsize hheaders hcontent
  obtain ⟨sender, hrecord⟩ := @recordRequest_secured (s₁.toSender.sequenced .final) .final
    (s₁.requestId a.requestIdOrHandle) a.env .opn a.requestIdOrHandle
    (fun hclient => h.records (hserver.symm.trans hclient))
  refine ⟨{ s₁ with toSender := sender }, bytes, ?_⟩
  simp only [sendOpn, hbytes, hrecord]

section

variable {keys : SendKeys} {env : Nat → SendEnv} {abortEnv : SendEnv}
  {abortBody : ChunkStatus → Option (List UInt8)} {requestIdOrHandle : Nat} {msgType : MsgType}

variable {s' : Sender} {ws : List Wire} {m : Message} {outcome : SendOutcome}

theorem chunk_numbered {chunkEnv : SendEnv} {s : Sender} {isFinal : IsFinal} {body : List UInt8}
    {r : Except ChunkStatus (List UInt8)} (hs : Secures keys chunkEnv s)
    (h : treatSendBuffer keys chunkEnv s requestIdOrHandle msgType isFinal body = (s', r)) :
    Numbered s.lastSNsent (sentWires requestIdOrHandle s r) s'.lastSNsent := by
  obtain ⟨rfl, status, rfl⟩ | ⟨bytes, rfl, hrecord⟩ := treatSendBuffer_secured hs h
  · exact rfl
  · obtain ⟨added, rfl, -⟩ := recordRequest_added hrecord; exact ⟨rfl, rfl⟩

theorem chunk_numbered_any (s : Sender) (r : Except ChunkStatus (List UInt8)) :
    ∃ m, Numbered s.lastSNsent (sentWires requestIdOrHandle s r) m := by
  cases r with
  | error status => exact ⟨s.lastSNsent, rfl⟩
  | ok bytes => exact ⟨s.nextSN, rfl, rfl⟩

theorem row_numbered {s : Sender} {error : Option ChunkStatus}
    (hrow : Row keys env requestIdOrHandle msgType s ws s' error) (hs : ∀ k, Secures keys (env k) s) :
    Numbered s.lastSNsent ws s'.lastSNsent ∧ s.Same s' := by
  induction hrow with
  | stop s status => exact ⟨rfl, .refl s⟩
  | failed _ h | last h =>
    exact ⟨chunk_numbered (hs _) h, (treatSendBuffer_chunkSent h).same⟩
  | next h hrow ih =>
    have hsame := (treatSendBuffer_chunkSent h).same
    obtain ⟨hrest, hsame'⟩ := ih fun k => (hs k).same hsame
    exact ⟨numbered_append (chunk_numbered (hs _) h) hrest, hsame.trans hsame'⟩

/-- The numbers of a message go on from the last one, up to that of the sender, or the message was
the last one of a server. -/
def MessageNumbered (s : Sender) (ws : List Wire) (s' : Sender) (outcome : SendOutcome) : Prop :=
  Numbered s.lastSNsent ws s'.lastSNsent ∨
    s'.isServer = true ∧ (∃ m, Numbered s.lastSNsent ws m) ∧ ∃ status, outcome = .failed status

/-- What is asked of a message: nothing of one in a single chunk that a server sends, since a failure
there is the end of the channel; of others that no chunk fails behind its sequence number. -/
def MessageSecures (m : Message) (s : Sender) : Prop :=
  (s.isServer = true ∧ m.body.length ≤ s.symmSecuMaxBodySize) ∨
    (∀ k, Secures m.keys (m.env k) s) ∧ (s.isServer = false → Secures m.keys m.abortEnv s)

theorem message_numbered {s : Sender}
    (h : MessageSecures m s)
    (hrow : MessageRow m.keys m.env m.abortEnv m.requestIdOrHandle .msg s m.body ws s' outcome) :
    MessageNumbered s ws s' outcome := by
  have hnumbered : ∀ {ws s' error}, Row m.keys m.env m.requestIdOrHandle .msg s ws s' error →
      (m.body.length ≤ s.symmSecuMaxBodySize ∨ MsgType.msg ≠ .msg → ws = [] ∧ s' = s) →
      Numbered s.lastSNsent ws s'.lastSNsent ∧ s.Same s' := by
    intro ws s' error hrow hmany
    rcases h with ⟨-, hsmall⟩ | ⟨hs, -⟩
    · obtain ⟨rfl, rfl⟩ := hmany (.inl hsmall); exact ⟨rfl, .refl s'⟩
    · exact row_numbered hrow hs
  -- a failed last chunk is left to servers
  have hend : ∀ {ws s₁ s' isFinal env body r outcome}, Numbered s.lastSNsent ws s₁.lastSNsent →
      s.Same s₁ → (s.isServer = false → Secures m.keys env s) →
      treatSendBuffer m.keys env s₁ m.requestIdOrHandle .msg isFinal body = (s', r) →
      (∀ status, r = .error status → outcome = .failed status) →
      MessageNumbered s (ws ++ sentWires m.requestIdOrHandle s₁ r) s' outcome := by
    intro ws s₁ s' isFinal env body r outcome hws hsame hs hr houtcome
    have hsent := treatSendBuffer_chunkSent hr
    cases hserver : s.isServer with
    | false => exact .inl (numbered_append hws (chunk_numbered ((hs hserver).same hsame) hr))
    | true =>
      cases r with
      | error status =>
        exact .inr ⟨(hsame.trans hsent.same).isServer.trans hserver, ⟨_, numbered_append hws rfl⟩,
          status, houtcome status rfl⟩
      | ok bytes =>
        cases hsent with
        | sent bytes hrecord =>
          obtain ⟨added, rfl, -⟩ := recordRequest_added hrecord
          exact .inl (numbered_append hws ⟨rfl, rfl⟩)
  have hclient : ∀ {P : Prop}, s.isServer = true ∧ P → s.isServer = false → False := by
    rintro P ⟨hserver, -⟩ hc; rw [hserver] at hc; cases hc
  cases hrow with
  | single hr houtcome =>
    exact @hend [] s _ _ _ _ _ _ rfl (.refl s)
      (fun hc => h.elim (fun hs => (hclient hs hc).elim) fun hs => hs.1 0) hr houtcome
  | row hrow hmany => exact .inl (hnumbered hrow hmany).1
  | aborted hrow hmany hr houtcome =>
    obtain ⟨hws, hsame⟩ := hnumbered hrow hmany
    exact hend hws hsame (fun hc => h.elim (fun hs => (hclient hs hc).elim) fun hs => hs.2 hc) hr
      houtcome

theorem clo_numbered {s : Sender}
    (h : MessageRow m.keys m.env m.abortEnv m.requestIdOrHandle .clo s m.body ws s' outcome) :
    ∃ n, Numbered s.lastSNsent ws n := by
  cases h with
  | single _ _ => exact chunk_numbered_any s _
  | row _ hmany => obtain ⟨rfl, -⟩ := hmany (.inr (by decide)); exact ⟨_, rfl⟩
  | aborted _ hmany _ _ =>
    obtain ⟨rfl, rfl⟩ := hmany (.inr (by decide)); exact chunk_numbered_any _ _

end

/-- What is asked of an event: the failure of an `OPN` message ends the channel of a server too. -/
def EventSecures (c : Channel) : SendEvent → Prop
  | .opn a => c.sender.isServer = true ∨ OpnSecures a c.sender
  | .msg m => MessageSecures m c.sender.toSender
  | _ => True

def StepNumbered (c : Channel) (r : Channel × List Wire) : Prop :=
  ∃ n, Numbered c.sender.lastSNsent r.2 n ∧ (r.1.phase ≠ .closed → r.1.sender.lastSNsent = n)

theorem failed_closed (h : s.isServer = true) : (Channel.failed s).phase = .closed := by
  unfold Channel.failed; rw [if_pos h]

theorem sendMsg_numbered {m : Message} (h : MessageSecures m c.sender.toSender) :
    StepNumbered c (c.sendMsg m) := by
  have hnumbered := message_numbered h (message_row m.keys m.env m.abortEnv m.abortBody
    m.requestIdOrHandle .msg c.sender.toSender m.body)
  unfold Channel.sendMsg
  rcases hr : treatSendMessageBuffer m.keys m.env m.abortEnv m.abortBody c.sender.toSender
    m.requestIdOrHandle .msg m.body with ⟨s', sent, outcome⟩
  rw [hr] at hnumbered
  rcases hnumbered with hnumbered | ⟨hserver, ⟨n, hnumbered⟩, status, houtcome⟩
  · refine ⟨s'.lastSNsent, hnumbered, fun _ => ?_⟩
    cases outcome <;> rfl
  · refine ⟨n, hnumbered, fun hopen => absurd ?_ hopen⟩
    subst houtcome; exact failed_closed hserver

theorem sendOpn_numbered (h : c.sender.isServer = true ∨ OpnSecures a c.sender) :
    StepNumbered c (c.sendOpn symmetric a) := by
  unfold Channel.sendOpn
  rcases treatSendBufferOPN_cases a.headers symmetric a.crypto a.env c.sender a.requestIdOrHandle
      a.body with ⟨-, status, hr⟩ | ⟨-, s₁, hset, hr⟩
  · rw [hr]; exact ⟨_, rfl, fun _ => rfl⟩
  have hSN : s₁.lastSNsent = c.sender.lastSNsent := by rw [hset.sender]
  rcases hr with ⟨status, hr⟩ | ⟨security, z, size, hsec, hz, hsize, hr⟩
  · rw [hr]; exact ⟨_, rfl, fun _ => hSN⟩
  rw [hr]
  rcases sendOpn_cases a.crypto a.env s₁ a.requestIdOrHandle security
      (a.body ++ opnPadding a.crypto c.sender.mode z a.body) size with
    ⟨status, hsend⟩ | ⟨sender, bytes, hsend, hrecord⟩
  · -- a failure behind the sequence number is left to servers
    rcases h with hserver | hsecures
    · rw [hsend]
      refine ⟨_, rfl, fun hopen => absurd (failed_closed ?_) hopen⟩
      show s₁.isServer = true
      rw [hset.sender]
      exact hserver
    · obtain ⟨sender, bytes, hok⟩ := hsecures.sendOpn_ok hset hz hsec hsize
      rw [hok] at hsend
      cases hsend
  · rw [hsend]
    refine ⟨c.sender.nextSN, ⟨rfl, rfl⟩, fun _ => ?_⟩
    obtain ⟨added, rfl, -⟩ := recordRequest_added hrecord
    show s₁.nextSN = nextNumber c.sender.lastSNsent
    rw [← hSN]
    rfl

theorem step_numbered {e : SendEvent} (h : EventSecures c e) :
    StepNumbered c (c.step symmetric e) := by
  have hidle : StepNumbered c (c, []) := ⟨_, rfl, fun _ => rfl⟩
  have hclo : ∀ m, StepNumbered c (c.sendClo m) := by
    intro m; obtain ⟨n, hn⟩ := clo_numbered (message_row m.keys m.env m.abortEnv m.abortBody
      m.requestIdOrHandle .clo c.sender.toSender m.body)
    exact ⟨n, hn, fun hopen => absurd rfl hopen⟩
  unfold Channel.step
  cases c.phase with
  | closed => exact hidle
  | closing =>
    cases e with
    | clo m => exact hclo m
    | _ => exact hidle
  | opened =>
    cases e with
    | opn a => exact sendOpn_numbered h
    | msg m => exact sendMsg_numbered h
    | clo m =>
      dsimp only
      split
      · exact hidle
      · exact hclo m
    | _ => exact ⟨_, rfl, fun _ => rfl⟩

theorem closed_run (h : c.phase = .closed) (events : List SendEvent) :
    (c.run symmetric events).2 = [] := by
  induction events with
  | nil => rfl
  | cons e events ih =>
    have hstep : c.step symmetric e = (c, []) := by unfold Channel.step; rw [h]
    simp [Channel.run, hstep, ih]

theorem run_numbered {events : List SendEvent} (h : EachEvent symmetric EventSecures c events) :
    ∃ n, Numbered c.sender.lastSNsent (c.run symmetric events).2 n := by
  induction events generalizing c with
  | nil => exact ⟨_, rfl⟩
  | cons e events ih =>
    obtain ⟨n, hn, hopen⟩ := step_numbered h.1
    by_cases hclosed : (c.step symmetric e).1.phase = .closed
    · refine ⟨n, ?_⟩; simp only [Channel.run, closed_run hclosed, append_nil]; exact hn
    · obtain ⟨k, hk⟩ := ih (h.2 _ rfl); rw [hopen hclosed] at hk; exact ⟨k, numbered_append hn hk⟩

def checkSeqNums (conn : Connection) (received : List (Bool × UInt32)) :
    Except ChunkStatus Connection :=
  received.foldlM (fun conn r => checkSeqNumReceived conn r.1 r.2.toNat) conn

def Wire.received (w : Wire) : Bool × UInt32 := (w.isOPN, UInt32.ofNat w.seqNumber)

def Wraps (a b : UInt32) : Prop := 2 ^ 32 - 1 - 1024 < a.toNat ∧ b.toNat < 1024

def Follows (a b : UInt32) : Prop := a + 1 = b ∨ Wraps a b

theorem checkSeqNumReceived_next (conn : Connection) (isOPN : Bool) :
    checkSeqNumReceived conn isOPN (nextNumber conn.lastSNreceived) =
      .ok { conn with lastSNreceived := nextNumber conn.lastSNreceived } := by
  unfold checkSeqNumReceived
  by_cases hopn : isOPN = true
  · rw [if_pos hopn]
  rw [if_neg hopn]
  by_cases hwrap : 2 ^ 32 - 1 - 1024 < conn.lastSNreceived
  · have hone : nextNumber conn.lastSNreceived = 1 := if_pos hwrap
    rw [hone, if_pos (show _ ∧ 1 < 1024 from ⟨hwrap, by decide⟩), ite_self]
  · have hnext : nextNumber conn.lastSNreceived = conn.lastSNreceived + 1 := if_neg hwrap
    rw [hnext, if_pos (Nat.mod_eq_of_lt (by omega))]

theorem nextNumber_lt (n : Nat) : nextNumber n < 2 ^ 32 := by
  unfold nextNumber
  split <;> omega

theorem checkSeqNums_numbered {conn : Connection}
    (h : Numbered conn.lastSNreceived ws n) :
    checkSeqNums conn (ws.map Wire.received) = .ok { conn with lastSNreceived := n } := by
  induction ws generalizing conn with
  | nil => rw [Numbered] at h; rw [h]; rfl
  | cons w ws ih =>
    obtain ⟨hw, hrest⟩ := h
    have hread : (UInt32.ofNat w.seqNumber).toNat = nextNumber conn.lastSNreceived := by
      rw [hw]
      exact UInt32.toNat_ofNat_of_lt (nextNumber_lt _)
    unfold checkSeqNums at ih ⊢
    rw [map_cons, foldlM_cons]
    simp only [Wire.received, hread, checkSeqNumReceived_next]
    exact ih hrest

theorem checkSeqNumReceived_last {isOPN : Bool}
    (h : checkSeqNumReceived conn isOPN n = .ok conn') : conn'.lastSNreceived = n := by
  unfold checkSeqNumReceived at h
  split at h
  · cases h; rfl
  split at h
  · cases h; rfl
  split at h
  · cases h; rfl
  · cases h

theorem checkSeqNumReceived_follows {last n : UInt32} (hlast : conn.lastSNreceived = last.toNat)
    (h : checkSeqNumReceived conn false n.toNat = .ok conn') : Follows last n := by
  unfold checkSeqNumReceived at h
  rw [if_neg Bool.false_ne_true, hlast] at h
  by_cases hnext : (last.toNat + 1) % 2 ^ 32 = n.toNat
  · left; rw [← UInt32.toNat_inj, UInt32.toNat_add, ← hnext]; rfl
  · rw [if_neg hnext] at h
    split at h
    · rename_i hwrap; exact .inr hwrap
    · cases h

theorem checkSeqNums_chain {received : List (Bool × UInt32)} {conn conn' : Connection}
    (h : checkSeqNums conn received = .ok conn')
    (hopn : received.IsChain (fun r r' => r'.1 = true → Follows r.2 r'.2)) :
    received.IsChain fun r r' => Follows r.2 r'.2 := by
  induction received generalizing conn with
  | nil => exact .nil
  | cons r received ih =>
    unfold checkSeqNums at h
    rw [foldlM_cons, Fallible.bind_eq_ok] at h
    obtain ⟨conn₁, hone, hrest⟩ := h
    cases received with
    | nil => exact .singleton r
    | cons r' received =>
      obtain ⟨hfirst, hopn⟩ := isChain_cons_cons.mp hopn
      refine isChain_cons_cons.mpr ⟨?_, ih hrest hopn⟩
      rw [foldlM_cons, Fallible.bind_eq_ok] at hrest
      obtain ⟨conn₂, htwo, -⟩ := hrest
      cases hr : r'.1 with
      | true => exact hfirst hr
      | false =>
        rw [hr] at htwo
        exact checkSeqNumReceived_follows (checkSeqNumReceived_last hone) htwo

theorem follows_lt {a b : UInt32} (h : Follows a b) (hwrap : ¬ Wraps a b) : a < b := by
  have ha := a.toNat_lt
  have hnext : (a + 1).toNat = (a.toNat + 1) % 2 ^ 32 := UInt32.toNat_add a 1
  rcases h with rfl | h
  · rw [UInt32.lt_iff_toNat_lt, hnext]; unfold Wraps at hwrap; omega
  · exact absurd h hwrap

theorem accepted_nodup {received between : List (Bool × UInt32)}
    (h : checkSeqNums conn received = .ok conn')
    (hopn : received.IsChain fun r r' => r'.1 = true → Follows r.2 r'.2)
    (hbetween : between <:+: received) (hwrap : between.IsChain fun r r' => ¬ Wraps r.2 r'.2) :
    (between.map Prod.snd).Nodup := by
  obtain ⟨before, after, rfl⟩ := hbetween
  have hfollows := (checkSeqNums_chain h hopn).left_of_append.right_of_append
  have hup : (between.map Prod.snd).IsChain (· < ·) := by
    rw [isChain_map]
    rw [isChain_iff_forall_rel_of_append_cons_cons] at hfollows hwrap ⊢
    intro a b l₁ l₂ hsplit; exact follows_lt (hfollows hsplit) (hwrap hsplit)
  exact (isChain_iff_pairwise.mp hup).imp UInt32.ne_of_lt

/-- The sequence numbers of a run in which nothing fails behind a sequence number, but at the end of
a server's channel: they are consecutive, and a receiver that has the last number accepts all of
them. A receiver that is sent `OPN` messages with numbers in sequence never accepts a number twice
between two wraps. -/
theorem sequence_numbers {symmetric : CryptoSizes} {c : Channel} {events : List SendEvent}
    (h : EachEvent symmetric EventSecures c events) :
    (∃ n, Numbered c.sender.lastSNsent (c.run symmetric events).2 n) ∧
      (∀ conn : Connection, conn.lastSNreceived = c.sender.lastSNsent →
        ∃ conn', checkSeqNums conn ((c.run symmetric events).2.map Wire.received) = .ok conn') ∧
      ∀ (conn conn' : Connection) (received between : List (Bool × UInt32)),
        checkSeqNums conn received = .ok conn' →
        (received.IsChain fun r r' => r'.1 = true → Follows r.2 r'.2) →
        between <:+: received → (between.IsChain fun r r' => ¬ Wraps r.2 r'.2) →
        (between.map Prod.snd).Nodup := by
  obtain ⟨n, hn⟩ := run_numbered h
  refine ⟨⟨n, hn⟩, ?_, ?_⟩
  · intro conn hconn; rw [← hconn] at hn; exact ⟨_, checkSeqNums_numbered hn⟩
  · intro conn conn' received between haccepted hopn hbetween hwrap
    exact accepted_nodup haccepted hopn hbetween hwrap

def signChannel : Channel where
  sender :=
    { isServer := false
      mode := .sign
      currentToken := ⟨1, 1⟩
      precedentToken := ⟨0, 0⟩
      serverNewSecuTokenActive := false
      lastSNsent := 1
      clientNextReqId := 2
      symmSecuMaxBodySize := 8136
      sentRequests := []
      props := ⟨8192, 65536, 5, 8192, 65536, 5⟩
      asymmSecuMaxBodySize := 6000
      hasExtraPaddingSize := false }
  phase := .opened

def signedRequest (size : Nat) (fails : List UInt8 → Bool) : Message where
  keys :=
    { plainBlockSize := 16
      cipherBlockSize := 16
      signatureSize := 32
      encryptedLength := some
      sign := fun _ data => if fails data then none else some (List.replicate 32 0)
      encrypt := fun _ data => some data }
  env := fun _ => sendMemory
  abortEnv := sendMemory
  abortBody := fun _ => some (List.replicate 8 0)
  requestIdOrHandle := 7
  body := List.replicate size 0

theorem signedRequest_secures (size : Nat) :
    Secures (signedRequest size fun _ => false).keys sendMemory signChannel.sender.toSender := by
  refine ⟨fun _ data => ⟨_, rfl, rfl⟩, ?_, ?_, fun _ => rfl⟩
  · rintro ⟨⟩
  · rintro ⟨⟩

theorem sequence_numbers_request :
    ∃ conn', checkSeqNums signConnection
      ((signChannel.run (BodySize.symmetricSizes .basic256Sha256 false)
        [.msg (signedRequest 8137 fun _ => false)]).2.map Wire.received) = .ok conn' :=
  (@sequence_numbers _ signChannel [.msg (signedRequest 8137 fun _ => false)]
    ⟨.inr ⟨fun _ => signedRequest_secures 8137, fun _ => signedRequest_secures 8137⟩,
      fun _ _ => trivial⟩).2.1 signConnection rfl

/-- The second chunk of a request cannot be signed: the abort chunk has the number behind it, and is
not accepted. An `OPN` message makes a number acceptable a second time. -/
theorem failed_signature_skips :
    (signChannel.run (BodySize.symmetricSizes .basic256Sha256 false)
        [.msg (signedRequest 8137 fun data => data.length == 25)]).2.map Wire.received =
      [(false, 2), (false, 4)] ∧
    checkSeqNums signConnection [(false, 2), (false, 4)] = .error .badSecurityChecksFailed ∧
    checkSeqNums signConnection [(false, 2), (true, 1), (false, 2)] =
      .ok { signConnection with lastSNreceived := 2 } := by
  decide +kernel

end Channels
end S2OPC
