import S2OPC.Channels.SendOpn
import S2OPC.Channels.SendRoundTrip
import S2OPC.Channels.ClientRequests

/-!
# S2OPC.Channels.SendRun

The sending half of a secure channel over its life: `OPN`, `MSG` and `CLO` messages with whatever
failures, renewed tokens, answered and expired requests. The chunks are recorded as they are put on
the wire: `messageWires_bytes` says that they are those of `treatSendMessageBuffer`.
-/

namespace S2OPC
namespace Channels

open List

open BodySize (CryptoSizes)

structure Wire where
  isOPN : Bool
  seqNumber : Nat
  requestId : Nat
  bytes : List UInt8
  deriving DecidableEq

section

variable (keys : SendKeys) (env : Nat → SendEnv) (abortEnv : SendEnv)
  (abortBody : ChunkStatus → Option (List UInt8)) (requestIdOrHandle : Nat) (msgType : MsgType)

def sentWires (s : Sender) : Except ChunkStatus (List UInt8) → List Wire
  | .ok bytes => [⟨false, s.nextSN, s.requestId requestIdOrHandle, bytes⟩]
  | .error _ => []

def loopWires : Nat → Sender → List UInt8 → List UInt8 → List Wire
  | 0, s, chunk, _ =>
    sentWires requestIdOrHandle s (treatSendBuffer keys (env 0) s requestIdOrHandle msgType
      (isNextChunkIntermediateOrFinal 0) chunk).2
  | left + 1, s, chunk, rest =>
    match treatSendBuffer keys (env (left + 1)) s requestIdOrHandle msgType
        (isNextChunkIntermediateOrFinal (left + 1)) chunk with
    | (_, .error _) => []
    | (s', .ok bytes) =>
      sentWires requestIdOrHandle s (.ok bytes) ++
        if (env left).chunkAlloc then
          loopWires left s' (nextChunkBody s' rest).1 (nextChunkBody s' rest).2
        else []

def chunksWires (s : Sender) (body : List UInt8) (nbChunks : Nat) : List Wire :=
  if nbChunks = 1 then loopWires keys env requestIdOrHandle msgType 0 s body []
  else if (env (nbChunks - 1)).chunkAlloc then
    loopWires keys env requestIdOrHandle msgType (nbChunks - 1) s (nextChunkBody s body).1
      (nextChunkBody s body).2
  else []

def abortWires (s : Sender) (status : ChunkStatus) : List Wire :=
  match abortBody status with
  | none => []
  | some body =>
    sentWires requestIdOrHandle s
      (treatSendBuffer keys abortEnv s requestIdOrHandle msgType .abort body).2

def messageWires (s : Sender) (body : List UInt8) : List Wire :=
  match computeNbChunksToSend s msgType body.length with
  | .error status => abortWires keys abortEnv abortBody requestIdOrHandle msgType s status
  | .ok nbChunks =>
    chunksWires keys env requestIdOrHandle msgType s body nbChunks ++
      match sendChunks keys env s requestIdOrHandle msgType body nbChunks with
      | (_, _, none) => []
      | (s, _, some status) =>
        if nbChunks = 1 then []
        else abortWires keys abortEnv abortBody requestIdOrHandle msgType s status

end

section

variable {keys : SendKeys} {env : Nat → SendEnv} {abortEnv : SendEnv}
  {abortBody : ChunkStatus → Option (List UInt8)} {requestIdOrHandle : Nat} {msgType : MsgType}

theorem loopWires_bytes (left : Nat) (s : Sender) (chunk rest : List UInt8) :
    (loopWires keys env requestIdOrHandle msgType left s chunk rest).map Wire.bytes =
      (sendLoop keys env requestIdOrHandle msgType left s chunk rest).2.1 := by
  induction left generalizing s chunk rest with
  | zero =>
    unfold loopWires sendLoop
    rcases treatSendBuffer keys (env 0) s requestIdOrHandle msgType
      (isNextChunkIntermediateOrFinal 0) chunk with ⟨s', status | bytes⟩
    · rfl
    · rfl
  | succ left ih =>
    unfold loopWires sendLoop
    rcases treatSendBuffer keys (env (left + 1)) s requestIdOrHandle msgType
      (isNextChunkIntermediateOrFinal (left + 1)) chunk with ⟨s', status | bytes⟩
    · rfl
    · dsimp only
      by_cases halloc : (env left).chunkAlloc = true
      · rw [if_pos halloc, if_pos halloc, map_append, ih]; rfl
      · rw [if_neg halloc, if_neg halloc]; rfl

theorem chunksWires_bytes (s : Sender) (body : List UInt8) (nbChunks : Nat) :
    (chunksWires keys env requestIdOrHandle msgType s body nbChunks).map Wire.bytes =
      (sendChunks keys env s requestIdOrHandle msgType body nbChunks).2.1 := by
  unfold chunksWires sendChunks
  split
  · exact loopWires_bytes 0 s body []
  · split
    · exact loopWires_bytes _ s _ _
    · rfl

theorem abortWires_bytes (s : Sender) (sent : List (List UInt8)) (status : ChunkStatus) :
    sent ++ (abortWires keys abortEnv abortBody requestIdOrHandle msgType s status).map Wire.bytes =
      (sendAbort keys abortEnv s requestIdOrHandle msgType abortBody sent status).2.1 := by
  unfold abortWires sendAbort
  cases abortBody status with
  | none => exact append_nil sent
  | some body =>
    dsimp only
    rcases treatSendBuffer keys abortEnv s requestIdOrHandle msgType .abort body with
      ⟨s', error | bytes⟩
    · exact append_nil sent
    · rfl

theorem messageWires_bytes (s : Sender) (body : List UInt8) :
    (messageWires keys env abortEnv abortBody requestIdOrHandle msgType s body).map Wire.bytes =
      (treatSendMessageBuffer keys env abortEnv abortBody s requestIdOrHandle msgType body).2.1 := by
  unfold messageWires treatSendMessageBuffer
  cases computeNbChunksToSend s msgType body.length with
  | error status => exact abortWires_bytes s [] status
  | ok nbChunks =>
    dsimp only
    have hchunks := @chunksWires_bytes keys env requestIdOrHandle msgType s body nbChunks
    rcases hsend : sendChunks keys env s requestIdOrHandle msgType body nbChunks with
      ⟨s', sent, none | status⟩
    · rw [hsend] at hchunks; rw [map_append, hchunks]; exact append_nil sent
    rw [hsend] at hchunks
    rw [map_append, hchunks]
    by_cases hone : nbChunks = 1
    · simp only [if_pos hone, map_nil, append_nil]
    · simp only [if_neg hone]; exact abortWires_bytes s' sent status

end

/-- What became of a chunk: it failed before its sequence number was used, after that, or it was
sent. -/
inductive ChunkSent (env : SendEnv) (s : Sender) (requestIdOrHandle : Nat) (msgType : MsgType)
    (isFinal : IsFinal) : Sender → Except ChunkStatus (List UInt8) → Prop where
  | early (status : ChunkStatus) :
      ChunkSent env s requestIdOrHandle msgType isFinal s (.error status)
  | late (status : ChunkStatus) :
      ChunkSent env s requestIdOrHandle msgType isFinal (s.sequenced isFinal) (.error status)
  | sent {s' : Sender} (bytes : List UInt8)
      (recorded : recordRequest env (s.sequenced isFinal) msgType isFinal
        (s.requestId requestIdOrHandle) requestIdOrHandle = .ok s') :
      ChunkSent env s requestIdOrHandle msgType isFinal s' (.ok bytes)

variable {s s' : Sender} {isFinal : IsFinal} {body : List UInt8}
  {r : Except ChunkStatus (List UInt8)} {id : Nat}

theorem treatSendBuffer_chunkSent {keys : SendKeys} {env : SendEnv}
    {requestIdOrHandle : Nat} {msgType : MsgType}
    (h : treatSendBuffer keys env s requestIdOrHandle msgType isFinal body = (s', r)) :
    ChunkSent env s requestIdOrHandle msgType isFinal s' r := by
  unfold treatSendBuffer at h
  dsimp only at h
  split at h
  · cases h; exact .early _
  split at h
  · cases h; exact .early _
  split at h
  · cases h; exact .early _
  split at h
  · cases h; exact .early _
  split at h
  · cases h; exact .late _
  split at h
  · cases h; exact .late _
  · rename_i hrecord; cases h; exact .sent _ hrecord

theorem sendOpn_chunkSent (crypto : OpnCrypto) (env : SendEnv) (s : OpnSender)
    (requestIdOrHandle : Nat) (security rest : List UInt8) (size : Nat) :
    ChunkSent env s.toSender requestIdOrHandle .opn .final
      (sendOpn crypto env s requestIdOrHandle security rest size).1.toSender
      (sendOpn crypto env s requestIdOrHandle security rest size).2 := by
  rcases sendOpn_cases crypto env s requestIdOrHandle security rest size with
    ⟨status, hr⟩ | ⟨sender, bytes, hr, hrecord⟩
  · rw [hr]; exact .late status
  · rw [hr]; exact .sent bytes hrecord

def plainLength (keys : SendKeys) (n : Nat) : Nat :=
  8 + n + (encodePadding keys (8 + n)).length + keys.signatureSize

/-- The parts of a chunk that come behind its sequence number succeed: signature, encryption into a
buffer of the negotiated size, and the recording of the request. -/
structure Secures (keys : SendKeys) (env : SendEnv) (s : Sender) : Prop where
  signs : isMsgSigned s.mode = true → ∀ data, ∃ signature,
    keys.sign s.usesPrecedent data = some signature ∧ signature.length = keys.signatureSize
  encrypts : isMsgEncrypted s.mode false = true → ∀ n ≤ s.symmSecuMaxBodySize, ∀ data : List UInt8,
    data.length = plainLength keys n → ∃ cipher, keys.encrypt s.usesPrecedent data = some cipher
  fits : isMsgEncrypted s.mode false = true → env.encryptAlloc = true ∧
    ∀ n ≤ s.symmSecuMaxBodySize, ∀ length, keys.encryptedLength (plainLength keys n) = some length →
      16 + length ≤ s.props.sendBufferSize
  records : s.isServer = false → env.contextAlloc = true

def Sender.Same (s s' : Sender) : Prop :=
  s' = { s with
    lastSNsent := s'.lastSNsent
    clientNextReqId := s'.clientNextReqId
    sentRequests := s'.sentRequests }

namespace Sender.Same

theorem refl (s : Sender) : s.Same s := rfl

variable {s : Sender}

theorem trans {s₁ s₂ : Sender} (h : s.Same s₁) (h₁ : s₁.Same s₂) : s.Same s₂ := by
  unfold Sender.Same at *; rw [h₁, h]

theorem isServer {s' : Sender} (h : s.Same s') : s'.isServer = s.isServer := by
  rw [h]

end Sender.Same

theorem sequenced_same (s : Sender) (isFinal : IsFinal) : s.Same (s.sequenced isFinal) := rfl

theorem ChunkSent.same {env : SendEnv} {msgType : MsgType}
        (h : ChunkSent env s id msgType isFinal s' r) : s.Same s' := by
  cases h with
  | early => exact .refl s
  | late => exact sequenced_same s isFinal
  | sent bytes recorded => obtain ⟨added, rfl, -⟩ := recordRequest_added recorded; rfl

theorem Secures.same {keys : SendKeys} {env : SendEnv} (h : Secures keys env s)
    (hsame : s.Same s') : Secures keys env s' := by
  rw [hsame]
  exact ⟨h.signs, h.encrypts, h.fits, h.records⟩

theorem recordRequest_secured {env : SendEnv} {msgType : MsgType}
    {handle : Nat} (h : s.isServer = false → env.contextAlloc = true) :
    ∃ s', recordRequest env s msgType isFinal id handle = .ok s' := by
  unfold recordRequest
  split
  · rename_i hclient; rw [if_pos (h hclient.1)]; exact ⟨_, rfl⟩
  · exact ⟨_, rfl⟩

theorem Secures.secured {keys : SendKeys} {env : SendEnv} (h : Secures keys env s)
    (header : List UInt8) (requestId : Nat) {size : Nat}
    (hheader : header.length = 16) (hbody : body.length ≤ s.symmSecuMaxBodySize)
    (hsize : messageSize keys s (chunkContent keys s requestId body) = some size) :
    ∃ bytes, (signChunk keys s (header ++ chunkContent keys s requestId body)).bind
      (encryptChunk keys env s size) = .ok bytes := by
  cases hmode : isMsgEncrypted s.mode false with
  | false =>
    have hencrypt : ∀ data, encryptChunk keys env s size data = .ok data := by
      simp [encryptChunk, hmode]
    cases hsign : isMsgSigned s.mode with
    | false =>
      exact ⟨header ++ chunkContent keys s requestId body,
        by simp [signChunk, hsign, Except.bind, hencrypt]⟩
    | true =>
      obtain ⟨signature, hsignature, -⟩ :=
        h.signs hsign (header ++ chunkContent keys s requestId body)
      exact ⟨header ++ chunkContent keys s requestId body ++ signature,
        by simp [signChunk, hsign, hsignature, Except.bind, hencrypt]⟩
  | true =>
    have hsign := isMsgSigned_of_encrypted hmode
    obtain ⟨signature, hsignature, hlength⟩ :=
      h.signs hsign (header ++ chunkContent keys s requestId body)
    have hcontent : (chunkContent keys s requestId body).length + keys.signatureSize =
        plainLength keys body.length := by
      simp [chunkContent, hmode, plainLength, Codec.length_leBytes]
      omega
    simp only [messageSize, hmode, if_true, hcontent, Option.map_eq_some_iff] at hsize
    obtain ⟨length, hencrypted, rfl⟩ := hsize
    obtain ⟨halloc, hfits⟩ := h.fits hmode
    have hroom := hfits body.length hbody length hencrypted
    have hdrop : (header ++ chunkContent keys s requestId body ++ signature).drop 16 =
        chunkContent keys s requestId body ++ signature := by
      rw [append_assoc, ← hheader, drop_left]
    obtain ⟨cipher, hcipher⟩ := h.encrypts hmode body.length hbody
      (chunkContent keys s requestId body ++ signature) (by rw [length_append]; omega)
    refine ⟨(header ++ chunkContent keys s requestId body ++ signature).take 16 ++ cipher, ?_⟩
    simp only [signChunk, hsign, if_true, hsignature, Except.bind, encryptChunk, hmode, hdrop,
      hcipher, halloc]
    rw [if_neg (by simp; omega)]

theorem treatSendBuffer_secured {keys : SendKeys} {env : SendEnv}
    (hs : Secures keys env s) {requestIdOrHandle : Nat} {msgType : MsgType}
        (h : treatSendBuffer keys env s requestIdOrHandle msgType isFinal body = (s', r)) :
    (s' = s ∧ ∃ status, r = .error status) ∨ ∃ bytes, r = .ok bytes ∧
      recordRequest env (s.sequenced isFinal) msgType isFinal (s.requestId requestIdOrHandle)
        requestIdOrHandle = .ok s' := by
  unfold treatSendBuffer at h
  dsimp only at h
  split at h
  · cases h; exact .inl ⟨rfl, _, rfl⟩
  split at h
  · cases h; exact .inl ⟨rfl, _, rfl⟩
  rename_i hlength
  split at h
  · cases h; exact .inl ⟨rfl, _, rfl⟩
  cases hsize : messageSize keys s (chunkContent keys s (s.requestId requestIdOrHandle) body) with
  | none => rw [hsize] at h; cases h; exact .inl ⟨rfl, _, rfl⟩
  | some size =>
    obtain ⟨bytes, hbytes⟩ := hs.secured (clearHeader s msgType isFinal size)
      (s.requestId requestIdOrHandle) (length_clearHeader s msgType isFinal size)
      (Nat.not_lt.mp hlength) hsize
    obtain ⟨s₁, hrecord⟩ := @recordRequest_secured (s.sequenced isFinal) isFinal
      (s.requestId requestIdOrHandle) env msgType requestIdOrHandle hs.records
    simp only [hsize, hbytes, hrecord] at h
    cases h; exact .inr ⟨bytes, rfl, hrecord⟩

section

variable {keys : SendKeys} {env : Nat → SendEnv} {abortEnv : SendEnv}
  {abortBody : ChunkStatus → Option (List UInt8)} {requestIdOrHandle : Nat} {msgType : MsgType}

variable {s : Sender}

theorem computeNbChunksToSend_single {n nbChunks : Nat}
    (hn : n ≤ s.symmSecuMaxBodySize ∨ msgType ≠ .msg)
    (h : computeNbChunksToSend s msgType n = .ok nbChunks) : nbChunks = 1 := by
  unfold computeNbChunksToSend at h
  by_cases hmax : s.props.sendMaxMessageSize = 0 ∨ n ≤ s.props.sendMaxMessageSize
  · rw [if_pos hmax] at h
    by_cases hbody : n ≤ s.symmSecuMaxBodySize
    · rw [if_pos hbody] at h; cases h; rfl
    · rw [if_neg hbody, if_neg (hn.resolve_left hbody)] at h; cases h
  · rw [if_neg hmax] at h; cases h

variable (keys env requestIdOrHandle msgType) in
/-- Chunks that are sent one after the other, intermediate ones and a final one, up to the failure
that ends them. -/
inductive Row : Sender → List Wire → Sender → Option ChunkStatus → Prop where
  | stop (s : Sender) (status : ChunkStatus) : Row s [] s (some status)
  | failed {s s' : Sender} {n : Nat} {isFinal : IsFinal} {chunk : List UInt8} {status : ChunkStatus}
      (hkind : isFinal = .intermediate ∨ n = 0)
      (h : treatSendBuffer keys (env n) s requestIdOrHandle msgType isFinal chunk =
        (s', .error status)) : Row s [] s' (some status)
  | last {s s' : Sender} {chunk bytes : List UInt8}
      (h : treatSendBuffer keys (env 0) s requestIdOrHandle msgType .final chunk = (s', .ok bytes)) :
      Row s (sentWires requestIdOrHandle s (.ok bytes)) s' none
  | next {s s₁ s' : Sender} {n : Nat} {chunk bytes : List UInt8} {ws : List Wire}
      {error : Option ChunkStatus}
      (h : treatSendBuffer keys (env n) s requestIdOrHandle msgType .intermediate chunk =
        (s₁, .ok bytes)) (hrow : Row s₁ ws s' error) :
      Row s (sentWires requestIdOrHandle s (.ok bytes) ++ ws) s' error

theorem loop_row (left : Nat) (s : Sender) (chunk rest : List UInt8) :
    Row keys env requestIdOrHandle msgType s
      (loopWires keys env requestIdOrHandle msgType left s chunk rest)
      (sendLoop keys env requestIdOrHandle msgType left s chunk rest).1
      (sendLoop keys env requestIdOrHandle msgType left s chunk rest).2.2 := by
  induction left generalizing s chunk rest with
  | zero =>
    unfold loopWires sendLoop
    rcases hr : treatSendBuffer keys (env 0) s requestIdOrHandle msgType
      (isNextChunkIntermediateOrFinal 0) chunk with ⟨s', status | bytes⟩
    · exact .failed (.inr rfl) hr
    · exact .last hr
  | succ left ih =>
    unfold loopWires sendLoop
    rcases hr : treatSendBuffer keys (env (left + 1)) s requestIdOrHandle msgType
      (isNextChunkIntermediateOrFinal (left + 1)) chunk with ⟨s', status | bytes⟩
    · exact .failed (.inl rfl) hr
    · dsimp only
      by_cases halloc : (env left).chunkAlloc = true
      · rw [if_pos halloc, if_pos halloc]; exact .next hr (ih s' _ _)
      · rw [if_neg halloc, if_neg halloc]; exact .next hr (.stop s' _)

variable (keys env abortEnv requestIdOrHandle msgType) in
/-- A message: its only chunk, or its chunks in a row and behind a failure an abort chunk. -/
inductive MessageRow (s : Sender) (body : List UInt8) : List Wire → Sender → SendOutcome → Prop where
  | single {s' : Sender} {r : Except ChunkStatus (List UInt8)} {outcome : SendOutcome}
      (h : treatSendBuffer keys (env 0) s requestIdOrHandle msgType .final body = (s', r))
      (houtcome : ∀ status, r = .error status → outcome = .failed status) :
      MessageRow s body (sentWires requestIdOrHandle s r) s' outcome
  | row {ws : List Wire} {s' : Sender} {error : Option ChunkStatus} {outcome : SendOutcome}
      (hrow : Row keys env requestIdOrHandle msgType s ws s' error)
      (hmany : body.length ≤ s.symmSecuMaxBodySize ∨ msgType ≠ .msg → ws = [] ∧ s' = s) :
      MessageRow s body ws s' outcome
  | aborted {ws : List Wire} {s₁ s' : Sender} {status : ChunkStatus} {outcome : SendOutcome}
      {abort : List UInt8} {r : Except ChunkStatus (List UInt8)}
      (hrow : Row keys env requestIdOrHandle msgType s ws s₁ (some status))
      (hmany : body.length ≤ s.symmSecuMaxBodySize ∨ msgType ≠ .msg → ws = [] ∧ s₁ = s)
      (h : treatSendBuffer keys abortEnv s₁ requestIdOrHandle msgType .abort abort = (s', r))
      (houtcome : ∀ status, r = .error status → outcome = .failed status) :
      MessageRow s body (ws ++ sentWires requestIdOrHandle s₁ r) s' outcome

theorem abort_row {s₁ : Sender} {body : List UInt8} {ws : List Wire} {status : ChunkStatus}
    (hrow : Row keys env requestIdOrHandle msgType s ws s₁ (some status))
    (hmany : body.length ≤ s.symmSecuMaxBodySize ∨ msgType ≠ .msg → ws = [] ∧ s₁ = s)
    (sent : List (List UInt8)) :
    MessageRow keys env abortEnv requestIdOrHandle msgType s body
      (ws ++ abortWires keys abortEnv abortBody requestIdOrHandle msgType s₁ status)
      (sendAbort keys abortEnv s₁ requestIdOrHandle msgType abortBody sent status).1
      (sendAbort keys abortEnv s₁ requestIdOrHandle msgType abortBody sent status).2.2 := by
  unfold abortWires sendAbort
  cases abortBody status with
  | none => rw [append_nil]; exact .row hrow hmany
  | some abort =>
    dsimp only
    rcases hr : treatSendBuffer keys abortEnv s₁ requestIdOrHandle msgType .abort abort with
      ⟨s', error | bytes⟩
    · exact .aborted hrow hmany hr (by rintro _ ⟨⟩; rfl)
    · exact .aborted hrow hmany hr (by rintro _ ⟨⟩)

variable (keys env abortEnv abortBody requestIdOrHandle msgType) in
theorem message_row (s : Sender) (body : List UInt8) :
    MessageRow keys env abortEnv requestIdOrHandle msgType s body
      (messageWires keys env abortEnv abortBody requestIdOrHandle msgType s body)
      (treatSendMessageBuffer keys env abortEnv abortBody s requestIdOrHandle msgType body).1
      (treatSendMessageBuffer keys env abortEnv abortBody s requestIdOrHandle msgType body).2.2 := by
  unfold messageWires treatSendMessageBuffer
  cases hnb : computeNbChunksToSend s msgType body.length with
  | error status => exact abort_row (.stop s status) (fun _ => ⟨rfl, rfl⟩) []
  | ok nbChunks =>
    by_cases hone : nbChunks = 1
    · have hfinal : isNextChunkIntermediateOrFinal 0 = .final := rfl
      simp only [hone, chunksWires, sendChunks, if_true, loopWires, sendLoop, hfinal]
      rcases hr : treatSendBuffer keys (env 0) s requestIdOrHandle msgType .final body with
        ⟨s', status | bytes⟩
      · exact .single hr (by rintro _ ⟨⟩; rfl)
      · exact .single hr (by rintro _ ⟨⟩)
    · have hmany : ¬(body.length ≤ s.symmSecuMaxBodySize ∨ msgType ≠ .msg) :=
        fun h => hone (computeNbChunksToSend_single h hnb)
      have hrow : Row keys env requestIdOrHandle msgType s
          (chunksWires keys env requestIdOrHandle msgType s body nbChunks)
          (sendChunks keys env s requestIdOrHandle msgType body nbChunks).1
          (sendChunks keys env s requestIdOrHandle msgType body nbChunks).2.2 := by
        simp only [chunksWires, sendChunks, if_neg hone]
        split
        · exact loop_row _ s _ _
        · exact .stop s _
      dsimp only
      rcases hr : sendChunks keys env s requestIdOrHandle msgType body nbChunks with
        ⟨s', sent, _ | status⟩
      · rw [hr] at hrow; rw [append_nil]; exact .row hrow fun h => absurd h hmany
      · rw [hr] at hrow
        dsimp only
        rw [if_neg hone, if_neg hone]
        exact abort_row hrow (fun h => absurd h hmany) sent

end

structure OpnAttempt where
  headers : OpnHeaders
  crypto : OpnCrypto
  env : SendEnv
  requestIdOrHandle : Nat
  body : List UInt8

structure Message where
  keys : SendKeys
  env : Nat → SendEnv
  abortEnv : SendEnv
  abortBody : ChunkStatus → Option (List UInt8)
  requestIdOrHandle : Nat
  body : List UInt8

inductive Phase where
  | opened
  | closing
  | closed
  deriving DecidableEq, Repr

structure Channel where
  sender : OpnSender
  phase : Phase

inductive SendEvent where
  | opn (attempt : OpnAttempt)
  | msg (message : Message)
  | clo (message : Message)
  -- tokens that are renewed, or taken into use
  | tokens (current precedent : SecurityToken) (active : Bool)
  -- a request that is answered, and one that is not answered in time
  | answered (requestId : Nat)
  | expired (requestId : Nat)
  | disconnected

def Channel.failed (sender : OpnSender) : Channel :=
  ⟨sender, if sender.isServer then .closed else .closing⟩

def Channel.updateSender (c : Channel) (f : Sender → Sender) : Channel :=
  { c with sender := { c.sender with toSender := f c.sender.toSender } }

def Channel.sendMsg (c : Channel) (m : Message) : Channel × List Wire :=
  let r := treatSendMessageBuffer m.keys m.env m.abortEnv m.abortBody c.sender.toSender
    m.requestIdOrHandle .msg m.body
  let sender := { c.sender with toSender := r.1 }
  (match r.2.2 with
    | .failed _ => .failed sender
    | _ => { c with sender := sender },
    messageWires m.keys m.env m.abortEnv m.abortBody m.requestIdOrHandle .msg c.sender.toSender
      m.body)

def Channel.sendClo (c : Channel) (m : Message) : Channel × List Wire :=
  let r := treatSendMessageBuffer m.keys m.env m.abortEnv m.abortBody c.sender.toSender
    m.requestIdOrHandle .clo m.body
  (⟨{ c.sender with toSender := r.1 }, .closed⟩,
    messageWires m.keys m.env m.abortEnv m.abortBody m.requestIdOrHandle .clo c.sender.toSender
      m.body)

def Channel.sendOpn (symmetric : CryptoSizes) (c : Channel) (a : OpnAttempt) :
    Channel × List Wire :=
  match treatSendBufferOPN a.headers symmetric a.crypto a.env c.sender a.requestIdOrHandle a.body
    with
  | (sender, .error _) => (.failed sender, [])
  | (sender, .ok bytes) =>
    ({ c with sender := sender },
      [⟨true, c.sender.nextSN, c.sender.requestId a.requestIdOrHandle, bytes⟩])

def Channel.step (symmetric : CryptoSizes) (c : Channel) (e : SendEvent) :
    Channel × List Wire :=
  match c.phase, e with
  | .closed, _ => (c, [])
  | .closing, .clo m => c.sendClo m
  | .closing, _ => (c, [])
  | .opened, .opn a => c.sendOpn symmetric a
  | .opened, .msg m => c.sendMsg m
  | .opened, .clo m => if c.sender.isServer then (c, []) else c.sendClo m
  | .opened, .tokens current precedent active =>
    (c.updateSender fun s =>
      { s with
        currentToken := current
        precedentToken := precedent
        serverNewSecuTokenActive := active }, [])
  | .opened, .answered requestId =>
    (c.updateSender fun s =>
      { s with sentRequests := s.sentRequests.eraseP fun r => r.requestId == requestId }, [])
  | .opened, .expired requestId =>
    (c.updateSender fun s =>
      { s with sentRequests := expireRequest requestId s.sentRequests }, [])
  | .opened, .disconnected => ({ c with phase := .closed }, [])

def Channel.run (symmetric : CryptoSizes) : Channel → List SendEvent → Channel × List Wire
  | c, [] => (c, [])
  | c, e :: events =>
    let r := (c.step symmetric e).1.run symmetric events
    (r.1, (c.step symmetric e).2 ++ r.2)

def EachEvent (symmetric : CryptoSizes) (C : Channel → SendEvent → Prop) :
    Channel → List SendEvent → Prop :=
  Fallible.Each (fun c e => some (c.step symmetric e).1) C

end Channels
end S2OPC
