import S2OPC.Channels.Send

/-!
# S2OPC.Channels.SendRoundTrip

What is sent in chunks is received as it was. The chunks of a message are intermediate ones and a
final one, as many as computed, each within the size of the send buffer, and a receiver that is
between two messages delivers the body from them.

* `sent_chunk_received`: one chunk, up to its body.
-/

namespace S2OPC
namespace Channels

open List Sender

open Codec (leBytes ofLeBytes ofLeBytes_leBytes length_leBytes)
open Fallible (Outcome)

/-- The keys of the sender are those of the receiver: lengths are right, decryption undoes
encryption, and signatures verify. -/
structure Paired (keys : SendKeys) (crypto : Crypto) : Prop where
  plainBlock_pos : 0 < keys.plainBlockSize
  plainBlock_le : keys.plainBlockSize ≤ keys.cipherBlockSize
  plainBlock_small : keys.plainBlockSize ≤ 2 ^ 16
  encryptedLength : ∀ blocks, keys.encryptedLength (blocks * keys.plainBlockSize) =
    some (blocks * keys.cipherBlockSize)
  encrypt : ∀ {prev plain cipher blocks}, keys.encrypt prev plain = some cipher →
    plain.length = blocks * keys.plainBlockSize →
      cipher.length = blocks * keys.cipherBlockSize ∧
        crypto.plainLength true prev cipher.length = some plain.length ∧
          crypto.decrypt true prev cipher = some plain
  sign : ∀ {prev data signature}, keys.sign prev data = some signature →
    signature.length = keys.signatureSize ∧
      crypto.signatureSize true prev = some keys.signatureSize ∧
        crypto.verify true prev data signature = true
  encrypts : ∀ prev {plain blocks}, plain.length = blocks * keys.plainBlockSize →
    ∃ cipher, keys.encrypt prev plain = some cipher
  signs : ∀ prev data, ∃ signature, keys.sign prev data = some signature

structure Sender.Ready (keys : SendKeys) (s : Sender) : Prop where
  maxBodySize : computeMaxBodySize keys s.mode s.props.sendBufferSize = some s.symmSecuMaxBodySize
  maxBodySize_ne : s.symmSecuMaxBodySize ≠ 0
  bufferSize : s.props.sendBufferSize < 2 ^ 32
  channelId : s.currentToken.secureChannelId < 2 ^ 32
  token : s.tokenId < 2 ^ 32
  nextReqId : s.clientNextReqId < 2 ^ 32

structure Linked (keys : SendKeys) (s : Sender) (r : Connection) : Prop where
  opposite : r.isServer = !s.isServer
  config : r.config = some s.mode
  current : r.currentToken = s.currentToken
  precedent : s.usesPrecedent = true → r.precedentToken = s.precedentToken ∧
    s.precedentToken.tokenId ≠ s.currentToken.tokenId ∧
      s.precedentToken.secureChannelId ≠ 0 ∧ s.precedentToken.tokenId ≠ 0
  sequence : r.lastSNreceived = s.lastSNsent
  bufferSize : s.props.sendBufferSize ≤ r.props.receiveBufferSize
  extraPadding : r.hasExtraPaddingSize = isExtraPaddingSizePresent keys.plainBlockSize

structure PayloadEnv.Supports (env : PayloadEnv) : Prop where
  current : env.currentValid = true
  precedent : env.precedentValid = true
  plain : env.plainAlloc = true
  prepend : env.prependAlloc = true
  allocs : env.allocs.all = true

structure SendEnv.Supports (env : SendEnv) : Prop where
  chunk : env.chunkAlloc = true
  padding : env.paddingWritten = true
  encrypt : env.encryptAlloc = true
  context : env.contextAlloc = true

variable {keys : SendKeys} {isFinal : IsFinal} {s : Sender} {crypto : Crypto}

theorem paddingSize_lt (hpos : 0 < keys.plainBlockSize) (n : Nat) :
    getPaddingSize keys n < keys.plainBlockSize := by
  unfold getPaddingSize
  dsimp only
  split <;> split <;> omega

theorem exists_blocks (hpos : 0 < keys.plainBlockSize) (hsmall : keys.plainBlockSize ≤ 2 ^ 16)
    (n : Nat) :
    ∃ blocks, n + keys.signatureSize + paddingSizeFields keys.plainBlockSize +
      getPaddingSize keys n = blocks * keys.plainBlockSize := by
  set total := n + keys.signatureSize + paddingSizeFields keys.plainBlockSize with htotal
  have hlt := Nat.mod_lt total hpos
  have hdiv := Nat.div_add_mod total keys.plainBlockSize
  by_cases hzero : total % keys.plainBlockSize = 0
  · refine ⟨total / keys.plainBlockSize, ?_⟩
    have hsize : getPaddingSize keys n = 0 := by
      simp only [getPaddingSize, ← htotal, hzero, if_true]
      split <;> rfl
    rw [hsize, Nat.mul_comm]
    omega
  · refine ⟨total / keys.plainBlockSize + 1, ?_⟩
    have hsize : getPaddingSize keys n = keys.plainBlockSize - total % keys.plainBlockSize := by
      simp only [getPaddingSize, ← htotal, if_neg hzero]
      rw [if_pos (by omega)]
    rw [hsize, Nat.add_mul, Nat.one_mul, Nat.mul_comm]
    omega

theorem length_encodePadding (keys : SendKeys) (n : Nat) :
    (encodePadding keys n).length =
      paddingSizeFields keys.plainBlockSize + getPaddingSize keys n := by
  unfold encodePadding paddingSizeFields
  cases isExtraPaddingSizePresent keys.plainBlockSize <;> simp <;> omega

variable {rest bytes : List UInt8} {id : Nat} {s' : Sender} {senv : Nat → SendEnv}

variable {b : ChunkBuffer} {n rid left : Nat} {body chunk : List UInt8} {sent : List (List UInt8)}
  {renv : Nat → PayloadEnv}

theorem ChunkBuffer.readUInt32_of {before : List UInt8}
    (hdata : b.data = before ++ (leBytes 4 n ++ rest)) (hpos : b.position = before.length)
    (hn : n < 2 ^ 32) :
    ∃ b', b.readUInt32 = some (n, b') ∧ b'.data = b.data ∧ b'.position = b.position + 4 := by
  have hlen : b.position + 4 ≤ b.data.length := by
    rw [hdata, hpos, length_append, length_append, length_leBytes]
    omega
  have htake : b.remaining.take 4 = leBytes 4 n := by
    rw [ChunkBuffer.remaining, hdata, hpos, drop_left, take_left' (length_leBytes 4 n)]
  have hval : ofLeBytes (leBytes 4 n) = n := by
    rw [ofLeBytes_leBytes]
    exact Nat.mod_eq_of_lt (by omega)
  simp [ChunkBuffer.readUInt32, ChunkBuffer.read, dif_pos hlen, htake, hval]

theorem ChunkBuffer.setDataLength_of {kept cut : List UInt8}
    (hdata : b.data = kept ++ cut) (hpos : b.position ≤ kept.length) :
    ∃ b', b.setDataLength kept.length = some b' ∧ b'.data = kept ∧ b'.position = b.position := by
  have hlen : b.position ≤ kept.length ∧ kept.length ≤ b.data.length := by
    rw [hdata, length_append]
    exact ⟨hpos, by omega⟩
  unfold ChunkBuffer.setDataLength
  rw [dif_pos hlen]
  refine ⟨_, rfl, ?_, rfl⟩
  show b.data.take kept.length = kept
  rw [hdata, take_left]

theorem lastByte_append_singleton (l : List UInt8) (x : UInt8) : lastByte (l ++ [x]) = x.toNat := by
  simp [lastByte]

theorem length_clearHeader (s : Sender) (msgType : MsgType) (isFinal : IsFinal) (size : Nat) :
    (clearHeader s msgType isFinal size).length = 16 := by
  cases msgType <;> simp [clearHeader, msgTypeBytes, length_leBytes]

structure SentChunk (keys : SendKeys) (s : Sender) (isFinal : IsFinal) (requestId : Nat)
    (body bytes : List UInt8) : Prop where
  size_le : body.length ≤ s.symmSecuMaxBodySize
  parts : ∃ size signature tail,
    messageSize keys s (chunkContent keys s requestId body) = some size ∧
      bytes = clearHeader s .msg isFinal size ++ tail ∧
      (isMsgSigned s.mode = false → signature = []) ∧
      (isMsgSigned s.mode = true → keys.sign s.usesPrecedent (clearHeader s .msg isFinal size ++
        chunkContent keys s requestId body) = some signature) ∧
      (isMsgEncrypted s.mode false = false → tail = chunkContent keys s requestId body ++ signature) ∧
      (isMsgEncrypted s.mode false = true → size ≤ s.props.sendBufferSize ∧
        keys.encrypt s.usesPrecedent (chunkContent keys s requestId body ++ signature) = some tail)

def Sender.after (s s' : Sender) (isFinal : IsFinal) : Prop :=
  s' = { s.sequenced isFinal with sentRequests := s'.sentRequests }

theorem recordRequest_added {env : SendEnv} {msgType : MsgType} {handle : Nat}
    (h : recordRequest env s msgType isFinal id handle = .ok s') :
    ∃ added, s' = { s with sentRequests := s.sentRequests ++ added } ∧
      (∀ r ∈ added, r.requestId = id) ∧
      (s.isServer = true ∨ isFinal = .intermediate → added = []) := by
  unfold recordRequest at h
  split at h
  · rename_i hrecord
    split at h
    · cases h
      refine ⟨[⟨id, handle, msgType, false⟩], rfl, by simp, ?_⟩
      rintro (hserver | hintermediate)
      · rw [hrecord.1] at hserver; cases hserver
      · rw [hrecord.2.1] at hintermediate; cases hintermediate
    · cases h
  · cases h; exact ⟨[], by simp, by simp, fun _ => rfl⟩

theorem signChunk_cases {plain signed : List UInt8} (h : signChunk keys s plain = .ok signed) :
    ∃ signature, signed = plain ++ signature ∧ (isMsgSigned s.mode = false → signature = []) ∧
      (isMsgSigned s.mode = true → keys.sign s.usesPrecedent plain = some signature) := by
  unfold signChunk at h
  cases hmode : isMsgSigned s.mode with
  | false =>
    rw [hmode, if_neg Bool.false_ne_true] at h
    cases h; exact ⟨[], (append_nil _).symm, fun _ => rfl, fun h => nomatch h⟩
  | true =>
    rw [hmode, if_pos rfl] at h
    cases hs : keys.sign s.usesPrecedent plain with
    | none => rw [hs] at h; cases h
    | some signature =>
      rw [hs] at h; cases h; exact ⟨signature, rfl, (fun h => nomatch h), fun _ => rfl⟩

theorem drop_clearHeader (l : List UInt8) (size : Nat) :
    (clearHeader s .msg isFinal size ++ l).drop 16 = l :=
  drop_left' (length_clearHeader s .msg isFinal size)

theorem take_clearHeader (l : List UInt8) (size : Nat) :
    (clearHeader s .msg isFinal size ++ l).take 16 = clearHeader s .msg isFinal size :=
  take_left' (length_clearHeader s .msg isFinal size)

theorem treatSendBuffer_sent {env : SendEnv}
    (h : treatSendBuffer keys env s id .msg isFinal body = (s', .ok bytes)) :
    SentChunk keys s isFinal (s.requestId id) body bytes ∧ s.after s' isFinal := by
  unfold treatSendBuffer at h
  simp only [ne_eq, not_true_eq_false, false_and, if_false] at h
  split at h
  · cases h
  split at h
  · cases h
  cases hm : messageSize keys s (chunkContent keys s (s.requestId id) body) with
  | none => rw [hm] at h; cases h
  | some size =>
    rw [hm] at h
    dsimp only at h
    split at h
    · cases h
    rename_i sent hsent
    split at h
    · cases h
    rename_i s₂ hrecord; cases h
    obtain ⟨added, rfl, -⟩ := recordRequest_added hrecord
    refine ⟨⟨by omega, ?_⟩, rfl⟩
    set content := chunkContent keys s (s.requestId id) body with hcontent
    cases hsigned : signChunk keys s (clearHeader s .msg isFinal size ++ content) with
    | error status => rw [hsigned] at hsent; cases hsent
    | ok signed =>
      obtain ⟨signature, rfl, hunsigned, hsign⟩ := signChunk_cases hsigned
      rw [hsigned] at hsent
      replace hsent : encryptChunk keys env s size _ = .ok bytes := hsent
      rw [append_assoc, encryptChunk, drop_clearHeader, take_clearHeader] at hsent
      cases hmode : isMsgEncrypted s.mode false with
      | false =>
        rw [hmode, if_neg Bool.false_ne_true] at hsent
        cases hsent
        exact ⟨size, signature, content ++ signature, hm, rfl, hunsigned, hsign, fun _ => rfl,
          fun h => nomatch h⟩
      | true =>
        rw [hmode, if_pos rfl] at hsent
        split at hsent
        · cases hsent
        split at hsent
        · cases hsent
        rename_i cipher hcipher; cases hsent
        exact ⟨size, signature, cipher, hm, rfl, hunsigned, hsign, (fun h => nomatch h),
          fun _ => ⟨by omega, hcipher⟩⟩

theorem decodeTcpMsgHeader_sent {size maximum : Nat} (tail : List UInt8)
    (hmin : tcpUaHeaderLength < size) (hmax : size ≤ maximum) (hword : size < 2 ^ 32) :
    decodeTcpMsgHeader maximum (clearHeader s .msg isFinal size ++ tail) =
      .ok ⟨.msg, isFinal, size⟩ := by
  have hfield : ofLeBytes (leBytes 4 size) = size := by
    rw [ofLeBytes_leBytes]
    exact Nat.mod_eq_of_lt (by omega)
  have hdrop : ((clearHeader s .msg isFinal size ++ tail).drop 4).take 4 = leBytes 4 size := by
    have hsplit : clearHeader s .msg isFinal size ++ tail =
        (msgTypeBytes .msg ++ [isFinalByte isFinal]) ++ (leBytes 4 size ++
          (leBytes 4 s.currentToken.secureChannelId ++ (leBytes 4 s.tokenId ++ tail))) := by
      simp [clearHeader]
    rw [hsplit, drop_left' (by rfl), take_left' (length_leBytes 4 size)]
  have htype : msgTypeOf ((clearHeader s .msg isFinal size ++ tail).take 3) = some .msg := by rfl
  have hfinal : isFinalOf ((clearHeader s .msg isFinal size ++ tail).getD 3 0) = some isFinal := by
    cases isFinal <;> rfl
  unfold decodeTcpMsgHeader
  simp only [htype, hfinal, hdrop, hfield, ne_eq, not_true_eq_false, false_and, if_false]
  rw [if_neg (by omega), if_neg (by omega)]

theorem Sender.Ready.room (h : s.Ready keys) :
    16 ≤ s.props.sendBufferSize ∧
      s.symmSecuMaxBodySize + (8 + (if isMsgSigned s.mode then keys.signatureSize else 0) +
        if isMsgEncrypted s.mode false then paddingSizeFields keys.plainBlockSize else 0) =
      (if isMsgEncrypted s.mode false then keys.plainBlockSize else 1) *
        ((s.props.sendBufferSize - 16) /
          if isMsgEncrypted s.mode false then keys.cipherBlockSize else 1) := by
  have hmax := h.maxBodySize
  unfold computeMaxBodySize at hmax
  dsimp only at hmax
  generalize (if isMsgEncrypted s.mode false = true then keys.cipherBlockSize else 1) = cipher
    at hmax ⊢
  generalize (if isMsgEncrypted s.mode false = true then keys.plainBlockSize else 1) = plain
    at hmax ⊢
  generalize (if isMsgEncrypted s.mode false = true then paddingSizeFields keys.plainBlockSize
    else 0) = fields at hmax ⊢
  generalize (if isMsgSigned s.mode = true then keys.signatureSize else 0) = signature at hmax ⊢
  split at hmax
  · cases hmax
  · rw [Option.some.injEq] at hmax; omega

theorem isMsgSigned_of_encrypted {mode : SecurityMode} (h : isMsgEncrypted mode false = true) :
    isMsgSigned mode = true := by
  cases mode with
  | none => cases h
  | sign => cases h
  | signAndEncrypt => rfl

theorem SentChunk.lengths (hp : Paired keys crypto) (hs : s.Ready keys)
    (h : SentChunk keys s isFinal id body bytes) :
    ∃ signature tail, bytes = clearHeader s .msg isFinal bytes.length ++ tail ∧
      24 ≤ bytes.length ∧ bytes.length ≤ s.props.sendBufferSize ∧
      (isMsgSigned s.mode = false → signature = []) ∧
      (isMsgSigned s.mode = true → keys.sign s.usesPrecedent
        (clearHeader s .msg isFinal bytes.length ++ chunkContent keys s id body) =
          some signature) ∧
      (isMsgEncrypted s.mode false = false → tail = chunkContent keys s id body ++ signature) ∧
      (isMsgEncrypted s.mode false = true → ∃ blocks,
        (chunkContent keys s id body ++ signature).length = blocks * keys.plainBlockSize ∧
          keys.encrypt s.usesPrecedent (chunkContent keys s id body ++ signature) = some tail) := by
  obtain ⟨hbody, size, signature, tail, hsize, hbytes, hunsigned, hsigned, hclear, hcipher⟩ := h
  have hhead := length_clearHeader s .msg isFinal size
  have hlen : bytes.length = 16 + tail.length := by rw [hbytes, length_append, hhead]
  have hsignature : signature.length = if isMsgSigned s.mode then keys.signatureSize else 0 := by
    cases hmode : isMsgSigned s.mode with
    | false => simp [hunsigned hmode]
    | true => simpa using (hp.sign (hsigned hmode)).1
  obtain ⟨hmin, hroom⟩ := hs.room
  have hcontent : (chunkContent keys s id body).length = 8 + body.length +
      if isMsgEncrypted s.mode false then (encodePadding keys (8 + body.length)).length else 0 := by
    simp only [chunkContent, length_append, length_leBytes]
    split <;> simp
  cases hmode : isMsgEncrypted s.mode false with
  | false =>
    simp only [hmode, Bool.false_eq_true, if_false, Nat.one_mul, Nat.div_one] at hroom hcontent
    have htail := hclear hmode
    simp only [messageSize, hmode, Bool.false_eq_true, if_false, Option.some.injEq] at hsize
    have heq : size = bytes.length := by rw [hlen, htail, length_append, hsignature]; omega
    subst heq
    refine ⟨signature, tail, hbytes, ?_, ?_, hunsigned, hsigned, fun _ => htail, fun h => ?_⟩
    · omega
    · omega
    · cases h
  | true =>
    simp only [hmode, if_true] at hroom hcontent
    have hsigned' := isMsgSigned_of_encrypted hmode
    rw [hsigned', if_pos rfl] at hsignature hroom
    obtain ⟨blocks, hblocks⟩ := exists_blocks hp.plainBlock_pos hp.plainBlock_small (8 + body.length)
    have hplain : (chunkContent keys s id body ++ signature).length =
        blocks * keys.plainBlockSize := by
      rw [length_append, hcontent, hsignature, length_encodePadding]
      omega
    obtain ⟨hle, hencrypt⟩ := hcipher hmode
    have htail := (hp.encrypt hencrypt hplain).1
    simp only [messageSize, hmode, if_true] at hsize
    have hlength : (chunkContent keys s id body).length + keys.signatureSize =
        blocks * keys.plainBlockSize := by
      rw [← hplain, length_append, hsignature]
    rw [hlength, hp.encryptedLength, Option.map_some, Option.some.injEq] at hsize
    have heq : size = bytes.length := by rw [hlen, htail, hsize]
    subst heq
    have hcover : blocks * keys.plainBlockSize ≤ blocks * keys.cipherBlockSize :=
      Nat.mul_le_mul_left _ hp.plainBlock_le
    refine ⟨signature, tail, hbytes, ?_, hle, hunsigned, hsigned, fun h => ?_, fun _ =>
      ⟨blocks, hplain, hencrypt⟩⟩
    · omega
    · cases h

section

variable {keys : SendKeys} {crypto : Crypto} {s : Sender} {r : Connection} {env : PayloadEnv}

variable {b : ChunkBuffer} {size n : Nat} {tail header content signature front : List UInt8}

theorem checkSymmetricSecurityHeader_sent (hlink : Linked keys s r) (henv : env.Supports)
    {before rest : List UInt8}
    (hdata : b.data = before ++ (leBytes 4 s.tokenId ++ rest)) (hpos : b.position = before.length)
    (htoken : s.tokenId < 2 ^ 32) :
    ∃ active b', checkSymmetricSecurityHeader r env b =
        .ok (s.usesPrecedent, { r with serverNewSecuTokenActive := active }, b') ∧
      b'.data = b.data ∧ b'.position = b.position + 4 := by
  obtain ⟨b', hread, hdata', hpos'⟩ := ChunkBuffer.readUInt32_of hdata hpos htoken
  have hcurrent : r.currentToken.tokenId = s.currentToken.tokenId := by rw [hlink.current]
  unfold checkSymmetricSecurityHeader
  simp only [hread]
  cases hprev : s.usesPrecedent with
  | false =>
    have hid : s.currentToken.tokenId = s.tokenId := by
      rw [tokenId, hprev, if_neg Bool.false_ne_true]
    rw [if_pos (hcurrent.trans hid), if_pos henv.current]
    exact ⟨_, b', rfl, hdata', hpos'⟩
  | true =>
    obtain ⟨htokens, hne, hchannel, hzero⟩ := hlink.precedent hprev
    have hid : s.tokenId = s.precedentToken.tokenId := by rw [tokenId, hprev, if_pos rfl]
    have hknown : r.precedentToken.tokenId = s.tokenId ∧ r.precedentToken.secureChannelId ≠ 0 ∧
        r.precedentToken.tokenId ≠ 0 := by
      rw [htokens]
      exact ⟨hid.symm, hchannel, hzero⟩
    rw [if_neg (by rw [hcurrent, hid]; exact hne.symm), if_pos hknown, if_pos henv.precedent]
    exact ⟨r.serverNewSecuTokenActive, b', rfl, hdata', hpos'⟩

theorem opened_sent (hs : s.Ready keys) (hlink : Linked keys s r) (henv : env.Supports)
    {bytes : List UInt8}
    (hbytes : bytes = clearHeader s .msg isFinal size ++ tail) (h8 : 8 ≤ bytes.length)
    (hmulti : checkMultiChunkContext r.props r.inter isFinal = true) :
    ∃ active b, opened env r ⟨.msg, isFinal, n⟩ ⟨bytes, 8, h8⟩ =
        .ok ⟨{ r with serverNewSecuTokenActive := active }, ⟨.msg, isFinal, n⟩, b, true,
          s.usesPrecedent, isMsgEncrypted s.mode false, isMsgSigned s.mode, true, 0, false⟩ ∧
      b.data = bytes ∧ b.position = 16 := by
  set front := msgTypeBytes .msg ++ [isFinalByte isFinal] ++ leBytes 4 size with hfront
  have hlen : front.length = 8 := by simp [hfront, msgTypeBytes, length_leBytes]
  have hchannel : bytes = front ++ (leBytes 4 s.currentToken.secureChannelId ++
      (leBytes 4 s.tokenId ++ tail)) := by
    simp [hbytes, clearHeader, hfront]
  have htoken : bytes = (front ++ leBytes 4 s.currentToken.secureChannelId) ++
      (leBytes 4 s.tokenId ++ tail) := by
    simpa only [append_assoc] using hchannel
  obtain ⟨b₁, hread, hdata₁, hpos₁⟩ := ChunkBuffer.readUInt32_of (b := ⟨bytes, 8, h8⟩) hchannel
    hlen.symm hs.channelId
  obtain ⟨active, b₂, hsym, hdata₂, hpos₂⟩ := checkSymmetricSecurityHeader_sent hlink henv
    (hdata₁.trans htoken)
    (by rw [hpos₁, length_append, hlen, length_leBytes]) hs.token
  refine ⟨active, b₂, ?_, hdata₂.trans hdata₁, by rw [hpos₂, hpos₁]⟩
  have hid : checkSecureChannelId r false s.currentToken.secureChannelId = .ok r := by
    simp [checkSecureChannelId, hlink.current]
  have hopen : openChunk env r ⟨.msg, isFinal, n⟩ ⟨bytes, 8, h8⟩ =
      .ok ⟨{ r with serverNewSecuTokenActive := active }, ⟨.msg, isFinal, n⟩, b₂, true,
        s.usesPrecedent, isMsgEncrypted s.mode false, isMsgSigned s.mode, true, 0, false⟩ := by
    have hfalse : (MsgType.msg == MsgType.opn) = false := rfl
    simp only [openChunk, checkMessageType, Bool.true_eq_false, if_false, hread, hfalse, hid,
      reduceCtorEq, or_self]
    show checkSecurityHeader env ⟨.msg, isFinal, n⟩ r b₁ = _
    simp only [checkSecurityHeader, reduceCtorEq, if_false, hlink.config, hsym]
    rfl
  rw [opened, if_neg (by simp [hmulti]), hopen]
  rfl

variable {q : Secured}

theorem decryptMsg_sent (hp : Paired keys crypto) (hlink : Linked keys s r) (henv : env.Supports)
    (hprops : q.conn.props = r.props)
    (hsym : q.symmetric = true) (hprev : q.isPrevCryptoData = s.usesPrecedent)
    (hdec : q.toDecrypt = isMsgEncrypted s.mode false) (hdata : q.buffer.data = header ++ tail)
    (hpos : q.buffer.position = header.length)
    (hsize : (header ++ tail).length ≤ s.props.sendBufferSize)
    (hclear : isMsgEncrypted s.mode false = false → tail = content ++ signature)
    (hcipher : isMsgEncrypted s.mode false = true → ∃ blocks,
      (content ++ signature).length = blocks * keys.plainBlockSize ∧
        keys.encrypt s.usesPrecedent (content ++ signature) = some tail) :
    ∃ b, decryptMsg crypto env q = .ok { q with buffer := b } ∧
      b.data = header ++ (content ++ signature) ∧ b.position = q.buffer.position := by
  unfold decryptMsg
  cases hmode : isMsgEncrypted s.mode false with
  | false => rw [if_pos (hdec.trans hmode)]; exact ⟨q.buffer, rfl, by rw [hdata, hclear hmode], rfl⟩
  | true =>
    rw [if_neg (by simp [hdec, hmode])]
    obtain ⟨blocks, hblocks, hencrypt⟩ := hcipher hmode
    obtain ⟨htail, hplain, hdecrypt⟩ := hp.encrypt hencrypt hblocks
    have hremaining : q.buffer.remaining = tail := by
      rw [ChunkBuffer.remaining, hdata, hpos, drop_left]
    have hroom : ¬ q.conn.props.receiveBufferSize < (content ++ signature).length := by
      have hcover := Nat.mul_le_mul_left blocks hp.plainBlock_le
      have hbuffer := hlink.bufferSize
      rw [length_append] at hsize
      rw [hprops, hblocks]
      omega
    simp only [hsym, hprev, hremaining, hplain, hdecrypt]
    rw [if_neg hroom, if_neg (by simp [henv.plain]), if_neg (Nat.lt_irrefl _)]
    refine ⟨_, rfl, ?_, rfl⟩
    show q.buffer.data.take q.buffer.position ++ _ = _
    rw [hdata, hpos, take_left]

theorem verifyMsgSignature_sent (hp : Paired keys crypto)
    (hsym : q.symmetric = true) (hprev : q.isPrevCryptoData = s.usesPrecedent)
    (hcheck : q.toCheckSignature = isMsgSigned s.mode)
    (hdata : q.buffer.data = header ++ (content ++ signature))
    (hpos : q.buffer.position = header.length)
    (hunsigned : isMsgSigned s.mode = false → signature = []) (hsigned : isMsgSigned s.mode = true →
      keys.sign s.usesPrecedent (header ++ content) = some signature) :
    ∃ b, verifyMsgSignature crypto q = .ok { q with buffer := b } ∧
      b.data = header ++ content ∧ b.position = q.buffer.position := by
  unfold verifyMsgSignature
  cases hmode : isMsgSigned s.mode with
  | false =>
    rw [if_pos (hcheck.trans hmode)]
    exact ⟨q.buffer, rfl, by rw [hdata, hunsigned hmode, append_nil], rfl⟩
  | true =>
    rw [if_neg (by simp [hcheck, hmode])]
    obtain ⟨hlen, hsize, hverify⟩ := hp.sign (hsigned hmode)
    have hdata' : q.buffer.data = (header ++ content) ++ signature := by rw [hdata, append_assoc]
    have hlength : q.buffer.length = (header ++ content).length + keys.signatureSize := by
      rw [ChunkBuffer.length, hdata', length_append, hlen]
    have hposition : q.buffer.length - keys.signatureSize = (header ++ content).length := by omega
    obtain ⟨b, hset, hb, hbpos⟩ := ChunkBuffer.setDataLength_of hdata'
      (by rw [hpos, length_append]; omega)
    have htake : q.buffer.data.take (header ++ content).length = header ++ content := by
      rw [hdata', take_left]
    have hdrop : q.buffer.data.drop (header ++ content).length = signature := by
      rw [hdata', drop_left]
    simp only [hsym, hprev, hsize, hposition, htake, hdrop, hverify, hset, if_true]
    rw [if_neg (by omega)]
    exact ⟨b, rfl, hb, hbpos⟩

theorem removePaddingBytes_sent {extraSize : Nat}
    {lsb : UInt8} (hlow : lsb.toNat = size % 256)
    (hb : b.data = front ++ (lsb :: List.replicate size lsb)) (hpos : b.position ≤ front.length)
    (hextra : extraSize + size % 256 = size) :
    ∃ b', removePaddingBytes b extraSize = .ok b' ∧ b'.data = front ∧ b'.position = b.position := by
  have hlast : lastByte b.data = size % 256 := by
    rw [hb, ← replicate_succ, replicate_succ', ← append_assoc, lastByte_append_singleton, hlow]
  have hlength : b.length = front.length + (size + 1) := by
    rw [ChunkBuffer.length, hb, length_append, length_cons, length_replicate]
  obtain ⟨b', hset, hb', hbpos⟩ := ChunkBuffer.setDataLength_of hb hpos
  have hto : b.length - (extraSize + size % 256 + 1) = front.length := by omega
  unfold removePaddingBytes
  simp only [hlast]
  rw [if_neg (by omega), hto, hset]
  exact ⟨b', rfl, hb', hbpos⟩

theorem removeExtraPaddingSize_sent {x : UInt8}
    (hb : b.data = front ++ [x]) (hpos : b.position ≤ front.length) :
    ∃ b', removeExtraPaddingSize true b = .ok (b', 256 * x.toNat) ∧ b'.data = front ∧
      b'.position = b.position := by
  have hlength : b.length = front.length + 1 := by
    rw [ChunkBuffer.length, hb, length_append, length_singleton]
  obtain ⟨b', hset, hb', hbpos⟩ := ChunkBuffer.setDataLength_of hb hpos
  refine ⟨b', ?_, hb', hbpos⟩
  rw [removeExtraPaddingSize, if_pos rfl, if_neg (by omega), hlength, Nat.add_sub_cancel, hset]
  rw [hb, lastByte_append_singleton]

theorem removePadding_sent (hp : Paired keys crypto)
    (hdec : q.toDecrypt = isMsgEncrypted s.mode false)
    (hextra : q.conn.hasExtraPaddingSize = isExtraPaddingSizePresent keys.plainBlockSize)
    (hdata : q.buffer.data = front ++ if isMsgEncrypted s.mode false then encodePadding keys n else [])
    (hpos : q.buffer.position ≤ front.length) :
    ∃ b, removePadding q = .ok { q with buffer := b } ∧ b.data = front ∧
      b.position = q.buffer.position := by
  unfold removePadding
  cases hmode : isMsgEncrypted s.mode false with
  | false =>
    rw [if_pos (hdec.trans hmode)]
    refine ⟨q.buffer, rfl, ?_, rfl⟩
    rw [hdata, hmode, if_neg Bool.false_ne_true, append_nil]
  | true =>
    rw [if_neg (by simp [hdec, hmode])]
    rw [hmode, if_pos rfl] at hdata
    set size := getPaddingSize keys n with hsize
    set lsb := UInt8.ofNat (size % 256) with hlsb
    have hlow : lsb.toNat = size % 256 := by rw [hlsb, UInt8.toNat_ofNat']; omega
    have hlt := paddingSize_lt hp.plainBlock_pos n
    cases hbig : isExtraPaddingSizePresent keys.plainBlockSize with
    | false =>
      have hsmall : ¬ 256 < keys.plainBlockSize := by simpa [isExtraPaddingSizePresent] using hbig
      have hplain : q.buffer.data = front ++ (lsb :: List.replicate size lsb) := by
        simp [hdata, encodePadding, hbig, ← hsize, ← hlsb]
      obtain ⟨b', hremove, hb', hbpos'⟩ :=
        removePaddingBytes_sent hlow hplain hpos (by omega : 0 + size % 256 = size)
      refine ⟨b', ?_, hb', hbpos'⟩
      have hnone : removeExtraPaddingSize q.conn.hasExtraPaddingSize q.buffer =
          .ok (q.buffer, 0) := by
        rw [hextra, hbig, removeExtraPaddingSize, if_neg Bool.false_ne_true]
      rw [hnone]
      show (removePaddingBytes q.buffer 0).bind _ = _
      rw [hremove]
      rfl
    | true =>
      have hplain : q.buffer.data = (front ++ (lsb :: List.replicate size lsb)) ++
          [UInt8.ofNat (size / 256)] := by
        simp [hdata, encodePadding, hbig, ← hsize, ← hlsb]
      have hsmall := hp.plainBlock_small
      have hhigh : (UInt8.ofNat (size / 256)).toNat = size / 256 := by
        rw [UInt8.toNat_ofNat']
        omega
      obtain ⟨b, hone, hb, hbpos⟩ := removeExtraPaddingSize_sent hplain
        (by rw [length_append]; omega)
      obtain ⟨b', hremove, hb', hbpos'⟩ :=
        removePaddingBytes_sent hlow hb (hbpos.trans_le hpos)
          (by omega : 256 * (size / 256) + size % 256 = size)
      refine ⟨b', ?_, hb', hbpos'.trans hbpos⟩
      rw [hextra, hbig, hone, hhigh]
      show (removePaddingBytes b (256 * (size / 256))).bind _ = _
      rw [hremove]
      rfl

end

def receiveChunk (crypto : Crypto) (env : PayloadEnv) (conn : Connection) (bytes : List UInt8) :
    Step Treated :=
  match decodeTcpMsgHeader conn.props.receiveBufferSize bytes with
  | .error status => .reject status
  | .ok header =>
    if h : tcpUaHeaderLength ≤ bytes.length then
      treatChunk crypto env conn header ⟨bytes, tcpUaHeaderLength, h⟩
    else .reject .badTcpInternalError

def Awaited (r : Connection) (id : Nat) : Prop :=
  r.isServer = false → ∃ request, r.sentRequests.find? (fun q => q.requestId == id) = some request ∧
    request.msgType = .msg ∧ request.timeoutExpired = false

section

variable {keys : SendKeys} {crypto : Crypto} {s : Sender} {r : Connection} {env : PayloadEnv}

theorem checkSeqNumReceived_sent (r : Connection) (s : Sender)
    (h : r.lastSNreceived = s.lastSNsent) :
    checkSeqNumReceived r false s.nextSN = .ok { r with lastSNreceived := s.nextSN } := by
  unfold checkSeqNumReceived nextSN
  rw [if_neg Bool.false_ne_true, h]
  by_cases hwrap : 2 ^ 32 - 1 - 1024 < s.lastSNsent
  · simp only [if_pos hwrap]
    split
    · rfl
    · rw [if_pos ⟨hwrap, by omega⟩]
  · simp only [if_neg hwrap]; rw [if_pos (Nat.mod_eq_of_lt (by omega))]

theorem Sender.nextSN_lt (s : Sender) : s.nextSN < 2 ^ 32 := by
  unfold nextSN
  split <;> omega

variable {idOrHandle : Nat} {conn : Connection}

theorem checkRequestId_frame {header : TcpHeader} {id : Nat}
    {expired : Bool} (h : checkRequestId r env header id = .ok (conn, idOrHandle, expired)) :
    conn = { r with
      sentRequests := conn.sentRequests, currentMsgRequestId := conn.currentMsgRequestId } := by
  unfold checkRequestId at h
  split at h
  · cases h
  split at h
  · cases h; rfl
  unfold checkSentRequest at h
  split at h
  · cases h
  split at h
  · cases h
  split at h
  · split at h
    · cases h; rfl
    · cases h
  · cases h; rfl

theorem checkSequenceHeader_sent {q : Secured} {before rest : List UInt8} {id : Nat}
    (hseq : q.sequenceHeader = true) (htype : q.header.msgType = .msg)
    (hsn : q.conn.lastSNreceived = s.lastSNsent) (hid : id < 2 ^ 32)
    (hdata : q.buffer.data = before ++ (leBytes 4 s.nextSN ++ (leBytes 4 id ++ rest)))
    (hpos : q.buffer.position = before.length)
    (hrequest : checkRequestId { q.conn with lastSNreceived := s.nextSN } env q.header id =
      .ok (conn, idOrHandle, false)) :
    ∃ b, checkSequenceHeader env q = .ok { q with
        conn := conn
        buffer := b
        requestIdOrHandle := idOrHandle
        ignoreExpiredMessage := false } ∧
      b.data = q.buffer.data ∧ b.position = q.buffer.position + 8 := by
  obtain ⟨b₁, hread₁, hdata₁, hpos₁⟩ := ChunkBuffer.readUInt32_of hdata hpos s.nextSN_lt
  have hnext : q.buffer.data = (before ++ leBytes 4 s.nextSN) ++ (leBytes 4 id ++ rest) := by
    simpa only [append_assoc] using hdata
  obtain ⟨b₂, hread₂, hdata₂, hpos₂⟩ := ChunkBuffer.readUInt32_of (hdata₁.trans hnext)
    (by rw [hpos₁, hpos, length_append, length_leBytes]) hid
  have hopn : (q.header.msgType == MsgType.opn) = false := by rw [htype]; rfl
  refine ⟨b₂, ?_, hdata₂.trans hdata₁, by rw [hpos₂, hpos₁]⟩
  simp only [checkSequenceHeader, hseq, Bool.true_eq_false, if_false, hread₁, hopn,
    checkSeqNumReceived_sent q.conn s hsn, Except.bind, hread₂, hrequest]
  rfl

theorem sent_chunk_received (hp : Paired keys crypto) (hs : s.Ready keys)
    (hlink : Linked keys s r) (henv : env.Supports) {id : Nat} {body bytes : List UInt8}
    (hid : id < 2 ^ 32) (hmulti : checkMultiChunkContext r.props r.inter isFinal = true)
    (hsent : SentChunk keys s isFinal id body bytes) :
    bytes.length ≤ s.props.sendBufferSize ∧ isFinalOf (bytes.getD 3 0) = some isFinal ∧
      ∃ active, ∀ {conn idOrHandle},
        checkRequestId { r with serverNewSecuTokenActive := active, lastSNreceived := s.nextSN } env
            ⟨.msg, isFinal, bytes.length⟩ id = .ok (conn, idOrHandle, false) →
          ∃ q : Secured, receiveChunk crypto env r bytes = treatBodyOf env q ∧ q.conn = conn ∧
            q.header = ⟨.msg, isFinal, bytes.length⟩ ∧ q.buffer.remaining = body ∧
            q.ignoreExpiredMessage = false := by
  obtain ⟨signature, tail, hbytes, hmin, hmax, hunsigned, hsigned, hclear, hcipher⟩ :=
    hsent.lengths hp hs
  set header := clearHeader s .msg isFinal bytes.length with hheader
  set content := chunkContent keys s id body with hcontent
  have hhead : header.length = 16 := length_clearHeader s .msg isFinal bytes.length
  have hbuffer := hlink.bufferSize
  have hword := hs.bufferSize
  have h8 : tcpUaHeaderLength ≤ bytes.length := by rw [tcpUaHeaderLength]; omega
  have hdecode : decodeTcpMsgHeader r.props.receiveBufferSize bytes =
      .ok ⟨.msg, isFinal, bytes.length⟩ := by
    conv_lhs => rw [hbytes]
    exact decodeTcpMsgHeader_sent tail (by rw [tcpUaHeaderLength]; omega) (by omega) (by omega)
  have hkind : isFinalOf (bytes.getD 3 0) = some isFinal := by
    rw [hbytes]
    cases isFinal <;> rfl
  obtain ⟨active, b₁, hopened, hdata₁, hpos₁⟩ := opened_sent (n := bytes.length) hs hlink henv
    hbytes h8 hmulti
  refine ⟨hmax, hkind, active, fun {conn idOrHandle} hrequest => ?_⟩
  set q₁ : Secured := ⟨{ r with serverNewSecuTokenActive := active },
    ⟨.msg, isFinal, bytes.length⟩, b₁, true, s.usesPrecedent, isMsgEncrypted s.mode false,
    isMsgSigned s.mode, true, 0, false⟩ with hq₁
  obtain ⟨b₂, hdecrypted, hdata₂, hpos₂⟩ := decryptMsg_sent (q := q₁) hp hlink henv rfl rfl rfl rfl
    (hdata₁.trans hbytes) (by rw [hhead]; exact hpos₁) (by rw [← hbytes]; exact hmax) hclear hcipher
  obtain ⟨b₃, hverified, hdata₃, hpos₃⟩ := verifyMsgSignature_sent
    (q := { q₁ with buffer := b₂ }) hp rfl rfl rfl hdata₂
    (by rw [hhead]; exact hpos₂.trans hpos₁) hunsigned hsigned
  set padding := if isMsgEncrypted s.mode false then encodePadding keys (8 + body.length) else []
    with hpadding
  have hsn : b₃.data = header ++ (leBytes 4 s.nextSN ++ (leBytes 4 id ++ (body ++ padding))) := by
    rw [hdata₃, hcontent]
    simp [chunkContent, hpadding]
  have hpos₃' : b₃.position = 16 := hpos₃.trans (hpos₂.trans hpos₁)
  obtain ⟨b₄, hsequenced, hdata₄, hpos₄⟩ := checkSequenceHeader_sent
    (q := { q₁ with buffer := b₃ }) rfl rfl hlink.sequence hid hsn (by rw [hhead]; exact hpos₃')
    hrequest
  set front := header ++ (leBytes 4 s.nextSN ++ leBytes 4 id) with hfront
  have hfrontLen : front.length = 24 := by
    rw [hfront, length_append, length_append, hhead, length_leBytes, length_leBytes]
  have hpos₄' : b₄.position = 24 := by
    rw [hpos₄]
    show b₃.position + 8 = 24
    omega
  have hbody : b₄.data = (front ++ body) ++ padding := by
    rw [hdata₄]
    simpa only [hfront, append_assoc] using hsn
  have hframe := checkRequestId_frame hrequest
  obtain ⟨b₅, hunpadded, hdata₅, hpos₅⟩ := removePadding_sent (s := s)
    (q := { q₁ with
      conn := conn
      buffer := b₄
      requestIdOrHandle := idOrHandle
      ignoreExpiredMessage := false }) hp rfl (by rw [hframe]; exact hlink.extraPadding)
    hbody (by rw [length_append, hfrontLen]; show b₄.position ≤ _; omega)
  refine ⟨{ q₁ with
    conn := conn
    buffer := b₅
    requestIdOrHandle := idOrHandle
    ignoreExpiredMessage := false }, ?_, rfl, rfl, ?_, rfl⟩
  · simp only [receiveChunk, hdecode, dif_pos h8]
    show treatChunk crypto env r _ ⟨bytes, 8, h8⟩ = _
    rw [treatChunk, unpadded, sequenced, verified, decrypted, hopened]
    show (((((decryptMsg crypto env q₁).bind _).bind _).bind _).bind _) = _
    rw [hdecrypted]
    show ((((verifyMsgSignature crypto _).bind _).bind _).bind _) = _
    rw [hverified]
    show (((Outcome.ofExcept (checkSequenceHeader env _)).bind _).bind _) = _
    rw [hsequenced]
    show (removePadding _).bind _ = _
    rw [hunpadded]
    rfl
  · show b₅.data.drop b₅.position = body
    have hend : b₅.position = front.length := by rw [hpos₅, hfrontLen]; exact hpos₄'
    rw [hdata₅, hend, drop_left]

end

def Treated.delivered (t : Treated) : List (List UInt8) :=
  if t.ignoreExpiredMessage then [] else t.message.toList

/-- Chunks received in order: the messages that are delivered. The environment is the one of the
chunk with as many chunks left behind it. -/
def receiveAll (crypto : Crypto) (env : Nat → PayloadEnv) :
    Connection → List (List UInt8) → Step (Connection × List (List UInt8))
  | conn, [] => .ok (conn, [])
  | conn, bytes :: rest =>
    (receiveChunk crypto (env rest.length) conn bytes).bind fun t =>
      (receiveAll crypto env t.conn rest).bind fun r => .ok (r.1, t.delivered ++ r.2)

theorem receiveAll_cons {env : Nat → PayloadEnv} {conn r : Connection}
    {rest messages : List (List UInt8)} {t : Treated}
    (ht : receiveChunk crypto (env rest.length) conn bytes = .ok t)
    (hrest : receiveAll crypto env t.conn rest = .ok (r, messages)) :
    receiveAll crypto env conn (bytes :: rest) = .ok (r, t.delivered ++ messages) := by
  rw [receiveAll, ht]
  show (receiveAll crypto env t.conn rest).bind _ = _
  rw [hrest]
  rfl

/-- No message is under way: nothing was received yet, or the last chunk, a final or an abort one,
ended a message. -/
inductive BetweenMessages (r : Connection) : Prop where
  | fresh (inter : r.inter = none) (request : r.currentMsgRequestId = none)
  | ended {crypto : Crypto} {env : PayloadEnv} {conn : Connection} {header : TcpHeader}
      {b : ChunkBuffer} {t : Treated} (treated : treatChunk crypto env conn header b = .ok t)
      (message : t.message ≠ none) (inter : r.inter = t.conn.inter)
      (request : r.currentMsgRequestId = t.conn.currentMsgRequestId)

theorem BetweenMessages.clear {r : Connection} (h : BetweenMessages r) :
    r.inter = none ∧ r.currentMsgRequestId = none := by
  cases h with
  | fresh inter request => exact ⟨inter, request⟩
  | @ended crypto env conn header b t treated message inter request =>
    rw [treatChunk] at treated
    cases hu : unpadded crypto env conn header b with
    | fault f => rw [hu] at treated; cases treated
    | reject e => rw [hu] at treated; cases treated
    | ok q =>
      rw [hu] at treated
      replace treated : treatBodyOf env q = .ok t := treated
      unfold treatBodyOf at treated
      split at treated
      · split at treated
        · cases treated
        · cases treated
        · cases treated; exact absurd rfl message
        · cases treated; exact ⟨inter, request⟩
      · cases treated; exact ⟨inter, request⟩

section

variable {keys : SendKeys} {crypto : Crypto} {s : Sender} {r : Connection} {env : PayloadEnv}

variable {id : Nat} {s' : Sender}

theorem checkRequestId_awaited (isFinal : IsFinal) (n : Nat) (henv : env.Supports)
    (hcurrent : r.currentMsgRequestId = none ∨ r.currentMsgRequestId = some id)
    (hawaited : Awaited r id) :
    ∃ requests idOrHandle, checkRequestId r env ⟨.msg, isFinal, n⟩ id =
        .ok ({ r with sentRequests := requests, currentMsgRequestId := some idOrHandle }, idOrHandle,
          false) ∧
      (isFinal = .intermediate → idOrHandle = id ∧ Awaited { r with sentRequests := requests } id) := by
  have hsame : ¬ r.currentMsgRequestId.any (· ≠ id) = true := by
    rcases hcurrent with h | h <;> simp [h]
  rw [checkRequestId, if_neg hsame]
  by_cases hserver : r.isServer = true
  · rw [if_pos hserver]; exact ⟨r.sentRequests, id, rfl, fun _ => ⟨rfl, hawaited⟩⟩
  obtain ⟨request, hfind, htype, hexpired⟩ := hawaited (by simpa using hserver)
  have hmatch := find?_some hfind
  rw [if_neg hserver, checkSentRequest, hfind]
  simp only [htype, ne_eq, not_true_eq_false, if_false, henv.prepend, if_true, hexpired]
  split
  · exact ⟨_, id, rfl, fun _ => ⟨rfl, fun _ =>
      ⟨request, find?_cons_of_pos hmatch, htype, hexpired⟩⟩⟩
  · rename_i hkind; exact ⟨_, _, rfl, fun h => absurd h hkind⟩

/-- The receiver waits for the chunks left of a message and accepts the bytes left of its body. -/
structure Awaits (keys : SendKeys) (s : Sender) (r : Connection) (rid id chunks size : Nat) :
    Prop where
  ready : s.Ready keys
  link : Linked keys s r
  requestId : s.requestId rid = id
  word : id < 2 ^ 32
  current : r.currentMsgRequestId = none ∨ r.currentMsgRequestId = some id
  awaited : Awaited r id
  chunkCount : r.props.receiveMaxChunkCount ≠ 0 →
    r.inter.bodies.length + chunks ≤ r.props.receiveMaxChunkCount
  limit : r.inter.bodies.flatten.length + size ≤ r.props.receiveMaxMessageSize
  maximum : r.props.receiveMaxMessageSize < 2 ^ 32

theorem Sender.after_intermediate (h : s.after s' .intermediate) (hs : s.Ready keys) (rid : Nat) :
    s'.Ready keys ∧ s'.requestId rid = s.requestId rid ∧
      s'.symmSecuMaxBodySize = s.symmSecuMaxBodySize ∧ s'.props = s.props := by
  have hnext := hs.nextReqId
  rw [h]
  refine ⟨⟨hs.maxBodySize, hs.maxBodySize_ne, hs.bufferSize, hs.channelId, hs.token, ?_⟩, ?_, rfl,
    rfl⟩
  · simp only [sequenced, requestId, if_true]
    split
    · exact hnext
    · split <;> omega
  · simp only [sequenced, requestId, if_true]
    split
    · rfl
    · split <;> simp_all

variable {rid left : Nat} {body : List UInt8}

theorem intermediate_received {senv : SendEnv} {size : Nat} {bytes : List UInt8}
    (hp : Paired keys crypto) (henv : env.Supports)
    (h : Awaits keys s r rid id (left + 2) (body.length + size))
    (hsend : treatSendBuffer keys senv s rid .msg .intermediate body = (s', .ok bytes)) :
    bytes.length ≤ s.props.sendBufferSize ∧ isFinalOf (bytes.getD 3 0) = some .intermediate ∧
      ∃ t, receiveChunk crypto env r bytes = .ok t ∧ t.delivered = [] ∧
        t.conn.inter.bodies = r.inter.bodies ++ [body] ∧
        Awaits keys s' t.conn rid id (left + 1) size := by
  obtain ⟨hchunk, hafter⟩ := treatSendBuffer_sent hsend
  obtain ⟨hready, hid, -, -⟩ := after_intermediate hafter h.ready rid
  rw [h.requestId] at hchunk hid
  have hlimit := h.limit
  have hmaximum := h.maximum
  have hbodies : ¬ (r.props.receiveMaxChunkCount ≠ 0 ∧
      r.props.receiveMaxChunkCount ≤ r.inter.bodies.length + 1) := by
    rintro ⟨hne, hle⟩; have := h.chunkCount hne; omega
  have hmulti : checkMultiChunkContext r.props r.inter .intermediate = true := by
    simp [checkMultiChunkContext, getNbIntermediateInputChunks, hbodies]
  obtain ⟨hmax, hkind, active, hreceived⟩ := sent_chunk_received hp h.ready h.link henv h.word hmulti
    hchunk
  obtain ⟨requests, idOrHandle, hrequest, hstill⟩ := checkRequestId_awaited
    (r := { r with serverNewSecuTokenActive := active, lastSNreceived := s.nextSN })
    .intermediate bytes.length henv h.current h.awaited
  obtain ⟨rfl, hstill⟩ := hstill rfl
  obtain ⟨q, hq, hconn, hheader, hbody, -⟩ := hreceived hrequest
  have hmerge : treatMsgMultiChunks q.conn.props env.allocs q.conn.inter q.header.isFinal
      q.buffer.remaining = some (.ok (some (r.inter.bodies ++ [body]), none)) := by
    rw [hconn, hheader, hbody]
    have htreat : treatBody r.props env.allocs r.inter .intermediate body =
        treatMsgMultiChunks r.props env.allocs r.inter .intermediate body := by
      rw [treatBody, if_neg (by simp [hmulti])]
    rcases treatBody_intermediate r.props env.allocs
      (show r.inter.bodies.flatten.length + body.length < 2 ^ 32 by omega) with
      ⟨-, hlarge | hlarge⟩ | ⟨-, hall⟩ | ⟨hok, -⟩
    · exact absurd hlarge hbodies
    · omega
    · rw [henv.allocs] at hall; cases hall
    · exact htreat.symm.trans hok
  refine ⟨hmax, hkind, ⟨{ q.conn with inter := some (r.inter.bodies ++ [body]) }, q.header, none,
    q.requestIdOrHandle, q.ignoreExpiredMessage⟩, ?_, ?_, rfl, ?_⟩
  · rw [hq, treatBodyOf, if_pos (by rw [hheader]), hmerge]
  · rw [Treated.delivered]; split <;> rfl
  rw [hconn]
  refine ⟨hready, ?_, hid, h.word, .inr rfl, hstill, fun hne => ?_, ?_, hmaximum⟩
  · rw [hafter]
    exact { h.link with sequence := rfl }
  · have := h.chunkCount hne
    show (r.inter.bodies ++ [body]).length + _ ≤ r.props.receiveMaxChunkCount
    rw [length_append, length_singleton]; omega
  · show (r.inter.bodies ++ [body]).flatten.length + size ≤ r.props.receiveMaxMessageSize
    rw [flatten_append, flatten_singleton, length_append]; omega

theorem final_received {senv : SendEnv} {bytes : List UInt8}
    (hp : Paired keys crypto) (henv : env.Supports) (h : Awaits keys s r rid id 1 body.length)
    (hbytes : r.inter.bodies ≠ [] → 0 < r.inter.bodies.flatten.length + body.length)
    (hsend : treatSendBuffer keys senv s rid .msg .final body = (s', .ok bytes)) :
    bytes.length ≤ s.props.sendBufferSize ∧ isFinalOf (bytes.getD 3 0) = some .final ∧
      ∃ t, receiveChunk crypto env r bytes = .ok t ∧
        t.delivered = [r.inter.bodies.flatten ++ body] ∧
        t.conn.inter = none ∧ t.conn.currentMsgRequestId = none := by
  obtain ⟨hchunk, -⟩ := treatSendBuffer_sent hsend
  rw [h.requestId] at hchunk
  have hlimit := h.limit
  have hmaximum := h.maximum
  have hmulti : checkMultiChunkContext r.props r.inter .final = true := by
    simp [checkMultiChunkContext]
  obtain ⟨hmax, hkind, active, hreceived⟩ := sent_chunk_received hp h.ready h.link henv h.word hmulti
    hchunk
  obtain ⟨requests, handle, hrequest, -⟩ := checkRequestId_awaited
    (r := { r with serverNewSecuTokenActive := active, lastSNreceived := s.nextSN })
    .final bytes.length henv h.current h.awaited
  obtain ⟨q, hq, hconn, hheader, hbody, hexpired⟩ := hreceived hrequest
  obtain ⟨inter', hmerge⟩ : ∃ inter', treatMsgMultiChunks q.conn.props env.allocs q.conn.inter
      q.header.isFinal q.buffer.remaining =
        some (.ok (inter', some (r.inter.bodies.flatten ++ body))) := by
    rw [hconn, hheader, hbody]
    rcases treatBody_final r.props env.allocs
      (show r.inter.bodies.flatten.length + body.length < 2 ^ 32 by omega) hbytes with
      ⟨-, hlarge⟩ | ⟨-, ⟨-, hall⟩ | ⟨inter', hok⟩⟩
    · omega
    · rw [henv.allocs] at hall; cases hall
    · exact ⟨inter', hok⟩
  refine ⟨hmax, hkind, ⟨q.conn.clearInputChunks, q.header, some (r.inter.bodies.flatten ++ body),
    q.requestIdOrHandle, q.ignoreExpiredMessage⟩, ?_, ?_, rfl, rfl⟩
  · rw [hq, treatBodyOf, if_pos (by rw [hheader]), hmerge]
  · rw [Treated.delivered, hexpired]; rfl

theorem nextChunkBody_append (s : Sender) (rest : List UInt8) :
    (nextChunkBody s rest).1 ++ (nextChunkBody s rest).2 = rest :=
  take_append_drop _ rest

theorem length_nextChunkBody {rest : List UInt8}
    (h : rest.length ≤ (left + 1) * s.symmSecuMaxBodySize) :
    (nextChunkBody s rest).2.length ≤ left * s.symmSecuMaxBodySize := by
  rw [Nat.add_mul, Nat.one_mul] at h
  simp only [nextChunkBody, length_drop]
  split <;> omega

end

theorem Sender.Ready.blocks_fit (hs : s.Ready keys) (hp : Paired keys crypto)
    (hmode : isMsgEncrypted s.mode false = true) {blocks : Nat} (hn : n ≤ s.symmSecuMaxBodySize)
    (hblocks : 8 + n + keys.signatureSize + paddingSizeFields keys.plainBlockSize +
      getPaddingSize keys (8 + n) = blocks * keys.plainBlockSize) :
    16 + blocks * keys.cipherBlockSize ≤ s.props.sendBufferSize := by
  obtain ⟨hmin, hroom⟩ := hs.room
  simp only [hmode, isMsgSigned_of_encrypted hmode, if_true] at hroom
  set number := (s.props.sendBufferSize - 16) / keys.cipherBlockSize with hnumber
  have hpad := paddingSize_lt hp.plainBlock_pos (8 + n)
  have hless : blocks * keys.plainBlockSize < (number + 1) * keys.plainBlockSize := by
    rw [Nat.add_mul, Nat.one_mul, Nat.mul_comm number]
    omega
  have hle : blocks ≤ number := Nat.lt_succ_iff.mp (Nat.lt_of_mul_lt_mul_right hless)
  have hcover : blocks * keys.cipherBlockSize ≤ number * keys.cipherBlockSize :=
    Nat.mul_le_mul_right _ hle
  have hdiv : number * keys.cipherBlockSize ≤ s.props.sendBufferSize - 16 := Nat.div_mul_le_self _ _
  omega

section

variable {keys : SendKeys} {crypto : Crypto} {s : Sender} {env : SendEnv}

theorem signChunk_ok (hp : Paired keys crypto) (s : Sender) (plain : List UInt8) :
    ∃ signature, signChunk keys s plain = .ok (plain ++ signature) ∧
      (isMsgSigned s.mode = true → signature.length = keys.signatureSize) := by
  unfold signChunk
  cases hsign : isMsgSigned s.mode with
  | false => exact ⟨[], by simp, fun h => nomatch h⟩
  | true =>
    obtain ⟨signature, hsignature⟩ := hp.signs s.usesPrecedent plain
    exact ⟨signature, by simp [hsignature], fun _ => (hp.sign hsignature).1⟩

variable {body : List UInt8}

theorem chunk_encoded (hp : Paired keys crypto) (hs : s.Ready keys) (henv : env.Supports)
    (id : Nat) (isFinal : IsFinal)
    (hbody : body.length ≤ s.symmSecuMaxBodySize) :
    ∃ size bytes, messageSize keys s (chunkContent keys s id body) = some size ∧
      (signChunk keys s (clearHeader s .msg isFinal size ++ chunkContent keys s id body)).bind
        (encryptChunk keys env s size) = .ok bytes := by
  set content := chunkContent keys s id body with hcontent
  cases hmode : isMsgEncrypted s.mode false with
  | false =>
    set size := 16 + content.length + if isMsgSigned s.mode then keys.signatureSize else 0
    obtain ⟨signature, hsigned, -⟩ := signChunk_ok hp s (clearHeader s .msg isFinal size ++ content)
    refine ⟨size, clearHeader s .msg isFinal size ++ content ++ signature, ?_, ?_⟩
    · rw [messageSize, hmode, if_neg Bool.false_ne_true]
    · rw [hsigned]
      show encryptChunk keys env s _ _ = _
      rw [encryptChunk, hmode, if_neg Bool.false_ne_true]
  | true =>
    have hsign := isMsgSigned_of_encrypted hmode
    obtain ⟨blocks, hblocks⟩ := exists_blocks hp.plainBlock_pos hp.plainBlock_small
      (8 + body.length)
    have hlen : content.length + keys.signatureSize = blocks * keys.plainBlockSize := by
      rw [← hblocks, hcontent]
      simp only [chunkContent, hmode, if_true, length_append, length_leBytes, length_encodePadding]
      omega
    have hfits := hs.blocks_fit hp hmode hbody hblocks
    set size := 16 + blocks * keys.cipherBlockSize with hsize
    obtain ⟨signature, hsigned, hsignature⟩ :=
      signChunk_ok hp s (clearHeader s .msg isFinal size ++ content)
    have hplain : (content ++ signature).length = blocks * keys.plainBlockSize := by
      rw [length_append, hsignature hsign, hlen]
    obtain ⟨cipher, hcipher⟩ := hp.encrypts s.usesPrecedent hplain
    refine ⟨size, clearHeader s .msg isFinal size ++ cipher, ?_, ?_⟩
    · simp [messageSize, hmode, hlen, hp.encryptedLength, hsize]
    · rw [hsigned, append_assoc]
      show encryptChunk keys env s _ _ = _
      rw [encryptChunk, if_pos hmode, if_neg (by simp [henv.encrypt]; omega), drop_clearHeader,
        take_clearHeader, hcipher]

theorem treatSendBuffer_sends (hp : Paired keys crypto) (hs : s.Ready keys) (henv : env.Supports)
    (rid : Nat) (isFinal : IsFinal)
    (hbody : body.length ≤ s.symmSecuMaxBodySize) :
    ∃ s' bytes, treatSendBuffer keys env s rid .msg isFinal body = (s', .ok bytes) := by
  obtain ⟨size, bytes, hsize, hbytes⟩ := chunk_encoded hp hs henv (s.requestId rid) isFinal hbody
  obtain ⟨s', hrecord⟩ : ∃ s', recordRequest env (s.sequenced isFinal) .msg isFinal
      (s.requestId rid) rid = .ok s' := by
    unfold recordRequest
    split
    · exact ⟨_, if_pos henv.context⟩
    · exact ⟨_, rfl⟩
  unfold treatSendBuffer
  simp only [ne_eq, not_true_eq_false, false_and, if_false]
  rw [if_neg (by omega), if_neg (by simp [henv.padding])]
  simp [hsize, hbytes, hrecord]

theorem sendLoop_sends {senv : Nat → SendEnv} {rid : Nat} (hp : Paired keys crypto)
    (henv : ∀ i, (senv i).Supports) {left : Nat} {s : Sender} {chunk : List UInt8}
    (rest : List UInt8) (hs : s.Ready keys) (hchunk : chunk.length ≤ s.symmSecuMaxBodySize) :
    ∃ s' sent, sendLoop keys senv rid .msg left s chunk rest = (s', sent, none) := by
  induction left generalizing s chunk rest with
  | zero =>
    obtain ⟨s₁, bytes, hsend⟩ := treatSendBuffer_sends hp hs (henv 0) rid .final hchunk
    exact ⟨s₁, [bytes], by
      simp [sendLoop, isNextChunkIntermediateOrFinal, hsend]⟩
  | succ left ih =>
    obtain ⟨s₁, bytes, hsend⟩ := treatSendBuffer_sends hp hs (henv (left + 1)) rid .intermediate
      hchunk
    obtain ⟨hs₁, -⟩ := after_intermediate (treatSendBuffer_sent hsend).2 hs rid
    have hnext : (nextChunkBody s₁ rest).1.length ≤ s₁.symmSecuMaxBodySize := by
      simp only [nextChunkBody, length_take]
      split <;> omega
    obtain ⟨s', sent, hrest⟩ := ih (nextChunkBody s₁ rest).2 hs₁ hnext
    exact ⟨s', bytes :: sent, by
      simp [sendLoop, isNextChunkIntermediateOrFinal, hsend, (henv left).chunk, hrest]⟩

end

theorem sendLoop_last
    (h : sendLoop keys senv rid .msg 0 s chunk rest = (s', sent, none)) :
    ∃ bytes, treatSendBuffer keys (senv 0) s rid .msg .final chunk = (s', .ok bytes) ∧
      sent = [bytes] := by
  cases hsend : treatSendBuffer keys (senv 0) s rid .msg .final chunk with
  | mk s₁ result =>
    simp only [sendLoop, isNextChunkIntermediateOrFinal, Nat.lt_irrefl, if_false, hsend] at h
    cases result with
    | error status => cases h
    | ok bytes => cases h; exact ⟨bytes, rfl, rfl⟩

theorem sendLoop_next
    (h : sendLoop keys senv rid .msg (left + 1) s chunk rest = (s', sent, none)) :
    ∃ s₁ bytes sent', treatSendBuffer keys (senv (left + 1)) s rid .msg .intermediate chunk =
        (s₁, .ok bytes) ∧
      sendLoop keys senv rid .msg left s₁ (nextChunkBody s₁ rest).1 (nextChunkBody s₁ rest).2 =
        (s', sent', none) ∧ sent = bytes :: sent' := by
  cases hsend : treatSendBuffer keys (senv (left + 1)) s rid .msg .intermediate chunk with
  | mk s₁ result =>
    simp only [sendLoop, isNextChunkIntermediateOrFinal, Nat.succ_pos, if_true, hsend] at h
    cases result with
    | error status => cases h
    | ok bytes =>
      by_cases halloc : (senv left).chunkAlloc = true
      · simp only [halloc, if_true, Prod.mk.injEq] at h
        obtain ⟨hs', hsent, hnone⟩ := h
        refine ⟨s₁, bytes, _, rfl, ?_, hsent.symm⟩
        rw [← hs', ← hnone]
      · simp only [halloc, Bool.false_eq_true, if_false] at h; cases h

/-- The chunks of the loop are received as one message. The induction is on the number of chunks
left; the receiver holds the bodies of the chunks before. -/
theorem sendLoop_received (hp : Paired keys crypto)
    (henv : ∀ i, (renv i).Supports) {s s' : Sender} {r : Connection}
    {rest : List UInt8}
    (h : Awaits keys s r rid id (left + 1) (chunk.length + rest.length))
    (hrest : rest.length ≤ left * s.symmSecuMaxBodySize)
    (hbytes : r.inter.bodies ≠ [] ∨ 0 < left →
      0 < r.inter.bodies.flatten.length + (chunk.length + rest.length))
    (hrun : sendLoop keys senv rid .msg left s chunk rest = (s', sent, none)) :
    sent.map (fun bytes => isFinalOf (bytes.getD 3 0)) =
        List.replicate left (some .intermediate) ++ [some .final] ∧
      (∀ bytes ∈ sent, bytes.length ≤ s.props.sendBufferSize) ∧
      ∃ r', receiveAll crypto renv r sent =
          .ok (r', [r.inter.bodies.flatten ++ (chunk ++ rest)]) ∧
        r'.inter = none ∧ r'.currentMsgRequestId = none := by
  induction left generalizing s r chunk rest sent with
  | zero =>
    have hnil : rest = [] := eq_nil_of_length_eq_zero (by omega)
    subst hnil
    obtain ⟨bytes, hsend, rfl⟩ := sendLoop_last hrun
    obtain ⟨hmax, hkind, t, ht, hdelivered, hinter, hreq⟩ := final_received hp (henv 0) h
      (fun h => hbytes (.inl h)) hsend
    refine ⟨by rw [map_singleton, hkind]; rfl, by simpa using hmax, t.conn, ?_, hinter, hreq⟩
    have hall : receiveAll crypto renv r (bytes :: []) = _ := receiveAll_cons ht rfl
    rwa [hdelivered, ← append_nil chunk] at hall
  | succ left ih =>
    obtain ⟨s₁, bytes, sent', hsend, hloop, rfl⟩ := sendLoop_next hrun
    obtain ⟨hmax, hkind, t, ht, hdelivered, hbodies, hnext⟩ :=
      intermediate_received hp (henv (left + 1)) h hsend
    obtain ⟨-, -, hbody₁, hprops₁⟩ :=
      after_intermediate (treatSendBuffer_sent hsend).2 h.ready rid
    have happend := nextChunkBody_append s₁ rest
    have hlen : (nextChunkBody s₁ rest).1.length + (nextChunkBody s₁ rest).2.length = rest.length := by
      rw [← length_append, happend]
    have hflat : t.conn.inter.bodies.flatten = r.inter.bodies.flatten ++ chunk := by
      rw [hbodies, flatten_append, flatten_singleton]
    obtain ⟨hkinds, hsizes, r', hr', hinter, hcleared⟩ := ih (by rw [hlen]; exact hnext)
      (length_nextChunkBody (by rw [hbody₁]; exact hrest))
      (fun _ => by
        rw [hlen, hflat, length_append]; omega) hloop
    have hcount : sent'.length = left + 1 := by
      simpa using congrArg List.length hkinds
    refine ⟨?_, ?_, r', ?_, hinter, hcleared⟩
    · rw [map_cons, hkind, hkinds, replicate_succ, cons_append]
    · rw [hprops₁] at hsizes; exact forall_mem_cons.mpr ⟨hmax, hsizes⟩
    · rw [← hcount] at ht
      have hall := receiveAll_cons ht hr'
      rwa [hdelivered, nil_append, hflat, happend, append_assoc] at hall

theorem computeNbChunksToSend_ok {length : Nat} (hne : s.symmSecuMaxBodySize ≠ 0)
    (h : computeNbChunksToSend s .msg length = .ok n) :
    (n = 1 ∧ length ≤ s.symmSecuMaxBodySize) ∨
      (2 ≤ n ∧ 0 < length ∧ length ≤ n * s.symmSecuMaxBodySize) := by
  unfold computeNbChunksToSend at h
  dsimp only at h
  split at h
  · split at h
    · cases h; rename_i hle; exact .inl ⟨rfl, hle⟩
    · rw [if_pos rfl] at h
      generalize hextra : (if length % s.symmSecuMaxBodySize = 0 then 0 else 1) = extra at h
      split at h
      · cases h; have hdiv := Nat.div_add_mod length s.symmSecuMaxBodySize
        have hmod := Nat.mod_lt length (Nat.pos_of_ne_zero hne)
        have hone : 1 ≤ length / s.symmSecuMaxBodySize :=
          (Nat.one_le_div_iff (Nat.pos_of_ne_zero hne)).mpr (by omega)
        rw [Nat.mul_comm] at hdiv
        by_cases hzero : length % s.symmSecuMaxBodySize = 0
        · rw [if_pos hzero] at hextra
          subst hextra; rw [hzero] at hdiv
          refine .inr ⟨?_, by omega, by rw [Nat.add_zero]; omega⟩
          -- one full chunk alone would not be too long
          by_contra hlt
          have heq : length / s.symmSecuMaxBodySize = 1 := by omega
          rw [heq] at hdiv
          omega
        · rw [if_neg hzero] at hextra
          subst hextra; refine .inr ⟨by omega, by omega, ?_⟩
          rw [Nat.add_mul]
          omega
      · cases h
  · cases h

theorem message_received {keys : SendKeys} {crypto : Crypto} {senv : Nat → SendEnv}
    {abortEnv : SendEnv} {abortBody : ChunkStatus → Option (List UInt8)}
    {s : Sender} {r : Connection} {nbChunks : Nat}
    (hp : Paired keys crypto) (hs : s.Ready keys) (hlink : Linked keys s r)
    (hsenv : ∀ i, (senv i).Supports) (hrenv : ∀ i, (renv i).Supports) (hrid : rid < 2 ^ 32)
    (haccepted : computeNbChunksToSend s .msg body.length = .ok nbChunks)
    (hbetween : BetweenMessages r) (hawaited : Awaited r (s.requestId rid))
    (hsize : body.length ≤ r.props.receiveMaxMessageSize)
    (hmaximum : r.props.receiveMaxMessageSize < 2 ^ 32)
    (hcount : r.props.receiveMaxChunkCount ≠ 0 → nbChunks ≤ r.props.receiveMaxChunkCount) :
    ∃ s' sent r', treatSendMessageBuffer keys senv abortEnv abortBody s rid .msg body =
        (s', sent, .sent) ∧
      sent.length = nbChunks ∧
      sent.map (fun bytes => isFinalOf (bytes.getD 3 0)) =
        List.replicate (nbChunks - 1) (some .intermediate) ++ [some .final] ∧
      (∀ bytes ∈ sent, bytes.length ≤ s.props.sendBufferSize) ∧
      receiveAll crypto renv r sent = .ok (r', [body]) ∧ BetweenMessages r' := by
  obtain ⟨hinter, hrequest⟩ := hbetween.clear
  have hbodies : r.inter.bodies = [] := by rw [hinter]; rfl
  have hid : s.requestId rid < 2 ^ 32 := by
    have := hs.nextReqId
    unfold requestId
    split
    · exact hrid
    · split <;> omega
  -- the first chunk and what is left of the body
  obtain ⟨left, chunk, rest, hleft, happend, hchunk, hrest, hbytes, hrun⟩ :
      ∃ left chunk rest, nbChunks = left + 1 ∧ chunk ++ rest = body ∧
        chunk.length ≤ s.symmSecuMaxBodySize ∧ rest.length ≤ left * s.symmSecuMaxBodySize ∧
        (0 < left → 0 < body.length) ∧
        sendChunks keys senv s rid .msg body nbChunks =
          sendLoop keys senv rid .msg left s chunk rest := by
    rcases computeNbChunksToSend_ok hs.maxBodySize_ne haccepted with ⟨rfl, hle⟩ | ⟨htwo, hpos, hle⟩
    · exact ⟨0, body, [], rfl, append_nil _, hle, Nat.zero_le _, fun h => absurd h (by omega),
        rfl⟩
    obtain ⟨left, rfl⟩ : ∃ left, nbChunks = left + 1 := ⟨nbChunks - 1, by omega⟩
    refine ⟨left, (nextChunkBody s body).1, (nextChunkBody s body).2, rfl,
      nextChunkBody_append s body, ?_, length_nextChunkBody hle, fun _ => hpos, ?_⟩
    · simp only [nextChunkBody, length_take]
      split <;> omega
    · rw [sendChunks, if_neg (by omega), Nat.add_sub_cancel, if_pos (hsenv left).chunk]
  obtain ⟨s', sent, hloop⟩ := sendLoop_sends hp hsenv rest hs hchunk
  have hflat : r.inter.bodies.flatten.length + (chunk.length + rest.length) = body.length := by
    rw [hbodies, ← length_append, happend, flatten_nil, length_nil, Nat.zero_add]
  have hawaits : Awaits keys s r rid (s.requestId rid) (left + 1) (chunk.length + rest.length) :=
    ⟨hs, hlink, rfl, hid, .inl hrequest, hawaited, by simpa [hbodies, ← hleft] using hcount,
      hflat.trans_le hsize, hmaximum⟩
  obtain ⟨hkinds, hsizes, r', hreceived, hcleared, hnone⟩ := sendLoop_received hp hrenv hawaits hrest
    (by rw [hflat]; simpa [hbodies] using hbytes) hloop
  rw [hbodies, happend, flatten_nil, nil_append] at hreceived
  refine ⟨s', sent, r', ?_, ?_, ?_, hsizes, hreceived, .fresh hcleared hnone⟩
  · simp [treatSendMessageBuffer, haccepted, hrun, hloop]
  · have := congrArg List.length hkinds
    rw [length_map, length_append, length_replicate, length_singleton] at this
    omega
  · rw [hkinds, hleft, Nat.add_sub_cancel]

/-- Chunked messages: what is accepted for sending is sent in as many chunks as computed, all but
the last of them intermediate, each within the send buffer, and a receiver between two messages that
accepts these sizes delivers the body. -/
theorem message_round_trip (keys : SendKeys) (crypto : Crypto) (senv : Nat → SendEnv)
    (abortEnv : SendEnv) (abortBody : ChunkStatus → Option (List UInt8)) (renv : Nat → PayloadEnv)
    (s : Sender) (r : Connection) (rid nbChunks : Nat) (body : List UInt8)
    (hp : Paired keys crypto) (hs : s.Ready keys) (hlink : Linked keys s r)
    (hsenv : ∀ i, (senv i).Supports) (hrenv : ∀ i, (renv i).Supports) (hrid : rid < 2 ^ 32)
    (haccepted : computeNbChunksToSend s .msg body.length = .ok nbChunks)
    (hbetween : BetweenMessages r) (hawaited : Awaited r (s.requestId rid))
    (hsize : body.length ≤ r.props.receiveMaxMessageSize)
    (hmaximum : r.props.receiveMaxMessageSize < 2 ^ 32)
    (hcount : r.props.receiveMaxChunkCount ≠ 0 → nbChunks ≤ r.props.receiveMaxChunkCount) :
    ∃ s' sent r', treatSendMessageBuffer keys senv abortEnv abortBody s rid .msg body =
        (s', sent, .sent) ∧
      sent.length = nbChunks ∧
      sent.map (fun bytes => isFinalOf (bytes.getD 3 0)) =
        List.replicate (nbChunks - 1) (some .intermediate) ++ [some .final] ∧
      (∀ bytes ∈ sent, bytes.length ≤ s.props.sendBufferSize) ∧
      receiveAll crypto renv r sent = .ok (r', [body]) ∧ BetweenMessages r' :=
  message_received hp hs hlink hsenv hrenv hrid haccepted hbetween hawaited hsize hmaximum hcount

def blockKeys : SendKeys where
  plainBlockSize := 2
  cipherBlockSize := 2
  signatureSize := 1
  encryptedLength := some
  sign := fun _ _ => some [0]
  encrypt := fun _ plain => some plain

def blockCrypto : Crypto :=
  { hmacKeys with signatureSize := fun _ _ => some 1, verify := fun _ _ _ _ => true }

theorem blockKeys_paired : Paired blockKeys blockCrypto where
  plainBlock_pos := by decide
  plainBlock_le := by decide
  plainBlock_small := by decide
  encryptedLength := fun _ => rfl
  encrypt := by intro prev plain cipher blocks h hlen; cases h; exact ⟨hlen, rfl, rfl⟩
  sign := by intro prev data signature h; cases h; exact ⟨rfl, rfl, rfl⟩
  encrypts := fun _ plain _ _ => ⟨plain, rfl⟩
  signs := fun _ _ => ⟨[0], rfl⟩

def blockSender : Sender where
  isServer := false
  mode := .signAndEncrypt
  currentToken := ⟨1, 1⟩
  precedentToken := ⟨0, 0⟩
  serverNewSecuTokenActive := false
  lastSNsent := 1
  clientNextReqId := 8
  symmSecuMaxBodySize := 2
  sentRequests := []
  props := ⟨28, 100, 3, 28, 100, 3⟩

def blockReceiver : Connection :=
  { signConnection with config := some .signAndEncrypt, props := ⟨28, 100, 3, 28, 100, 3⟩ }

def sendMemory : SendEnv := ⟨true, true, true, true⟩

theorem blockSender_ready : blockSender.Ready blockKeys :=
  ⟨rfl, by decide, by decide, by decide, by decide, by decide⟩

theorem blockReceiver_linked : Linked blockKeys blockSender blockReceiver :=
  ⟨rfl, rfl, rfl, (fun h => nomatch h), rfl, by decide, rfl⟩

theorem three_bytes_round_trip :
    computeNbChunksToSend blockSender .msg 3 = .ok 2 ∧
      ∃ s' sent r', treatSendMessageBuffer blockKeys (fun _ => sendMemory) sendMemory
          (fun _ => none) blockSender 5 .msg [1, 2, 3] = (s', sent, .sent) ∧
        sent.length = 2 ∧
        sent.map (fun bytes => isFinalOf (bytes.getD 3 0)) =
          List.replicate (2 - 1) (some .intermediate) ++ [some .final] ∧
        (∀ bytes ∈ sent, bytes.length ≤ blockSender.props.sendBufferSize) ∧
        receiveAll blockCrypto (fun _ => quietEnv) blockReceiver sent = .ok (r', [[1, 2, 3]]) ∧
        BetweenMessages r' :=
  ⟨rfl, message_round_trip blockKeys blockCrypto (fun _ => sendMemory) sendMemory (fun _ => none)
    (fun _ => quietEnv) blockSender blockReceiver 5 2 [1, 2, 3] blockKeys_paired blockSender_ready
    blockReceiver_linked (fun _ => ⟨rfl, rfl, rfl, rfl⟩) (fun _ => ⟨rfl, rfl, rfl, rfl, rfl⟩)
    (by decide) rfl (.fresh rfl rfl) (fun h => nomatch h) (by decide) (by decide)
    (fun _ => by decide)⟩

def staleChunk : List UInt8 :=
  match treatSendBuffer blockKeys sendMemory
      { blockSender with lastSNsent := 0, clientNextReqId := 7 } 4 .msg .intermediate [9, 9] with
  | (_, .ok bytes) => bytes
  | (_, .error _) => []

def afterStaleChunk : Step (Connection × List (List UInt8)) :=
  receiveAll blockCrypto (fun _ => quietEnv) { blockReceiver with lastSNreceived := 0 }
    (staleChunk :: (treatSendMessageBuffer blockKeys (fun _ => sendMemory) sendMemory
      (fun _ => none) blockSender 5 .msg [1, 2, 3]).2.1)

/-- A message is refused if the one before is not complete: the chunk of that one is accepted, the
message is sent, and its first chunk closes the channel. -/
theorem message_after_incomplete_refused :
    (∃ r, receiveAll blockCrypto (fun _ => quietEnv) { blockReceiver with lastSNreceived := 0 }
        [staleChunk] = .ok (r, [])) ∧
      (treatSendMessageBuffer blockKeys (fun _ => sendMemory) sendMemory (fun _ => none)
        blockSender 5 .msg [1, 2, 3]).2.2 = .sent ∧
      afterStaleChunk = .reject .badSecurityChecksFailed := by
  exact ⟨⟨_, rfl⟩, rfl, rfl⟩

end Channels
end S2OPC
