import S2OPC.Channels.BodySize

/-!
# S2OPC.Channels.SendOpn

The sending of `OPN` messages: `SC_Chunks_TreatSendBufferOPN` of `sopc_chunks_mgr.c`. Its headers
have no fixed size, so that the sizes of bodies are computed here, for asymmetric and for symmetric
messages, the first time an `OPN` message is sent on a connection.
-/

namespace S2OPC
namespace Channels

open Codec (leBytes)
open BodySize (CryptoSizes)

/-- What the asymmetric security header is made of: the URI of the policy, the own certificate and
the thumbprint of the peer, if they can be had. -/
structure OpnHeaders where
  policyUri : List UInt8
  certificate : Option (List UInt8)
  thumbprint : Option (List UInt8)

structure OpnCrypto where
  sizes : Option CryptoSizes
  encryptedLength : Nat → Option Nat
  sign : List UInt8 → Option (List UInt8)
  encrypt : List UInt8 → Option (List UInt8)

structure OpnSender extends Sender where
  asymmSecuMaxBodySize : Nat
  hasExtraPaddingSize : Bool

def nullByteString : List UInt8 := leBytes 4 (2 ^ 32 - 1)

def byteString (bytes : List UInt8) : List UInt8 := leBytes 4 bytes.length ++ bytes

def encodeAsymSecurityHeader (mode : SecurityMode) (h : OpnHeaders) : Option (List UInt8) :=
  if h.policyUri = [] then none
  else
    h.certificate.bind fun certificate =>
      if isMsgSigned mode ∧ certificate = [] then none
      else
        let sender := if isMsgSigned mode then byteString certificate else nullByteString
        let receiver :=
          if isMsgEncrypted mode true then h.thumbprint.map byteString else some nullByteString
        receiver.map fun receiver => byteString h.policyUri ++ sender ++ receiver

/-- The computation of the sizes of bodies. The flag for the extra padding size is given to both
computations, so that the one for symmetric messages is left in it. -/
def OpnSender.setMaxBodySizes (symmetric : CryptoSizes) (asymmetric : Option CryptoSizes)
    (headersSize : Nat) (s : OpnSender) : OpnSender :=
  if s.asymmSecuMaxBodySize = 0 ∧ s.symmSecuMaxBodySize = 0 then
    let chunkSize := UInt32.ofNat s.props.sendBufferSize
    let maxBodySize (headersSize : UInt32) (z : CryptoSizes) : Nat :=
      ((BodySize.computeMaxBodySize headersSize chunkSize z).map UInt32.toNat).getD 0
    { s with
      asymmSecuMaxBodySize := (asymmetric.map (maxBodySize (UInt32.ofNat headersSize))).getD 0
      symmSecuMaxBodySize := maxBodySize 16 symmetric
      hasExtraPaddingSize := symmetric.hasExtraPaddingSize }
  else s

def OpnCrypto.keys (crypto : OpnCrypto) (z : CryptoSizes) : SendKeys where
  plainBlockSize := z.plainBlockSize.toNat
  cipherBlockSize := z.cipherBlockSize.toNat
  signatureSize := z.signatureSize.toNat
  encryptedLength := crypto.encryptedLength
  sign := fun _ => crypto.sign
  encrypt := fun _ => crypto.encrypt

def checkMaxSenderCertificateSize (certificateSize messageChunkSize policyLength paddingLength
    signatureSize : Nat) : Bool :=
  decide (messageChunkSize < 2 ^ 31 ∧ signatureSize < 2 ^ 31 ∧
    (certificateSize : Int) ≤ (messageChunkSize : Int) - 12 - 4 - policyLength - 4 - 4 - 20 - 8 -
      paddingLength - signatureSize)

def opnHeader (s : Sender) (size : Nat) : List UInt8 :=
  msgTypeBytes .opn ++ [isFinalByte .final] ++ leBytes 4 size ++
    leBytes 4 s.currentToken.secureChannelId

def opnPadding (crypto : OpnCrypto) (mode : SecurityMode) (z : CryptoSizes)
    (body : List UInt8) : List UInt8 :=
  if isMsgEncrypted mode true then encodePadding (crypto.keys z) (8 + body.length) else []

def secureOpn (crypto : OpnCrypto) (env : SendEnv) (s : OpnSender) (headers content : List UInt8)
    (size : Nat) : Except ChunkStatus (List UInt8) :=
  if isMsgSigned s.mode then
    match crypto.sign (headers ++ content) with
    | none => .error .badEncodingError
    | some signature =>
      if s.props.sendBufferSize < headers.length + content.length + signature.length then
        .error .badEncodingError
      else if isMsgEncrypted s.mode true then
        if s.props.sendBufferSize < size ∨ env.encryptAlloc = false then .error .badOutOfMemory
        else
          match crypto.encrypt (content ++ signature) with
          | none => .error .badEncodingError
          | some cipher => .ok (headers ++ cipher)
      else .ok (headers ++ content ++ signature)
  else .ok (headers ++ content)

def sendOpn (crypto : OpnCrypto) (env : SendEnv) (s : OpnSender) (requestIdOrHandle : Nat)
    (security rest : List UInt8) (size : Nat) : OpnSender × Except ChunkStatus (List UInt8) :=
  let requestId := s.requestId requestIdOrHandle
  let content := leBytes 4 s.nextSN ++ leBytes 4 requestId ++ rest
  let s' := { s with toSender := s.toSender.sequenced .final }
  match secureOpn crypto env s (opnHeader s.toSender size ++ security) content size with
  | .error status => (s', .error status)
  | .ok bytes =>
    match recordRequest env s'.toSender .opn .final requestId requestIdOrHandle with
    | .error status => (s', .error status)
    | .ok sender => ({ s' with toSender := sender }, .ok bytes)

def opnSignatureSize (mode : SecurityMode) (z : CryptoSizes) : Nat :=
  if isMsgSigned mode then z.signatureSize.toNat else 0

def opnSize (crypto : OpnCrypto) (mode : SecurityMode) (z : CryptoSizes)
    (headersSize plainLength : Nat) : Option Nat :=
  if isMsgEncrypted mode true then
    (crypto.encryptedLength (plainLength + opnSignatureSize mode z)).map (headersSize + ·)
  else some (headersSize + plainLength + opnSignatureSize mode z)

def padAndSendOpn (h : OpnHeaders) (crypto : OpnCrypto) (env : SendEnv) (s : OpnSender)
    (requestIdOrHandle : Nat) (security body : List UInt8) (z : CryptoSizes) :
    OpnSender × Except ChunkStatus (List UInt8) :=
  let tooLarge := if s.isServer then ChunkStatus.badResponseTooLarge else .badRequestTooLarge
  let headersSize := 12 + security.length
  let padding := opnPadding crypto s.mode z body
  if isMsgEncrypted s.mode true ∧ (env.paddingWritten = false ∨
      s.props.sendBufferSize < headersSize + 8 + body.length + padding.length) then
    (s, .error .badTcpInternalError)
  else if checkMaxSenderCertificateSize ((h.certificate.map List.length).getD 0)
      s.props.sendBufferSize h.policyUri.length padding.length
      (opnSignatureSize s.mode z) = false then
    (s, .error tooLarge)
  else
    match opnSize crypto s.mode z headersSize (8 + body.length + padding.length) with
    | none => (s, .error .badTcpInternalError)
    | some size => sendOpn crypto env s requestIdOrHandle security (body ++ padding) size

def treatSendBufferOPN (h : OpnHeaders) (symmetric : CryptoSizes) (crypto : OpnCrypto)
    (env : SendEnv) (s : OpnSender) (requestIdOrHandle : Nat) (body : List UInt8) :
    OpnSender × Except ChunkStatus (List UInt8) :=
  match encodeAsymSecurityHeader s.mode h with
  | none => (s, .error .badTcpInternalError)
  | some security =>
    let headersSize := 12 + security.length
    if s.props.sendBufferSize < headersSize then (s, .error .badTcpInternalError)
    else
      let s := s.setMaxBodySizes symmetric crypto.sizes headersSize
      if s.asymmSecuMaxBodySize = 0 ∨ s.symmSecuMaxBodySize = 0 then
        (s, .error .badTcpInternalError)
      else if s.asymmSecuMaxBodySize < body.length then
        (s, .error (if s.isServer then .badResponseTooLarge else .badRequestTooLarge))
      else if s.props.sendBufferSize < headersSize + 8 + body.length then
        (s, .error .badTcpInternalError)
      else
        match crypto.sizes with
        | none => (s, .error .badTcpInternalError)
        | some z => padAndSendOpn h crypto env s requestIdOrHandle security body z

def OpnHeaders.encoded (h : OpnHeaders) (mode : SecurityMode) (sendBufferSize : Nat) : Bool :=
  (encodeAsymSecurityHeader mode h).any fun security =>
    decide (12 + security.length ≤ sendBufferSize)

structure OpnSender.SizesSet (symmetric : CryptoSizes) (s s' : OpnSender) : Prop where
  sender : s'.toSender = { s.toSender with symmSecuMaxBodySize := s'.symmSecuMaxBodySize }
  flag : s'.hasExtraPaddingSize =
    if s.asymmSecuMaxBodySize = 0 ∧ s.symmSecuMaxBodySize = 0 then symmetric.hasExtraPaddingSize
    else s.hasExtraPaddingSize
  kept : ¬ (s.asymmSecuMaxBodySize = 0 ∧ s.symmSecuMaxBodySize = 0) → s' = s

theorem setMaxBodySizes_set (symmetric : CryptoSizes) (asymmetric : Option CryptoSizes)
    (headersSize : Nat) (s : OpnSender) :
    s.SizesSet symmetric (s.setMaxBodySizes symmetric asymmetric headersSize) := by
  unfold OpnSender.setMaxBodySizes
  by_cases h : s.asymmSecuMaxBodySize = 0 ∧ s.symmSecuMaxBodySize = 0
  · rw [if_pos h]; exact ⟨rfl, (if_pos h).symm, fun hn => absurd h hn⟩
  · rw [if_neg h]; exact ⟨rfl, (if_neg h).symm, fun _ => rfl⟩

theorem treatSendBufferOPN_cases (h : OpnHeaders) (symmetric : CryptoSizes) (crypto : OpnCrypto)
    (env : SendEnv) (s : OpnSender) (requestIdOrHandle : Nat) (body : List UInt8) :
    (h.encoded s.mode s.props.sendBufferSize = false ∧ ∃ status,
        treatSendBufferOPN h symmetric crypto env s requestIdOrHandle body = (s, .error status)) ∨
      (h.encoded s.mode s.props.sendBufferSize = true ∧ ∃ s₁, s.SizesSet symmetric s₁ ∧
        ((∃ status, treatSendBufferOPN h symmetric crypto env s requestIdOrHandle body =
            (s₁, .error status)) ∨
          ∃ security z size, encodeAsymSecurityHeader s.mode h = some security ∧
            crypto.sizes = some z ∧
            opnSize crypto s.mode z (12 + security.length)
              (8 + body.length + (opnPadding crypto s.mode z body).length) = some size ∧
            treatSendBufferOPN h symmetric crypto env s requestIdOrHandle body =
              sendOpn crypto env s₁ requestIdOrHandle security
                (body ++ opnPadding crypto s.mode z body) size)) := by
  unfold treatSendBufferOPN OpnHeaders.encoded
  cases hsec : encodeAsymSecurityHeader s.mode h with
  | none => exact .inl ⟨rfl, _, rfl⟩
  | some security =>
    dsimp only
    by_cases hroom : s.props.sendBufferSize < 12 + security.length
    · rw [if_pos hroom]; exact .inl ⟨decide_eq_false (Nat.not_le.mpr hroom), _, rfl⟩
    rw [if_neg hroom]
    have hset := setMaxBodySizes_set symmetric crypto.sizes (12 + security.length) s
    set s₁ := s.setMaxBodySizes symmetric crypto.sizes (12 + security.length) with hs₁
    have hmode : s₁.mode = s.mode := by rw [hset.sender]
    refine .inr ⟨decide_eq_true (Nat.not_lt.mp hroom), s₁, hset, ?_⟩
    split
    · exact .inl ⟨_, rfl⟩
    split
    · exact .inl ⟨_, rfl⟩
    split
    · exact .inl ⟨_, rfl⟩
    cases hsizes : crypto.sizes with
    | none => exact .inl ⟨_, rfl⟩
    | some z =>
      unfold padAndSendOpn
      dsimp only
      split
      · exact .inl ⟨_, rfl⟩
      split
      · exact .inl ⟨_, rfl⟩
      rw [hmode]
      cases hsize : opnSize crypto s.mode z (12 + security.length)
          (8 + body.length + (opnPadding crypto s.mode z body).length) with
      | none => exact .inl ⟨_, rfl⟩
      | some size => exact .inr ⟨security, z, size, rfl, rfl, hsize, rfl⟩

theorem sendOpn_cases (crypto : OpnCrypto) (env : SendEnv) (s : OpnSender)
    (requestIdOrHandle : Nat) (security rest : List UInt8) (size : Nat) :
    (∃ status, sendOpn crypto env s requestIdOrHandle security rest size =
        ({ s with toSender := s.toSender.sequenced .final }, .error status)) ∨
      ∃ sender bytes, sendOpn crypto env s requestIdOrHandle security rest size =
          ({ s with toSender := sender }, .ok bytes) ∧
        recordRequest env (s.toSender.sequenced .final) .opn .final (s.requestId requestIdOrHandle)
          requestIdOrHandle = .ok sender := by
  unfold sendOpn
  dsimp only
  cases secureOpn crypto env s (opnHeader s.toSender size ++ security)
      (leBytes 4 s.nextSN ++ leBytes 4 (s.requestId requestIdOrHandle) ++ rest) size with
  | error status => exact .inl ⟨status, rfl⟩
  | ok bytes =>
    cases hrecord : recordRequest env (s.toSender.sequenced .final) .opn .final
        (s.requestId requestIdOrHandle) requestIdOrHandle with
    | error status => exact .inl ⟨status, rfl⟩
    | ok sender => exact .inr ⟨sender, bytes, rfl, rfl⟩

end Channels
end S2OPC
