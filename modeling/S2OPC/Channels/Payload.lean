import S2OPC.Channels.Reassembly
import S2OPC.Lib.Fallible

/-!
# S2OPC.Channels.Payload

The treatment of a received chunk: `SC_Chunks_TreatTcpPayload` of `sopc_chunks_mgr.c`.

Each part goes on with the chunk, rejects it, or is at fault: an unsigned subtraction wraps around, or
an assertion fails. Of the cryptographic functions only the lengths are known.
-/

namespace S2OPC
namespace Channels

open List

open Codec (ofLeBytes)
open Fallible (Outcome)

structure ChunkBuffer where
  data : List UInt8
  position : Nat
  position_le : position ≤ data.length

namespace ChunkBuffer

def length (b : ChunkBuffer) : Nat := b.data.length

def remaining (b : ChunkBuffer) : List UInt8 := b.data.drop b.position

theorem position_le_replaced (b : ChunkBuffer) (bytes : List UInt8) :
    b.position ≤ (b.data.take b.position ++ bytes).length := by
  have := b.position_le; simp; omega

def replaceRemaining (b : ChunkBuffer) (bytes : List UInt8) : ChunkBuffer :=
  ⟨b.data.take b.position ++ bytes, b.position, b.position_le_replaced bytes⟩

def read (b : ChunkBuffer) (count : Nat) : Option (List UInt8 × ChunkBuffer) :=
  if h : b.position + count ≤ b.data.length then
    some (b.remaining.take count, ⟨b.data, b.position + count, h⟩)
  else none

def readUInt32 (b : ChunkBuffer) : Option (Nat × ChunkBuffer) :=
  (b.read 4).map fun r => (ofLeBytes r.1, r.2)

/-- `SOPC_ByteString_Read` and `SOPC_String_ReadWithLimitedLength`. The length is an `int32_t`; a
string without bytes is null. -/
def readByteString (maxLength : Nat) (b : ChunkBuffer) : Option (List UInt8 × ChunkBuffer) :=
  b.readUInt32.bind fun (length, b) =>
    if length = 0 ∨ 2 ^ 31 ≤ length then some ([], b)
    else if maxLength < length then none
    else b.read length

def setDataLength (b : ChunkBuffer) (length : Nat) : Option ChunkBuffer :=
  if h : b.position ≤ length ∧ length ≤ b.data.length then
    some ⟨b.data.take length, b.position, by rw [length_take]; omega⟩
  else none

end ChunkBuffer

inductive Fault where
  | wrap
  | assertion
  deriving DecidableEq, Repr

abbrev Step := Outcome Fault ChunkStatus

inductive SecurityMode where
  | none
  | sign
  | signAndEncrypt
  deriving DecidableEq, Repr

def isMsgEncrypted (mode : SecurityMode) (isOPN : Bool) : Bool :=
  match mode with
  | .none => false
  | .sign => isOPN
  | .signAndEncrypt => true

def isMsgSigned (mode : SecurityMode) : Bool := mode != .none

structure SecurityToken where
  secureChannelId : Nat
  tokenId : Nat
  deriving DecidableEq, Repr

structure SentRequest where
  requestId : Nat
  requestHandle : Nat
  msgType : MsgType
  timeoutExpired : Bool
  deriving DecidableEq, Repr

structure Connection where
  isServer : Bool
  -- the state is `SC_CONNECTED` or `SC_CONNECTED_RENEW`
  connected : Bool
  -- the security mode of the configuration of the secure channel, if there is one
  config : Option SecurityMode
  endpointConfig : Bool
  currentToken : SecurityToken
  precedentToken : SecurityToken
  serverNewSecuTokenActive : Bool
  clientSecureChannelId : Nat
  lastSNreceived : Nat
  sentRequests : List SentRequest
  hasExtraPaddingSize : Bool
  props : TcpProperties
  inter : Intermediate
  -- the request id of the message under way
  currentMsgRequestId : Option Nat
  deriving DecidableEq

structure PayloadEnv where
  -- the tokens did not expire yet
  currentValid : Bool
  precedentValid : Bool
  -- the security policy is the expected one, or one of the endpoint
  policyCompliant : List UInt8 → Bool
  cryptoProvider : Bool
  certificateKnown : Bool
  -- why a sender certificate or a thumbprint is refused
  senderCertificate : List UInt8 → Option ChunkStatus
  receiverThumbprint : List UInt8 → Option ChunkStatus
  maxStringLength : Nat
  plainAlloc : Bool
  prependAlloc : Bool
  allocs : ChunkAllocs

/-- The cryptographic functions of a connection, for asymmetric or symmetric messages and for the
precedent or the current keys. -/
structure Crypto where
  plainLength : Bool → Bool → Nat → Option Nat
  decrypt : Bool → Bool → List UInt8 → Option (List UInt8)
  signatureSize : Bool → Bool → Option Nat
  verify : Bool → Bool → List UInt8 → List UInt8 → Bool
  -- A decrypted text is not longer than announced.
  decrypt_length : ∀ {symmetric prev cipher plain n}, decrypt symmetric prev cipher = some plain →
    plainLength symmetric prev cipher.length = some n → plain.length ≤ n

structure Secured where
  conn : Connection
  header : TcpHeader
  buffer : ChunkBuffer
  symmetric : Bool
  isPrevCryptoData : Bool
  toDecrypt : Bool
  toCheckSignature : Bool
  sequenceHeader : Bool
  requestIdOrHandle : Nat
  ignoreExpiredMessage : Bool

def checkMessageType (conn : Connection) (header : TcpHeader) : Bool :=
  match header.msgType with
  | .hel => conn.isServer && header.isFinal == .final
  | .ack => !conn.isServer && header.isFinal == .final
  | .err => !conn.isServer && header.isFinal == .final
  | .opn => header.isFinal == .final
  | .clo => conn.isServer && header.isFinal == .final
  | .msg => true

def checkSecureChannelId (conn : Connection) (isOPN : Bool) (secureChannelId : Nat) :
    Except ChunkStatus Connection :=
  if isOPN ∧ conn.currentToken.secureChannelId = 0 then
    if conn.isServer then
      if secureChannelId = 0 then .ok conn else .error .badSecurityChecksFailed
    else
      if secureChannelId = 0 then .error .badSecurityChecksFailed
      else .ok { conn with clientSecureChannelId := secureChannelId }
  else if conn.currentToken.secureChannelId = secureChannelId then .ok conn
  else .error .badTcpSecureChannelUnknown

/-- The sender certificate in `SC_Chunks_DecodeAsymSecurityHeader_Certificates`: whether it is
present. -/
def checkSenderCertificate (env : PayloadEnv) (mode : Option SecurityMode)
    (certificate : List UInt8) : Except ChunkStatus Bool :=
  let toSign := (mode.map isMsgSigned).getD true
  if certificate ≠ [] then
    if toSign then
      match env.senderCertificate certificate with
      | none => .ok true
      | some status => .error status
    else .error .badCertificateUseNotAllowed
  else if mode = none ∨ toSign = false then .ok false
  else .error .badCertificateInvalid

def checkReceiverThumbprint (env : PayloadEnv) (mode : Option SecurityMode)
    (thumbprint : List UInt8) : Except ChunkStatus Bool :=
  let toEncrypt := (mode.map fun m => isMsgEncrypted m true).getD true
  if thumbprint ≠ [] then
    if toEncrypt then
      match env.receiverThumbprint thumbprint with
      | none => .ok true
      | some status => .error status
    else .ok true
  else if mode = none ∨ toEncrypt = false then .ok false
  else .error .badCertificateInvalid

def decodeCertificates (env : PayloadEnv) (mode : Option SecurityMode) (b : ChunkBuffer) :
    Except ChunkStatus (Bool × Bool × ChunkBuffer) :=
  if env.certificateKnown = false then .error .badTcpInternalError
  else
    match b.readByteString env.maxStringLength with
    | none => .error .badTcpInternalError
    | some (certificate, b) =>
      (checkSenderCertificate env mode certificate).bind fun sender =>
        match b.readByteString env.maxStringLength with
        | none => .error .badTcpInternalError
        | some (thumbprint, b) =>
          (checkReceiverThumbprint env mode thumbprint).map fun receiver => (sender, receiver, b)

def Connection.expectedMode (conn : Connection) : Option SecurityMode :=
  if conn.isServer ∧ conn.connected = false then none else conn.config

def asymmetricSecurityHeader (conn : Connection) (env : PayloadEnv) (b : ChunkBuffer) :
    Except ChunkStatus (Bool × ChunkBuffer) :=
  if (conn.isServer = false ∨ conn.connected) ∧ conn.config = none then .error .badInvalidState
  else if conn.isServer ∧ conn.endpointConfig = false then .error .badInvalidState
  else
    match b.readByteString 255 with
    | none => .error .badDecodingError
    | some (policy, b) =>
      if env.policyCompliant policy = false then .error .badSecurityPolicyRejected
      else if env.cryptoProvider = false then .error .badSecurityPolicyRejected
      else
        (decodeCertificates env conn.expectedMode b).bind fun (sender, receiver, b) =>
          if sender ≠ receiver then .error .badCertificateInvalid
          else
            match conn.expectedMode with
            | none => .ok (sender, b)
            | some mode =>
              if sender = isMsgSigned mode then .ok (sender, b) else .error .badSecurityChecksFailed

/-- Before the connection is established, any error is replaced by a generic one. -/
def checkAsymmetricSecurityHeader (conn : Connection) (env : PayloadEnv) (b : ChunkBuffer) :
    Except ChunkStatus (Bool × ChunkBuffer) :=
  (asymmetricSecurityHeader conn env b).mapError fun status =>
    if conn.connected then status else .badSecurityChecksFailed

/-- Whether the keys of the precedent token are used. -/
def checkSymmetricSecurityHeader (conn : Connection) (env : PayloadEnv) (b : ChunkBuffer) :
    Except ChunkStatus (Bool × Connection × ChunkBuffer) :=
  match b.readUInt32 with
  | none => .error .badTcpInternalError
  | some (tokenId, b) =>
    if conn.currentToken.tokenId = tokenId then
      if env.currentValid then
        .ok (false,
          { conn with
            serverNewSecuTokenActive := conn.isServer || conn.serverNewSecuTokenActive }, b)
      else .error .badSecureChannelTokenUnknown
    else if conn.precedentToken.tokenId = tokenId ∧ conn.precedentToken.secureChannelId ≠ 0 ∧
        conn.precedentToken.tokenId ≠ 0 then
      if env.precedentValid then .ok (true, conn, b) else .error .badSecureChannelTokenUnknown
    else .error .badSecureChannelTokenUnknown

def checkSecurityHeader (env : PayloadEnv) (header : TcpHeader) (conn : Connection)
    (b : ChunkBuffer) : Except ChunkStatus Secured :=
  if header.msgType = .opn then
    (checkAsymmetricSecurityHeader conn env b).map fun (active, b) =>
      ⟨conn, header, b, false, false, active, active, true, 0, false⟩
  else
    match conn.config with
    | none => .error .badSecurityChecksFailed
    | some mode =>
      (checkSymmetricSecurityHeader conn env b).map fun (prev, conn, b) =>
        ⟨conn, header, b, true, prev, isMsgEncrypted mode false, isMsgSigned mode, true, 0, false⟩

def openChunk (env : PayloadEnv) (conn : Connection) (header : TcpHeader) (b : ChunkBuffer) :
    Except ChunkStatus Secured :=
  if checkMessageType conn header = false then .error .badTcpMessageTypeInvalid
  else if header.msgType = .hel ∨ header.msgType = .ack ∨ header.msgType = .err then
    .ok ⟨conn, header, b, false, false, false, false, false, 0, false⟩
  else
    match b.readUInt32 with
    | none => .error .good
    | some (secureChannelId, b) =>
      (checkSecureChannelId conn (header.msgType == .opn) secureChannelId).bind fun conn =>
        checkSecurityHeader env header conn b

/-- If the plain text is announced longer than the receive buffer, the chunk is left without a
buffer, which the next part does not expect. -/
def decryptMsg (crypto : Crypto) (env : PayloadEnv) (s : Secured) : Step Secured :=
  if s.toDecrypt = false then .ok s
  else
    match crypto.plainLength s.symmetric s.isPrevCryptoData s.buffer.remaining.length with
    | none => .reject .badSecurityChecksFailed
    | some n =>
      if s.conn.props.receiveBufferSize < n then .fault .assertion
      else if env.plainAlloc = false then .reject .badSecurityChecksFailed
      else
        match crypto.decrypt s.symmetric s.isPrevCryptoData s.buffer.remaining with
        | none => .reject .badSecurityChecksFailed
        | some plain =>
          if n < plain.length then .fault .assertion
          else
            .ok { s with buffer := s.buffer.replaceRemaining plain }

def verifyMsgSignature (crypto : Crypto) (s : Secured) : Step Secured :=
  if s.toCheckSignature = false then .ok s
  else
    match crypto.signatureSize s.symmetric s.isPrevCryptoData with
    | none => .reject .badSecurityChecksFailed
    | some signatureSize =>
      if s.buffer.length < signatureSize then .fault .wrap
      else
        let signaturePosition := s.buffer.length - signatureSize
        if crypto.verify s.symmetric s.isPrevCryptoData (s.buffer.data.take signaturePosition)
            (s.buffer.data.drop signaturePosition) then
          match s.buffer.setDataLength signaturePosition with
          | none => .fault .assertion
          | some buffer => .ok { s with buffer := buffer }
        else .reject .badSecurityChecksFailed

def lastByte (data : List UInt8) : Nat := (data.getLast?.getD 0).toNat

def removePaddingBytes (b : ChunkBuffer) (extraSize : Nat) : Step ChunkBuffer :=
  let nbPaddingBytes := extraSize + lastByte b.data + 1
  if b.length < nbPaddingBytes then .fault .wrap
  else
    match b.setDataLength (b.length - nbPaddingBytes) with
    | none => .reject .badDecodingError
    | some b => .ok b

def removeExtraPaddingSize (extra : Bool) (b : ChunkBuffer) : Step (ChunkBuffer × Nat) :=
  if extra then
    if b.length = 0 then .fault .wrap
    else
      match b.setDataLength (b.length - 1) with
      | none => .reject .badDecodingError
      | some b' => .ok (b', 256 * lastByte b.data)
  else .ok (b, 0)

def removePadding (s : Secured) : Step Secured :=
  if s.toDecrypt = false then .ok s
  else
    (removeExtraPaddingSize s.conn.hasExtraPaddingSize s.buffer).bind fun r =>
      (removePaddingBytes r.1 r.2).bind fun b => .ok { s with buffer := b }

def checkSeqNumReceived (conn : Connection) (isOPN : Bool) (seqNumber : Nat) :
    Except ChunkStatus Connection :=
  if isOPN then .ok { conn with lastSNreceived := seqNumber }
  else if (conn.lastSNreceived + 1) % 2 ^ 32 = seqNumber then
    .ok { conn with lastSNreceived := seqNumber }
  else if 2 ^ 32 - 1 - 1024 < conn.lastSNreceived ∧ seqNumber < 1024 then
    .ok { conn with lastSNreceived := seqNumber }
  else .error .badSecurityChecksFailed

/-- The part of `SC_Chunks_CheckSequenceHeaderRequestId` for a client: the request that the message
answers. -/
def checkSentRequest (conn : Connection) (env : PayloadEnv) (header : TcpHeader) (requestId : Nat) :
    Except ChunkStatus (Connection × Nat × Bool) :=
  match conn.sentRequests.find? fun r => r.requestId == requestId with
  | none => .error .badSecurityChecksFailed
  | some request =>
    let others := conn.sentRequests.eraseP fun r => r.requestId == requestId
    if request.msgType ≠ header.msgType then .error .badSecurityChecksFailed
    else if header.isFinal = .intermediate then
      if env.prependAlloc then
        .ok ({ conn with sentRequests := request :: others }, requestId, request.timeoutExpired)
      else .error .good
    else .ok ({ conn with sentRequests := others }, request.requestHandle, request.timeoutExpired)

def checkRequestId (conn : Connection) (env : PayloadEnv) (header : TcpHeader) (requestId : Nat) :
    Except ChunkStatus (Connection × Nat × Bool) :=
  if conn.currentMsgRequestId.any (· ≠ requestId) then .error .badSecurityChecksFailed
  else
    let found :=
      if conn.isServer then .ok (conn, requestId, false)
      else checkSentRequest conn env header requestId
    found.map fun (conn, idOrHandle, expired) =>
      ({ conn with currentMsgRequestId := some idOrHandle }, idOrHandle, expired)

def checkSequenceHeader (env : PayloadEnv) (s : Secured) : Except ChunkStatus Secured :=
  if s.sequenceHeader = false then .ok s
  else
    match s.buffer.readUInt32 with
    | none => .error .badTcpInternalError
    | some (seqNumber, b) =>
      (checkSeqNumReceived s.conn (s.header.msgType == .opn) seqNumber).bind fun conn =>
        match b.readUInt32 with
        | none => .error .badTcpInternalError
        | some (requestId, b) =>
          (checkRequestId conn env s.header requestId).map fun (conn, idOrHandle, expired) =>
            { s with
              conn := conn
              buffer := b
              requestIdOrHandle := idOrHandle
              ignoreExpiredMessage := expired }

structure Treated where
  conn : Connection
  header : TcpHeader
  message : Option (List UInt8)
  requestIdOrHandle : Nat
  ignoreExpiredMessage : Bool

def Connection.clearInputChunks (conn : Connection) : Connection :=
  { conn with inter := none, currentMsgRequestId := none }

/-- The end of `SC_Chunks_TreatTcpPayload`, and the clearing of the context of a complete
message. -/
def treatBodyOf (env : PayloadEnv) (s : Secured) : Step Treated :=
  if s.header.msgType = .msg then
    match treatMsgMultiChunks s.conn.props env.allocs s.conn.inter s.header.isFinal
        s.buffer.remaining with
    | none => .fault .assertion
    | some (.error status) => .reject status
    | some (.ok (inter, none)) =>
      .ok ⟨{ s.conn with inter := inter }, s.header, none, s.requestIdOrHandle,
        s.ignoreExpiredMessage⟩
    | some (.ok (_, some message)) =>
      .ok ⟨s.conn.clearInputChunks, s.header, some message, s.requestIdOrHandle,
        s.ignoreExpiredMessage⟩
  else
    .ok ⟨s.conn.clearInputChunks, s.header, some s.buffer.remaining, s.requestIdOrHandle,
      s.ignoreExpiredMessage⟩

section

variable (crypto : Crypto) (env : PayloadEnv) (conn : Connection) (header : TcpHeader)
  (b : ChunkBuffer)

def opened : Step Secured :=
  if checkMultiChunkContext conn.props conn.inter header.isFinal = false then
    .reject .badTcpMessageTooLarge
  else .ofExcept (openChunk env conn header b)

def decrypted : Step Secured := (opened env conn header b).bind (decryptMsg crypto env)

def verified : Step Secured := (decrypted crypto env conn header b).bind (verifyMsgSignature crypto)

def sequenced : Step Secured :=
  (verified crypto env conn header b).bind fun s => .ofExcept (checkSequenceHeader env s)

def unpadded : Step Secured := (sequenced crypto env conn header b).bind removePadding

def treatChunk : Step Treated := (unpadded crypto env conn header b).bind (treatBodyOf env)

end

def Secured.PlainFits (crypto : Crypto) (s : Secured) : Prop :=
  s.toDecrypt = true → ∀ n,
    crypto.plainLength s.symmetric s.isPrevCryptoData s.buffer.remaining.length = some n →
      n ≤ s.conn.props.receiveBufferSize

def Secured.SignatureFits (crypto : Crypto) (s : Secured) : Prop :=
  s.toCheckSignature = true → ∀ n,
    crypto.signatureSize s.symmetric s.isPrevCryptoData = some n →
      n ≤ s.buffer.length ∧
        (crypto.verify s.symmetric s.isPrevCryptoData (s.buffer.data.take (s.buffer.length - n))
          (s.buffer.data.drop (s.buffer.length - n)) = true →
            s.buffer.position + n ≤ s.buffer.length)

def PaddingInside (extra : Bool) (b : ChunkBuffer) : Prop :=
  if extra then
    b.position ≤ b.length - 1 →
      256 * lastByte b.data + lastByte (b.data.take (b.length - 1)) + 1 ≤ b.length - 1
  else lastByte b.data + 1 ≤ b.length

def Secured.PaddingFits (s : Secured) : Prop :=
  s.toDecrypt = true → PaddingInside s.conn.hasExtraPaddingSize s.buffer

def MergeFits (props : TcpProperties) (allocs : ChunkAllocs) (inter : Intermediate)
    (isFinal : IsFinal) (body : List UInt8) : Prop :=
  isFinal = .final → inter.bodies ≠ [] → totalSize inter body ≤ props.receiveMaxMessageSize →
    0 < totalSize inter body ∧
      (allocs.merged = true → inter.bodies.flatten.length + body.length < 2 ^ 32)

def Secured.BodyFits (env : PayloadEnv) (s : Secured) : Prop :=
  s.header.msgType = .msg →
    MergeFits s.conn.props env.allocs s.conn.inter s.header.isFinal s.buffer.remaining

structure LengthsFit (crypto : Crypto) (env : PayloadEnv) (conn : Connection) (header : TcpHeader)
    (b : ChunkBuffer) : Prop where
  plain : ∀ s, opened env conn header b = .ok s → s.PlainFits crypto
  signature : ∀ s, decrypted crypto env conn header b = .ok s → s.SignatureFits crypto
  padding : ∀ s, sequenced crypto env conn header b = .ok s → s.PaddingFits
  body : ∀ s, unpadded crypto env conn header b = .ok s → s.BodyFits env

open Fallible.Outcome (defined_ok defined_reject not_defined_fault defined_ofExcept defined_bind_iff)

theorem opened_defined (env : PayloadEnv) (conn : Connection) (header : TcpHeader)
    (b : ChunkBuffer) : (opened env conn header b).Defined := by
  unfold opened
  split
  · exact defined_reject _
  · exact defined_ofExcept _

variable {s : Secured} {b : ChunkBuffer}

variable {crypto : Crypto} {env : PayloadEnv} {n size : Nat} {allocs : ChunkAllocs}
  {inter : Intermediate} {body : List UInt8}

theorem decryptMsg_defined_iff :
    (decryptMsg crypto env s).Defined ↔ s.PlainFits crypto := by
  unfold decryptMsg
  by_cases hd : s.toDecrypt = false
  · rw [if_pos hd]
    exact iff_of_true (defined_ok s) fun h => absurd h (by simp [hd])
  rw [if_neg hd]
  have hdec : s.toDecrypt = true := by simpa using hd
  cases hn : crypto.plainLength s.symmetric s.isPrevCryptoData s.buffer.remaining.length with
  | none =>
    refine iff_of_true (defined_reject _) fun _ n h => ?_
    rw [hn] at h
    cases h
  | some n =>
    have hfits : s.PlainFits crypto ↔ n ≤ s.conn.props.receiveBufferSize := by
      constructor
      · intro h; exact h hdec n hn
      · intro h _ m hm; rw [hn] at hm; cases hm; exact h
    rw [hfits]
    by_cases hsize : s.conn.props.receiveBufferSize < n
    · simp only [if_pos hsize]; exact iff_of_false (not_defined_fault _) (by omega)
    simp only [if_neg hsize]
    refine iff_of_true ?_ (by omega)
    split
    · exact defined_reject _
    · split
      · exact defined_reject _
      · rename_i plain hplain; rw [if_neg (Nat.not_lt.mpr (crypto.decrypt_length hplain hn))]
        exact defined_ok _

theorem ChunkBuffer.setDataLength_eq_none_iff (h : n ≤ b.length) :
    b.setDataLength n = none ↔ n < b.position := by
  unfold ChunkBuffer.setDataLength
  by_cases hp : b.position ≤ n
  · rw [dif_pos ⟨hp, h⟩]; exact iff_of_false (by simp) (by omega)
  · rw [dif_neg fun h => hp h.1]; exact iff_of_true rfl (by omega)

theorem ChunkBuffer.data_of_setDataLength {b' : ChunkBuffer}
    (h : b.setDataLength n = some b') : b'.data = b.data.take n ∧ b'.length = n := by
  unfold ChunkBuffer.setDataLength at h
  split at h
  · rename_i hn; cases h
    refine ⟨rfl, ?_⟩
    simp only [ChunkBuffer.length, length_take, Nat.min_eq_left hn.2]
  · cases h

theorem verifyMsgSignature_defined_iff :
    (verifyMsgSignature crypto s).Defined ↔ s.SignatureFits crypto := by
  unfold verifyMsgSignature
  by_cases hc : s.toCheckSignature = false
  · rw [if_pos hc]
    exact iff_of_true (defined_ok s) fun h => absurd h (by simp [hc])
  rw [if_neg hc]
  have hcheck : s.toCheckSignature = true := by simpa using hc
  cases hn : crypto.signatureSize s.symmetric s.isPrevCryptoData with
  | none =>
    refine iff_of_true (defined_reject _) fun _ n h => ?_
    rw [hn] at h
    cases h
  | some n =>
    by_cases hlen : s.buffer.length < n
    · simp only [if_pos hlen]
      refine iff_of_false (not_defined_fault _) fun h => ?_
      have := (h hcheck n hn).1
      omega
    simp only [if_neg hlen]
    split
    · rename_i hverify
      cases hset : s.buffer.setDataLength (s.buffer.length - n) with
      | none =>
        refine iff_of_false (not_defined_fault _) fun h => ?_
        have hpos := (h hcheck n hn).2 hverify
        have := (ChunkBuffer.setDataLength_eq_none_iff (Nat.sub_le _ n)).mp hset
        omega
      | some buffer =>
        refine iff_of_true (defined_ok _) fun _ m hm => ?_
        rw [hn] at hm
        cases hm
        have hpos : ¬ s.buffer.length - n < s.buffer.position := by
          intro h; rw [(ChunkBuffer.setDataLength_eq_none_iff (Nat.sub_le _ n)).mpr h] at hset
          cases hset
        exact ⟨by omega, fun _ => by omega⟩
    · rename_i hverify
      refine iff_of_true (defined_reject _) fun _ m hm => ?_
      rw [hn] at hm
      cases hm; exact ⟨by omega, fun h => absurd h hverify⟩

theorem removePaddingBytes_defined_iff {extraSize : Nat} :
    (removePaddingBytes b extraSize).Defined ↔ extraSize + lastByte b.data + 1 ≤ b.length := by
  unfold removePaddingBytes
  by_cases hlen : b.length < extraSize + lastByte b.data + 1
  · simp only [if_pos hlen]; exact iff_of_false (not_defined_fault _) (by omega)
  simp only [if_neg hlen]
  refine iff_of_true ?_ (by omega)
  split
  · exact defined_reject _
  · exact defined_ok _

theorem removeExtraPaddingSize_true (hlen : b.length ≠ 0) :
    (b.length - 1 < b.position ∧ removeExtraPaddingSize true b = .reject .badDecodingError) ∨
      ∃ b', b.position ≤ b.length - 1 ∧ b'.data = b.data.take (b.length - 1) ∧
        b'.length = b.length - 1 ∧
          removeExtraPaddingSize true b = .ok (b', 256 * lastByte b.data) := by
  unfold removeExtraPaddingSize
  rw [if_pos rfl, if_neg hlen]
  have hnone := ChunkBuffer.setDataLength_eq_none_iff (Nat.sub_le b.length 1)
  cases hset : b.setDataLength (b.length - 1) with
  | none => exact .inl ⟨hnone.mp hset, rfl⟩
  | some b' =>
    obtain ⟨hdata, hlength⟩ := ChunkBuffer.data_of_setDataLength hset
    refine .inr ⟨b', ?_, hdata, hlength, rfl⟩
    by_contra h
    rw [hnone.mpr (by omega)] at hset
    cases hset

theorem removePadding_defined_iff : (removePadding s).Defined ↔ s.PaddingFits := by
  unfold removePadding Secured.PaddingFits
  by_cases hd : s.toDecrypt = false
  · rw [if_pos hd]
    exact iff_of_true (defined_ok s) fun h => absurd h (by simp [hd])
  rw [if_neg hd]
  have hdec : s.toDecrypt = true := by simpa using hd
  refine Iff.trans ?_ (forall_prop_of_true hdec).symm
  -- putting the buffer back into the chunk is never at fault
  have hrest : ∀ r : ChunkBuffer × Nat, ((removePaddingBytes r.1 r.2).bind fun b =>
      (.ok { s with buffer := b } : Step Secured)).Defined ↔
        r.2 + lastByte r.1.data + 1 ≤ r.1.length := by
    intro r; rw [defined_bind_iff, removePaddingBytes_defined_iff]
    exact and_iff_left fun _ _ => defined_ok _
  cases hextra : s.conn.hasExtraPaddingSize with
  | false => refine (hrest (s.buffer, 0)).trans ?_; simp [PaddingInside]
  | true =>
    by_cases hzero : s.buffer.length = 0
    · have hfault : removeExtraPaddingSize true s.buffer = .fault .wrap := by
        rw [removeExtraPaddingSize, if_pos rfl, if_pos hzero]
      have hpos : s.buffer.position ≤ s.buffer.length := s.buffer.position_le
      rw [hfault]
      refine iff_of_false (not_defined_fault _) fun h => ?_
      have := h (by omega)
      omega
    rcases removeExtraPaddingSize_true hzero with ⟨hlt, hr⟩ | ⟨b, hle, hdata, hlength, hr⟩
    · rw [hr]
      exact iff_of_true (defined_reject _) fun h => by omega
    · rw [hr]
      refine (hrest (b, _)).trans ?_
      simp only [hdata, hlength]
      exact ⟨fun h _ => h, fun h => h hle⟩

theorem fillBuffer_all {k : Nat} {data src filled : List UInt8} (hdata : data.length ≤ size)
    (h : fillBuffer size data 0 src size = some (filled, [], k)) :
    filled = data ++ src ∧ (data ++ src).length ≤ size := by
  rw [fillBuffer_eq (Nat.zero_le _) (by omega) (by omega), Nat.zero_add] at h
  simp only [Option.some.injEq, Prod.mk.injEq, drop_eq_nil_iff] at h
  obtain ⟨hfilled, hfits, -⟩ := h
  exact ⟨by rw [← hfilled, take_of_length_le hfits], hfits⟩

theorem mergeChunks_some {bodies : List (List UInt8)} {merged m : List UInt8}
    (hm : merged.length ≤ size) (h : mergeChunks size merged bodies = some m) :
    m = merged ++ bodies.flatten ∧ m.length ≤ size := by
  fun_induction mergeChunks size merged bodies with
  | case1 => cases h; exact ⟨(append_nil _).symm, hm⟩
  | case2 merged body bodies filled k hfill ih =>
    obtain ⟨rfl, hfits⟩ := fillBuffer_all hm hfill
    rw [flatten_cons, ← append_assoc]
    exact ih hfits h
  | case3 => cases h

theorem mergeFinalChunk_eq_none_iff
    (hne : inter.bodies ≠ []) :
    mergeFinalChunk allocs (totalSize inter body) inter body = none ↔
      ¬ (0 < totalSize inter body ∧
        (allocs.merged = true → inter.bodies.flatten.length + body.length < 2 ^ 32)) := by
  have hnb : getNbIntermediateInputChunks inter ≠ 0 := by
    rw [getNbIntermediateInputChunks, ne_eq, length_eq_zero_iff]
    exact hne
  constructor
  · rintro h ⟨hpos, hfits⟩
    cases hmerged : allocs.merged with
    | false => rw [mergeFinalChunk, if_neg hnb, if_neg (by omega), if_pos hmerged] at h; cases h
    | true =>
      have hsize := totalSize_eq (hfits hmerged)
      rw [hsize] at h hpos
      rcases mergeFinalChunk_eq fun _ => hpos with ⟨heq, -⟩ | ⟨inter', heq⟩
      · rw [heq] at h; cases h
      · rw [heq] at h; cases h
  · intro hnot
    by_cases hzero : totalSize inter body = 0
    · rw [mergeFinalChunk, if_neg hnb, if_pos hzero]
    have hover : allocs.merged = true ∧ ¬ inter.bodies.flatten.length + body.length < 2 ^ 32 := by
      by_contra h
      exact hnot ⟨by omega, fun hm => by_contra fun hlt => h ⟨hm, hlt⟩⟩
    -- the size is a remainder, so that it is less than the number of bytes
    have hless : totalSize inter body < inter.bodies.flatten.length + body.length := by
      rw [totalSize, ← length_flatten]
      omega
    rw [mergeFinalChunk, if_neg hnb, if_neg hzero, if_neg (by simp [hover.1])]
    cases hmerge : mergeChunks (totalSize inter body) [] inter.bodies with
    | none => rfl
    | some merged =>
      obtain ⟨rfl, hroom⟩ := mergeChunks_some (Nat.zero_le _) hmerge
      rw [nil_append] at hroom
      simp only [nil_append]
      split
      · rename_i filled hfill; have := (fillBuffer_all hroom hfill).2
        rw [length_append] at this
        omega
      · rfl

theorem treatMsgMultiChunks_eq_none_iff {props : TcpProperties}
    {isFinal : IsFinal} :
    treatMsgMultiChunks props allocs inter isFinal body = none ↔
      ¬ MergeFits props allocs inter isFinal body := by
  cases isFinal with
  | intermediate =>
    refine iff_of_false ?_ fun h => h fun hf => nomatch hf
    unfold treatMsgMultiChunks
    dsimp only
    split
    · simp
    · split <;> simp
  | abort => exact iff_of_false (by simp [treatMsgMultiChunks, mergeFinalChunk,
      getNbIntermediateInputChunks, Intermediate.bodies]) fun h => h fun hf => nomatch hf
  | final =>
    unfold treatMsgMultiChunks MergeFits
    by_cases hsize : props.receiveMaxMessageSize < totalSize inter body
    · simp only [if_pos hsize]
      exact iff_of_false (by simp) fun h => h fun _ _ hle => by omega
    simp only [if_neg hsize]
    by_cases hnil : inter.bodies = []
    · have hone : mergeFinalChunk allocs (totalSize inter body) inter body =
          some (.ok (inter, some body)) := by
        rw [mergeFinalChunk, getNbIntermediateInputChunks, hnil, if_pos length_nil]
      rw [hone]
      exact iff_of_false (by simp) fun h => h fun _ hne => absurd hnil hne
    · rw [mergeFinalChunk_eq_none_iff hnil]
      exact not_congr ⟨fun h _ _ _ => h, fun h => h trivial hnil (by omega)⟩

theorem treatBodyOf_defined_iff :
    (treatBodyOf env s).Defined ↔ s.BodyFits env := by
  unfold treatBodyOf Secured.BodyFits
  by_cases hmsg : s.header.msgType = .msg
  · rw [if_pos hmsg]
    refine Iff.trans ?_ (forall_prop_of_true hmsg).symm
    have hnone : treatMsgMultiChunks s.conn.props env.allocs s.conn.inter s.header.isFinal
        s.buffer.remaining = none ↔ _ := treatMsgMultiChunks_eq_none_iff
    split
    · rename_i h; exact iff_of_false (not_defined_fault _) (hnone.mp h)
    all_goals
      rename_i h
      refine iff_of_true ?_ (not_not.mp fun hfits => ?_)
      · first
        | exact defined_reject _
        | exact defined_ok _
      · rw [hnone.mpr hfits] at h; cases h
  · rw [if_neg hmsg]
    exact iff_of_true (defined_ok _) fun h => absurd h hmsg

def hmacKeys : Crypto where
  plainLength := fun _ _ n => some n
  decrypt := fun _ _ cipher => some cipher
  signatureSize := fun _ _ => some 32
  verify := fun _ _ _ _ => false
  decrypt_length := by
    intro _ _ cipher plain n hplain hn; cases hplain
    cases hn; exact Nat.le_refl _

def quietEnv : PayloadEnv where
  currentValid := true
  precedentValid := true
  policyCompliant := fun _ => true
  cryptoProvider := true
  certificateKnown := true
  senderCertificate := fun _ => none
  receiverThumbprint := fun _ => none
  maxStringLength := 1024
  plainAlloc := true
  prependAlloc := true
  allocs := memory

def signConnection : Connection where
  isServer := true
  connected := true
  config := some .sign
  endpointConfig := true
  currentToken := ⟨1, 1⟩
  precedentToken := ⟨0, 0⟩
  serverNewSecuTokenActive := true
  clientSecureChannelId := 0
  lastSNreceived := 1
  sentRequests := []
  hasExtraPaddingSize := false
  props := ⟨8192, 65536, 5, 8192, 65536, 5⟩
  inter := none
  currentMsgRequestId := none

def headersOnly : List UInt8 :=
  [77, 83, 71, 70, 24, 0, 0, 0, 1, 0, 0, 0, 1, 0, 0, 0, 2, 0, 0, 0, 1, 0, 0, 0]

end Channels
end S2OPC
