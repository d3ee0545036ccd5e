import S2OPC.Channels.Payload

/-!
# S2OPC.Channels.Send

The sending of `MSG` and `CLO` messages: `SC_Chunks_TreatSendMessageBuffer` of `sopc_chunks_mgr.c`
with the number of chunks, the body of each of them, their headers, padding, signature and
encryption, and the abort chunk that is sent where a chunk fails.

A buffer is the list of its bytes, the space left for headers excepted.
-/

namespace S2OPC
namespace Channels

open Codec (leBytes)

structure Sender where
  isServer : Bool
  mode : SecurityMode
  currentToken : SecurityToken
  precedentToken : SecurityToken
  serverNewSecuTokenActive : Bool
  lastSNsent : Nat
  clientNextReqId : Nat
  symmSecuMaxBodySize : Nat
  sentRequests : List SentRequest
  props : TcpProperties
  deriving DecidableEq

structure SendKeys where
  plainBlockSize : Nat
  cipherBlockSize : Nat
  signatureSize : Nat
  encryptedLength : Nat → Option Nat
  sign : Bool → List UInt8 → Option (List UInt8)
  encrypt : Bool → List UInt8 → Option (List UInt8)

/-- What the environment decides during the sending of a chunk: allocations, and the room in the
buffer of the message. -/
structure SendEnv where
  chunkAlloc : Bool
  paddingWritten : Bool
  encryptAlloc : Bool
  contextAlloc : Bool
  deriving DecidableEq

def isExtraPaddingSizePresent (plainBlockSize : Nat) : Bool := 256 < plainBlockSize

def paddingSizeFields (plainBlockSize : Nat) : Nat :=
  if isExtraPaddingSizePresent plainBlockSize then 2 else 1

def computeMaxBodySize (keys : SendKeys) (mode : SecurityMode) (chunkSize : Nat) : Option Nat :=
  let encrypted := isMsgEncrypted mode false
  let cipherBlockSize := if encrypted then keys.cipherBlockSize else 1
  let plainBlockSize := if encrypted then keys.plainBlockSize else 1
  let fields := if encrypted then paddingSizeFields keys.plainBlockSize else 0
  let signatureSize := if isMsgSigned mode then keys.signatureSize else 0
  let room := plainBlockSize * ((chunkSize - 16) / cipherBlockSize)
  if chunkSize < 16 ∨ room < 8 + signatureSize + fields then none
  else some (room - (8 + signatureSize + fields))

def getPaddingSize (keys : SendKeys) (bytesToEncrypt : Nat) : Nat :=
  let missing := (bytesToEncrypt + keys.signatureSize + paddingSizeFields keys.plainBlockSize) %
    keys.plainBlockSize
  let size := if missing = 0 then 0 else keys.plainBlockSize - missing
  if size < 2 ^ 16 then size else 0

def computeNbChunksToSend (s : Sender) (msgType : MsgType) (bodyLength : Nat) :
    Except ChunkStatus Nat :=
  let tooLarge := if s.isServer then .badResponseTooLarge else .badRequestTooLarge
  if s.props.sendMaxMessageSize = 0 ∨ bodyLength ≤ s.props.sendMaxMessageSize then
    if bodyLength ≤ s.symmSecuMaxBodySize then .ok 1
    else if msgType = .msg then
      let requested := bodyLength / s.symmSecuMaxBodySize +
        if bodyLength % s.symmSecuMaxBodySize = 0 then 0 else 1
      if s.props.sendMaxChunkCount = 0 ∨ requested ≤ s.props.sendMaxChunkCount then .ok requested
      else .error tooLarge
    else .error tooLarge
  else .error tooLarge

def msgTypeBytes : MsgType → List UInt8
  | .hel => [72, 69, 76]
  | .ack => [65, 67, 75]
  | .err => [69, 82, 82]
  | .opn => [79, 80, 78]
  | .clo => [67, 76, 79]
  | .msg => [77, 83, 71]

def isFinalByte : IsFinal → UInt8
  | .intermediate => 67
  | .final => 70
  | .abort => 65

def encodePadding (keys : SendKeys) (bytesToEncrypt : Nat) : List UInt8 :=
  let size := getPaddingSize keys bytesToEncrypt
  let lsb := UInt8.ofNat (size % 256)
  lsb :: List.replicate size lsb ++
    if isExtraPaddingSizePresent keys.plainBlockSize then [UInt8.ofNat (size / 256)] else []

/-- The precedent token is used until the client uses the new one. -/
def Sender.usesPrecedent (s : Sender) : Bool := s.isServer && !s.serverNewSecuTokenActive

def Sender.tokenId (s : Sender) : Nat :=
  if s.usesPrecedent then s.precedentToken.tokenId else s.currentToken.tokenId

def Sender.nextSN (s : Sender) : Nat :=
  if 2 ^ 32 - 1 - 1024 < s.lastSNsent then 1 else s.lastSNsent + 1

def Sender.requestId (s : Sender) (requestIdOrHandle : Nat) : Nat :=
  if s.isServer then requestIdOrHandle
  else if s.clientNextReqId = 0 then 1 else s.clientNextReqId

def Sender.sequenced (s : Sender) (isFinal : IsFinal) : Sender :=
  let id := s.requestId 0
  { s with
    lastSNsent := s.nextSN
    clientNextReqId :=
      if s.isServer then s.clientNextReqId
      else if isFinal = .intermediate then id
      else (id + 1) % (2 ^ 32 - 1) }

def clearHeader (s : Sender) (msgType : MsgType) (isFinal : IsFinal) (size : Nat) : List UInt8 :=
  msgTypeBytes msgType ++ [isFinalByte isFinal] ++ leBytes 4 size ++
    leBytes 4 s.currentToken.secureChannelId ++ leBytes 4 s.tokenId

def chunkContent (keys : SendKeys) (s : Sender) (requestId : Nat) (body : List UInt8) :
    List UInt8 :=
  leBytes 4 s.nextSN ++ leBytes 4 requestId ++ body ++
    if isMsgEncrypted s.mode false then encodePadding keys (8 + body.length) else []

def messageSize (keys : SendKeys) (s : Sender) (content : List UInt8) : Option Nat :=
  if isMsgEncrypted s.mode false then
    (keys.encryptedLength (content.length + keys.signatureSize)).map (16 + ·)
  else some (16 + content.length + if isMsgSigned s.mode then keys.signatureSize else 0)

def signChunk (keys : SendKeys) (s : Sender) (plain : List UInt8) :
    Except ChunkStatus (List UInt8) :=
  if isMsgSigned s.mode then
    match keys.sign s.usesPrecedent plain with
    | none => .error .badEncodingError
    | some signature => .ok (plain ++ signature)
  else .ok plain

def encryptChunk (keys : SendKeys) (env : SendEnv) (s : Sender) (size : Nat)
    (signed : List UInt8) : Except ChunkStatus (List UInt8) :=
  if isMsgEncrypted s.mode false then
    if s.props.sendBufferSize < size ∨ env.encryptAlloc = false then .error .badOutOfMemory
    else
      match keys.encrypt s.usesPrecedent (signed.drop 16) with
      | none => .error .badEncodingError
      | some cipher => .ok (signed.take 16 ++ cipher)
  else .ok signed

def recordRequest (env : SendEnv) (s : Sender) (msgType : MsgType) (isFinal : IsFinal)
    (requestId requestHandle : Nat) : Except ChunkStatus Sender :=
  if s.isServer = false ∧ isFinal = .final ∧ msgType ≠ .clo then
    if env.contextAlloc then
      .ok { s with sentRequests := s.sentRequests ++ [⟨requestId, requestHandle, msgType, false⟩] }
    else .error .badTcpInternalError
  else .ok s

/-- The sequence number is used up even if a later part fails. -/
def treatSendBuffer (keys : SendKeys) (env : SendEnv) (s : Sender) (requestIdOrHandle : Nat)
    (msgType : MsgType) (isFinal : IsFinal) (body : List UInt8) :
    Sender × Except ChunkStatus (List UInt8) :=
  let requestId := s.requestId requestIdOrHandle
  let content := chunkContent keys s requestId body
  if msgType ≠ .msg ∧ isFinal ≠ .final then (s, .error .badEncodingError)
  else if s.symmSecuMaxBodySize < body.length then
    (s, .error (if s.isServer then .badResponseTooLarge else .badRequestTooLarge))
  else if isMsgEncrypted s.mode false ∧ env.paddingWritten = false then
    (s, .error .badTcpInternalError)
  else
    match messageSize keys s content with
    | none => (s, .error .badTcpInternalError)
    | some size =>
      let s' := s.sequenced isFinal
      let sent := (signChunk keys s (clearHeader s msgType isFinal size ++ content)).bind
        (encryptChunk keys env s size)
      match sent with
      | .error status => (s', .error status)
      | .ok bytes =>
        match recordRequest env s' msgType isFinal requestId requestIdOrHandle with
        | .error status => (s', .error status)
        | .ok s' => (s', .ok bytes)

inductive SendOutcome where
  | sent
  | aborted (status : ChunkStatus)
  | failed (status : ChunkStatus)
  deriving DecidableEq, Repr

/-- `SC_Chunks_IsNextChunkIntermediateOrFinal`, for the number of chunks left behind this one. -/
def isNextChunkIntermediateOrFinal (left : Nat) : IsFinal :=
  if 0 < left then .intermediate else .final

def nextChunkBody (s : Sender) (rest : List UInt8) : List UInt8 × List UInt8 :=
  let size := if rest.length < s.symmSecuMaxBodySize then rest.length else s.symmSecuMaxBodySize
  (rest.take size, rest.drop size)

/-- The loop of `SC_Chunks_TreatSendMessageBuffer`: the chunks that are handed to the socket, and
the error of the one that failed. -/
def sendLoop (keys : SendKeys) (env : Nat → SendEnv) (requestIdOrHandle : Nat)
    (msgType : MsgType) :
    Nat → Sender → List UInt8 → List UInt8 → Sender × List (List UInt8) × Option ChunkStatus
  | 0, s, chunk, _ =>
    match treatSendBuffer keys (env 0) s requestIdOrHandle msgType
        (isNextChunkIntermediateOrFinal 0) chunk with
    | (s, .error status) => (s, [], some status)
    | (s, .ok bytes) => (s, [bytes], none)
  | left + 1, s, chunk, rest =>
    match treatSendBuffer keys (env (left + 1)) s requestIdOrHandle msgType
        (isNextChunkIntermediateOrFinal (left + 1)) chunk with
    | (s, .error status) => (s, [], some status)
    | (s, .ok bytes) =>
      if (env left).chunkAlloc then
        let next := nextChunkBody s rest
        let r := sendLoop keys env requestIdOrHandle msgType left s next.1 next.2
        (r.1, bytes :: r.2.1, r.2.2)
      else (s, [bytes], some .badOutOfMemory)

def sendChunks (keys : SendKeys) (env : Nat → SendEnv) (s : Sender) (requestIdOrHandle : Nat)
    (msgType : MsgType) (body : List UInt8) (nbChunks : Nat) :
    Sender × List (List UInt8) × Option ChunkStatus :=
  if nbChunks = 1 then sendLoop keys env requestIdOrHandle msgType 0 s body []
  else if (env (nbChunks - 1)).chunkAlloc then
    let next := nextChunkBody s body
    sendLoop keys env requestIdOrHandle msgType (nbChunks - 1) s next.1 next.2
  else (s, [], some .badOutOfMemory)

def sendAbort (keys : SendKeys) (env : SendEnv) (s : Sender) (requestIdOrHandle : Nat)
    (msgType : MsgType) (abortBody : ChunkStatus → Option (List UInt8)) (sent : List (List UInt8))
    (status : ChunkStatus) : Sender × List (List UInt8) × SendOutcome :=
  match abortBody status with
  | none => (s, sent, .failed status)
  | some body =>
    match treatSendBuffer keys env s requestIdOrHandle msgType .abort body with
    | (s, .error status) => (s, sent, .failed status)
    | (s, .ok bytes) => (s, sent ++ [bytes], .aborted status)

def treatSendMessageBuffer (keys : SendKeys) (env : Nat → SendEnv) (abortEnv : SendEnv)
    (abortBody : ChunkStatus → Option (List UInt8)) (s : Sender) (requestIdOrHandle : Nat)
    (msgType : MsgType) (body : List UInt8) : Sender × List (List UInt8) × SendOutcome :=
  match computeNbChunksToSend s msgType body.length with
  | .error status =>
    sendAbort keys abortEnv s requestIdOrHandle msgType abortBody [] status
  | .ok nbChunks =>
    match sendChunks keys env s requestIdOrHandle msgType body nbChunks with
    | (s, sent, none) => (s, sent, .sent)
    | (s, sent, some status) =>
      if nbChunks = 1 then (s, sent, .failed status)
      else sendAbort keys abortEnv s requestIdOrHandle msgType abortBody sent status

end Channels
end S2OPC
