import S2OPC.Common.EncoderLeaf
import S2OPC.Channels.SendRoundTrip

/-!
# S2OPC.Channels.Negotiation

The `HEL`/`ACK` exchange of `sopc_secure_connection_state_mgr.c`: the limits of the configuration,
the message of the client, what the server makes of it, its answer, and what the client makes of
that.
-/

namespace S2OPC
namespace Channels

open Encoder Codec

structure EncodingConfig where
  bufferSize : UInt32
  receiveMaxMsgSize : UInt32
  receiveMaxNbChunks : UInt32
  sendMaxMsgSize : UInt32
  sendMaxNbChunks : UInt32
  deriving DecidableEq

def defaultEncodingConfig : EncodingConfig := ⟨65535, 65535 * 5, 5, 65535 * 12, 12⟩

/-- The product for a missing size is an `uint32_t`; the one for received messages is behind an
assertion that fails. -/
def setEncodingConstants (alreadySet : Bool) (config : EncodingConfig) :
    Fallible.Outcome Fault Unit EncodingConfig :=
  if (config.receiveMaxMsgSize ≠ 0 ∧ config.receiveMaxMsgSize < config.bufferSize) ∨
      (config.sendMaxMsgSize ≠ 0 ∧ config.sendMaxMsgSize < config.bufferSize) then .reject ()
  else if (config.receiveMaxMsgSize = 0 ∧ config.receiveMaxNbChunks = 0) ∨
      (config.sendMaxMsgSize = 0 ∧ config.sendMaxNbChunks = 0) then .reject ()
  else if alreadySet then .reject ()
  else if config.receiveMaxMsgSize = 0 then .fault .assertion
  else
    .ok { config with
      sendMaxMsgSize :=
        if config.sendMaxMsgSize = 0 then config.sendMaxNbChunks * config.bufferSize
        else config.sendMaxMsgSize }

def EncodingConfig.InForce (config : EncodingConfig) : Prop :=
  config = defaultEncodingConfig ∨ ∃ given, setEncodingConstants false given = .ok config

structure MsgProperties where
  protocolVersion : UInt32
  receiveBufferSize : UInt32
  sendBufferSize : UInt32
  receiveMaxMessageSize : UInt32
  sendMaxMessageSize : UInt32
  receiveMaxChunkCount : UInt32
  sendMaxChunkCount : UInt32
  deriving DecidableEq

def EncodingConfig.properties (config : EncodingConfig) : MsgProperties where
  protocolVersion := 0
  receiveBufferSize := config.bufferSize
  sendBufferSize := config.bufferSize
  receiveMaxMessageSize := config.receiveMaxMsgSize
  sendMaxMessageSize := config.sendMaxMsgSize
  receiveMaxChunkCount := config.receiveMaxNbChunks
  sendMaxChunkCount := config.sendMaxNbChunks

def MsgProperties.tcp (p : MsgProperties) : TcpProperties where
  receiveBufferSize := p.receiveBufferSize.toNat
  receiveMaxMessageSize := p.receiveMaxMessageSize.toNat
  receiveMaxChunkCount := p.receiveMaxChunkCount.toNat
  sendBufferSize := p.sendBufferSize.toNat
  sendMaxMessageSize := p.sendMaxMessageSize.toNat
  sendMaxChunkCount := p.sendMaxChunkCount.toNat

structure Announced where
  protocolVersion : UInt32
  receiveBufferSize : UInt32
  sendBufferSize : UInt32
  maxMessageSize : UInt32
  maxChunkCount : UInt32

def MsgProperties.announced (p : MsgProperties) : Announced :=
  ⟨p.protocolVersion, p.receiveBufferSize, p.sendBufferSize, p.receiveMaxMessageSize,
    p.receiveMaxChunkCount⟩

section

variable (levels : Nat)

def announcedWrite (a : Announced) : BufferM Unit := do
  uint32Write a.protocolVersion levels
  uint32Write a.receiveBufferSize levels
  uint32Write a.sendBufferSize levels
  uint32Write a.maxMessageSize levels
  uint32Write a.maxChunkCount levels

def helloWrite (p : MsgProperties) (url : ByteString) : BufferM Unit := do
  announcedWrite levels p.announced
  stringWrite url levels

def ackWrite (p : MsgProperties) : BufferM Unit := announcedWrite levels p.announced

def serverBufferSize (own peer : UInt32) : Option UInt32 :=
  if peer < own then if 8192 ≤ peer then some peer else none else some own

def clientBufferSize (own peer : UInt32) : Option UInt32 :=
  if peer < own then if 8192 ≤ peer then some peer else none
  else if own < peer then none
  else some own

/-- A limit for what is sent, for the limit at the other end: 0 is no limit. -/
def sendLimit (own peer : UInt32) : UInt32 :=
  if peer ≠ 0 ∧ (peer < own ∨ own = 0) then peer else own

def adaptProperties {ε : Type} (readError : Status → ε) (sizeError : ε)
    (bufferSize : UInt32 → UInt32 → Option UInt32) (p : MsgProperties) :
    EStateM ε Buffer MsgProperties := do
  let version ← EStateM.adaptExcept readError (uint32Read levels)
  let receiveSize ← EStateM.adaptExcept readError (uint32Read levels)
  match bufferSize p.sendBufferSize receiveSize with
  | none => throw sizeError
  | some sendBufferSize =>
    let sendSize ← EStateM.adaptExcept readError (uint32Read levels)
    match bufferSize p.receiveBufferSize sendSize with
    | none => throw sizeError
    | some receiveBufferSize =>
      let maxMessageSize ← EStateM.adaptExcept readError (uint32Read levels)
      let maxChunkCount ← EStateM.adaptExcept readError (uint32Read levels)
      pure
        { p with
          protocolVersion := if version < p.protocolVersion then version else p.protocolVersion
          sendBufferSize := sendBufferSize
          receiveBufferSize := receiveBufferSize
          sendMaxMessageSize := sendLimit p.sendMaxMessageSize maxMessageSize
          sendMaxChunkCount := sendLimit p.sendMaxChunkCount maxChunkCount }

end

inductive HelError where
  | badInternalError
  | badDecodingError
  | badInvalidArgument
  | badTcpInternalError
  | badTcpEndpointUrlInvalid
  deriving DecidableEq, Repr

def serverTcpInitToTcpNegotiate (cfg : EncodingConstants) (endpoint urlCompared : Bool)
    (p : MsgProperties) : EStateM HelError Buffer MsgProperties :=
  if endpoint = false then throw .badInternalError
  else do
    let p ← adaptProperties cfg.maxNestedStruct (fun _ => .badDecodingError) .badInvalidArgument
      serverBufferSize p
    let _ ← EStateM.adaptExcept (fun _ => HelError.badTcpEndpointUrlInvalid)
      (stringReadWithLimitedLength cfg 4096 cfg.maxNestedStruct)
    if urlCompared then pure p else throw .badTcpInternalError

def clientTcpNegotiateToScInit (cfg : EncodingConstants) (p : MsgProperties) :
    EStateM Status Buffer MsgProperties :=
  adaptProperties cfg.maxNestedStruct id .invalidParameters clientBufferSize p

/-- A message is written behind the room for its header, which the chunks manager fills, and is
received with the position behind the header. -/
structure Carried (sent received : Buffer) : Prop where
  position : Tape.pos received = tcpUaHeaderLength
  bytes : (Tape.bytes received).drop tcpUaHeaderLength =
    (Tape.bytes sent).drop tcpUaHeaderLength

structure Exchange (client server : EncodingConfig) (c s : MsgProperties) : Prop where
  steps : ∃ (clientCfg serverCfg : EncodingConstants) (url : ByteString) (urlCompared : Bool)
    (helloBuffer helloSent helloReceived helloRead ackBuffer ackSent ackReceived ackRead : Buffer),
    Tape.pos helloBuffer = tcpUaHeaderLength ∧
    helloWrite clientCfg.maxNestedStruct client.properties url helloBuffer = .ok () helloSent ∧
    Carried helloSent helloReceived ∧
    serverTcpInitToTcpNegotiate serverCfg true urlCompared server.properties helloReceived =
      .ok s helloRead ∧
    Tape.pos ackBuffer = tcpUaHeaderLength ∧
    ackWrite serverCfg.maxNestedStruct s ackBuffer = .ok () ackSent ∧
    Carried ackSent ackReceived ∧
    clientTcpNegotiateToScInit clientCfg client.properties ackReceived = .ok c ackRead

def announcedRead (levels : Nat) : BufferM Announced := do
  let protocolVersion ← uint32Read levels
  let receiveBufferSize ← uint32Read levels
  let sendBufferSize ← uint32Read levels
  let maxMessageSize ← uint32Read levels
  let maxChunkCount ← uint32Read levels
  pure ⟨protocolVersion, receiveBufferSize, sendBufferSize, maxMessageSize, maxChunkCount⟩

theorem roundTrip_announced (levels : Nat) (a : Announced) :
    RoundTrip (announcedWrite levels a) (announcedRead levels) a :=
  (roundTrip_uint32 a.protocolVersion).bind ((roundTrip_uint32 a.receiveBufferSize).bind
    ((roundTrip_uint32 a.sendBufferSize).bind ((roundTrip_uint32 a.maxMessageSize).bind
      ((roundTrip_uint32 a.maxChunkCount).finish rfl))))

variable {ε α : Type} {b b' b₁ : Buffer} {levels : Nat} {a : Announced} {c s : MsgProperties}
  {q p : TcpProperties}

theorem adaptExcept_ok {ε' : Type} {f : ε → ε'} {x : EStateM ε Buffer α} {a : α} :
    EStateM.adaptExcept f x b = .ok a b' ↔ x b = .ok a b' := by
  unfold EStateM.adaptExcept
  cases x b <;> simp

theorem announced_carried {sent received : Buffer}
    {rest : BufferM Unit} (hrest : Writes rest fun _ => True)
    (hpos : Tape.pos b = tcpUaHeaderLength)
    (hwrite : (announcedWrite levels a >>= fun _ => rest) b = .ok () sent)
    (hcarried : Carried sent received) : ∃ b', announcedRead levels received = .ok a b' := by
  obtain ⟨_, t, hone, htwo⟩ := bind_ok.mp hwrite
  obtain ⟨bs, hbs, hwrote⟩ := roundTrip_announced levels a hone
  obtain ⟨bs', -, hwrote'⟩ := hrest htwo
  obtain ⟨hbytes, -⟩ := hwrote.trans hwrote'
  have htape : (Tape.bytes received).drop (Tape.pos received) =
      bs ++ (bs' ++ (Tape.bytes b).drop (Tape.pos b + (bs ++ bs').length)) := by
    rw [hcarried.position, hcarried.bytes, ← hpos, hbytes, drop_splice (Tape.pos_le b),
      List.append_assoc]
  obtain ⟨b', hread, -⟩ := hbs htape
  exact ⟨b', hread⟩

structure Adapted (bufferSize : UInt32 → UInt32 → Option UInt32) (p : MsgProperties) (a : Announced)
    (p' : MsgProperties) : Prop where
  sendBuffer : bufferSize p.sendBufferSize a.receiveBufferSize = some p'.sendBufferSize
  receiveBuffer : bufferSize p.receiveBufferSize a.sendBufferSize = some p'.receiveBufferSize
  sendMessage : p'.sendMaxMessageSize = sendLimit p.sendMaxMessageSize a.maxMessageSize
  sendChunks : p'.sendMaxChunkCount = sendLimit p.sendMaxChunkCount a.maxChunkCount
  receiveMessage : p'.receiveMaxMessageSize = p.receiveMaxMessageSize
  receiveChunks : p'.receiveMaxChunkCount = p.receiveMaxChunkCount

theorem read_unique {x : EStateM ε Buffer α} {b₂ : Buffer} {v₁ v₂ : α}
    (h₁ : x b = .ok v₁ b₁) (h₂ : x b = .ok v₂ b₂) : v₁ = v₂ ∧ b₁ = b₂ := by
  rw [h₁] at h₂; cases h₂; exact ⟨rfl, rfl⟩

theorem adaptProperties_ok {readError : Status → ε} {sizeError : ε}
    {bufferSize : UInt32 → UInt32 → Option UInt32} {levels' : Nat}
    {p p' : MsgProperties} (hread : announcedRead levels b = .ok a b₁)
    (h : adaptProperties levels' readError sizeError bufferSize p b = .ok p' b') :
    Adapted bufferSize p a p' := by
  cases levels with
  | zero => cases hread
  | succ n =>
  cases levels' with
  | zero => cases h
  | succ m =>
  unfold announcedRead at hread
  obtain ⟨version, t₁, hr₁, hread⟩ := bind_ok.mp hread
  obtain ⟨receiveSize, t₂, hr₂, hread⟩ := bind_ok.mp hread
  obtain ⟨sendSize, t₃, hr₃, hread⟩ := bind_ok.mp hread
  obtain ⟨maxMessageSize, t₄, hr₄, hread⟩ := bind_ok.mp hread
  obtain ⟨maxChunkCount, t₅, hr₅, hread⟩ := bind_ok.mp hread
  cases hread
  -- the same reads, one after the other
  obtain ⟨v, u, hx, h⟩ := bind_ok.mp h
  obtain ⟨rfl, rfl⟩ := read_unique hr₁ (adaptExcept_ok.mp hx)
  obtain ⟨v, u, hx, h⟩ := bind_ok.mp h
  obtain ⟨rfl, rfl⟩ := read_unique hr₂ (adaptExcept_ok.mp hx)
  cases hsend : bufferSize p.sendBufferSize receiveSize with
  | none => rw [hsend] at h; cases h
  | some sendBufferSize =>
    rw [hsend] at h
    obtain ⟨v, u, hx, h⟩ := bind_ok.mp h
    obtain ⟨rfl, rfl⟩ := read_unique hr₃ (adaptExcept_ok.mp hx)
    cases hreceive : bufferSize p.receiveBufferSize sendSize with
    | none => rw [hreceive] at h; cases h
    | some receiveBufferSize =>
      rw [hreceive] at h
      obtain ⟨v, u, hx, h⟩ := bind_ok.mp h
      obtain ⟨rfl, rfl⟩ := read_unique hr₄ (adaptExcept_ok.mp hx)
      obtain ⟨v, u, hx, h⟩ := bind_ok.mp h
      obtain ⟨rfl, rfl⟩ := read_unique hr₅ (adaptExcept_ok.mp hx)
      cases h; exact ⟨hsend, hreceive, rfl, rfl, rfl, rfl⟩

theorem writes_string (url : ByteString) (levels : Nat) :
    Writes (stringWrite url levels) fun _ => True :=
  Writes.imp (@roundTrip_string ⟨url.length, 0, 0, 0⟩ _ url (decide_eq_true (Int.le_refl _)))
    fun _ _ => trivial

variable {client server : EncodingConfig}

theorem Exchange.adapted (h : Exchange client server c s) :
    Adapted serverBufferSize server.properties client.properties.announced s ∧
      Adapted clientBufferSize client.properties s.announced c := by
  obtain ⟨clientCfg, serverCfg, url, urlCompared, helloBuffer, helloSent, helloReceived, helloRead,
    ackBuffer, ackSent, ackReceived, ackRead, hpos, hhello, hcarried, hserver, hpos', hack,
    hcarried', hclient⟩ := h.steps
  obtain ⟨b, hread⟩ := announced_carried (writes_string url _) hpos hhello hcarried
  have hback : (announcedWrite serverCfg.maxNestedStruct s.announced >>= fun _ => pure ()) ackBuffer =
      .ok () ackSent := bind_ok.mpr ⟨(), ackSent, hack, rfl⟩
  have hnone : Writes (pure () : BufferM Unit) fun _ => True :=
    Writes.imp (RoundTrip.pure ()) fun _ _ => trivial
  obtain ⟨b', hread'⟩ := announced_carried hnone hpos' hback hcarried'
  refine ⟨?_, adaptProperties_ok hread' hclient⟩
  unfold serverTcpInitToTcpNegotiate at hserver
  obtain ⟨p, t, hadapt, hserver⟩ := bind_ok.mp hserver
  obtain ⟨_, t', -, hserver⟩ := bind_ok.mp hserver
  cases urlCompared with
  | false => cases hserver
  | true => cases hserver; exact adaptProperties_ok hread hadapt

def LimitLe (own peer : Nat) : Prop := peer = 0 ∨ own ≠ 0 ∧ own ≤ peer

structure Agrees (p q : TcpProperties) : Prop where
  bufferSize : p.sendBufferSize = q.receiveBufferSize
  messageSize : LimitLe p.sendMaxMessageSize q.receiveMaxMessageSize
  chunkCount : LimitLe p.sendMaxChunkCount q.receiveMaxChunkCount

theorem sendLimit_le (own peer : UInt32) : LimitLe (sendLimit own peer).toNat peer.toNat := by
  unfold sendLimit LimitLe
  by_cases hzero : peer = 0
  · exact .inl (by rw [hzero]; rfl)
  have hpeer : peer.toNat ≠ 0 := fun h => hzero (UInt32.toNat_inj.mp h)
  right
  split
  · exact ⟨hpeer, Nat.le_refl _⟩
  rename_i hkept; rw [not_and_or, not_not, not_or] at hkept
  obtain ⟨hle, hown⟩ := hkept.resolve_left hzero
  refine ⟨fun h => hown (UInt32.toNat_inj.mp h), ?_⟩
  rw [UInt32.lt_iff_toNat_lt] at hle
  omega

theorem clientBufferSize_eq {own peer size : UInt32} (h : clientBufferSize own peer = some size) :
    size = peer := by
  unfold clientBufferSize at h
  split at h
  · split at h
    · cases h; rfl
    · cases h
  · split at h
    · cases h
    · rename_i hge hle; cases h
      rw [UInt32.lt_iff_toNat_lt] at hge hle
      exact UInt32.toNat_inj.mp (by omega)

theorem Exchange.agrees (h : Exchange client server c s) :
    Agrees c.tcp s.tcp ∧ Agrees s.tcp c.tcp := by
  obtain ⟨hserver, hclient⟩ := h.adapted
  constructor
  · constructor
    · exact congrArg UInt32.toNat (clientBufferSize_eq hclient.sendBuffer)
    · show LimitLe c.sendMaxMessageSize.toNat s.receiveMaxMessageSize.toNat
      rw [hclient.sendMessage]
      exact sendLimit_le _ _
    · show LimitLe c.sendMaxChunkCount.toNat s.receiveMaxChunkCount.toNat
      rw [hclient.sendChunks]
      exact sendLimit_le _ _
  · constructor
    · exact (congrArg UInt32.toNat (clientBufferSize_eq hclient.receiveBuffer)).symm
    · show LimitLe s.sendMaxMessageSize.toNat c.receiveMaxMessageSize.toNat
      rw [hserver.sendMessage, hclient.receiveMessage]
      exact sendLimit_le _ _
    · show LimitLe s.sendMaxChunkCount.toNat c.receiveMaxChunkCount.toNat
      rw [hserver.sendChunks, hclient.receiveChunks]
      exact sendLimit_le _ _

theorem EncodingConfig.InForce.receiveMax_ne {config : EncodingConfig} (h : config.InForce) :
    config.receiveMaxMsgSize ≠ 0 := by
  rcases h with rfl | ⟨given, hset⟩
  · decide
  unfold setEncodingConstants at hset
  split at hset
  · cases hset
  split at hset
  · cases hset
  split at hset
  · cases hset
  split at hset
  · cases hset
  · rename_i hne; cases hset; exact hne

structure Bounded (q : TcpProperties) : Prop where
  size_ne : q.receiveMaxMessageSize ≠ 0
  size_lt : q.receiveMaxMessageSize < 2 ^ 32

theorem Exchange.bounded (hclient : client.InForce) (hserver : server.InForce)
    (h : Exchange client server c s) : Bounded c.tcp ∧ Bounded s.tcp := by
  have hbounded : ∀ {config : EncodingConfig} {p : MsgProperties}, config.InForce →
      p.receiveMaxMessageSize = config.receiveMaxMsgSize → Bounded p.tcp := by
    intro config p hforce heq; refine ⟨fun hzero => hforce.receiveMax_ne ?_, UInt32.toNat_lt _⟩
    rw [← heq]
    exact UInt32.toNat_inj.mp hzero
  obtain ⟨hadapted, hadapted'⟩ := h.adapted
  exact ⟨hbounded hclient hadapted'.receiveMessage, hbounded hserver hadapted.receiveMessage⟩

theorem Agrees.within {s : Sender} (h : Agrees s.props q) (hq : Bounded q)
    {msgType : MsgType} {length nbChunks : Nat}
    (haccepted : computeNbChunksToSend s msgType length = .ok nbChunks) :
    length ≤ q.receiveMaxMessageSize ∧
      (q.receiveMaxChunkCount ≠ 0 → nbChunks ≤ q.receiveMaxChunkCount) := by
  obtain ⟨hsend, hle⟩ := h.messageSize.resolve_left hq.size_ne
  have hcount := h.chunkCount
  unfold computeNbChunksToSend at haccepted
  dsimp only at haccepted
  split at haccepted
  · rename_i hlength; refine ⟨(hlength.resolve_left hsend).trans hle, fun hne => ?_⟩
    obtain ⟨hchunks, hmax⟩ := hcount.resolve_left hne
    split at haccepted
    · cases haccepted; omega
    split at haccepted
    · generalize (if length % s.symmSecuMaxBodySize = 0 then 0 else 1) = extra at haccepted
      split at haccepted
      · rename_i hrequested; cases haccepted; exact (hrequested.resolve_left hchunks).trans hmax
      · cases haccepted
    · cases haccepted
  · cases haccepted

/-- Every message that a sender accepts, of any type, is within the limits of the receiver. -/
def Fits (p q : TcpProperties) : Prop :=
  ∀ (s : Sender) (msgType : MsgType) (length nbChunks : Nat), s.props = p →
    computeNbChunksToSend s msgType length = .ok nbChunks →
    length ≤ q.receiveMaxMessageSize ∧
      (q.receiveMaxChunkCount ≠ 0 → nbChunks ≤ q.receiveMaxChunkCount)

/-- Every message that a sender accepts and cuts into chunks passes the checks of the receiver on
the size of chunks, their number and the size of the message, and is delivered. -/
def Delivers (p q : TcpProperties) : Prop :=
  ∀ (keys : SendKeys) (crypto : Crypto) (senv : Nat → SendEnv) (abortEnv : SendEnv)
    (abortBody : ChunkStatus → Option (List UInt8)) (renv : Nat → PayloadEnv) (s : Sender)
    (r : Connection) (rid nbChunks : Nat) (body : List UInt8), s.props = p → r.props = q →
    Paired keys crypto → s.Ready keys →
    (s.props.sendBufferSize ≤ r.props.receiveBufferSize → Linked keys s r) →
    (∀ i, (senv i).Supports) → (∀ i, (renv i).Supports) → rid < 2 ^ 32 →
    computeNbChunksToSend s .msg body.length = .ok nbChunks → BetweenMessages r →
    Awaited r (s.requestId rid) →
    ∃ s' sent r', treatSendMessageBuffer keys senv abortEnv abortBody s rid .msg body =
        (s', sent, .sent) ∧
      sent.length = nbChunks ∧ (∀ bytes ∈ sent, bytes.length ≤ q.receiveBufferSize) ∧
      receiveAll crypto renv r sent = .ok (r', [body])

theorem Agrees.fits (h : Agrees p q) (hq : Bounded q) : Fits p q := by
  rintro s msgType length nbChunks rfl haccepted; exact h.within hq haccepted

theorem Agrees.delivers (h : Agrees p q) (hq : Bounded q) : Delivers p q := by
  rintro keys crypto senv abortEnv abortBody renv s r rid nbChunks body rfl rfl hp hs hlink hsenv
    hrenv hrid haccepted hbetween hawaited
  obtain ⟨hsize, hcount⟩ := h.within hq haccepted
  obtain ⟨s', sent, r', hsent, hlength, -, hsizes, hreceived, -⟩ :=
    @message_received rid body renv keys crypto senv abortEnv abortBody s r nbChunks hp hs
      (hlink h.bufferSize.le) hsenv hrenv hrid haccepted hbetween hawaited hsize hq.size_lt hcount
  exact ⟨s', sent, r', hsent, hlength, fun bytes hb => (hsizes bytes hb).trans h.bufferSize.le,
    hreceived⟩

/-- Agreement of the `HEL`/`ACK` exchange, for any configurations in force: what one end sends is
within the limits of the other, in both directions. -/
theorem negotiation_agrees {client server : EncodingConfig} (hclient : client.InForce)
    (hserver : server.InForce) {c s : MsgProperties} (h : Exchange client server c s) :
    Agrees c.tcp s.tcp ∧ Agrees s.tcp c.tcp ∧ Fits c.tcp s.tcp ∧ Fits s.tcp c.tcp ∧
      Delivers c.tcp s.tcp ∧ Delivers s.tcp c.tcp := by
  obtain ⟨hcs, hsc⟩ := h.agrees
  obtain ⟨hc, hs⟩ := h.bounded hclient hserver
  exact ⟨hcs, hsc, hcs.fits hs, hsc.fits hc, hcs.delivers hs, hsc.delivers hc⟩

def messageBuffer : Buffer where
  data := List.replicate 48 0
  position := 8
  length := 8
  initialSize := 48
  maximumSize := 48
  position_le := Nat.le_refl 8
  length_le := by decide
  size_le := by decide
  maximumSize_lt := by decide

def resultBuffer {ε α : Type} : EStateM.Result ε Buffer α → Buffer
  | .ok _ b => b
  | .error _ b => b

def receivedBuffer (b : Buffer) (h : 8 ≤ b.length) : Buffer :=
  { b with position := 8, position_le := h }

theorem receivedBuffer_carried (b : Buffer) (h : 8 ≤ b.length) : Carried b (receivedBuffer b h) :=
  ⟨rfl, rfl⟩

def constants : EncodingConstants := ⟨65535, 1000000, 100, 50⟩

def endpointUrl : ByteString := ⟨some [111, 112, 99], by decide⟩

def smallConfig : EncodingConfig := ⟨8192, 65536, 0, 40960, 5⟩

theorem smallConfig_inForce : smallConfig.InForce :=
  .inr ⟨⟨8192, 65536, 0, 0, 5⟩, by decide⟩

def helloSent : Buffer :=
  resultBuffer (helloWrite 50 defaultEncodingConfig.properties endpointUrl messageBuffer)

def smallServer : MsgProperties := ⟨0, 8192, 8192, 65536, 40960, 0, 5⟩

def ackSent : Buffer := resultBuffer (ackWrite 50 smallServer messageBuffer)

def adaptedClient : MsgProperties := ⟨0, 8192, 8192, 327675, 65536, 5, 12⟩

theorem default_small_exchange :
    Exchange defaultEncodingConfig smallConfig adaptedClient smallServer := by
  have hhello : 8 ≤ helloSent.length := by decide
  have hack : 8 ≤ ackSent.length := by decide
  exact ⟨constants, constants, endpointUrl, true, messageBuffer, helloSent,
    receivedBuffer helloSent hhello, _, messageBuffer, ackSent, receivedBuffer ackSent hack, _, rfl,
    rfl, receivedBuffer_carried _ _, rfl, rfl, rfl, receivedBuffer_carried _ _, rfl⟩

theorem negotiation_agrees_small :
    Agrees adaptedClient.tcp smallServer.tcp ∧ Agrees smallServer.tcp adaptedClient.tcp ∧
      Fits adaptedClient.tcp smallServer.tcp ∧ Fits smallServer.tcp adaptedClient.tcp ∧
      Delivers adaptedClient.tcp smallServer.tcp ∧ Delivers smallServer.tcp adaptedClient.tcp :=
  negotiation_agrees (.inl rfl) smallConfig_inForce default_small_exchange

end Channels
end S2OPC
