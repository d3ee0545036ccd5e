import S2OPC.Channels.Send

/-!
# S2OPC.Channels.TokenRenewal

A client and a server secure channel, as far as security tokens and symmetric keys are concerned.

Both sides have a queue of internal events, treated in order, and there is a transport for each
direction. Which event comes next is left open. Tokens do not expire.
-/

namespace S2OPC
namespace Channels
namespace Renewal

structure KeySets (K : Type) where
  receiver : Option K
  sender : Option K
  deriving DecidableEq

structure Keyed (K : Type) where
  token : SecurityToken
  keys : KeySets K
  deriving DecidableEq

def Keyed.unset {K : Type} : Keyed K := ⟨⟨0, 0⟩, ⟨none, none⟩⟩

def Keyed.Defined {K : Type} (k : Keyed K) : Prop :=
  k.token.tokenId ≠ 0 ∧ k.token.secureChannelId ≠ 0

structure KeyDerivation (K : Type) where
  nonceLength : Nat
  deriveKS : (secret seed : List UInt8) → K

def deriveSymmetricKeySets {K : Type} (provider : KeyDerivation K) (isServer derived : Bool)
    (clientNonce serverNonce : List UInt8) : Option (KeySets K) :=
  if serverNonce.length ≠ provider.nonceLength ∨ clientNonce.length ≠ provider.nonceLength then none
  else if derived = false then none
  else
    let clientKeySet := provider.deriveKS serverNonce clientNonce
    let serverKeySet := provider.deriveKS clientNonce serverNonce
    if isServer then some ⟨some clientKeySet, some serverKeySet⟩
    else some ⟨some serverKeySet, some clientKeySet⟩

structure Side (K : Type) where
  isServer : Bool
  current : Keyed K
  precedent : Keyed K
  serverNewSecuTokenActive : Bool

namespace Side

variable {K : Type}

/-- The search for the token in `SC_Chunks_CheckSymmetricSecurityHeader`: whether it is the
precedent one. -/
def checkToken (s : Side K) (tokenId : Nat) : Option (Bool × Side K) :=
  if s.current.token.tokenId = tokenId then
    some (false, { s with serverNewSecuTokenActive := s.isServer || s.serverNewSecuTokenActive })
  else if s.precedent.token.tokenId = tokenId ∧ s.precedent.token.secureChannelId ≠ 0 ∧
      s.precedent.token.tokenId ≠ 0 then
    some (true, s)
  else none

def keySets (s : Side K) (isPrevCryptoData : Bool) : KeySets K :=
  if isPrevCryptoData then s.precedent.keys else s.current.keys

def usesPrecedent (s : Side K) : Bool := s.isServer && !s.serverNewSecuTokenActive

def tokenId (s : Side K) : Nat :=
  if s.usesPrecedent then s.precedent.token.tokenId else s.current.token.tokenId

def renew (s : Side K) (new : Keyed K) : Side K :=
  { s with precedent := s.current, current := new }

end Side

def Side.ofConnection {K : Type} (conn : Connection) (current precedent : KeySets K) : Side K :=
  ⟨conn.isServer, ⟨conn.currentToken, current⟩, ⟨conn.precedentToken, precedent⟩,
    conn.serverNewSecuTokenActive⟩

def Side.ofSender {K : Type} (s : Sender) (current precedent : KeySets K) : Side K :=
  ⟨s.isServer, ⟨s.currentToken, current⟩, ⟨s.precedentToken, precedent⟩,
    s.serverNewSecuTokenActive⟩

/-- With tokens that are not expired, the check of a chunk's security header is the search for its
token. -/
theorem checkSymmetricSecurityHeader_eq_checkToken {K : Type} {conn : Connection} {env : PayloadEnv}
    {b b' : ChunkBuffer} {tokenId : Nat} (hread : b.readUInt32 = some (tokenId, b'))
    (hcurrent : env.currentValid = true) (hprecedent : env.precedentValid = true)
    (current precedent : KeySets K) :
    checkSymmetricSecurityHeader conn env b =
      ((Side.ofConnection conn current precedent).checkToken tokenId).elim
        (.error .badSecureChannelTokenUnknown) fun found =>
          .ok (found.1,
            { conn with serverNewSecuTokenActive := found.2.serverNewSecuTokenActive }, b') := by
  by_cases hid : conn.currentToken.tokenId = tokenId
  · simp [checkSymmetricSecurityHeader, Side.checkToken, Side.ofConnection, hread, hcurrent, hid]
  by_cases hprev : conn.precedentToken.tokenId = tokenId ∧
      conn.precedentToken.secureChannelId ≠ 0 ∧ conn.precedentToken.tokenId ≠ 0
  · have hne : tokenId ≠ 0 := hprev.1 ▸ hprev.2.2
    simp [checkSymmetricSecurityHeader, Side.checkToken, Side.ofConnection, hread, hprecedent,
      hid, hprev, hne]
  · simp [checkSymmetricSecurityHeader, Side.checkToken, Side.ofConnection, hread, hid, hprev]

theorem Side.ofSender_usesPrecedent {K : Type} (s : Sender) (current precedent : KeySets K) :
    (Side.ofSender s current precedent).usesPrecedent = s.usesPrecedent :=
  rfl

theorem Side.ofSender_tokenId {K : Type} (s : Sender) (current precedent : KeySets K) :
    (Side.ofSender s current precedent).tokenId = s.tokenId :=
  rfl

structure OpnRequest where
  requestHandle : Nat
  clientProtocolVersion : Nat
  renew : Bool
  securityMode : SecurityMode
  clientNonce : List UInt8
  deriving DecidableEq

structure OpnResponse where
  requestHandle : Nat
  serviceResult : UInt32
  serverProtocolVersion : Nat
  channelId : Nat
  tokenId : Nat
  serverNonce : List UInt8
  deriving DecidableEq

/-- A chunk of a transport: an `OPN` message, or a chunk of a `MSG` or `CLO` message with its token
id and the key set it is secured with. -/
inductive Chunk (K M : Type) where
  | opn (message : M)
  | symmetric (tokenId : Nat) (key : Option K)
  deriving DecidableEq

inductive InternalEvent (Out In : Type) where
  | sndOpn (message : Out)
  | sndMsg
  | rcvOpn (message : In)
  deriving DecidableEq

inductive ConnectionState where
  | connecting
  | connected
  | connectedRenew
  | closed
  deriving DecidableEq, Repr

structure Client (K : Type) where
  side : Side K
  state : ConnectionState
  clientNonce : Option (List UInt8)
  queue : List (InternalEvent OpnRequest OpnResponse)

structure Server (K : Type) where
  side : Side K
  state : ConnectionState
  queue : List (InternalEvent OpnResponse OpnRequest)

structure Net (K : Type) where
  client : Client K
  server : Server K
  toServer : List (Chunk K OpnRequest)
  toClient : List (Chunk K OpnResponse)

/-- What both sides agreed on before, and the index by which the client marks its `OPN` requests. -/
structure ChannelConfig (K : Type) where
  provider : KeyDerivation K
  mode : SecurityMode
  protocolVersion : Nat
  scConnectionIdx : Nat

section

variable {K : Type} (cfg : ChannelConfig K)

def symmetricChunks {M : Type} (s : Side K) (chunks : Nat) : List (Chunk K M) :=
  List.replicate chunks (.symmetric s.tokenId (s.keySets s.usesPrecedent).sender)

def Client.sendOPN (isRenewal encoded : Bool) (nonce : Option (List UInt8)) (c : Client K) :
    Option (Client K) :=
  if encoded = false then none
  else if cfg.mode = .none then
    some { c with
      queue := c.queue ++
        [.sndOpn ⟨cfg.scConnectionIdx, cfg.protocolVersion, isRenewal, cfg.mode, []⟩] }
  else
    nonce.map fun nonce =>
      { c with
        clientNonce := some nonce
        queue := c.queue ++
          [.sndOpn ⟨cfg.scConnectionIdx, cfg.protocolVersion, isRenewal, cfg.mode, nonce⟩] }

structure ResponseEnv where
  decoded : Bool
  derived : Bool
  timerStarted : Bool

def clientKeySets (derived : Bool) (clientNonce : Option (List UInt8)) (serverNonce : List UInt8) :
    Option (KeySets K) :=
  if cfg.mode = .none then some ⟨none, none⟩
  else if serverNonce = [] then none
  else
    clientNonce.bind fun clientNonce =>
      deriveSymmetricKeySets cfg.provider false derived clientNonce serverNonce

def Client.refusesIds (isOPNrenew : Bool) (clientSecureChannelId : Nat) (c : Client K)
    (resp : OpnResponse) : Bool :=
  if isOPNrenew then
    resp.channelId != c.side.current.token.secureChannelId || resp.tokenId == 0 ||
      resp.tokenId == c.side.current.token.tokenId
  else
    resp.channelId == 0 || clientSecureChannelId != resp.channelId || resp.tokenId == 0

def Client.receiveOPN (env : ResponseEnv) (isOPNrenew : Bool) (clientSecureChannelId : Nat)
    (resp : OpnResponse) (c : Client K) : Bool × Client K :=
  if env.decoded = false ∨ resp.serviceResult &&& 0xC0000000 ≠ 0 ∨
      resp.requestHandle ≠ cfg.scConnectionIdx then (false, c)
  else if cfg.protocolVersion ≠ resp.serverProtocolVersion ∨
      c.refusesIds isOPNrenew clientSecureChannelId resp then (false, c)
  else
    match clientKeySets cfg env.derived c.clientNonce resp.serverNonce with
    | none => (false, { c with clientNonce := none })
    | some keys =>
      let new : Keyed K := ⟨⟨resp.channelId, resp.tokenId⟩, keys⟩
      let side := if isOPNrenew then c.side.renew new else { c.side with current := new }
      (env.timerStarted, { c with side, clientNonce := none })

/-- `SC_CloseSecureConnection` of a client: a `CLO` message before the connection is closed, if it
can be sent. -/
def Net.closeClient (cloSent : Bool) (n : Net K) : Net K :=
  { n with
    client := { n.client with state := .closed }
    toServer := n.toServer ++ symmetricChunks n.client.side cloSent.toNat }

def Net.clientSideOpen (env : ResponseEnv) (cloSent : Bool) (clientSecureChannelId : Nat)
    (resp : OpnResponse) (n : Net K) : Net K :=
  if n.client.state = .connecting ∨ n.client.state = .connectedRenew then
    let (result, client) := n.client.receiveOPN cfg env (n.client.state == .connectedRenew)
      clientSecureChannelId resp
    if result then { n with client := { client with state := .connected } }
    else { n with client }.closeClient cloSent
  else n.closeClient cloSent

/-- Some attempts to draw an id that is not 0 and not the current one of a connection of the
endpoint. -/
def generateFreshTokenId (occupied : List Nat) (draw : Nat → Option Nat) : (attempts : Nat) → Nat
  | 0 => 0
  | attempts + 1 =>
    match draw attempts with
    | none => generateFreshTokenId occupied draw attempts
    | some id =>
      if id ≠ 0 ∧ id ∉ occupied then id else generateFreshTokenId occupied draw attempts

def generateFreshIds (occupied : List SecurityToken) (drawChannel drawToken : Nat → Option Nat) :
    (attempts : Nat) → SecurityToken → SecurityToken
  | 0, found => found
  | attempts + 1, found =>
    if found.secureChannelId ≠ 0 ∧ found.tokenId ≠ 0 then found
    else
      match if found.secureChannelId = 0 then drawChannel attempts else some found.secureChannelId,
        if found.tokenId = 0 then drawToken attempts else some found.tokenId with
      | some channelId, some tokenId =>
        generateFreshIds occupied drawChannel drawToken attempts
          (if channelId ≠ 0 ∧ tokenId ≠ 0 then
            ⟨if channelId ∈ occupied.map (·.secureChannelId) then found.secureChannelId
              else channelId,
              if tokenId ∈ occupied.map (·.tokenId) then found.tokenId else tokenId⟩
          else found)
      | _, _ => generateFreshIds occupied drawChannel drawToken attempts found

structure RequestEnv where
  decoded : Bool
  buffer : Bool
  drawChannel : Nat → Option Nat
  drawToken : Nat → Option Nat
  others : List SecurityToken
  nonce : Option (List UInt8)
  derived : Bool
  encoded : Bool

def serverKeySets (env : RequestEnv) (clientNonce : List UInt8) :
    Option (KeySets K × List UInt8) :=
  if cfg.mode = .none then some (⟨none, none⟩, [])
  else
    env.nonce.bind fun serverNonce =>
      (deriveSymmetricKeySets cfg.provider true env.derived clientNonce serverNonce).map
        fun keys => (keys, serverNonce)

def acceptsRenew (env : RequestEnv) (req : OpnRequest) : Bool :=
  env.decoded && cfg.protocolVersion == req.clientProtocolVersion && req.renew &&
    req.securityMode == cfg.mode && (cfg.mode == .none || req.clientNonce != [])

def newToken (env : RequestEnv) (current : SecurityToken) (req : OpnRequest) :
    Option (Keyed K × OpnResponse) :=
  if env.buffer = false then none
  else
    let tokenId := generateFreshTokenId (current.tokenId :: env.others.map (·.tokenId))
      env.drawToken 5
    if tokenId = 0 then none
    else
      (serverKeySets cfg env req.clientNonce).bind fun (keys, serverNonce) =>
        if env.encoded = false then none
        else some (⟨⟨current.secureChannelId, tokenId⟩, keys⟩,
          ⟨req.requestHandle, 0, cfg.protocolVersion, current.secureChannelId, tokenId,
            serverNonce⟩)

def firstToken (env : RequestEnv) (req : OpnRequest) : Option (Keyed K × OpnResponse) :=
  if env.buffer = false then none
  else
    let token := generateFreshIds env.others env.drawChannel env.drawToken 5 ⟨0, 0⟩
    if token.secureChannelId = 0 ∨ token.tokenId = 0 then none
    else
      (serverKeySets cfg env req.clientNonce).bind fun (keys, serverNonce) =>
        if env.encoded = false then none
        else some (⟨token, keys⟩,
          ⟨req.requestHandle, 0, cfg.protocolVersion, token.secureChannelId, token.tokenId,
            serverNonce⟩)

def Server.close (s : Server K) : Server K := { s with state := .closed }

def Server.serverSideOpen (env : RequestEnv) (req : OpnRequest) (s : Server K) : Server K :=
  if acceptsRenew cfg env req = false then s.close
  else
    match newToken cfg env s.side.current.token req with
    | none => s.close
    | some (new, resp) =>
      { s with
        side := { s.side.renew new with serverNewSecuTokenActive := false }
        queue := s.queue ++ [.sndOpn resp] }

def Client.start : Client K :=
  ⟨⟨false, .unset, .unset, false⟩, .connecting, none, []⟩

def Server.start : Server K :=
  ⟨⟨true, .unset, .unset, false⟩, .connecting, []⟩

structure OpenEnv where
  nonce : Option (List UInt8)
  requestEncoded : Bool
  -- the server accepts the version, the type, the mode and the policy of the request
  accepted : Bool
  request : RequestEnv
  response : ResponseEnv
  -- the secure channel id in the header of the response
  headerChannelId : Nat

def Net.opened (env : OpenEnv) : Option (Net K) :=
  (Client.start.sendOPN cfg false env.requestEncoded env.nonce).bind fun client =>
    match client.queue with
    | [.sndOpn req] =>
      if env.accepted = false ∨ (cfg.mode ≠ .none ∧ req.clientNonce = []) then none
      else
        (firstToken cfg env.request req).bind fun (first, resp) =>
          let server : Server K :=
            { (Server.start : Server K) with
              side := ⟨true, first, .unset, true⟩
              state := .connected }
          let n : Net K := Net.clientSideOpen cfg env.response false env.headerChannelId resp
            ⟨{ client with queue := [] }, server, [], []⟩
          if n.client.state = .connected then some n else none
    | _ => none

inductive NetEvent where
  -- `TIMER_SC_CLIENT_OPN_RENEW`
  | renewTimer (nonce : Option (List UInt8)) (encoded cloSent : Bool)
  -- `SC_SERVICE_SND_MSG`
  | clientMessage
  | serverMessage
  -- the first internal event; a message is sent in some chunks, and completely or not
  | clientInternal (chunks : Nat) (sent : Bool) (env : ResponseEnv) (cloSent : Bool)
  | serverInternal (chunks : Nat) (sent : Bool) (env : RequestEnv)
  -- the next chunk, whose request may have expired, and that may be refused after its header
  | clientChunk (ignoreExpired refused cloSent : Bool)
  | serverChunk (refused : Bool)
  -- a connection is closed for another reason
  | clientClosed (cloSent : Bool)
  | serverClosed

def Net.treatClientEvent (chunks : Nat) (sent : Bool) (env : ResponseEnv) (cloSent : Bool)
    (n : Net K) : Net K :=
  match n.client.queue with
  | [] => n
  | event :: queue =>
    let n : Net K := { n with client := { n.client with queue } }
    match event with
    | .sndOpn req =>
      if sent then { n with toServer := n.toServer ++ [.opn req] } else n.closeClient cloSent
    | .sndMsg =>
      let n : Net K := { n with toServer := n.toServer ++ symmetricChunks n.client.side chunks }
      if sent then n else n.closeClient cloSent
    | .rcvOpn resp => n.clientSideOpen cfg env cloSent 0 resp

def Net.treatServerEvent (chunks : Nat) (sent : Bool) (env : RequestEnv) (n : Net K) : Net K :=
  match n.server.queue with
  | [] => n
  | event :: queue =>
    let n : Net K := { n with server := { n.server with queue } }
    match event with
    | .sndOpn resp =>
      if sent then { n with toClient := n.toClient ++ [.opn resp] }
      else { n with server := n.server.close }
    | .sndMsg =>
      let n : Net K := { n with toClient := n.toClient ++ symmetricChunks n.server.side chunks }
      if sent then n else { n with server := n.server.close }
    | .rcvOpn req => { n with server := n.server.serverSideOpen cfg env req }

def Net.treatClientChunk (ignoreExpired refused cloSent : Bool) (n : Net K) : Net K :=
  match n.toClient with
  | [] => n
  | chunk :: toClient =>
    let n : Net K := { n with toClient }
    match chunk with
    | .opn resp =>
      if refused then n.closeClient cloSent
      else if ignoreExpired then n
      else { n with client := { n.client with queue := n.client.queue ++ [.rcvOpn resp] } }
    | .symmetric tokenId _ =>
      match n.client.side.checkToken tokenId with
      | none => n.closeClient cloSent
      | some (_, side) =>
        let n : Net K := { n with client := { n.client with side } }
        if refused then n.closeClient cloSent else n

def Net.treatServerChunk (refused : Bool) (n : Net K) : Net K :=
  match n.toServer with
  | [] => n
  | chunk :: toServer =>
    let n : Net K := { n with toServer }
    match chunk with
    | .opn req =>
      if refused then { n with server := n.server.close }
      else { n with server := { n.server with queue := n.server.queue ++ [.rcvOpn req] } }
    | .symmetric tokenId _ =>
      match n.server.side.checkToken tokenId with
      | none => { n with server := n.server.close }
      | some (_, side) =>
        let n : Net K := { n with server := { n.server with side } }
        if refused then { n with server := n.server.close } else n

def Net.step (n : Net K) : NetEvent → Net K
  | .renewTimer nonce encoded cloSent =>
    if n.client.state = .connected then
      match n.client.sendOPN cfg true encoded nonce with
      | none => n.closeClient cloSent
      | some client => { n with client := { client with state := .connectedRenew } }
    else n
  | .clientMessage =>
    if n.client.state = .closed then n
    else { n with client := { n.client with queue := n.client.queue ++ [.sndMsg] } }
  | .serverMessage =>
    if n.server.state = .closed then n
    else { n with server := { n.server with queue := n.server.queue ++ [.sndMsg] } }
  | .clientInternal chunks sent env cloSent =>
    if n.client.state = .closed then n else n.treatClientEvent cfg chunks sent env cloSent
  | .serverInternal chunks sent env =>
    if n.server.state = .closed then n else n.treatServerEvent cfg chunks sent env
  | .clientChunk ignoreExpired refused cloSent =>
    if n.client.state = .closed then n else n.treatClientChunk ignoreExpired refused cloSent
  | .serverChunk refused =>
    if n.server.state = .closed then n else n.treatServerChunk refused
  | .clientClosed cloSent => if n.client.state = .closed then n else n.closeClient cloSent
  | .serverClosed => { n with server := n.server.close }

def Net.run (n : Net K) (events : List NetEvent) : Net K := events.foldl (Net.step cfg) n

end

end Renewal
end Channels
end S2OPC
