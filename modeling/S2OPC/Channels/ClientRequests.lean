import S2OPC.Channels.Send

/-!
# S2OPC.Channels.ClientRequests

The requests of a client on a secure channel, from `SC_SERVICE_SND_MSG` to what the services are told
about them. All events of a channel are handled one after the other from one queue; failures and
closures are put in front.
-/

namespace S2OPC
namespace Channels

open Fallible (Each)

inductive Report where
  | response
  | sndFailure
  | requestTimeout
  deriving DecidableEq, Repr

inductive ReceivedPart where
  -- refused before its request id is looked up
  | refused
  | ack (valid : Bool)
  | err
  /-- `prepended`: an intermediate chunk is recorded again; `completed`: its padding is removed and
  its body is kept or merged; `valid`: the content of an abort or of an `OPN` response is accepted -/
  | chunk (requestId : Nat) (msgType : MsgType) (isFinal : IsFinal)
      (prepended completed valid : Bool)
  deriving DecidableEq, Repr

inductive ChannelEvent where
  -- services
  | sndMsg (handle : Nat)
  | disconnect
  -- socket
  | socketConnection
  | rcvBytes (parts : List ReceivedPart)
  | socketFailure
  -- timers
  | connectionTimeout
  | opnRenew
  | requestTimeout (requestId : Nat)
  -- internal
  | sndHel
  | sndOpn
  | sndMsgChunks (handle : Nat)
  | sndClo
  | rcvAck (valid : Bool)
  | rcvOpn (valid : Bool)
  | rcvMsgChunks (handle : Nat)
  | rcvMsgChunkAbort (handle : Nat) (valid : Bool)
  | rcvErr
  | rcvFailure
  | sndFatalFailure (handle : Nat)
  | sentAbortFailure (handle : Nat)
  | close
  deriving DecidableEq

inductive ChannelState where
  | tcpInit
  | tcpNegotiate
  | scConnecting
  | scConnected
  | scConnectedRenew
  | closed
  deriving DecidableEq, Repr

def ChannelState.isScConnected : ChannelState → Bool
  | .scConnected => true
  | .scConnectedRenew => true
  | _ => false

structure ClientChannel where
  state : ChannelState
  sentRequests : List SentRequest
  clientNextReqId : Nat
  queue : List ChannelEvent
  -- the handles of the messages to send that were handled so far
  accepted : List Nat
  -- what the services were told so far, and about which handle
  reports : List (Report × Nat)

structure EventEnv where
  outcome : SendOutcome
  nextReqId : Nat
  encoded : Bool

def ClientChannel.report (c : ClientChannel) (r : Report) (handle : Nat) : ClientChannel :=
  { c with reports := c.reports ++ [(r, handle)] }

def clearPendingRequest (r : SentRequest) : List (Report × Nat) :=
  if r.msgType = .msg then [(.sndFailure, r.requestHandle)] else []

def ClientChannel.closeConnection (c : ClientChannel) : ClientChannel :=
  { c with
    state := .closed
    sentRequests := []
    reports := c.reports ++ c.sentRequests.flatMap clearPendingRequest }

/-- `SC_CloseSecureConnection` closes the connection itself. -/
def ClientChannel.closesNow (c : ClientChannel) (env : EventEnv) (immediateClose : Bool) : Bool :=
  if c.state.isScConnected then immediateClose || !env.encoded else c.state ≠ .closed

def ClientChannel.closeSecureConnection (c : ClientChannel) (env : EventEnv)
    (immediateClose : Bool) : ClientChannel :=
  if c.closesNow env immediateClose then c.closeConnection
  else if c.state.isScConnected then { c with queue := .sndClo :: .close :: c.queue }
  else c

inductive RequestFound where
  | failure
  | intermediate
  | complete (r : SentRequest)
  deriving DecidableEq

/-- `SC_Chunks_CheckSequenceHeaderRequestId`, with the requests that it leaves also where it
fails. -/
def findRequest (requests : List SentRequest) (requestId : Nat) (msgType : MsgType)
    (isFinal : IsFinal) (prepended : Bool) : List SentRequest × RequestFound :=
  match requests.find? fun r => r.requestId == requestId with
  | none => (requests, .failure)
  | some r =>
    let others := requests.eraseP fun r => r.requestId == requestId
    if r.msgType ≠ msgType then (others ++ [r], .failure)
    else if isFinal = .intermediate then
      if prepended then (r :: others, .intermediate) else (others, .failure)
    else (others, .complete r)

/-- A client records `OPN` and `MSG` requests only. -/
def rcvEvent (r : SentRequest) (isFinal : IsFinal) (valid : Bool) : ChannelEvent :=
  if r.msgType = .msg then
    if isFinal = .abort then .rcvMsgChunkAbort r.requestHandle valid
    else .rcvMsgChunks r.requestHandle
  else .rcvOpn valid

structure PartsTreated where
  requests : List SentRequest
  front : List ChannelEvent
  back : List ChannelEvent

def treatParts : List SentRequest → List ReceivedPart → PartsTreated
  | requests, [] => ⟨requests, [], []⟩
  | requests, .refused :: _ => ⟨requests, [.rcvFailure], []⟩
  | requests, .ack valid :: parts =>
    let t := treatParts requests parts
    { t with back := .rcvAck valid :: t.back }
  | requests, .err :: parts =>
    let t := treatParts requests parts
    { t with front := t.front ++ [.rcvErr] }
  | requests, .chunk requestId msgType isFinal prepended completed valid :: parts =>
    match findRequest requests requestId msgType isFinal prepended with
    | (requests, .failure) => ⟨requests, [.rcvFailure], []⟩
    | (requests, .intermediate) =>
      if completed then treatParts requests parts else ⟨requests, [.rcvFailure], []⟩
    | (requests, .complete r) =>
      if completed then
        let t := treatParts requests parts
        -- the response to an expired request is ignored
        if r.timeoutExpired then t else { t with back := rcvEvent r isFinal valid :: t.back }
      else ⟨requests, [.rcvFailure], []⟩

def expireRequest (requestId : Nat) : List SentRequest → List SentRequest
  | [] => []
  | r :: requests =>
    if r.requestId == requestId then { r with timeoutExpired := true } :: requests
    else r :: expireRequest requestId requests

def ClientChannel.timeout (c : ClientChannel) (requestId : Nat) : ClientChannel :=
  if c.state = .closed then c
  else
    match c.sentRequests.find? fun r => r.requestId == requestId with
    | none => c
    | some r =>
      let c' := { c with sentRequests := expireRequest requestId c.sentRequests }
      if r.msgType = .msg then c'.report .requestTimeout r.requestHandle else c'

def ClientChannel.renew (c : ClientChannel) (env : EventEnv) : ClientChannel :=
  if c.state = .scConnected then
    if env.encoded then { c with state := .scConnectedRenew, queue := c.queue ++ [.sndOpn] }
    else c.closeSecureConnection env false
  else c

def ClientChannel.requestId (c : ClientChannel) : Nat :=
  if c.clientNextReqId = 0 then 1 else c.clientNextReqId

def ClientChannel.recordSent (c : ClientChannel) (msgType : MsgType) (handle : Nat) :
    ClientChannel :=
  { c with
    clientNextReqId := (c.requestId + 1) % (2 ^ 32 - 1)
    sentRequests := c.sentRequests ++ [⟨c.requestId, handle, msgType, false⟩] }

def ClientChannel.sendMsg (c : ClientChannel) (env : EventEnv) (handle : Nat) : ClientChannel :=
  if c.state = .closed then c
  else
    match env.outcome with
    | .sent => c.recordSent .msg handle
    | .aborted _ =>
      { c with clientNextReqId := env.nextReqId, queue := c.queue ++ [.sentAbortFailure handle] }
    | .failed _ =>
      { c with clientNextReqId := env.nextReqId, queue := .sndFatalFailure handle :: c.queue }

def ClientChannel.sendOpn (c : ClientChannel) (env : EventEnv) : ClientChannel :=
  if c.state = .closed then c
  else if env.outcome = .sent then c.recordSent .opn 0
  else { c with clientNextReqId := env.nextReqId, queue := .sndFatalFailure 0 :: c.queue }

def ClientChannel.sendHel (c : ClientChannel) (env : EventEnv) : ClientChannel :=
  if c.state = .closed ∨ env.outcome = .sent then c
  else { c with queue := .sndFatalFailure 0 :: c.queue }

/-- `INT_SC_SND_CLO` in `SOPC_ChunksMgr_Dispatcher`. A failure is only logged. -/
def ClientChannel.sendClo (c : ClientChannel) (env : EventEnv) : ClientChannel :=
  if c.state = .closed then c else { c with clientNextReqId := env.nextReqId }

def ClientChannel.rcvAck (c : ClientChannel) (env : EventEnv) (valid : Bool) : ClientChannel :=
  if c.state = .tcpNegotiate ∧ valid = true ∧ env.encoded = true then
    { c with state := .scConnecting, queue := c.queue ++ [.sndOpn] }
  else c.closeSecureConnection env false

def ClientChannel.rcvOpn (c : ClientChannel) (env : EventEnv) (valid : Bool) : ClientChannel :=
  if (c.state = .scConnecting ∨ c.state = .scConnectedRenew) ∧ valid = true then
    { c with state := .scConnected }
  else c.closeSecureConnection env false

def ClientChannel.socketConnected (c : ClientChannel) (env : EventEnv) : ClientChannel :=
  if c.state = .tcpInit then
    if env.encoded then { c with state := .tcpNegotiate, queue := c.queue ++ [.sndHel] }
    else c.closeSecureConnection env false
  else c

def ClientChannel.serviceSndMsg (c : ClientChannel) (handle : Nat) : ClientChannel :=
  let c' := { c with accepted := c.accepted ++ [handle] }
  if c.state.isScConnected then { c' with queue := c.queue ++ [.sndMsgChunks handle] }
  else c'.report .sndFailure handle

def ClientChannel.handle (c : ClientChannel) (env : EventEnv) : ChannelEvent → ClientChannel
  | .sndMsg handle => c.serviceSndMsg handle
  | .disconnect => c.closeSecureConnection env false
  | .socketConnection => c.socketConnected env
  | .rcvBytes parts =>
    if c.state = .closed then c
    else
      let t := treatParts c.sentRequests parts
      { c with sentRequests := t.requests, queue := t.front ++ c.queue ++ t.back }
  | .socketFailure => c.closeSecureConnection env true
  | .connectionTimeout =>
    if c.state.isScConnected then c else c.closeSecureConnection env false
  | .opnRenew => c.renew env
  | .requestTimeout requestId => c.timeout requestId
  | .sndHel => c.sendHel env
  | .sndOpn => c.sendOpn env
  | .sndMsgChunks handle => c.sendMsg env handle
  | .sndClo => c.sendClo env
  | .rcvAck valid => c.rcvAck env valid
  | .rcvOpn valid => c.rcvOpn env valid
  | .rcvMsgChunks handle =>
    if c.state.isScConnected then c.report .response handle else c.closeSecureConnection env false
  | .rcvMsgChunkAbort handle valid =>
    if valid then c.report .sndFailure handle else c.closeSecureConnection env false
  | .rcvErr => c.closeSecureConnection env true
  | .rcvFailure => c.closeSecureConnection env false
  | .sndFatalFailure handle => (c.report .sndFailure handle).closeSecureConnection env false
  | .sentAbortFailure handle => c.report .sndFailure handle
  | .close => c.closeSecureConnection env true

def ChannelEvent.isExternal : ChannelEvent → Bool
  | .sndMsg _ | .disconnect | .socketConnection | .rcvBytes _ | .socketFailure
  | .connectionTimeout | .opnRenew | .requestTimeout _ => true
  | _ => false

inductive ChannelInput where
  | post (e : ChannelEvent) (hexternal : e.isExternal = true)
  | handle (env : EventEnv)

def ClientChannel.step (c : ClientChannel) : ChannelInput → ClientChannel
  | .post e _ => { c with queue := c.queue ++ [e] }
  | .handle env =>
    match c.queue with
    | [] => c
    | e :: queue => ClientChannel.handle { c with queue := queue } env e

def ClientChannel.initial : ClientChannel := ⟨.tcpInit, [], 0, [], [], []⟩

def ClientChannel.run (c : ClientChannel) (inputs : List ChannelInput) : ClientChannel :=
  inputs.foldl ClientChannel.step c

theorem sequenced_requestId {s : Sender} {handle : Nat} (hclient : s.isServer = false) :
    (s.sequenced .intermediate).requestId handle = s.requestId handle := by
  by_cases hzero : s.clientNextReqId = 0 <;>
    simp [Sender.sequenced, Sender.requestId, hclient, hzero]

end Channels
end S2OPC
