import S2OPC.Services.Session
import S2OPC.Lib.Scan

/-!
# S2OPC.Services.ClientServices

The requests of a client: request handles (`request_handle_bs.c`), the sessions they belong to, the
operations of `service_mgr` that reserve a handle and those that end a request.

A message is outstanding from the moment it is handed to the secure channel to the event that ends it
there: its response, a send failure or a timeout.
-/

namespace S2OPC
namespace ClientServices

open Session (State Channel)

inductive Service where
  | findServers | findServersOnNetwork | getEndpoints | registerServer | registerServer2
  | createSession | activateSession | closeSession | cancel
  | addNodes | addReferences | deleteNodes | deleteReferences
  | browse | browseNext | translateBrowsePathsToNodeIds | registerNodes | unregisterNodes
  | queryFirst | queryNext
  | read | historyRead | write | historyUpdate
  | call
  | createMonitoredItems | modifyMonitoredItems | setMonitoringMode | setTriggering
  | deleteMonitoredItems
  | createSubscription | modifySubscription | setPublishingMode | publish | republish
  | transferSubscriptions | deleteSubscriptions
  deriving DecidableEq, Repr

inductive ServiceClass where
  | discovery
  | sessionTreatment
  | sessionService
  | serviceFault
  deriving DecidableEq, Repr

def Service.serviceClass : Service → ServiceClass
  | .findServers | .findServersOnNetwork | .getEndpoints | .registerServer | .registerServer2 =>
    .discovery
  | .createSession | .activateSession | .closeSession | .cancel => .sessionTreatment
  | _ => .sessionService

inductive MessageType where
  | request (s : Service)
  | response (s : Service)
  | serviceFault
  deriving DecidableEq, Repr

def MessageType.isRequestOf (cls : ServiceClass) : MessageType → Bool
  | .request s => s.serviceClass == cls
  | _ => false

def getResponseType : MessageType → Option MessageType
  | .request s => some (.response s)
  | _ => none

def getMsgServiceClass : MessageType → ServiceClass
  | .request s => s.serviceClass
  | .response s => s.serviceClass
  | .serviceFault => .serviceFault

/-- The ticket numbers the reservations; the code has none. -/
structure RequestContext where
  request : MessageType
  response : MessageType
  hasAppContext : Bool
  appContext : Nat
  ticket : Nat
  deriving DecidableEq, Repr

/-- `client_requests_context` and `client_requests_channel`, and the number of the next ticket. -/
structure Handles where
  cpt : Nat
  contexts : Nat → Option RequestContext
  channel : Nat → Option Channel
  nextTicket : Nat

/-- The counter is reduced by `SOPC_MAX_PENDING_REQUESTS + 1`, and then converted to `uint16_t`. -/
def handleModulus (max : Nat) : Nat := Nat.min (max + 1) (2 ^ 16)

def Handles.freeHandle (max : Nat) (t : Handles) : Option Nat :=
  (List.range (handleModulus max - 1)).findSome? fun i =>
    let cpt := (t.cpt + 1 + i) % handleModulus max
    if cpt ≠ 0 ∧ t.contexts cpt = none then some cpt else none

def Handles.fresh (max : Nat) (t : Handles) (request : MessageType) (response : Option MessageType)
    (isApplicative : Bool) (appContext : Nat) : Handles × Option Nat :=
  match response with
  | none => (t, none)
  | some response =>
    match t.freeHandle max with
    | none => (t, none)
    | some handle =>
      ({ t with
          cpt := handle
          contexts := Function.update t.contexts handle
            (some ⟨request, response, isApplicative, appContext, t.nextTicket⟩)
          nextTicket := t.nextTicket + 1 },
        some handle)

def Handles.setChannel (t : Handles) (handle : Nat) (ch : Channel) : Handles :=
  { t with channel := Function.update t.channel handle (some ch) }

def Handles.remove (t : Handles) (handle : Nat) : Handles :=
  { t with
    contexts := Function.update t.contexts handle none
    channel := Function.update t.channel handle none }

/-- The context of a handle for which `request_handle_bs__is_valid_req_handle` answers true. -/
def Handles.validContext (max : Nat) (t : Handles) (handle : Nat) : Option RequestContext :=
  if 0 < handle ∧ handle ≤ max then t.contexts handle else none

def Handles.validateResponse (max : Nat) (t : Handles) (ch : Channel) (handle : Nat)
    (responseType : MessageType) : Option RequestContext :=
  (t.validContext max handle).filter fun ctx =>
    (ctx.response = responseType ∨ responseType = .serviceFault) ∧ t.channel handle = some ch

/-- A session: whether it is valid, its state and channel, and the channel configuration that it
waits for, as an orphan or to be created. -/
structure ClientSession where
  valid : Bool
  state : State
  channel : Option Channel
  orphaned : Option Nat
  toCreate : Option Nat
  deriving DecidableEq

def ClientSession.closed : ClientSession := ⟨false, .closed, none, none, none⟩

structure Sessions where
  entry : Nat → ClientSession
  requests : Nat → Option Nat

def Sessions.stateOrClosed (ss : Sessions) (s : Nat) : State :=
  if (ss.entry s).valid then (ss.entry s).state else .closed

def Sessions.set (ss : Sessions) (s : Nat) (e : ClientSession) : Sessions :=
  { ss with entry := Function.update ss.entry s e }

def Sessions.addRequest (ss : Sessions) (s handle : Nat) : Sessions :=
  { ss with requests := Function.update ss.requests handle (some s) }

def Sessions.removeRequest (ss : Sessions) (handle : Nat) : Sessions × Option Nat :=
  ({ ss with requests := Function.update ss.requests handle none }, ss.requests handle)

def Sessions.removeAllRequests (ss : Sessions) (s : Nat) : Sessions :=
  { ss with requests := fun handle => (ss.requests handle).filter (· ≠ s) }

def Sessions.close (ss : Sessions) (s : Nat) : Sessions :=
  (ss.removeAllRequests s).set s .closed

def Sessions.createReq (ss : Sessions) (s : Nat) (ch : Channel) (handle : Nat) (filled : Bool) :
    Sessions × Bool :=
  if ss.stateOrClosed s = .init then
    let ss := ss.set s { ss.entry s with state := .creating, channel := some ch }
    if filled then (ss.addRequest s handle, true) else (ss, false)
  else (ss, false)

def Sessions.scActivateReq (ss : Sessions) (s : Nat) (ch : Channel) (handle : Nat) :
    Sessions × Bool :=
  if ss.stateOrClosed s = .scOrphaned ∨ ss.stateOrClosed s = .userActivated then
    ((ss.set s { ss.entry s with state := .scActivating, channel := some ch }).addRequest s handle,
      true)
  else (ss, false)

def Sessions.connectedChannel (ss : Sessions) (isConnected : Channel → Bool) (s : Nat) :
    Option Channel :=
  (ss.entry s).channel.filter isConnected

def Sessions.userActivateReq (ss : Sessions) (isConnected : Channel → Bool) (s handle : Nat)
    (filled : Bool) : Sessions × Option Channel :=
  if ss.stateOrClosed s = .created ∨ ss.stateOrClosed s = .userActivated then
    match ss.connectedChannel isConnected s with
    | some ch =>
      if filled then
        ((ss.set s { ss.entry s with state := .userActivating }).addRequest s handle, some ch)
      else (ss, none)
    | none => (ss, none)
  else (ss, none)

def Sessions.closeReq (ss : Sessions) (isConnected : Channel → Bool) (s handle : Nat) :
    Sessions × Option Channel :=
  if (ss.entry s).valid = false then (ss, none)
  else if (ss.entry s).state = .created ∨ (ss.entry s).state = .userActivating ∨
      (ss.entry s).state = .userActivated then
    match ss.connectedChannel isConnected s with
    | some ch => ((ss.set s { ss.entry s with state := .closing }).addRequest s handle, some ch)
    | none => (ss.close s, none)
  else (ss.close s, none)

def Sessions.validateReq (ss : Sessions) (s handle : Nat) : Sessions × Option Channel :=
  if ss.stateOrClosed s = .userActivated then (ss.addRequest s handle, (ss.entry s).channel)
  else (ss, none)

def Sessions.servesResp (ss : Sessions) (ch : Channel) (handle : Nat) : Bool :=
  match ss.requests handle with
  | none => false
  | some s =>
    (ss.entry s).valid && decide ((ss.entry s).state = .userActivated) &&
      decide ((ss.entry s).channel = some ch)

/-- `client_validate_session_service_resp`: a session that does not serve is closed. -/
def Sessions.validateResp (ss : Sessions) (ch : Channel) (handle : Nat) :
    Sessions × Option Nat :=
  match ss.removeRequest handle with
  | (ss', none) => (ss', none)
  | (ss', some s) =>
    if (ss.entry s).valid = false then (ss', none)
    else if ss.servesResp ch handle then (ss', some s)
    else (ss'.close s, none)

/-- A message received by a client, as far as it can be decoded: its type, the request handle and
whether the status is good in its header, its body, and whether the checks of a session response
pass. -/
structure Response where
  msgType : Option MessageType
  header : Option (Nat × Bool)
  body : Bool
  checked : Bool
  deriving DecidableEq

def Sessions.sessionResp (ss : Sessions) (ch : Channel) (s : Nat) (r : Response) :
    Sessions :=
  let e := ss.entry s
  match r.msgType with
  | some (.response .createSession) =>
    if e.state = .creating ∧ e.channel = some ch ∧ r.checked = true then
      ss.set s { e with state := .created }
    else ss.close s
  | some (.response .activateSession) =>
    if (e.state = .userActivating ∨ e.state = .scActivating) ∧ e.channel = some ch ∧
        r.checked = true then
      ss.set s { e with state := .userActivated }
    else ss.close s
  | _ => ss.close s

def Sessions.receiveSessionResp (ss : Sessions) (ch : Channel) (handle : Nat) (good : Bool)
    (r : Response) : Sessions :=
  match ss.removeRequest handle with
  | (ss, none) => ss
  | (ss, some s) =>
    if ss.stateOrClosed s = .closed then ss
    else if good then ss.sessionResp ch s r
    else ss.close s

structure Client where
  handles : Handles
  sessions : Sessions
  -- the connected channels, with their configuration
  connected : List (Channel × Nat)
  -- the messages that were handed to a channel and have not ended
  outstanding : List (Channel × Nat)
  -- the requests of the application that were accepted, with their channel
  accepted : List (Nat × Channel)
  -- the requests that the application was called for
  called : List Nat

def Client.isConnected (c : Client) (ch : Channel) : Bool := c.connected.any fun p => p.1 == ch

def Client.getConnectedChannel (c : Client) (config : Nat) : Option Channel :=
  (c.connected.find? fun p => p.2 == config).map Prod.fst

structure SendEnv where
  allocated : Bool
  filled : Bool
  encoded : Bool
  deriving DecidableEq

structure Issue where
  handles : Handles
  sessions : Sessions
  message : Option (Channel × Nat)

/-- The end of an operation on a session: a message that cannot be encoded gives its handle back, and
the session is closed. -/
def encodeSession (t : Handles) (ss : Sessions) (s : Nat) (ch : Channel) (handle : Nat)
    (env : SendEnv) : Issue :=
  if env.encoded then ⟨t, ss, some (ch, handle)⟩ else ⟨t.remove handle, ss.close s, none⟩

/-- The handle of a session request: it is not that of an application. -/
def Handles.freshSession (max : Nat) (t : Handles) (service : Service) : Handles × Option Nat :=
  t.fresh max (.request service) (some (.response service)) false 0

def clientServiceCreateSession (max : Nat) (c : Client) (env : SendEnv) (s : Nat) (ch : Channel) :
    Issue :=
  if env.allocated then
    match c.handles.freshSession max .createSession with
    | (t, none) => ⟨t, c.sessions.close s, none⟩
    | (t, some handle) =>
      let t := t.setChannel handle ch
      match c.sessions.createReq s ch handle env.filled with
      | (ss, true) => encodeSession t ss s ch handle env
      | (ss, false) => ⟨t.remove handle, ss.close s, none⟩
  else ⟨c.handles, c.sessions, none⟩

def clientServiceActivateOrphanedSession (max : Nat) (c : Client) (env : SendEnv) (s : Nat)
    (ch : Channel) : Issue :=
  if env.allocated then
    match c.handles.freshSession max .activateSession with
    | (t, none) => ⟨t, c.sessions, none⟩
    | (t, some handle) =>
      let t := t.setChannel handle ch
      match c.sessions.scActivateReq s ch handle with
      | (ss, true) => encodeSession t ss s ch handle env
      | (ss, false) => ⟨t, ss, none⟩
  else ⟨c.handles, c.sessions.close s, none⟩

def clientServiceActivateSession (max : Nat) (c : Client) (env : SendEnv) (s : Nat) : Issue :=
  if env.allocated then
    match c.handles.freshSession max .activateSession with
    | (t, none) => ⟨t, c.sessions.close s, none⟩
    | (t, some handle) =>
      match c.sessions.userActivateReq c.isConnected s handle env.filled with
      | (ss, some ch) => encodeSession (t.setChannel handle ch) ss s ch handle env
      | (ss, none) => ⟨t, ss.close s, none⟩
  else ⟨c.handles, c.sessions.close s, none⟩

def clientServiceCloseSession (max : Nat) (c : Client) (env : SendEnv) (s : Nat) : Issue :=
  if env.allocated then
    match c.handles.freshSession max .closeSession with
    | (t, none) => ⟨t, c.sessions, none⟩
    | (t, some handle) =>
      match c.sessions.closeReq c.isConnected s handle with
      | (ss, some ch) => encodeSession (t.setChannel handle ch) ss s ch handle env
      | (ss, none) => ⟨t, ss, none⟩
  else ⟨c.handles, c.sessions, none⟩

def encodeRequest (t : Handles) (ss : Sessions) (ch : Option Channel) (handle : Nat)
    (env : SendEnv) : Issue :=
  match ch with
  | some ch =>
    ⟨t.setChannel handle ch, ss, if env.encoded then some (ch, handle) else none⟩
  | none => ⟨t, ss, none⟩

def localClientDiscoveryServiceRequest (max : Nat) (c : Client) (env : SendEnv)
    (ch : Option Channel) (msgType : MessageType) (appContext : Nat) : Issue :=
  if msgType.isRequestOf .discovery then
    match c.handles.fresh max msgType (getResponseType msgType) true appContext with
    | (t, none) => ⟨t, c.sessions, none⟩
    | (t, some handle) =>
      if env.allocated then encodeRequest t c.sessions ch handle env else ⟨t, c.sessions, none⟩
  else ⟨c.handles, c.sessions, none⟩

def clientSessionServiceRequest (max : Nat) (c : Client) (env : SendEnv) (s : Nat)
    (msgType : MessageType) (appContext : Nat) : Issue :=
  match c.handles.fresh max msgType (getResponseType msgType) true appContext with
  | (t, none) => ⟨t, c.sessions, none⟩
  | (t, some handle) =>
    if env.allocated then
      match c.sessions.validateReq s handle with
      | (ss, ch) => encodeRequest t ss ch handle env
    else ⟨t, c.sessions, none⟩

/-- A `SetMonitoringMode` response is let through as a request, and then finds no response type. -/
def clientServiceRequest (max : Nat) (c : Client) (env : SendEnv) (s : Nat)
    (msgType : MessageType) (appContext : Nat) : Issue :=
  if msgType.isRequestOf .sessionService ∨ msgType = .response .setMonitoringMode then
    clientSessionServiceRequest max c env s msgType appContext
  else localClientDiscoveryServiceRequest max c env (c.sessions.entry s).channel msgType appContext

def Client.send (c : Client) (i : Issue) : Client :=
  let c := { c with handles := i.handles, sessions := i.sessions }
  match i.message with
  | some (ch, handle) =>
    if c.isConnected ch then { c with outstanding := (ch, handle) :: c.outstanding } else c
  | none => c

def Client.accept (c : Client) (i : Issue) : Client :=
  match i.message with
  | some (ch, handle) =>
    match i.handles.contexts handle with
    | some ctx => { c with accepted := (ctx.ticket, ch) :: c.accepted }
    | none => c
  | none => c

def Client.callApplication (c : Client) (ctx : RequestContext) : Client :=
  if ctx.hasAppContext then { c with called := c.called ++ [ctx.ticket] } else c

def Client.removeHandle (c : Client) (handle : Nat) : Client :=
  { c with handles := c.handles.remove handle }

def Client.receiveSessionTreatmentResp (max : Nat) (c : Client) (ch : Channel) (r : Response)
    (msgType : MessageType) : Client :=
  match r.header with
  | none => c
  | some (handle, good) =>
    match c.handles.validateResponse max ch handle msgType with
    | none => c
    | some _ =>
      let c := if r.body then
          { c with sessions := c.sessions.receiveSessionResp ch handle good r } else c
      c.removeHandle handle

def Client.receiveSessionServiceResp (max : Nat) (c : Client) (ch : Channel) (r : Response)
    (msgType : MessageType) : Client :=
  match r.header with
  | none => c
  | some (handle, _) =>
    match c.handles.validateResponse max ch handle msgType with
    | none => c
    | some ctx =>
      match c.sessions.validateResp ch handle with
      | (ss, none) => Client.removeHandle { c with sessions := ss } handle
      | (ss, some _) =>
        let c := { c with sessions := ss }
        (if r.body then c.callApplication ctx else c).removeHandle handle

def Client.receiveDiscoveryServiceResp (max : Nat) (c : Client) (ch : Channel) (r : Response)
    (msgType : MessageType) : Client :=
  match r.header with
  | none => c
  | some (handle, _) =>
    match c.handles.validateResponse max ch handle msgType with
    | none => c
    | some ctx => (if r.body then c.callApplication ctx else c).removeHandle handle

def Client.respServiceClass (max : Nat) (c : Client) (r : Response) (msgType : MessageType) :
    Option ServiceClass :=
  if msgType = .serviceFault then
    (r.header.bind fun h => c.handles.validContext max h.1).map fun ctx =>
      getMsgServiceClass ctx.response
  else some (getMsgServiceClass msgType)

def Client.receiveMsgBuffer (max : Nat) (c : Client) (ch : Channel) (r : Response) : Client :=
  if c.isConnected ch = false then c
  else
    match r.msgType with
    | none => c
    | some (.request _) => c
    | some msgType =>
      match c.respServiceClass max r msgType with
      | some .sessionTreatment => c.receiveSessionTreatmentResp max ch r msgType
      | some .sessionService => c.receiveSessionServiceResp max ch r msgType
      | some .discovery => c.receiveDiscoveryServiceResp max ch r msgType
      | some .serviceFault => c
      | none => c

def Client.sndMsgFailure (max : Nat) (c : Client) (ch : Channel) (handle : Nat) : Client :=
  match c.handles.validContext max handle with
  | none => c
  | some ctx =>
    if c.handles.channel handle = some ch then
      if getMsgServiceClass ctx.response = .sessionTreatment then
        match c.sessions.validateResp ch handle with
        | (ss, some s) => { c with sessions := ss.close s }
        | (ss, none) => { c with sessions := ss }
      else (c.removeHandle handle).callApplication ctx
    else c

/-- A session whose channel is lost is kept if it is activated. -/
def ClientSession.lost (e : ClientSession) (ch : Channel) (config : Nat) : ClientSession :=
  if e.channel = some ch then
    if e.state = .userActivated then
      { e with state := .scOrphaned, channel := none, orphaned := some config }
    else .closed
  else e

def Client.secureChannelLost (c : Client) (ch : Channel) : Client :=
  match c.connected.find? fun p => p.1 == ch with
  | none => c
  | some (_, config) =>
    { c with
      sessions := { c.sessions with entry := fun s => (c.sessions.entry s).lost ch config }
      connected := c.connected.filter fun p => p.1 != ch
      outstanding := c.outstanding.filter fun p => p.1 != ch }

def Client.channelConnected (c : Client) (config : Nat) (ch : Channel) : Client :=
  if c.isConnected ch then c
  else
    { c with
      connected := (ch, config) :: c.connected
      sessions := { c.sessions with
        entry := fun s =>
          if (c.sessions.entry s).toCreate = some config then
            { c.sessions.entry s with toCreate := none }
          else c.sessions.entry s } }

def Sessions.finalConnectionFailure (ss : Sessions) (maxSessions config : Nat) : Sessions :=
  (List.range maxSessions).reverse.foldl (fun ss i =>
    if (ss.entry (i + 1)).orphaned = some config ∨ (ss.entry (i + 1)).toCreate = some config then
      ss.close (i + 1)
    else ss) ss

def Sessions.initSession (ss : Sessions) (maxSessions : Nat) (toCreate : Option Nat) : Sessions :=
  match (List.range maxSessions).reverse.find? fun i => !(ss.entry (i + 1)).valid with
  | some i => ss.set (i + 1) ⟨true, .init, none, none, toCreate⟩
  | none => ss

/-- A session is set up, to be created at once or when the channel is connected, if it can be
opened. -/
def Client.activateNewSession (c : Client) (maxSessions config : Nat) (opened : Bool) : Client :=
  if (c.getConnectedChannel config).isSome then
    { c with sessions := c.sessions.initSession maxSessions none }
  else if opened then { c with sessions := c.sessions.initSession maxSessions (some config) }
  else c

inductive Event where
  | activateNewSession (config : Nat) (opened : Bool)
  | createSession (env : SendEnv) (s config : Nat)
  | activateOrphanedSession (env : SendEnv) (s config : Nat)
  | activateSession (env : SendEnv) (s : Nat)
  | closeSession (env : SendEnv) (s : Nat)
  | serviceRequest (env : SendEnv) (s : Nat) (msgType : MessageType) (appContext : Nat)
  | discoveryRequest (env : SendEnv) (config : Nat) (msgType : MessageType) (appContext : Nat)
  -- the response, on a channel, to the message with the handle
  | response (ch : Channel) (answered : Nat) (r : Response)
  -- `SC_SND_FAILURE` or `SC_REQUEST_TIMEOUT`
  | sndFailure (ch : Channel) (handle : Nat)
  | channelConnected (config : Nat) (ch : Channel)
  | connectionTimeout (config : Nat)
  | channelLost (ch : Channel)

structure Limits where
  maxPendingRequests : Nat
  maxSessions : Nat

def Client.ended (c : Client) (ch : Channel) (handle : Nat) : Client :=
  { c with outstanding := c.outstanding.erase (ch, handle) }

def issueOf (limits : Limits) (c : Client) : Event → Option Issue
  | .createSession env s config =>
    (c.getConnectedChannel config).map
      (clientServiceCreateSession limits.maxPendingRequests c env s)
  | .activateOrphanedSession env s config =>
    (c.getConnectedChannel config).map
      (clientServiceActivateOrphanedSession limits.maxPendingRequests c env s)
  | .activateSession env s =>
    if (c.sessions.entry s).valid then
      some (clientServiceActivateSession limits.maxPendingRequests c env s)
    else none
  | .closeSession env s =>
    if (c.sessions.entry s).valid then
      some (clientServiceCloseSession limits.maxPendingRequests c env s)
    else none
  | .serviceRequest env s msgType appContext =>
    if (c.sessions.entry s).valid then
      some (clientServiceRequest limits.maxPendingRequests c env s msgType appContext)
    else none
  | .discoveryRequest env config msgType appContext =>
    (c.getConnectedChannel config).map fun ch =>
      localClientDiscoveryServiceRequest limits.maxPendingRequests c env (some ch) msgType appContext
  | _ => none

def Event.isApplicative : Event → Bool
  | .serviceRequest .. => true
  | .discoveryRequest .. => true
  | _ => false

/-- The operations of `io_dispatch_mgr` and `sopc_services_api.c` that a client takes part in. -/
def Client.step (limits : Limits) (c : Client) (e : Event) : Client :=
  match issueOf limits c e with
  | some i => if e.isApplicative then (c.send i).accept i else c.send i
  | none =>
    match e with
    | .activateNewSession config opened => c.activateNewSession limits.maxSessions config opened
    | .createSession _ s _ => { c with sessions := c.sessions.close s }
    | .response ch answered r => (c.ended ch answered).receiveMsgBuffer limits.maxPendingRequests ch r
    | .sndFailure ch handle =>
      if c.isConnected ch then (c.ended ch handle).sndMsgFailure limits.maxPendingRequests ch handle
      else c.ended ch handle
    | .channelConnected config ch => c.channelConnected config ch
    | .connectionTimeout config =>
      { c with sessions := c.sessions.finalConnectionFailure limits.maxSessions config }
    | .channelLost ch => c.secureChannelLost ch
    | _ => c

def Client.initial : Client where
  handles := ⟨0, fun _ => none, fun _ => none, 0⟩
  sessions := ⟨fun _ => .closed, fun _ => none⟩
  connected := []
  outstanding := []
  accepted := []
  called := []

def Client.run (limits : Limits) (c : Client) (events : List Event) : Client :=
  events.foldl (Client.step limits) c

end ClientServices
end S2OPC
