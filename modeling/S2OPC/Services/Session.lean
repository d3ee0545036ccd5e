import S2OPC.Common.BuiltinTypes
import S2OPC.Lib.Fallible

/-!
# S2OPC.Services.Session

The sessions of a server: `session_core` and `session_mgr` under the dispatch of requests by
`service_mgr` and of channel events by `io_dispatch_mgr`.

What the cryptography, the decoder, the allocator and the timers answer is part of an event. `none` is
an assertion that fails. Nonces, locales and the notifications of state changes are not kept.
-/

namespace S2OPC
namespace Session

inductive State where
  | init
  | creating
  | created
  | userActivating
  | userActivated
  | scActivating
  | scOrphaned
  | closing
  | closed
  deriving DecidableEq

inductive User where
  | localUser
  | anonymous
  | username (name : ByteString)
  deriving DecidableEq

def User.equal : User → User → Bool
  | .localUser, .localUser => true
  | .anonymous, .anonymous => true
  | .username a, .username b => ByteString.stringEqual a b
  | _, _ => false

abbrev Channel := Nat

/-- One entry: `s_session_i`, `a_state_i`, `a_channel_i` (`none` is `c_channel_indet`), the
`sessionToken`, the `user_server`, and whether the `session_expiration_timer` is armed. -/
structure Entry where
  valid : Bool
  state : State
  channel : Option Channel
  token : NodeId
  user : Option User
  timer : Bool
  deriving DecidableEq

/-- The table and the connected channels of the server. Entry `i` is the session `i + 1` of the
source, where 0 is `c_session_indet`. -/
structure Server (max : Nat) where
  sessions : Fin max → Entry
  connected : List Channel

abbrev maxSessions : Nat := 20

def initial (max : Nat) : Server max where
  sessions := fun _ => ⟨false, .closed, none, NodeId.opcua 0, none, false⟩
  connected := []

variable {max : Nat}

def Server.set (srv : Server max) (s : Fin max) (entry : Entry) : Server max :=
  { srv with sessions := Function.update srv.sessions s entry }

@[simp] theorem Server.set_same (srv : Server max) (s : Fin max) (entry : Entry) :
    (srv.set s entry).sessions s = entry := by
  simp [Server.set]

theorem Server.set_of_ne (srv : Server max) {s t : Fin max} (h : t ≠ s) (entry : Entry) :
    (srv.set s entry).sessions t = srv.sessions t := by
  simp [Server.set, h]

@[simp] theorem Server.set_set (srv : Server max) (s : Fin max) (entry entry' : Entry) :
    (srv.set s entry).set s entry' = srv.set s entry' := by
  simp [Server.set]

/-- The loops over the sessions count down from the last one. -/
def lastSession (p : Fin max → Bool) : Option (Fin max) :=
  (List.finRange max).reverse.find? p

theorem lastSession_sound {p : Fin max → Bool} {s : Fin max} (h : lastSession p = some s) :
    p s = true :=
  List.find?_some h

def Entry.closed (entry : Entry) : Entry :=
  { entry with valid := false, channel := none, token := NodeId.opcua 0, user := none, timer := false }

def Server.close (srv : Server max) (s : Fin max) : Server max :=
  srv.set s (srv.sessions s).closed

/-- `delete_session_token` asserts that there is a session. -/
def serverCloseSessionSm (srv : Server max) : Option (Fin max) → Option (Server max)
  | none => none
  | some s => some (srv.close s)

def serverGetSessionFromToken (srv : Server max) (token : NodeId) : Option (Fin max) :=
  lastSession fun s => NodeId.equal (srv.sessions s).token token

/-- `constants_statuscodes_bs__t_StatusCode`; `other` are the codes that only come from elsewhere. -/
inductive Status where
  | ok
  | badOutOfMemory
  | badTooManySessions
  | badSecurityChecksFailed
  | badUnexpectedError
  | badServiceUnsupported
  | badResourceUnavailable
  | badSessionIdInvalid
  | badSessionNotActivated
  | badInvalidState
  | badInvalidArgument
  | badIdentityTokenInvalid
  | badApplicationSignatureInvalid
  | badSecureChannelIdInvalid
  | badDecodingError
  | badNonceInvalid
  | badCertificateUriInvalid
  | other (code : Nat)
  deriving DecidableEq

structure Answer (max : Nat) where
  session : Option (Fin max)
  status : Status
  deriving DecidableEq

/-- A CreateSession request, by what is decided about it outside of the session manager. -/
structure CreateRequest where
  -- `has_user_token_policy_available`
  userTokenPolicy : Bool
  -- `create_session_req_check_client_certificate`
  clientCertificate : Bool
  -- the number drawn by `server_get_fresh_session_token`
  freshToken : UInt32
  -- `write_create_session_msg_server_endpoints`
  endpoints : Status
  -- the security policy of the channel is not None
  secured : Bool
  -- the configurations of the channel and of the endpoint are found
  configurations : Bool
  -- the `Length` of the client nonce
  clientNonceLength : Int
  -- the certificate and the nonce of the client are signed with the key of the server
  signed : Bool
  -- `check_application_uri`
  applicationUri : Bool
  -- `write_create_session_resp_signature`
  signature : Bool
  -- `server_may_need_user_token_encryption`
  encryptsUserToken : Bool
  -- `write_create_session_resp_cert`
  serverCertificate : Bool
  -- `server_set_fresh_nonce`
  nonce : Bool
  -- `server_session_timeout_start_timer`
  timer : Bool

def lengthNonce : Int := 32

def serverCreateSessionReqDoCrypto (r : CreateRequest) : Status :=
  if !r.configurations then .badUnexpectedError
  else if r.clientNonceLength < lengthNonce then .badNonceInvalid
  else if !r.signed then .badUnexpectedError
  else if r.applicationUri then .ok
  else .badCertificateUriInvalid

def CreateRequest.status (r : CreateRequest) : Status :=
  if r.endpoints ≠ .ok then r.endpoints
  else if r.secured ∧ serverCreateSessionReqDoCrypto r ≠ .ok then serverCreateSessionReqDoCrypto r
  else if r.secured ∧ !r.signature then .badUnexpectedError
  else if (r.secured ∨ r.encryptsUserToken) ∧ !r.serverCertificate then .badUnexpectedError
  else if !r.nonce then .badUnexpectedError
  else .ok

def Server.create (srv : Server max) (s : Fin max) (c : Channel) (token : UInt32) : Server max :=
  srv.set s { srv.sessions s with
    valid := true, state := .created, channel := some c, token := NodeId.opcua token }

/-- The token of a session is never `c_session_token_indet`. -/
def serverCreateSessionReqAndRespSm (srv : Server max) (c : Channel) (r : CreateRequest) :
    Server max × Answer max :=
  match lastSession fun s => !(srv.sessions s).valid with
  | none => (srv, ⟨none, .badTooManySessions⟩)
  | some s =>
    if r.clientCertificate then (srv.create s c r.freshToken, ⟨some s, r.status⟩)
    else ((srv.create s c r.freshToken).close s, ⟨none, .badSecurityChecksFailed⟩)

def Server.startTimer (srv : Server max) : Option (Fin max) → Server max
  | none => srv
  | some s => srv.set s { srv.sessions s with timer := true }

def receiveCreateReq (srv : Server max) (c : Channel) (r : CreateRequest) :
    Option (Server max × Answer max) :=
  if r.userTokenPolicy then
    let (srv', answer) := serverCreateSessionReqAndRespSm srv c r
    if answer.status = .ok then
      if r.timer then some (srv'.startTimer answer.session, answer)
      else
        (serverCloseSessionSm srv' answer.session).map fun closed =>
          (closed, ⟨answer.session, .badResourceUnavailable⟩)
    else some (srv', answer)
  else some (srv, ⟨none, .badServiceUnsupported⟩)

/-- An ActivateSession request, by what is decided about it outside of the session manager. -/
structure ActivateRequest where
  token : NodeId
  -- `read_activate_req_msg_identity_token`
  identityToken : Bool
  -- `allocate_authenticated_user`
  authentication : Status
  -- the user, when the authentication is a success
  user : User
  -- the security policy of the channel is not None
  secured : Bool
  -- `server_activate_session_check_crypto`
  signature : Bool
  -- `server_set_fresh_nonce`
  nonce : Bool

def Entry.activated (entry : Entry) (c : Channel) (user : User) : Entry :=
  { entry with state := .userActivated, channel := some c, user := some user }

/-- The transitory states are not seen by anyone. -/
def serverInternalActivateReqAndResp (srv : Server max) (c : Channel) (s : Fin max)
    (r : ActivateRequest) : Server max × Status :=
  if (!r.secured || r.signature) && r.nonce then
    (srv.set s ((srv.sessions s).activated c r.user), .ok)
  else (srv, .badApplicationSignatureInvalid)

/-- `SOPC_UserWithAuthorization_GetUser` asserts that the session has a user, as it does in the
states in which it is asked for. -/
def isSameUserServer : Option User → User → Bool
  | none, _ => false
  | some old, new => old.equal new

def serverActivateSessionReqAndRespSm (srv : Server max) (c : Channel) (s : Fin max)
    (r : ActivateRequest) : Server max × Status :=
  let entry := srv.sessions s
  match entry.state with
  | .created =>
    if entry.channel = some c then serverInternalActivateReqAndResp srv c s r
    else (srv, .badInvalidArgument)
  | .userActivated =>
    -- user changed XOR channel changed
    if entry.channel = some c then serverInternalActivateReqAndResp srv c s r
    else if isSameUserServer entry.user r.user then serverInternalActivateReqAndResp srv c s r
    else (srv, .badInvalidState)
  | .scOrphaned =>
    if entry.channel ≠ some c ∧ isSameUserServer entry.user r.user then
      serverInternalActivateReqAndResp srv c s r
    else (srv, .badInvalidState)
  | _ => (srv, .badInvalidState)

def State.activable : State → Bool
  | .created | .userActivated | .scOrphaned => true
  | _ => false

def receiveActivateReq (srv : Server max) (c : Channel) (r : ActivateRequest) :
    Server max × Answer max :=
  match serverGetSessionFromToken srv r.token with
  | none => (srv, ⟨none, .badSessionIdInvalid⟩)
  | some s =>
    if !(srv.sessions s).valid then (srv, ⟨some s, .badSessionIdInvalid⟩)
    else if !(srv.sessions s).state.activable then (srv.close s, ⟨some s, .badInvalidState⟩)
    else if !r.identityToken then (srv, ⟨some s, .badIdentityTokenInvalid⟩)
    else if r.authentication ≠ .ok then (srv, ⟨some s, r.authentication⟩)
    else
      let (srv', status) := serverActivateSessionReqAndRespSm srv c s r
      (srv', ⟨some s, status⟩)

def receiveCloseReq (srv : Server max) (c : Channel) (token : NodeId) : Server max × Answer max :=
  match serverGetSessionFromToken srv token with
  | none => (srv, ⟨none, .badSessionIdInvalid⟩)
  | some s =>
    let entry := srv.sessions s
    if !entry.valid then (srv, ⟨some s, .badSessionIdInvalid⟩)
    else
      match entry.state with
      | .created | .userActivating | .userActivated =>
        if entry.channel = some c then (srv.close s, ⟨some s, .ok⟩)
        else (srv.close s, ⟨some s, .badSecureChannelIdInvalid⟩)
      | _ => (srv.close s, ⟨some s, .badInvalidState⟩)

inductive Validation (max : Nat) where
  | accepted (s : Fin max)
  | refused (status : Status)
  deriving DecidableEq

/-- A session is not closed by a request on another channel. -/
def serverValidateSessionServiceReq (srv : Server max) (c : Channel) (token : NodeId) :
    Server max × Validation max :=
  match serverGetSessionFromToken srv token with
  | none => (srv, .refused .badSessionIdInvalid)
  | some s =>
    let entry := srv.sessions s
    if !entry.valid then (srv, .refused .badSessionIdInvalid)
    else if entry.state = .userActivated ∧ entry.channel = some c then (srv, .accepted s)
    else if entry.channel ≠ some c then (srv, .refused .badSecureChannelIdInvalid)
    else if entry.state = .created then (srv.close s, .refused .badSessionNotActivated)
    else (srv.close s, .refused .badInvalidState)

structure Delivery where
  -- `decode_msg_header`
  header : Bool
  -- `decode_msg`
  body : Bool
  -- `alloc_resp_msg`
  allocated : Bool
  -- `encode_msg`, or the ServiceFault it encodes instead
  encoded : Bool

inductive Output (max : Nat) where
  | silent
  | response (answer : Answer max) (sent : Bool)
  | refused (status : Status)
  | executed (s : Fin max) (user : Option User)
  deriving DecidableEq

/-- The end of `server_receive_session_treatment_req`: invalid encoding => close session. -/
def respond (sent : Bool) (srv : Server max) (answer : Answer max) :
    Option (Server max × Output max) :=
  if sent then some (srv, .response answer true)
  else (serverCloseSessionSm srv answer.session).map fun closed => (closed, .response answer false)

def serverReceiveSessionTreatmentReq (srv : Server max) (d : Delivery)
    (treat : Option (Server max × Answer max)) : Option (Server max × Output max) :=
  if d.header ∧ d.body ∧ d.allocated then
    treat.bind fun result => respond d.encoded result.1 result.2
  else some (srv, .silent)

/-- `server_receive_session_service_req`; `endpoint` is `is_valid_endpoint_config_idx`. -/
def serverReceiveSessionServiceReq (srv : Server max) (c : Channel) (token : NodeId)
    (endpoint : Bool) (d : Delivery) : Server max × Output max :=
  if !d.header then (srv, .silent)
  else
    match serverValidateSessionServiceReq srv c token with
    | (srv', .refused status) => (srv', .refused status)
    | (srv', .accepted s) =>
      if !endpoint then (srv', .refused .ok)
      else if !d.body then (srv', .refused .badDecodingError)
      else if !d.allocated then (srv', .silent)
      else (srv', .executed s (srv'.sessions s).user)

def Entry.channelLost (entry : Entry) (c : Channel) : Entry :=
  if entry.channel = some c then
    if entry.state = .userActivated then { entry with state := .scOrphaned, channel := none }
    else entry.closed
  else entry

inductive Event (max : Nat) where
  | channelConnected (c : Channel) (allowed : Bool)
  | channelLost (c : Channel)
  | sessionTimeout (s : Fin max) (expired : Bool)
  | createSession (c : Channel) (r : CreateRequest) (d : Delivery)
  | activateSession (c : Channel) (r : ActivateRequest) (d : Delivery)
  | closeSession (c : Channel) (token : NodeId) (d : Delivery)
  | serviceRequest (c : Channel) (token : NodeId) (endpoint : Bool) (d : Delivery)

def onChannel (srv : Server max) (c : Channel) (treated : Option (Server max × Output max)) :
    Option (Server max × Output max) :=
  if c ∈ srv.connected then treated else some (srv, .silent)

def step (srv : Server max) : Event max → Option (Server max × Output max)
  | .channelConnected c allowed =>
    -- `srv_new_secure_channel`
    if c ∉ srv.connected ∧ allowed then some ({ srv with connected := c :: srv.connected }, .silent)
    else some (srv, .silent)
  | .channelLost c =>
    -- `secure_channel_lost`: every session of the channel, then the channel itself
    if c ∈ srv.connected then
      some (⟨fun s => (srv.sessions s).channelLost c, srv.connected.erase c⟩, .silent)
    else some (srv, .silent)
  | .sessionTimeout s expired =>
    -- `internal_server_evaluate_session_timeout`: a session that goes on has its timer armed again
    if !(srv.sessions s).valid then some (srv, .silent)
    else if expired then some (srv.close s, .silent)
    else some (srv.startTimer (some s), .silent)
  | .createSession c r d =>
    onChannel srv c (serverReceiveSessionTreatmentReq srv d (receiveCreateReq srv c r))
  | .activateSession c r d =>
    onChannel srv c (serverReceiveSessionTreatmentReq srv d (some (receiveActivateReq srv c r)))
  | .closeSession c token d =>
    onChannel srv c (serverReceiveSessionTreatmentReq srv d (some (receiveCloseReq srv c token)))
  | .serviceRequest c token endpoint d =>
    onChannel srv c (some (serverReceiveSessionServiceReq srv c token endpoint d))

abbrev History (max : Nat) := List (Event max × Output max)

def run (events : List (Event max)) : Option (Server max × History max) :=
  Fallible.trace step (initial max) events

end Session
end S2OPC
