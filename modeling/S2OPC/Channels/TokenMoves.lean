import S2OPC.Channels.TokenRenewal

/-!
# S2OPC.Channels.TokenMoves

The tokens of both sides of a secure channel, without the queues and transports in between. An `OPN`
message keeps its place among the chunks from the time it is sent to the time it is treated. In `Inv`
the server has the tokens of the client, or is one token ahead and waits for the client.
-/

namespace S2OPC
namespace Channels
namespace Renewal

open Relation List ConnectionState

section

variable {K M Out In : Type}

def Chunk.message : Chunk K M → Option M
  | .opn m => some m
  | .symmetric _ _ => none

def opns (l : List (Chunk K M)) : List M := l.filterMap Chunk.message

@[simp] theorem opns_nil : opns ([] : List (Chunk K M)) = [] := rfl

@[simp] theorem opns_opn_cons (m : M) (l : List (Chunk K M)) : opns (.opn m :: l) = m :: opns l :=
  rfl

@[simp] theorem opns_symmetric_cons (id : Nat) (key : Option K) (l : List (Chunk K M)) :
    opns (.symmetric id key :: l) = opns l :=
  rfl

@[simp] theorem opns_append (l r : List (Chunk K M)) : opns (l ++ r) = opns l ++ opns r :=
  filterMap_append

@[simp] theorem opns_symmetricChunks (s : Side K) (chunks : Nat) :
    opns (symmetricChunks s chunks : List (Chunk K M)) = [] := by
  refine filterMap_eq_nil_iff.mpr ?_
  intro ch hch; rw [eq_of_mem_replicate hch]
  rfl

def AfterOpn (P : Chunk K M → Prop) : List (Chunk K M) → Prop
  | [] => True
  | .opn _ :: rest => ∀ ch ∈ rest, P ch
  | .symmetric _ _ :: rest => AfterOpn P rest

variable {P : Chunk K M → Prop} {l r : List (Chunk K M)}

theorem AfterOpn.of_forall (h : ∀ ch ∈ l, P ch) : AfterOpn P l := by
  induction l with
  | nil => trivial
  | cons a l ih =>
    have hl : ∀ ch ∈ l, P ch := fun ch hch => h ch (mem_cons_of_mem a hch)
    cases a with
    | opn m => exact hl
    | symmetric id key => exact ih hl

theorem AfterOpn.sublist (h : AfterOpn P l) (hs : r.Sublist l) : AfterOpn P r := by
  induction hs with
  | slnil => exact h
  | cons a hs ih =>
    cases a with
    | opn m => exact .of_forall fun ch hch => h ch (hs.subset hch)
    | symmetric id key => exact ih h
  | cons_cons a hs ih =>
    cases a with
    | opn m => exact fun ch hch => h ch (hs.subset hch)
    | symmetric id key => exact ih h

theorem AfterOpn.append (h : AfterOpn P l) (hr : ∀ ch ∈ r, P ch) : AfterOpn P (l ++ r) := by
  induction l with
  | nil => exact .of_forall hr
  | cons a l ih =>
    cases a with
    | opn m => exact forall_mem_append.mpr ⟨h, hr⟩
    | symmetric id key => exact ih h

theorem afterOpn_of_opns_eq_nil (h : opns l = []) : AfterOpn P l := by
  induction l with
  | nil => trivial
  | cons a l ih =>
    cases a with
    | opn m => cases h
    | symmetric id key => exact ih h

theorem AfterOpn.concat_opn (h : opns l = []) (m : M) : AfterOpn P (l ++ [.opn m]) := by
  induction l with
  | nil => exact fun ch hch => absurd hch not_mem_nil
  | cons a l ih =>
    cases a with
    | opn m' => cases h
    | symmetric id key => exact ih h

def Chunk.Under (tokenId : Nat) (key : Option K) : Chunk K M → Prop
  | .opn _ => True
  | .symmetric id k => id = tokenId ∧ k = key

def Keyed.Sends (k : Keyed K) (ch : Chunk K M) : Prop := ch.Under k.token.tokenId k.keys.sender

def Keyed.Reads (k : Keyed K) (ch : Chunk K M) : Prop := ch.Under k.token.tokenId k.keys.receiver

theorem sends_symmetricChunks {s : Side K} {chunks : Nat} {ch : Chunk K M}
    (h : ch ∈ symmetricChunks s chunks) :
    Keyed.Sends (if s.usesPrecedent then s.precedent else s.current) ch := by
  rw [eq_of_mem_replicate h]
  cases hprev : s.usesPrecedent with
  | false => exact ⟨by simp [Side.tokenId, hprev], by simp [Side.keySets]⟩
  | true => exact ⟨by simp [Side.tokenId, hprev], by simp [Side.keySets]⟩

structure Mirror (c s : Keyed K) : Prop where
  token : c.token = s.token
  sender : c.keys.sender = s.keys.receiver
  receiver : c.keys.receiver = s.keys.sender

variable {c s : Keyed K}

theorem Mirror.sends_iff (h : Mirror c s) (ch : Chunk K M) : c.Sends ch ↔ s.Reads ch := by
  rw [Keyed.Sends, Keyed.Reads, h.token, h.sender]

theorem Mirror.reads_iff (h : Mirror c s) (ch : Chunk K M) : c.Reads ch ↔ s.Sends ch := by
  rw [Keyed.Sends, Keyed.Reads, h.token, h.receiver]

theorem Mirror.defined_iff (h : Mirror c s) : c.Defined ↔ s.Defined := by
  rw [Keyed.Defined, Keyed.Defined, h.token]

def InternalEvent.toSend : InternalEvent Out In → Option Out
  | .sndOpn m => some m
  | _ => none

def InternalEvent.toTreat : InternalEvent Out In → Option In
  | .rcvOpn m => some m
  | _ => none

def outgoing (queue : List (InternalEvent Out In)) : List Out :=
  queue.filterMap InternalEvent.toSend

def incoming (queue : List (InternalEvent Out In)) : List In :=
  queue.filterMap InternalEvent.toTreat

def pipeline (queue : List (InternalEvent Out In)) (transport : List (Chunk K In)) :
    List (Chunk K In) :=
  (incoming queue).map .opn ++ transport

end

/-- The tokens of both sides, the nonce of the client, and for each direction the `OPN` messages
that are going to be sent and what comes before them. -/
structure View (K : Type) where
  client : Side K
  state : ConnectionState
  clientNonce : Option (List UInt8)
  server : Side K
  requestsOut : List OpnRequest
  toServer : List (Chunk K OpnRequest)
  responsesOut : List OpnResponse
  toClient : List (Chunk K OpnResponse)

section

variable {K : Type}

def Net.view (n : Net K) : View K where
  client := n.client.side
  state := n.client.state
  clientNonce := n.client.clientNonce
  server := n.server.side
  requestsOut := outgoing n.client.queue
  toServer := pipeline n.server.queue n.toServer
  responsesOut := outgoing n.server.queue
  toClient := pipeline n.client.queue n.toClient

def View.requests (v : View K) : List OpnRequest := opns v.toServer ++ v.requestsOut

def View.responses (v : View K) : List OpnResponse := opns v.toClient ++ v.responsesOut

variable (cfg : ChannelConfig K)

def Derives (clientNonce : Option (List UInt8)) (resp : OpnResponse) (new : Keyed K) : Prop :=
  ∀ derived keys, clientKeySets cfg derived clientNonce resp.serverNonce = some keys →
    keys.sender = new.keys.receiver ∧ keys.receiver = new.keys.sender

inductive Move : View K → View K → Prop
  -- chunks are treated or lost, events are treated or dropped, the client closes
  | less {v v' : View K} (hclient : v'.client = v.client) (hserver : v'.server = v.server)
      (hstate : v'.state = v.state ∧ v'.clientNonce = v.clientNonce ∨ v'.state = .closed)
      (hrequestsOut : v'.requestsOut.Sublist v.requestsOut)
      (htoServer : v'.toServer.Sublist v.toServer)
      (hresponsesOut : v'.responsesOut.Sublist v.responsesOut)
      (htoClient : v'.toClient.Sublist v.toClient) : Move v v'
  | clientMessage (v : View K) (chunks : Nat) :
      Move v { v with toServer := v.toServer ++ symmetricChunks v.client chunks }
  | serverMessage (v : View K) (chunks : Nat) :
      Move v { v with toClient := v.toClient ++ symmetricChunks v.server chunks }
  -- the client starts a renewal
  | ask (v : View K) (req : OpnRequest) (nonce : Option (List UInt8))
      (hstate : v.state = .connected) (hnonce : cfg.mode ≠ .none → nonce = some req.clientNonce) :
      Move v { v with
        state := .connectedRenew, clientNonce := nonce, requestsOut := v.requestsOut ++ [req] }
  | request (v : View K) (req : OpnRequest) (rest : List OpnRequest)
      (hout : v.requestsOut = req :: rest) :
      Move v { v with requestsOut := rest, toServer := v.toServer ++ [.opn req] }
  -- the server makes a new token
  | serverRenew (v : View K) (req : OpnRequest) (rest : List (Chunk K OpnRequest)) (new : Keyed K)
      (resp : OpnResponse) (hin : v.toServer = .opn req :: rest)
      (hfresh : new.token.tokenId ≠ v.server.current.token.tokenId)
      (htoken : new.token = ⟨resp.channelId, resp.tokenId⟩)
      (hkeys : Derives cfg (some req.clientNonce) resp new) :
      Move v { v with
        server := { v.server.renew new with serverNewSecuTokenActive := false }
        toServer := rest
        responsesOut := v.responsesOut ++ [resp] }
  | answer (v : View K) (resp : OpnResponse) (rest : List OpnResponse)
      (hout : v.responsesOut = resp :: rest) :
      Move v { v with responsesOut := rest, toClient := v.toClient ++ [.opn resp] }
  -- the client takes the new token over
  | clientRenew (v : View K) (resp : OpnResponse) (rest : List (Chunk K OpnResponse))
      (keys : KeySets K) (derived : Bool) (hin : v.toClient = .opn resp :: rest)
      (hopen : v.state ≠ .closed)
      (hchannel : resp.channelId = v.client.current.token.secureChannelId)
      (hzero : resp.tokenId ≠ 0) (hfresh : resp.tokenId ≠ v.client.current.token.tokenId)
      (hkeys : clientKeySets cfg derived v.clientNonce resp.serverNonce = some keys) :
      Move v { v with
        client := v.client.renew ⟨⟨resp.channelId, resp.tokenId⟩, keys⟩
        clientNonce := none
        state := .connected
        toClient := rest }
  -- the server receives a chunk under its current token
  | activate (v : View K) (key : Option K)
      (hin : .symmetric v.server.current.token.tokenId key ∈ v.toServer) :
      Move v { v with server := { v.server with serverNewSecuTokenActive := true } }

/-- Both sides have the same tokens, and the client may have asked for another one. -/
structure Agreed (v : View K) : Prop where
  noResponse : v.responses = []
  current : Mirror v.client.current v.server.current
  precedent : Mirror v.client.precedent v.server.precedent
  single : v.requests.length ≤ 1
  waiting : v.requests ≠ [] → v.state ≠ .connected
  nonce : v.state ≠ .closed → cfg.mode ≠ .none →
    ∀ req ∈ v.requests, v.clientNonce = some req.clientNonce
  behind : AfterOpn v.client.current.Sends v.toServer

/-- The server has a token that the client does not have yet, and may never get. Until then both
send under the current token of the client; what the server sent before it comes before the
response. -/
structure Ahead (v : View K) : Prop where
  noRequest : v.requests = []
  waiting : v.state ≠ .connected
  inactive : v.server.serverNewSecuTokenActive = false
  current : Mirror v.client.current v.server.precedent
  toServer : ∀ ch ∈ v.toServer, v.client.current.Sends ch
  single : v.responses.length ≤ 1
  token : ∀ resp ∈ v.responses, v.server.current.token = ⟨resp.channelId, resp.tokenId⟩
  keys : v.state ≠ .closed → ∀ resp ∈ v.responses,
    Derives cfg v.clientNonce resp v.server.current
  behind : AfterOpn v.client.current.Reads v.toClient

structure Inv (v : View K) : Prop where
  connected : v.state ≠ .connecting
  clientRole : v.client.isServer = false
  serverRole : v.server.isServer = true
  defined : v.client.current.Defined
  clientIds : v.client.current.token.tokenId ≠ v.client.precedent.token.tokenId
  serverIds : v.server.current.token.tokenId ≠ v.server.precedent.token.tokenId
  toServer : ∀ ch ∈ v.toServer, v.client.current.Sends ch ∨
    v.client.precedent.Defined ∧ v.client.precedent.Sends ch
  toClient : ∀ ch ∈ v.toClient, v.client.current.Reads ch ∨
    v.client.precedent.Defined ∧ v.client.precedent.Reads ch
  inactive : v.server.serverNewSecuTokenActive = false → v.server.precedent.Defined
  stage : Agreed cfg v ∨ Ahead cfg v

variable {cfg} {v v' : View K}

section Less

variable (hclient : v'.client = v.client) (hserver : v'.server = v.server)
  (hstate : v'.state = v.state ∧ v'.clientNonce = v.clientNonce ∨ v'.state = .closed)
  (htoServer : v'.toServer.Sublist v.toServer)

include hclient hserver hstate htoServer

theorem Agreed.of_less (h : Agreed cfg v) (hrequests : v'.requests.Sublist v.requests)
    (hresponses : v'.responses.Sublist v.responses) : Agreed cfg v' where
  noResponse := eq_nil_of_sublist_nil (h.noResponse ▸ hresponses)
  current := hclient ▸ hserver ▸ h.current
  precedent := hclient ▸ hserver ▸ h.precedent
  single := hrequests.length_le.trans h.single
  waiting := by
    intro hne
    rcases hstate with ⟨hs, -⟩ | hs
    · rw [hs]; refine h.waiting ?_; intro hnil; exact hne (eq_nil_of_sublist_nil (hnil ▸ hrequests))
    · rw [hs]; exact noConfusion
  nonce := by
    intro hopen hmode req hreq
    rcases hstate with ⟨hs, hn⟩ | hs
    · rw [hn]; exact h.nonce (hs ▸ hopen) hmode req (hrequests.subset hreq)
    · exact absurd hs hopen
  behind := by rw [hclient]; exact h.behind.sublist htoServer

theorem Ahead.of_less (h : Ahead cfg v) (hrequests : v'.requests.Sublist v.requests)
    (hresponses : v'.responses.Sublist v.responses) (htoClient : v'.toClient.Sublist v.toClient) :
    Ahead cfg v' where
  noRequest := eq_nil_of_sublist_nil (h.noRequest ▸ hrequests)
  waiting := by
    rcases hstate with ⟨hs, -⟩ | hs
    · rw [hs]; exact h.waiting
    · rw [hs]; exact noConfusion
  inactive := by rw [hserver]; exact h.inactive
  current := hclient ▸ hserver ▸ h.current
  toServer := by
    rw [hclient]
    exact fun ch hch => h.toServer ch (htoServer.subset hch)
  single := hresponses.length_le.trans h.single
  token := by
    rw [hserver]
    exact fun resp hresp => h.token resp (hresponses.subset hresp)
  keys := by
    intro hopen resp hresp
    rcases hstate with ⟨hs, hn⟩ | hs
    · rw [hn, hserver]; exact h.keys (hs ▸ hopen) resp (hresponses.subset hresp)
    · exact absurd hs hopen
  behind := by rw [hclient]; exact h.behind.sublist htoClient

theorem Inv.of_less (h : Inv cfg v) (hrequestsOut : v'.requestsOut.Sublist v.requestsOut)
    (hresponsesOut : v'.responsesOut.Sublist v.responsesOut)
    (htoClient : v'.toClient.Sublist v.toClient) : Inv cfg v' := by
  have hrequests : v'.requests.Sublist v.requests :=
    (htoServer.filterMap Chunk.message).append hrequestsOut
  have hresponses : v'.responses.Sublist v.responses :=
    (htoClient.filterMap Chunk.message).append hresponsesOut
  constructor
  case stage =>
    cases h.stage with
    | inl hs => exact .inl (hs.of_less hclient hserver hstate htoServer hrequests hresponses)
    | inr hs =>
      exact .inr (hs.of_less hclient hserver hstate htoServer hrequests hresponses htoClient)
  case connected =>
    rcases hstate with ⟨hs, -⟩ | hs
    · rw [hs]; exact h.connected
    · rw [hs]; exact noConfusion
  all_goals simp [hclient, hserver]
  · exact h.clientRole
  · exact h.serverRole
  · exact h.defined
  · exact h.clientIds
  · exact h.serverIds
  · exact fun ch hch => h.toServer ch (htoServer.subset hch)
  · exact fun ch hch => h.toClient ch (htoClient.subset hch)
  · exact h.inactive

end Less

variable {chunks : Nat} {req : OpnRequest} {resp : OpnResponse}

theorem Agreed.clientMessage (h : Agreed cfg v)
    (hsends : ∀ ch : Chunk K OpnRequest, ch ∈ symmetricChunks v.client chunks →
      v.client.current.Sends ch) :
    Agreed cfg { v with toServer := v.toServer ++ symmetricChunks v.client chunks } := by
  have hrequests : View.requests { v with
      toServer := v.toServer ++ symmetricChunks v.client chunks } = v.requests := by
    simp [View.requests]
  exact {
    noResponse := h.noResponse
    current := h.current
    precedent := h.precedent
    single := hrequests ▸ h.single
    waiting := hrequests ▸ h.waiting
    nonce := hrequests ▸ h.nonce
    behind := h.behind.append hsends }

theorem Ahead.clientMessage (h : Ahead cfg v)
    (hsends : ∀ ch : Chunk K OpnRequest, ch ∈ symmetricChunks v.client chunks →
      v.client.current.Sends ch) :
    Ahead cfg { v with toServer := v.toServer ++ symmetricChunks v.client chunks } where
  noRequest := by have := h.noRequest; simpa [View.requests] using this
  waiting := h.waiting
  inactive := h.inactive
  current := h.current
  toServer := forall_mem_append.mpr ⟨h.toServer, hsends⟩
  single := h.single
  token := h.token
  keys := h.keys
  behind := h.behind

theorem Inv.clientMessage (h : Inv cfg v) (chunks : Nat) :
    Inv cfg { v with toServer := v.toServer ++ symmetricChunks v.client chunks } := by
  have hsends : ∀ ch : Chunk K OpnRequest, ch ∈ symmetricChunks v.client chunks →
      v.client.current.Sends ch := by
    intro ch hch; have := sends_symmetricChunks hch
    simpa [Side.usesPrecedent, h.clientRole] using this
  exact { h with
    toServer := forall_mem_append.mpr ⟨h.toServer, fun ch hch => .inl (hsends ch hch)⟩
    stage := h.stage.imp (·.clientMessage hsends) (·.clientMessage hsends) }

theorem Inv.reads_serverMessage (h : Inv cfg v) {ch : Chunk K OpnResponse}
    (hch : ch ∈ symmetricChunks v.server chunks) :
    (v.client.current.Reads ch ∨ v.client.precedent.Defined ∧ v.client.precedent.Reads ch) ∧
      (Ahead cfg v → v.client.current.Reads ch) := by
  have hsends := sends_symmetricChunks hch
  cases hactive : v.server.serverNewSecuTokenActive with
  | true =>
    have huses : v.server.usesPrecedent = false := by simp [Side.usesPrecedent, hactive]
    rw [huses, if_neg Bool.false_ne_true] at hsends
    cases h.stage with
    | inl hs =>
      refine ⟨.inl ((hs.current.reads_iff ch).mpr hsends), ?_⟩
      intro ha; rw [ha.inactive] at hactive
      cases hactive
    | inr ha => rw [ha.inactive] at hactive; cases hactive
  | false =>
    have huses : v.server.usesPrecedent = true := by
      simp [Side.usesPrecedent, hactive, h.serverRole]
    rw [huses, if_pos rfl] at hsends
    have hahead : Ahead cfg v → v.client.current.Reads ch := fun ha =>
      (ha.current.reads_iff ch).mpr hsends
    refine ⟨?_, hahead⟩
    cases h.stage with
    | inl hs =>
      exact .inr ⟨hs.precedent.defined_iff.mpr (h.inactive hactive),
        (hs.precedent.reads_iff ch).mpr hsends⟩
    | inr ha => exact .inl (hahead ha)

theorem Inv.serverMessage (h : Inv cfg v) (chunks : Nat) :
    Inv cfg { v with toClient := v.toClient ++ symmetricChunks v.server chunks } := by
  have hresponses : View.responses { v with
      toClient := v.toClient ++ symmetricChunks v.server chunks } = v.responses := by
    simp [View.responses]
  exact { h with
    toClient := forall_mem_append.mpr
      ⟨h.toClient, fun _ hch => (h.reads_serverMessage hch).1⟩
    stage := by
      cases h.stage with
      | inl hs => exact .inl { hs with noResponse := hresponses ▸ hs.noResponse }
      | inr ha =>
        exact .inr { ha with
          single := hresponses ▸ ha.single
          token := hresponses ▸ ha.token
          keys := hresponses ▸ ha.keys
          behind := ha.behind.append fun ch hch => (h.reads_serverMessage hch).2 ha } }

theorem Inv.ask (h : Inv cfg v) {nonce : Option (List UInt8)} (hstate : v.state = .connected)
    (hnonce : cfg.mode ≠ .none → nonce = some req.clientNonce) :
    Inv cfg { v with
      state := .connectedRenew, clientNonce := nonce, requestsOut := v.requestsOut ++ [req] } := by
  cases h.stage with
  | inr ha => exact absurd hstate ha.waiting
  | inl hs =>
    have hnone : v.requests = [] := by by_contra hne; exact hs.waiting hne hstate
    have hrequests : View.requests { v with
        state := .connectedRenew, clientNonce := nonce, requestsOut := v.requestsOut ++ [req] } =
        [req] := by
      rw [View.requests, ← append_assoc]
      exact congrArg (· ++ [req]) hnone
    exact { h with
      connected := noConfusion
      stage := .inl { hs with
        single := by rw [hrequests]; exact Nat.le_refl 1
        waiting := fun _ => noConfusion
        nonce := by
          intro _ hmode req' hreq'; rw [hrequests] at hreq'
          rw [mem_singleton.mp hreq']
          exact hnonce hmode } }

theorem Inv.request (h : Inv cfg v) {rest : List OpnRequest} (hout : v.requestsOut = req :: rest) :
    Inv cfg { v with requestsOut := rest, toServer := v.toServer ++ [.opn req] } := by
  have hrequests : View.requests { v with
      requestsOut := rest, toServer := v.toServer ++ [.opn req] } = v.requests := by
    simp [View.requests, hout]
  exact { h with
    toServer := forall_mem_append.mpr
      ⟨h.toServer, forall_mem_singleton.mpr (.inl trivial)⟩
    stage := by
      cases h.stage with
      | inr ha => have := ha.noRequest; simp [View.requests, hout] at this
      | inl hs =>
        have hfirst : opns v.toServer = [] := by
          have := hs.single
          rw [View.requests, hout, length_append, length_cons] at this
          exact eq_nil_of_length_eq_zero (by omega)
        exact .inl { hs with
          single := hrequests ▸ hs.single
          waiting := hrequests ▸ hs.waiting
          nonce := hrequests ▸ hs.nonce
          behind := .concat_opn hfirst req } }

theorem Inv.answer (h : Inv cfg v) {rest : List OpnResponse}
    (hout : v.responsesOut = resp :: rest) :
    Inv cfg { v with responsesOut := rest, toClient := v.toClient ++ [.opn resp] } := by
  have hresponses : View.responses { v with
      responsesOut := rest, toClient := v.toClient ++ [.opn resp] } = v.responses := by
    simp [View.responses, hout]
  exact { h with
    toClient := forall_mem_append.mpr
      ⟨h.toClient, forall_mem_singleton.mpr (.inl trivial)⟩
    stage := by
      cases h.stage with
      | inl hs => have := hs.noResponse; simp [View.responses, hout] at this
      | inr ha =>
        have hfirst : opns v.toClient = [] := by
          have := ha.single
          rw [View.responses, hout, length_append, length_cons] at this
          exact eq_nil_of_length_eq_zero (by omega)
        exact .inr { ha with
          single := hresponses ▸ ha.single
          token := hresponses ▸ ha.token
          keys := hresponses ▸ ha.keys
          behind := .concat_opn hfirst resp } }

theorem Derives.of_none {nonce nonce' : Option (List UInt8)} {new : Keyed K}
    (hmode : cfg.mode = .none) (h : Derives cfg nonce resp new) : Derives cfg nonce' resp new := by
  intro derived keys hkeys; refine h derived keys ?_
  rw [← hkeys, clientKeySets, clientKeySets, if_pos hmode, if_pos hmode]

/-- All that comes after the request is under the current token of the client, which the server
keeps as its precedent one. -/
theorem Inv.serverRenew (h : Inv cfg v) {rest : List (Chunk K OpnRequest)} {new : Keyed K}
    (hin : v.toServer = .opn req :: rest)
    (hfresh : new.token.tokenId ≠ v.server.current.token.tokenId)
    (htoken : new.token = ⟨resp.channelId, resp.tokenId⟩)
    (hkeys : Derives cfg (some req.clientNonce) resp new) :
    Inv cfg { v with
      server := { v.server.renew new with serverNewSecuTokenActive := false }
      toServer := rest
      responsesOut := v.responsesOut ++ [resp] } := by
  cases h.stage with
  | inr ha => have := ha.noRequest; simp [View.requests, hin] at this
  | inl hs =>
    have hsplit : v.requests = req :: (opns rest ++ v.requestsOut) := by simp [View.requests, hin]
    have hrest : opns rest ++ v.requestsOut = [] := by
      have := hs.single
      rw [hsplit, length_cons] at this
      exact eq_nil_of_length_eq_zero (by omega)
    have hne : v.requests ≠ [] := by rw [hsplit]; exact cons_ne_nil _ _
    have hbehind : ∀ ch ∈ rest, v.client.current.Sends ch := by
      have := hs.behind
      rw [hin] at this
      exact this
    have hresponses : View.responses { v with
        server := { v.server.renew new with serverNewSecuTokenActive := false }
        toServer := rest
        responsesOut := v.responsesOut ++ [resp] } = [resp] := by
      rw [View.responses, ← append_assoc]
      exact congrArg (· ++ [resp]) hs.noResponse
    have hnoOpn : opns v.toClient = [] := (append_eq_nil_iff.mp hs.noResponse).1
    exact { h with
      serverIds := hfresh
      toServer := fun ch hch => .inl (hbehind ch hch)
      inactive := fun _ => hs.current.defined_iff.mp h.defined
      stage := .inr {
        noRequest := hrest
        waiting := hs.waiting hne
        inactive := rfl
        current := hs.current
        toServer := hbehind
        single := by rw [hresponses]; exact Nat.le_refl 1
        token := by
          intro resp' hresp'; rw [hresponses] at hresp'
          rw [mem_singleton.mp hresp']
          exact htoken
        keys := by
          intro hopen resp' hresp'; rw [hresponses] at hresp'
          rw [mem_singleton.mp hresp']
          by_cases hmode : cfg.mode = .none
          · exact hkeys.of_none hmode
          · show Derives cfg v.clientNonce resp new
            rw [hs.nonce hopen hmode req (by rw [hsplit]; exact mem_cons_self)]
            exact hkeys
        behind := afterOpn_of_opns_eq_nil hnoOpn } }

/-- All that comes after the response is under the token that becomes the precedent one. -/
theorem Inv.clientRenew (h : Inv cfg v) {rest : List (Chunk K OpnResponse)} {keys : KeySets K}
    {derived : Bool} (hin : v.toClient = .opn resp :: rest) (hopen : v.state ≠ .closed)
    (hchannel : resp.channelId = v.client.current.token.secureChannelId)
    (hzero : resp.tokenId ≠ 0) (hfresh : resp.tokenId ≠ v.client.current.token.tokenId)
    (hkeys : clientKeySets cfg derived v.clientNonce resp.serverNonce = some keys) :
    Inv cfg { v with
      client := v.client.renew ⟨⟨resp.channelId, resp.tokenId⟩, keys⟩
      clientNonce := none
      state := .connected
      toClient := rest } := by
  cases h.stage with
  | inl hs => have := hs.noResponse; simp [View.responses, hin] at this
  | inr ha =>
    have hsplit : v.responses = resp :: (opns rest ++ v.responsesOut) := by
      simp [View.responses, hin]
    have hmem : resp ∈ v.responses := by rw [hsplit]; exact mem_cons_self
    have hrest : opns rest ++ v.responsesOut = [] := by
      have := ha.single
      rw [hsplit, length_cons] at this
      exact eq_nil_of_length_eq_zero (by omega)
    have hbehind : ∀ ch ∈ rest, v.client.current.Reads ch := by
      have := ha.behind
      rw [hin] at this
      exact this
    have hderived := ha.keys hopen resp hmem derived keys hkeys
    have hnoOpn : opns v.toServer = [] := (append_eq_nil_iff.mp ha.noRequest).1
    exact { h with
      connected := noConfusion
      defined := ⟨hzero, hchannel ▸ h.defined.2⟩
      clientIds := hfresh
      toServer := fun ch hch => .inr ⟨h.defined, ha.toServer ch hch⟩
      toClient := fun ch hch => .inr ⟨h.defined, hbehind ch hch⟩
      stage := .inl {
        noResponse := hrest
        current := ⟨(ha.token resp hmem).symm, hderived.1, hderived.2⟩
        precedent := ha.current
        single := by
          show v.requests.length ≤ 1
          rw [ha.noRequest]
          exact Nat.zero_le 1
        waiting := fun hne => absurd ha.noRequest hne
        nonce := by
          intro _ _ req hreq; have hreq' : req ∈ v.requests := hreq
          rw [ha.noRequest] at hreq'
          exact absurd hreq' not_mem_nil
        behind := afterOpn_of_opns_eq_nil hnoOpn } }

/-- As long as the server is ahead, nothing comes under its new token. -/
theorem Inv.activate (h : Inv cfg v) {key : Option K}
    (hin : .symmetric v.server.current.token.tokenId key ∈ v.toServer) :
    Inv cfg { v with server := { v.server with serverNewSecuTokenActive := true } } := by
  cases h.stage with
  | inr ha =>
    have hid : v.server.current.token.tokenId = v.client.current.token.tokenId :=
      (ha.toServer _ hin).1
    rw [ha.current.token] at hid
    exact absurd hid h.serverIds
  | inl hs =>
    exact { h with
      inactive := by intro hfalse; cases hfalse
      stage := .inl { hs with } }

theorem Inv.move (h : Inv cfg v) (hmove : Move cfg v v') : Inv cfg v' := by
  cases hmove with
  | less hclient hserver hstate hrequestsOut htoServer hresponsesOut htoClient =>
    exact h.of_less hclient hserver hstate htoServer hrequestsOut hresponsesOut htoClient
  | clientMessage chunks => exact h.clientMessage chunks
  | serverMessage chunks => exact h.serverMessage chunks
  | ask req nonce hstate hnonce => exact h.ask hstate hnonce
  | request req rest hout => exact h.request hout
  | serverRenew req rest new resp hin hfresh htoken hkeys =>
    exact h.serverRenew hin hfresh htoken hkeys
  | answer resp rest hout => exact h.answer hout
  | clientRenew resp rest keys derived hin hopen hchannel hzero hfresh hkeys =>
    exact h.clientRenew hin hopen hchannel hzero hfresh hkeys
  | activate key hin => exact h.activate hin

theorem Inv.moves (h : Inv cfg v) (hmoves : ReflTransGen (Move cfg) v v') : Inv cfg v' := by
  induction hmoves with
  | refl => exact h
  | tail _ hmove ih => exact ih.move hmove

end

end Renewal
end Channels
end S2OPC
