import S2OPC.Channels.TokenMoves

/-!
# S2OPC.Channels.TokenAgreement

Both sides of a secure channel agree on the tokens of the chunks between them, through any number of
renewals: a step of the model is made of moves (`step_moves`), so what holds after the first exchange
and is kept by moves holds in every state (`run_inv`).
-/

namespace S2OPC
namespace Channels
namespace Renewal

open Relation List Option Client

section

variable {K M Out In : Type}

@[simp] theorem outgoing_sndOpn (m : Out) (q : List (InternalEvent Out In)) :
    outgoing (.sndOpn m :: q) = m :: outgoing q :=
  rfl

@[simp] theorem outgoing_sndMsg (q : List (InternalEvent Out In)) :
    outgoing (.sndMsg :: q) = outgoing q :=
  rfl

@[simp] theorem outgoing_rcvOpn (m : In) (q : List (InternalEvent Out In)) :
    outgoing (.rcvOpn m :: q) = outgoing q :=
  rfl

@[simp] theorem outgoing_append (q r : List (InternalEvent Out In)) :
    outgoing (q ++ r) = outgoing q ++ outgoing r :=
  filterMap_append

@[simp] theorem outgoing_nil : outgoing ([] : List (InternalEvent Out In)) = [] := rfl

@[simp] theorem incoming_sndOpn (m : Out) (q : List (InternalEvent Out In)) :
    incoming (.sndOpn m :: q) = incoming q :=
  rfl

@[simp] theorem incoming_sndMsg (q : List (InternalEvent Out In)) :
    incoming (.sndMsg :: q) = incoming q :=
  rfl

@[simp] theorem incoming_rcvOpn (m : In) (q : List (InternalEvent Out In)) :
    incoming (.rcvOpn m :: q) = m :: incoming q :=
  rfl

@[simp] theorem incoming_append (q r : List (InternalEvent Out In)) :
    incoming (q ++ r) = incoming q ++ incoming r :=
  filterMap_append

@[simp] theorem incoming_nil : incoming ([] : List (InternalEvent Out In)) = [] := rfl

theorem pipeline_append (q : List (InternalEvent Out In)) (l r : List (Chunk K In)) :
    pipeline q (l ++ r) = pipeline q l ++ r :=
  (append_assoc _ l r).symm

theorem pipeline_opn (q : List (InternalEvent Out In)) (m : In) (l : List (Chunk K In)) :
    pipeline (q ++ [.rcvOpn m]) l = pipeline q (.opn m :: l) := by
  simp [pipeline]

theorem pipeline_tail (q : List (InternalEvent Out In)) (ch : Chunk K In) (l : List (Chunk K In)) :
    (pipeline q l).Sublist (pipeline q (ch :: l)) :=
  (List.Sublist.refl _).append (sublist_cons_self ch l)

theorem mem_pipeline (q : List (InternalEvent Out In)) (ch : Chunk K In) (l : List (Chunk K In)) :
    ch ∈ pipeline q (ch :: l) :=
  mem_append.mpr (.inr mem_cons_self)

variable {cfg : ChannelConfig K} {n : Net K}

variable {v : View K} {env : RequestEnv} {s : Side K} {key : Option K}

theorem moves_less {w v' : View K} (hmoves : ReflTransGen (Move cfg) v w)
    (hclient : v'.client = w.client) (hserver : v'.server = w.server)
    (hstate : v'.state = w.state ∧ v'.clientNonce = w.clientNonce ∨ v'.state = .closed)
    (hrequestsOut : v'.requestsOut.Sublist w.requestsOut)
    (htoServer : v'.toServer.Sublist w.toServer)
    (hresponsesOut : v'.responsesOut.Sublist w.responsesOut)
    (htoClient : v'.toClient.Sublist w.toClient) : ReflTransGen (Move cfg) v v' :=
  hmoves.tail (.less hclient hserver hstate hrequestsOut htoServer hresponsesOut htoClient)

theorem closeClient_moves (n : Net K) (cloSent : Bool) :
    ReflTransGen (Move cfg) n.view (n.closeClient cloSent).view := by
  refine moves_less (.single (.clientMessage n.view cloSent.toNat)) rfl rfl (.inr rfl)
    (.refl _) ?_ (.refl _) (.refl _)
  show (pipeline n.server.queue (n.toServer ++ _)).Sublist _
  rw [pipeline_append]
  exact .refl _

theorem receiveOPN_cases (cfg : ChannelConfig K) (env : ResponseEnv) (channelId : Nat)
    (resp : OpnResponse) (c : Client K) :
    (∃ nonce, c.receiveOPN cfg env true channelId resp = (false, { c with clientNonce := nonce })) ∨
      ∃ keys, clientKeySets cfg env.derived c.clientNonce resp.serverNonce = some keys ∧
        resp.channelId = c.side.current.token.secureChannelId ∧ resp.tokenId ≠ 0 ∧
        resp.tokenId ≠ c.side.current.token.tokenId ∧
        c.receiveOPN cfg env true channelId resp = (env.timerStarted,
          { c with
            side := c.side.renew ⟨⟨resp.channelId, resp.tokenId⟩, keys⟩
            clientNonce := none }) := by
  unfold receiveOPN
  split
  · exact .inl ⟨c.clientNonce, rfl⟩
  split
  · exact .inl ⟨c.clientNonce, rfl⟩
  rename_i hids; obtain ⟨-, hids⟩ := not_or.mp hids
  simp only [refusesIds, if_true, Bool.or_eq_true, bne_iff_ne, beq_iff_eq, not_or,
    not_not, ne_eq] at hids
  cases hkeys : clientKeySets cfg env.derived c.clientNonce resp.serverNonce with
  | none => exact .inl ⟨none, rfl⟩
  | some keys => exact .inr ⟨keys, rfl, hids.1.1, hids.1.2, hids.2, rfl⟩

variable {resp : OpnResponse} {tokenId : Nat}

variable {channelId attempts : Nat} {derived prev : Bool} {clientNonce serverNonce : List UInt8}
  {client server : KeySets K} {req : OpnRequest} {new : Keyed K} {s' : Side K} {c c' : Client K}

theorem clientSideOpen_moves {env : ResponseEnv} {cloSent : Bool}
    (hstate : n.client.state ≠ .connecting) (hopen : n.client.state ≠ .closed)
    (hv : v = { n.view with toClient := .opn resp :: n.view.toClient }) :
    ReflTransGen (Move cfg) v (n.clientSideOpen cfg env cloSent channelId resp).view := by
  have hless : ReflTransGen (Move cfg) v n.view := by
    subst hv
    exact .single (.less rfl rfl (.inl ⟨rfl, rfl⟩) (.refl _) (.refl _) (.refl _)
      (sublist_cons_self _ _))
  unfold Net.clientSideOpen
  split
  · rename_i hrenew; have hrenew : n.client.state = .connectedRenew := hrenew.resolve_left hstate
    rw [hrenew]
    rcases receiveOPN_cases cfg env channelId resp n.client with
      ⟨nonce, hrefused⟩ | ⟨keys, hkeys, hchannel, hzero, hfresh, htaken⟩
    · simp only [beq_self_eq_true, hrefused, Bool.false_eq_true, if_false]
      refine moves_less (hless.trans (closeClient_moves n cloSent)) rfl rfl (.inr rfl)
        (.refl _) (.refl _) (.refl _) (.refl _)
    · simp only [beq_self_eq_true, htaken]
      have hmove : Move cfg v _ := .clientRenew v resp n.view.toClient keys env.derived
        (by rw [hv]) (by rw [hv]; exact hopen) (by rw [hv]; exact hchannel) hzero
        (by rw [hv]; exact hfresh) (by rw [hv]; exact hkeys)
      subst hv
      split
      · exact .single hmove
      exact moves_less ((ReflTransGen.single hmove).trans (closeClient_moves
        { n with
          client := { n.client with
            side := n.client.side.renew ⟨⟨resp.channelId, resp.tokenId⟩, keys⟩
            clientNonce := none
            state := .connected } } cloSent)) rfl rfl (.inr rfl)
        (.refl _) (.refl _) (.refl _) (.refl _)
  · exact hless.trans (closeClient_moves n cloSent)

theorem treatClientEvent_moves (chunks : Nat) (sent : Bool) (env : ResponseEnv) (cloSent : Bool)
    (hstate : n.client.state ≠ .connecting) (hopen : n.client.state ≠ .closed) :
    ReflTransGen (Move cfg) n.view (n.treatClientEvent cfg chunks sent env cloSent).view := by
  unfold Net.treatClientEvent
  cases hqueue : n.client.queue with
  | nil => exact .refl
  | cons event queue =>
    have hless : (outgoing queue).Sublist n.view.requestsOut := by
      show (outgoing queue).Sublist (outgoing n.client.queue)
      rw [hqueue]
      exact (sublist_cons_self event queue).filterMap _
    have hpop : ∀ pop, pop = Net.view { n with client := { n.client with queue } } →
        pop.toClient = n.view.toClient → ReflTransGen (Move cfg) n.view pop := by
      rintro pop rfl hin
      exact .single (.less rfl rfl (.inl ⟨rfl, rfl⟩) hless (.refl _) (.refl _)
        (hin ▸ List.Sublist.refl _))
    cases event with
    | sndOpn req =>
      have hin : pipeline queue n.toClient = n.view.toClient := by simp [Net.view, hqueue, pipeline]
      cases sent with
      | true =>
        have hmove : Move cfg n.view _ := .request n.view req (outgoing queue)
          (by simp [Net.view, hqueue])
        refine moves_less (.single hmove) rfl rfl (.inl ⟨rfl, rfl⟩) (.refl _) ?_ (.refl _) ?_
        · show (pipeline n.server.queue (n.toServer ++ [.opn req])).Sublist _
          rw [pipeline_append]
          exact .refl _
        · exact hin ▸ List.Sublist.refl _
      | false => exact (hpop _ rfl hin).trans (closeClient_moves _ cloSent)
    | sndMsg =>
      have hin : pipeline queue n.toClient = n.view.toClient := by simp [Net.view, hqueue, pipeline]
      have hsend : ReflTransGen (Move cfg) n.view (Net.view { n with
          client := { n.client with queue }
          toServer := n.toServer ++ symmetricChunks n.client.side chunks }) := by
        refine moves_less (.single (.clientMessage n.view chunks)) rfl rfl (.inl ⟨rfl, rfl⟩)
          hless ?_ (.refl _) (hin ▸ List.Sublist.refl _)
        show (pipeline n.server.queue (n.toServer ++ _)).Sublist _
        rw [pipeline_append]
        exact .refl _
      cases sent with
      | true => exact hsend
      | false => exact hsend.trans (closeClient_moves _ cloSent)
    | rcvOpn resp =>
      exact clientSideOpen_moves (n := { n with client := { n.client with queue } }) hstate hopen
        (by simp [Net.view, hqueue, pipeline])

theorem generateFreshTokenId_not_mem {occupied : List Nat} {draw : Nat → Option Nat}
    (h : generateFreshTokenId occupied draw attempts ≠ 0) :
    generateFreshTokenId occupied draw attempts ∉ occupied := by
  fun_induction generateFreshTokenId occupied draw attempts with
  | case1 => exact absurd rfl h
  | case2 attempts hdraw ih => exact ih h
  | case3 attempts id hdraw hid => exact hid.2
  | case4 attempts id hdraw hid ih => exact ih h

theorem deriveSymmetricKeySets_mirror {provider : KeyDerivation K} {derived' : Bool}
        (hclient : deriveSymmetricKeySets provider false derived clientNonce serverNonce = some client)
    (hserver : deriveSymmetricKeySets provider true derived' clientNonce serverNonce =
      some server) :
    client.sender = server.receiver ∧ client.receiver = server.sender := by
  unfold deriveSymmetricKeySets at hclient hserver
  split at hclient
  · cases hclient
  rename_i hlength; rw [if_neg hlength] at hserver
  split at hclient
  · cases hclient
  · split at hserver
    · cases hserver
    · cases hclient; cases hserver; exact ⟨rfl, rfl⟩

theorem serverKeySets_mirror
    (h : serverKeySets cfg env clientNonce = some (server, serverNonce))
    (hclient : clientKeySets cfg derived (some clientNonce) serverNonce = some client) :
    client.sender = server.receiver ∧ client.receiver = server.sender := by
  unfold serverKeySets at h
  unfold clientKeySets at hclient
  by_cases hmode : cfg.mode = .none
  · rw [if_pos hmode] at h hclient; cases h; cases hclient; exact ⟨rfl, rfl⟩
  rw [if_neg hmode] at h hclient
  obtain ⟨nonce, -, hserver⟩ := bind_eq_some_iff.mp h
  obtain ⟨keys, hserver, heq⟩ := map_eq_some_iff.mp hserver
  cases heq
  split at hclient
  · cases hclient
  · exact deriveSymmetricKeySets_mirror hclient hserver

theorem issued_spec {t : SecurityToken}
    (h : ((serverKeySets cfg env req.clientNonce).bind fun (keys, serverNonce) =>
      if env.encoded = false then none
      else some (⟨t, keys⟩, ⟨req.requestHandle, 0, cfg.protocolVersion, t.secureChannelId, t.tokenId,
        serverNonce⟩)) = some (new, resp)) :
    new.token = t ∧ new.token = ⟨resp.channelId, resp.tokenId⟩ ∧
      Derives cfg (some req.clientNonce) resp new := by
  obtain ⟨⟨keys, serverNonce⟩, hkeys, h⟩ := bind_eq_some_iff.mp h
  dsimp only at h
  split at h
  · cases h
  · cases h; exact ⟨rfl, rfl, fun derived client hclient => serverKeySets_mirror hkeys hclient⟩

theorem newToken_spec {current : SecurityToken}
    (h : newToken cfg env current req = some (new, resp)) :
    (new.token.secureChannelId = current.secureChannelId ∧ new.token.tokenId ≠ 0 ∧
        new.token.tokenId ∉ current.tokenId :: env.others.map (·.tokenId)) ∧
      new.token = ⟨resp.channelId, resp.tokenId⟩ ∧ Derives cfg (some req.clientNonce) resp new := by
  unfold newToken at h
  split at h
  · cases h
  dsimp only at h
  split at h
  · cases h
  rename_i hid; obtain ⟨htoken, hrest⟩ := issued_spec (t := ⟨current.secureChannelId, _⟩) h
  refine ⟨?_, hrest⟩
  rw [htoken]
  exact ⟨rfl, hid, generateFreshTokenId_not_mem hid⟩

theorem treatServerEvent_moves (chunks : Nat) (sent : Bool) (env : RequestEnv) :
    ReflTransGen (Move cfg) n.view (n.treatServerEvent cfg chunks sent env).view := by
  unfold Net.treatServerEvent
  cases hqueue : n.server.queue with
  | nil => exact .refl
  | cons event queue =>
    have hless : (outgoing queue).Sublist n.view.responsesOut := by
      show (outgoing queue).Sublist (outgoing n.server.queue)
      rw [hqueue]
      exact (sublist_cons_self event queue).filterMap _
    have hin : (pipeline queue n.toServer).Sublist n.view.toServer := by
      show (pipeline queue n.toServer).Sublist (pipeline n.server.queue n.toServer)
      rw [hqueue]
      exact (((sublist_cons_self event queue).filterMap _).map _).append (.refl _)
    have hpop : ReflTransGen (Move cfg) n.view
        (Net.view { n with server := { n.server with queue } }) :=
      .single (.less rfl rfl (.inl ⟨rfl, rfl⟩) (.refl _) hin hless (.refl _))
    cases event with
    | sndOpn resp =>
      cases sent with
      | true =>
        have hmove : Move cfg n.view _ := .answer n.view resp (outgoing queue)
          (by simp [Net.view, hqueue])
        refine moves_less (.single hmove) rfl rfl (.inl ⟨rfl, rfl⟩) (.refl _) hin (.refl _) ?_
        show (pipeline n.client.queue (n.toClient ++ [.opn resp])).Sublist _
        rw [pipeline_append]
        exact .refl _
      | false => exact hpop
    | sndMsg =>
      have hsend : ReflTransGen (Move cfg) n.view (Net.view { n with
          server := { n.server with queue }
          toClient := n.toClient ++ symmetricChunks n.server.side chunks }) := by
        refine moves_less (.single (.serverMessage n.view chunks)) rfl rfl (.inl ⟨rfl, rfl⟩)
          (.refl _) hin hless ?_
        show (pipeline n.client.queue (n.toClient ++ _)).Sublist _
        rw [pipeline_append]
        exact .refl _
      cases sent with
      | true => exact hsend
      | false => exact hsend
    | rcvOpn req =>
      show ReflTransGen (Move cfg) n.view (Net.view { n with
        server := Server.serverSideOpen cfg env req { n.server with queue } })
      unfold Server.serverSideOpen
      split
      · exact hpop
      cases hnew : newToken cfg env n.server.side.current.token req with
      | none => exact hpop
      | some r =>
        obtain ⟨new, resp⟩ := r
        obtain ⟨hfresh, htoken, hkeys⟩ := newToken_spec hnew
        have hmove : Move cfg n.view _ := .serverRenew n.view req (pipeline queue n.toServer) new
          resp (by simp [Net.view, hqueue, pipeline]) (ne_of_not_mem_cons hfresh.2.2) htoken hkeys
        refine moves_less (.single hmove) rfl rfl (.inl ⟨rfl, rfl⟩) (.refl _) ?_ ?_ (.refl _)
        · simp [Net.view, pipeline]
        · simp [Net.view, hqueue]

theorem checkToken_client (hrole : s.isServer = false)
    (h : s.checkToken tokenId = some (prev, s')) : s' = s := by
  obtain ⟨isServer, current, precedent, active⟩ := s
  cases hrole; unfold Side.checkToken at h
  split at h
  · cases h; rfl
  · split at h
    · cases h; rfl
    · cases h

theorem checkToken_server (hrole : s.isServer = true)
    (h : s.checkToken tokenId = some (prev, s')) :
    s' = s ∨ s.current.token.tokenId = tokenId ∧
      s' = { s with serverNewSecuTokenActive := true } := by
  obtain ⟨isServer, current, precedent, active⟩ := s
  cases hrole; unfold Side.checkToken at h
  split at h
  · rename_i hid; cases h; exact .inr ⟨hid, rfl⟩
  · split at h
    · cases h; exact .inl rfl
    · cases h

theorem treatClientChunk_moves (hrole : n.client.side.isServer = false)
    (ignoreExpired refused cloSent : Bool) :
    ReflTransGen (Move cfg) n.view (n.treatClientChunk ignoreExpired refused cloSent).view := by
  unfold Net.treatClientChunk
  cases hchunks : n.toClient with
  | nil => exact .refl
  | cons chunk rest =>
    have hpop : ReflTransGen (Move cfg) n.view (Net.view { n with toClient := rest }) := by
      refine .single (.less rfl rfl (.inl ⟨rfl, rfl⟩) (.refl _) (.refl _) (.refl _) ?_)
      show (pipeline n.client.queue rest).Sublist (pipeline n.client.queue n.toClient)
      rw [hchunks]
      exact pipeline_tail n.client.queue chunk rest
    cases chunk with
    | opn resp =>
      dsimp only
      split
      · exact hpop.trans (closeClient_moves _ cloSent)
      split
      · exact hpop
      refine .single (.less rfl rfl (.inl ⟨rfl, rfl⟩) ?_ (.refl _) (.refl _) ?_)
      · simp [Net.view]
      · show (pipeline (n.client.queue ++ [.rcvOpn resp]) rest).Sublist
          (pipeline n.client.queue n.toClient)
        rw [pipeline_opn, hchunks]
    | symmetric tokenId key =>
      dsimp only
      cases hcheck : n.client.side.checkToken tokenId with
      | none => exact hpop.trans (closeClient_moves _ cloSent)
      | some found =>
        obtain ⟨prev, side⟩ := found
        have hside : side = n.client.side := checkToken_client hrole hcheck
        subst hside; dsimp only
        split
        · exact hpop.trans (closeClient_moves _ cloSent)
        · exact hpop

theorem treatServerChunk_moves (hrole : n.server.side.isServer = true) (refused : Bool) :
    ReflTransGen (Move cfg) n.view (n.treatServerChunk refused).view := by
  unfold Net.treatServerChunk
  cases hchunks : n.toServer with
  | nil => exact .refl
  | cons chunk rest =>
    have htail : (pipeline n.server.queue rest).Sublist n.view.toServer := by
      show (pipeline n.server.queue rest).Sublist (pipeline n.server.queue n.toServer)
      rw [hchunks]
      exact pipeline_tail n.server.queue chunk rest
    have hpop : ReflTransGen (Move cfg) n.view (Net.view { n with toServer := rest }) :=
      .single (.less rfl rfl (.inl ⟨rfl, rfl⟩) (.refl _) htail (.refl _) (.refl _))
    cases chunk with
    | opn req =>
      dsimp only
      split
      · exact hpop
      refine .single (.less rfl rfl (.inl ⟨rfl, rfl⟩) (.refl _) ?_ ?_ (.refl _))
      · show (pipeline (n.server.queue ++ [.rcvOpn req]) rest).Sublist
          (pipeline n.server.queue n.toServer)
        rw [pipeline_opn, hchunks]
      · simp [Net.view]
    | symmetric tokenId key =>
      dsimp only
      cases hcheck : n.server.side.checkToken tokenId with
      | none => exact hpop
      | some found =>
        obtain ⟨prev, side⟩ := found
        have hfound : ReflTransGen (Move cfg) n.view (Net.view { n with
            server := { n.server with side }, toServer := rest }) := by
          rcases checkToken_server hrole hcheck with rfl | ⟨hid, rfl⟩
          · exact hpop
          refine moves_less (.single (.activate n.view key ?_)) rfl rfl (.inl ⟨rfl, rfl⟩)
            (.refl _) htail (.refl _) (.refl _)
          show Chunk.symmetric n.server.side.current.token.tokenId key ∈
            pipeline n.server.queue n.toServer
          rw [hid, hchunks]
          exact mem_pipeline n.server.queue _ rest
        dsimp only
        split
        · exact hfound
        · exact hfound

theorem sendOPN_spec {encoded : Bool} {nonce : Option (List UInt8)} {isRenewal : Bool}
    (h : c.sendOPN cfg isRenewal encoded nonce = some c') :
    ∃ req nonce', c' = { c with clientNonce := nonce', queue := c.queue ++ [.sndOpn req] } ∧
      (cfg.mode ≠ .none → nonce' = some req.clientNonce) := by
  unfold sendOPN at h
  split at h
  · cases h
  · split at h
    · rename_i hmode; cases h; exact ⟨_, c.clientNonce, rfl, fun hne => absurd hmode hne⟩
    · obtain ⟨nonce, -, heq⟩ := map_eq_some_iff.mp h
      cases heq; exact ⟨_, some nonce, rfl, fun _ => rfl⟩

theorem step_moves (hclient : n.client.side.isServer = false)
    (hserver : n.server.side.isServer = true) (hstate : n.client.state ≠ .connecting)
    (e : NetEvent) : ReflTransGen (Move cfg) n.view (n.step cfg e).view := by
  rw [Net.step.eq_def]
  cases e with
  | renewTimer nonce encoded cloSent =>
    dsimp only
    split
    · rename_i hconnected
      cases hsend : n.client.sendOPN cfg true encoded nonce with
      | none => exact closeClient_moves n cloSent
      | some client =>
        obtain ⟨req, nonce', rfl, hnonce⟩ := sendOPN_spec hsend
        refine moves_less (.single (.ask n.view req nonce' hconnected hnonce)) rfl rfl
          (.inl ⟨rfl, rfl⟩) ?_ (.refl _) (.refl _) ?_
        · simp [Net.view]
        · simp [Net.view, pipeline]
    · exact .refl
  | clientMessage =>
    dsimp only
    split
    · exact .refl
    · refine .single (.less rfl rfl (.inl ⟨rfl, rfl⟩) ?_ (.refl _) (.refl _) ?_)
      · simp [Net.view]
      · simp [Net.view, pipeline]
  | serverMessage =>
    dsimp only
    split
    · exact .refl
    · refine .single (.less rfl rfl (.inl ⟨rfl, rfl⟩) (.refl _) ?_ ?_ (.refl _))
      · simp [Net.view, pipeline]
      · simp [Net.view]
  | clientInternal chunks sent env cloSent =>
    dsimp only
    split
    · exact .refl
    · rename_i hopen; exact treatClientEvent_moves chunks sent env cloSent hstate hopen
  | serverInternal chunks sent env =>
    dsimp only
    split
    · exact .refl
    · exact treatServerEvent_moves chunks sent env
  | clientChunk ignoreExpired refused cloSent =>
    dsimp only
    split
    · exact .refl
    · exact treatClientChunk_moves hclient ignoreExpired refused cloSent
  | serverChunk refused =>
    dsimp only
    split
    · exact .refl
    · exact treatServerChunk_moves hserver refused
  | clientClosed cloSent =>
    dsimp only
    split
    · exact .refl
    · exact closeClient_moves n cloSent
  | serverClosed => exact .refl

theorem generateFreshIds_not_mem {occupied : List SecurityToken}
    {drawChannel drawToken : Nat → Option Nat} {found : SecurityToken}
    (hfound : found.secureChannelId ≠ 0 → found.secureChannelId ∉ occupied.map (·.secureChannelId))
    (h : (generateFreshIds occupied drawChannel drawToken attempts found).secureChannelId ≠ 0) :
    (generateFreshIds occupied drawChannel drawToken attempts found).secureChannelId ∉
      occupied.map (·.secureChannelId) := by
  fun_induction generateFreshIds occupied drawChannel drawToken attempts found with
  | case1 found => exact hfound h
  | case2 attempts found hdone => exact hfound h
  | case3 attempts found hdone channelId tokenId hchannel htoken ih =>
    refine ih ?_ h
    split
    · dsimp only
      split
      · exact hfound
      · rename_i hnew; exact fun _ => hnew
    · exact hfound
  | case4 attempts found hdone hdraw ih => exact ih hfound h

theorem firstToken_spec {first : Keyed K}
    (h : firstToken cfg env req = some (first, resp)) :
    (first.Defined ∧ first.token.secureChannelId ∉ env.others.map (·.secureChannelId)) ∧
      first.token = ⟨resp.channelId, resp.tokenId⟩ ∧
      Derives cfg (some req.clientNonce) resp first := by
  unfold firstToken at h
  split at h
  · cases h
  dsimp only at h
  split at h
  · cases h
  rename_i hids; obtain ⟨hchannel, hid⟩ := not_or.mp hids
  obtain ⟨htoken, hrest⟩ := issued_spec h
  refine ⟨?_, hrest⟩
  unfold Keyed.Defined
  rw [htoken]
  exact ⟨⟨hid, hchannel⟩, generateFreshIds_not_mem (fun h => absurd rfl h) hchannel⟩

theorem receiveOPN_first {env : ResponseEnv}
    (h : c.receiveOPN cfg env false channelId resp = (true, c')) :
    ∃ keys, clientKeySets cfg env.derived c.clientNonce resp.serverNonce = some keys ∧
      c' = { c with
        side := { c.side with current := ⟨⟨resp.channelId, resp.tokenId⟩, keys⟩ }
        clientNonce := none } := by
  unfold receiveOPN at h
  split at h
  · cases h
  split at h
  · cases h
  · cases hkeys : clientKeySets cfg env.derived c.clientNonce resp.serverNonce with
    | none => rw [hkeys] at h; cases h
    | some keys => rw [hkeys] at h; refine ⟨keys, rfl, ?_⟩; exact (congrArg Prod.snd h).symm

theorem opened_inv {env : OpenEnv} (h : Net.opened cfg env = some n) : Inv cfg n.view := by
  obtain ⟨client, hsend, h⟩ := bind_eq_some_iff.mp h
  obtain ⟨req, nonce, rfl, hnonce⟩ := sendOPN_spec hsend
  simp only [start, nil_append] at h
  split at h
  · cases h
  obtain ⟨⟨first, resp⟩, hfirst, h⟩ := bind_eq_some_iff.mp h
  obtain ⟨⟨hdefined, -⟩, htoken, hkeys⟩ := firstToken_spec hfirst
  simp only [Net.clientSideOpen, true_or, if_true] at h
  have hstate : (ConnectionState.connecting == ConnectionState.connectedRenew) = false := rfl
  rw [hstate] at h
  cases hreceive : receiveOPN cfg env.response false env.headerChannelId resp
      (⟨⟨false, .unset, .unset, false⟩, .connecting, nonce, []⟩ : Client K) with
  | mk result client =>
    rw [hreceive] at h
    cases result with
    | false => simp [Net.closeClient] at h
    | true =>
      simp only [if_true, some.injEq] at h
      subst h; obtain ⟨keys, hclient, rfl⟩ := receiveOPN_first hreceive
      have hmirror : keys.sender = first.keys.receiver ∧ keys.receiver = first.keys.sender := by
        by_cases hmode : cfg.mode = .none
        · exact (hkeys.of_none hmode) _ keys hclient
        · exact hkeys _ keys (hnonce hmode ▸ hclient)
      exact {
        connected := ConnectionState.noConfusion
        clientRole := rfl
        serverRole := rfl
        defined := ⟨congrArg SecurityToken.tokenId htoken ▸ hdefined.1,
          congrArg SecurityToken.secureChannelId htoken ▸ hdefined.2⟩
        clientIds := congrArg SecurityToken.tokenId htoken ▸ hdefined.1
        serverIds := hdefined.1
        toServer := fun ch hch => absurd hch not_mem_nil
        toClient := fun ch hch => absurd hch not_mem_nil
        inactive := by intro hfalse; cases hfalse
        stage := .inl {
          noResponse := rfl
          current := ⟨htoken.symm, hmirror.1, hmirror.2⟩
          precedent := ⟨rfl, rfl, rfl⟩
          single := Nat.zero_le 1
          waiting := fun hne => absurd rfl hne
          nonce := fun _ _ req hreq => absurd hreq not_mem_nil
          behind := trivial } }

theorem run_inv (h : Inv cfg n.view) (events : List NetEvent) :
    Inv cfg (n.run cfg events).view := by
  induction events generalizing n with
  | nil => exact h
  | cons e events ih => exact ih (h.moves (step_moves h.clientRole h.serverRole h.connected e))

def Side.Holds (s : Side K) (tokenId : Nat) (key : Option K) : Prop :=
  ∃ prev s', s.checkToken tokenId = some (prev, s') ∧ (s.keySets prev).receiver = key

theorem holds_current (h : s.current.Reads (.symmetric tokenId key : Chunk K M)) :
    s.Holds tokenId key := by
  obtain ⟨rfl, rfl⟩ := h; exact ⟨false, _, if_pos rfl, rfl⟩

theorem holds_precedent (hids : s.current.token.tokenId ≠ s.precedent.token.tokenId)
    (hdefined : s.precedent.Defined) (h : s.precedent.Reads (.symmetric tokenId key : Chunk K M)) :
    s.Holds tokenId key := by
  obtain ⟨rfl, rfl⟩ := h
  refine ⟨true, s, ?_, rfl⟩
  rw [Side.checkToken, if_neg hids, if_pos ⟨rfl, hdefined.2, hdefined.1⟩]

theorem Inv.server_holds (h : Inv cfg v) (hin : .symmetric tokenId key ∈ v.toServer) :
    v.server.Holds tokenId key := by
  cases h.stage with
  | inl hs =>
    rcases h.toServer _ hin with hcurrent | ⟨hdefined, hprecedent⟩
    · exact holds_current ((hs.current.sends_iff _).mp hcurrent)
    · exact holds_precedent h.serverIds (hs.precedent.defined_iff.mp hdefined)
        ((hs.precedent.sends_iff _).mp hprecedent)
  | inr ha =>
    exact holds_precedent h.serverIds (ha.current.defined_iff.mp h.defined)
      ((ha.current.sends_iff _).mp (ha.toServer _ hin))

theorem Inv.client_holds (h : Inv cfg v) (hin : .symmetric tokenId key ∈ v.toClient) :
    v.client.Holds tokenId key := by
  rcases h.toClient _ hin with hcurrent | ⟨hdefined, hprecedent⟩
  · exact holds_current hcurrent
  · exact holds_precedent h.clientIds hdefined hprecedent

/-- The next chunk of a transport is under a token that the receiver holds, with the key set it was
sent with; the ids of the tokens of a side differ; and the precedent token exists when the server
sends under it, as it asserts. -/
structure TokensAgree (n : Net K) : Prop where
  server : ∀ tokenId key rest, n.toServer = .symmetric tokenId key :: rest →
    n.server.side.Holds tokenId key
  client : ∀ tokenId key rest, n.toClient = .symmetric tokenId key :: rest →
    n.client.side.Holds tokenId key
  serverIds : n.server.side.current.token.tokenId ≠ n.server.side.precedent.token.tokenId
  clientIds : n.client.side.current.token.tokenId ≠ n.client.side.precedent.token.tokenId
  precedent : n.server.side.usesPrecedent = true → n.server.side.precedent.Defined

theorem Inv.tokensAgree (h : Inv cfg n.view) : TokensAgree n where
  server := by
    intro tokenId key rest hnext; refine h.server_holds ?_
    show Chunk.symmetric tokenId key ∈ pipeline n.server.queue n.toServer
    rw [hnext]
    exact mem_pipeline n.server.queue _ rest
  client := by
    intro tokenId key rest hnext; refine h.client_holds ?_
    show Chunk.symmetric tokenId key ∈ pipeline n.client.queue n.toClient
    rw [hnext]
    exact mem_pipeline n.client.queue _ rest
  serverIds := h.serverIds
  clientIds := h.clientIds
  precedent := by
    intro huses; refine h.inactive ?_
    have hserver : n.server.side.isServer = true := h.serverRole
    show n.server.side.serverNewSecuTokenActive = false
    simpa [Side.usesPrecedent, hserver] using huses

/-- From the first exchange on, whatever happens next, both sides agree on tokens and keys. -/
theorem token_renewal_agreement {env : OpenEnv} (h : Net.opened cfg env = some n)
    (events : List NetEvent) : TokensAgree (n.run cfg events) :=
  (run_inv (opened_inv h) events).tokensAgree

end

def sampleConfig : ChannelConfig (List UInt8) where
  provider := ⟨1, fun secret seed => secret ++ seed⟩
  mode := .sign
  protocolVersion := 0
  scConnectionIdx := 1

def sampleResponseEnv : ResponseEnv := ⟨true, true, true⟩

def sampleRequestEnv (tokenId : Nat) (nonce : UInt8) : RequestEnv where
  decoded := true
  buffer := true
  drawChannel _ := some 3
  drawToken _ := some tokenId
  others := []
  nonce := some [nonce]
  derived := true
  encoded := true

def sampleOpen : OpenEnv where
  nonce := some [10]
  requestEncoded := true
  accepted := true
  request := sampleRequestEnv 7 20
  response := sampleResponseEnv
  headerChannelId := 3

def sampleEvents : List NetEvent :=
  [.clientMessage, .renewTimer (some [11]) true true, .clientMessage,
    .clientInternal 1 true sampleResponseEnv true, .clientInternal 0 true sampleResponseEnv true,
    .clientInternal 2 true sampleResponseEnv true, .serverChunk false, .serverChunk false,
    .serverInternal 0 true (sampleRequestEnv 8 21), .serverMessage,
    .serverInternal 0 true (sampleRequestEnv 9 22), .serverInternal 1 true (sampleRequestEnv 9 22),
    .clientChunk false false true, .clientInternal 0 true sampleResponseEnv true, .clientMessage,
    .clientInternal 1 true sampleResponseEnv true]

theorem token_renewal_agreement_sample :
    ∃ n, Net.opened sampleConfig sampleOpen = some n ∧
      (n.run sampleConfig sampleEvents).toServer =
        [.symmetric 7 (some [20, 10]), .symmetric 7 (some [20, 10]),
          .symmetric 8 (some [21, 11])] ∧
      (n.run sampleConfig sampleEvents).toClient = [.symmetric 7 (some [10, 20])] ∧
      TokensAgree (n.run sampleConfig sampleEvents) :=
  ⟨_, rfl, by decide, by decide,
    token_renewal_agreement (show Net.opened sampleConfig sampleOpen = some _ from rfl) _⟩

end Renewal
end Channels
end S2OPC
