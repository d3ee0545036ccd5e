import S2OPC.Channels.Negotiation
import S2OPC.Channels.SendRun
import S2OPC.Sockets.WriteQueue

/-!
# S2OPC.Channels.Delivery

Requests on their whole way from a client to a server: cut into chunks by the secure channel, written
by the socket as far as the operating system accepts them, received in pieces of any size, and put
together again.

* `requests_delivered`: what has been delivered is the beginning of what was sent, at any time, and all
  of it once all bytes have arrived.
-/

namespace S2OPC
namespace Channels

open List Sender Framing

open Sockets (ConnectionId Link)

variable {keys : SendKeys} {crypto : Crypto} {senv : Nat → SendEnv} {abortEnv : SendEnv}
  {abortBody : ChunkStatus → Option (List UInt8)} {env : PayloadEnv} {s s' : Sender}
  {r r₁ r' : Connection} {t : Treated} {id rid size left : Nat} {isFinal : IsFinal}
  {body bytes first rest : List UInt8} {sent sent' messages messages' : List (List UInt8)}

/-- The announced size of a chunk is the number of its bytes. -/
def Framed (size : Nat) (bytes : List UInt8) : Prop :=
  ∃ header, decodeTcpMsgHeader size bytes = .ok header ∧ header.size = bytes.length

/-- The receiver is a server, and has no other request under way. -/
structure InStep (keys : SendKeys) (s : Sender) (r : Connection) (id : Nat) : Prop where
  ready : s.Ready keys
  link : Linked keys s r
  server : r.isServer = true
  current : r.currentMsgRequestId = none ∨ r.currentMsgRequestId = some id

theorem Sender.Ready.after (hs : s.Ready keys) (h : s.after s' isFinal) : s'.Ready keys := by
  have hnext := hs.nextReqId
  rw [h]
  refine ⟨hs.maxBodySize, hs.maxBodySize_ne, hs.bufferSize, hs.channelId, hs.token, ?_⟩
  simp only [sequenced, requestId]
  split_ifs <;> omega

theorem SentChunk.decoded (hp : Paired keys crypto) (hs : s.Ready keys)
    (h : SentChunk keys s isFinal id body bytes) (hsize : s.props.sendBufferSize ≤ size) :
    decodeTcpMsgHeader size bytes = .ok ⟨.msg, isFinal, bytes.length⟩ := by
  obtain ⟨-, tail, hbytes, hmin, hmax, -⟩ := h.lengths hp hs
  have hword := hs.bufferSize
  conv_lhs => rw [hbytes]
  exact decodeTcpMsgHeader_sent tail (by rw [tcpUaHeaderLength]; omega) (by omega) (by omega)

theorem checkRequestId_server (header : TcpHeader) (hserver : r.isServer = true)
    (hcurrent : r.currentMsgRequestId = none ∨ r.currentMsgRequestId = some id) :
    checkRequestId r env header id =
      .ok ({ r with currentMsgRequestId := some id }, id, false) := by
  rcases hcurrent with h | h <;> simp [checkRequestId, h, hserver, Except.map]

theorem treatBodyOf_conn {q : Secured} (h : treatBodyOf env q = .ok t) :
    ∃ inter request, t.conn = { q.conn with inter := inter, currentMsgRequestId := request } ∧
      (request = none ∨ request = q.conn.currentMsgRequestId) := by
  unfold treatBodyOf at h
  split at h
  · split at h
    · cases h
    · cases h
    · cases h; exact ⟨_, _, rfl, .inr rfl⟩
    · cases h; exact ⟨_, _, rfl, .inl rfl⟩
  · cases h; exact ⟨_, _, rfl, .inl rfl⟩

theorem checkMultiChunkContext_of_received
    (hdecode : decodeTcpMsgHeader r.props.receiveBufferSize bytes = .ok ⟨.msg, isFinal, bytes.length⟩)
    (h : receiveChunk crypto env r bytes = .ok t) :
    checkMultiChunkContext r.props r.inter isFinal = true := by
  by_contra hmulti
  simp only [Bool.not_eq_true] at hmulti
  simp only [receiveChunk, hdecode] at h
  split at h
  · rw [treatChunk, unpadded, sequenced, verified, decrypted, opened, if_pos hmulti] at h; cases h
  · cases h

/-- The receiver of a chunk follows its sender. -/
theorem InStep.chunk (hp : Paired keys crypto) (henv : env.Supports) {env' : SendEnv}
    (h : InStep keys s r id) (hid : s.requestId rid = id) (hword : id < 2 ^ 32)
    (hsend : treatSendBuffer keys env' s rid .msg isFinal body = (s', .ok bytes))
    (ht : receiveChunk crypto env r bytes = .ok t) :
    InStep keys s' t.conn id ∧ t.conn.props = r.props ∧
      Framed r.props.receiveBufferSize bytes := by
  obtain ⟨hchunk, hafter⟩ := treatSendBuffer_sent hsend
  rw [hid] at hchunk
  have hdecoded := hchunk.decoded hp h.ready h.link.bufferSize
  have hmulti := checkMultiChunkContext_of_received hdecoded ht
  obtain ⟨-, -, active, hreceived⟩ := sent_chunk_received hp h.ready h.link henv hword hmulti hchunk
  obtain ⟨q, hq, hconn, -⟩ := hreceived (checkRequestId_server _ h.server h.current)
  obtain ⟨inter, request, hconn', hkept⟩ := treatBodyOf_conn (hq.symm.trans ht)
  rw [hconn] at hconn' hkept
  rw [hconn']
  refine ⟨⟨h.ready.after hafter, ?_, h.server, hkept⟩, rfl, _, hdecoded, rfl⟩
  rw [hafter]
  exact { h.link with sequence := rfl }

theorem receiveAll_eq_ok_cons {renv : Nat → PayloadEnv}
    (h : receiveAll crypto renv r (bytes :: sent) = .ok (r', messages)) :
    ∃ t later, receiveChunk crypto (renv sent.length) r bytes = .ok t ∧
      receiveAll crypto renv t.conn sent = .ok (r', later) ∧ messages = t.delivered ++ later := by
  rw [receiveAll] at h
  cases ht : receiveChunk crypto (renv sent.length) r bytes with
  | fault f => rw [ht] at h; cases h
  | reject e => rw [ht] at h; cases h
  | ok t =>
    rw [ht] at h
    replace h : (receiveAll crypto renv t.conn sent).bind _ = _ := h
    cases hr : receiveAll crypto renv t.conn sent with
    | fault f => rw [hr] at h; cases h
    | reject e => rw [hr] at h; cases h
    | ok p => rw [hr] at h; cases h; exact ⟨t, p.2, rfl, hr, rfl⟩

theorem InStep.loop (hp : Paired keys crypto) (henv : env.Supports) {s : Sender} {r : Connection}
    (h : InStep keys s r id) (hid : s.requestId rid = id) (hword : id < 2 ^ 32)
    (hrun : sendLoop keys senv rid .msg left s first rest = (s', sent, none))
    (hall : receiveAll crypto (fun _ => env) r sent = .ok (r', messages)) :
    InStep keys s' r' id ∧ r'.props = r.props ∧ s.Same s' ∧
      ∀ bytes ∈ sent, Framed r.props.receiveBufferSize bytes := by
  induction left generalizing s r first rest sent messages with
  | zero =>
    obtain ⟨bytes, hsend, rfl⟩ := sendLoop_last hrun
    obtain ⟨t, later, ht, hend, -⟩ := receiveAll_eq_ok_cons hall
    cases hend
    obtain ⟨hnext, hprops, hframed⟩ := h.chunk hp henv hid hword hsend ht
    exact ⟨hnext, hprops, (treatSendBuffer_chunkSent hsend).same, forall_mem_singleton.mpr hframed⟩
  | succ left ih =>
    obtain ⟨s₁, bytes, sent', hsend, hloop, rfl⟩ := sendLoop_next hrun
    obtain ⟨t, later, ht, hend, -⟩ := receiveAll_eq_ok_cons hall
    obtain ⟨hnext, hprops, hframed⟩ := h.chunk hp henv hid hword hsend ht
    have hid₁ : s₁.requestId rid = id :=
      (after_intermediate (treatSendBuffer_sent hsend).2 h.ready rid).2.1.trans hid
    obtain ⟨hlast, hprops', hsame, hrest⟩ := ih hnext hid₁ hloop hend
    rw [hprops] at hprops' hrest
    exact ⟨hlast, hprops', (treatSendBuffer_chunkSent hsend).same.trans hsame,
      forall_mem_cons.mpr ⟨hframed, hrest⟩⟩

theorem sendAbort_ne_sent {status : ChunkStatus} :
    (sendAbort keys abortEnv s rid .msg abortBody sent status).2.2 ≠ .sent := by
  unfold sendAbort
  split
  · simp
  · split <;> simp

theorem sendLoop_of_sent
    (h : treatSendMessageBuffer keys senv abortEnv abortBody s rid .msg body = (s', sent, .sent)) :
    ∃ left first rest, sendLoop keys senv rid .msg left s first rest = (s', sent, none) := by
  unfold treatSendMessageBuffer at h
  split at h
  · exact absurd (congrArg (·.2.2) h) sendAbort_ne_sent
  split at h
  · rename_i hchunks
    cases h
    unfold sendChunks at hchunks
    split at hchunks
    · exact ⟨_, _, _, hchunks⟩
    · split at hchunks
      · exact ⟨_, _, _, hchunks⟩
      · cases hchunks
  · split at h
    · cases h
    · exact absurd (congrArg (·.2.2) h) sendAbort_ne_sent

structure Request where
  handle : Nat
  body : List UInt8

variable (keys senv abortEnv abortBody) in
/-- The chunks that are handed to the socket. -/
def sendAll : Sender → List Request → List (List UInt8)
  | _, [] => []
  | s, q :: requests =>
    let r := treatSendMessageBuffer keys senv abortEnv abortBody s q.handle .msg q.body
    r.2.1 ++ sendAll r.1 requests

theorem receiveAll_append (h : receiveAll crypto (fun _ => env) r sent = .ok (r₁, messages))
    (h' : receiveAll crypto (fun _ => env) r₁ sent' = .ok (r', messages')) :
    receiveAll crypto (fun _ => env) r (sent ++ sent') = .ok (r', messages ++ messages') := by
  induction sent generalizing r messages with
  | nil => cases h; exact h'
  | cons bytes sent ih =>
    obtain ⟨t, later, ht, hrest, rfl⟩ := receiveAll_eq_ok_cons h
    rw [append_assoc]
    exact receiveAll_cons ht (ih hrest)

/-- A request that the client accepts to send. -/
def Request.Accepted (s : Sender) (q : Request) : Prop :=
  q.handle < 2 ^ 32 ∧ ∃ nbChunks, computeNbChunksToSend s .msg q.body.length = .ok nbChunks

theorem requests_received (hp : Paired keys crypto) (hsenv : ∀ i, (senv i).Supports)
    (henv : env.Supports) {s : Sender} {r : Connection} {requests : List Request}
    (hagrees : Agrees s.props r.props) (hbound : Bounded r.props) (h : InStep keys s r 0)
    (hbetween : BetweenMessages r) (haccepted : ∀ q ∈ requests, q.Accepted s) :
    (∃ r', receiveAll crypto (fun _ => env) r (sendAll keys senv abortEnv abortBody s requests) =
        .ok (r', requests.map Request.body)) ∧
      ∀ bytes ∈ sendAll keys senv abortEnv abortBody s requests,
        Framed r.props.receiveBufferSize bytes := by
  induction requests generalizing s r with
  | nil => exact ⟨⟨r, rfl⟩, by simp [sendAll]⟩
  | cons q requests ih =>
    obtain ⟨⟨hhandle, n, hn⟩, hrest⟩ := forall_mem_cons.mp haccepted
    obtain ⟨hsize, hcount⟩ := hagrees.within hbound hn
    obtain ⟨s', sent, r', hsent, -, -, -, hreceived, hbetween'⟩ :=
      @message_received q.handle q.body (fun _ => env) keys crypto senv abortEnv abortBody s r n hp
        h.ready h.link hsenv (fun _ => henv) hhandle hn hbetween
        (fun hclient => absurd h.server (by simp [hclient])) hsize hbound.size_lt hcount
    obtain ⟨left, first, rest, hloop⟩ := sendLoop_of_sent hsent
    have hword : s.requestId q.handle < 2 ^ 32 := by
      have := h.ready.nextReqId
      unfold requestId
      split_ifs <;> omega
    have hfresh : InStep keys s r (s.requestId q.handle) :=
      { h with current := .inl hbetween.clear.2 }
    obtain ⟨hnext, hprops, hsame, hfirst⟩ := hfresh.loop hp henv rfl hword hloop hreceived
    have hstart : InStep keys s' r' 0 := { hnext with current := .inl hbetween'.clear.2 }
    obtain ⟨⟨r'', hlater⟩, hframed⟩ := ih (by rw [hprops, hsame]; exact hagrees) (hprops ▸ hbound)
      hstart hbetween' fun q hq => by rw [hsame]; exact hrest q hq
    simp only [sendAll, hsent]
    refine ⟨⟨r'', receiveAll_append hreceived hlater⟩, fun bytes hbytes => ?_⟩
    rcases mem_append.mp hbytes with hbytes | hbytes
    · exact hfirst bytes hbytes
    · exact hprops ▸ hframed bytes hbytes

/-- The context of a channel with the messages delivered so far. What comes after undefined behaviour
is left open. -/
def channelTreatment (crypto : Crypto) (env : PayloadEnv)
    (undefined : Connection → Chunk → Connection × Option ChunkStatus) :
    Treatment (Connection × List (List UInt8)) where
  treat c chunk :=
    match receiveChunk crypto env c.1 chunk.data with
    | .ok t => ((t.conn, c.2 ++ t.delivered), none)
    | .reject e => (c, some e)
    | .fault _ => (((undefined c.1 chunk).1, c.2), (undefined c.1 chunk).2)
  clear c := (c.1.clearInputChunks, c.2)

variable {undefined : Connection → Chunk → Connection × Option ChunkStatus}
  {delivered delivered' : List (List UInt8)}

theorem parse_sent (hall : receiveAll crypto (fun _ => env) r sent = .ok (r', messages))
    (hframed : ∀ bytes ∈ sent, Framed size bytes) :
    ((framer size).parse (channelTreatment crypto env undefined).consume (r, delivered)
      sent.flatten).2 = .ok ((r', delivered ++ messages), []) := by
  induction sent generalizing r delivered messages with
  | nil => cases hall; rw [flatten_nil, append_nil, Framer.parse_more rfl]
  | cons bytes sent ih =>
    obtain ⟨t, later, ht, hrest, rfl⟩ := receiveAll_eq_ok_cons hall
    obtain ⟨⟨header, hdecode, hlength⟩, hframed'⟩ := forall_mem_cons.mp hframed
    obtain ⟨hmin, hmax⟩ := decodeTcpMsgHeader_size hdecode
    have hcut : (framer size).cut (bytes ++ sent.flatten) = .piece header.size ⟨header, bytes⟩ := by
      show cutChunk size _ = _
      rw [cutChunk_header (by omega) (by rw [length_append]; omega)
        ((decodeTcpMsgHeader_append _ (by omega)).trans hdecode),
        if_neg (by rw [length_append]; omega), hlength, take_left]
    have hconsume : (channelTreatment crypto env undefined).consume (r, delivered) ⟨header, bytes⟩ =
        .ok (t.conn, delivered ++ t.delivered) := by
      simp [Treatment.consume, channelTreatment, ht]
    rw [flatten_cons, Framer.parse_piece hcut hconsume, hlength, drop_left, ← append_assoc]
    exact ih hrest hframed'

theorem consume_delivered {c c' : Connection × List (List UInt8)} {chunk : Chunk}
    (h : (channelTreatment crypto env undefined).consume c chunk = .ok c') : c.2 <+: c'.2 := by
  simp only [Treatment.consume, channelTreatment] at h
  cases hr : receiveChunk crypto env c.1 chunk.data with
  | ok t => rw [hr] at h; cases h; exact prefix_append _ _
  | reject e => rw [hr] at h; cases h
  | fault f =>
    rw [hr] at h
    generalize undefined c.1 chunk = u at h
    obtain ⟨conn, _ | e⟩ := u
    · cases h; exact prefix_rfl
    · cases h

section

variable {σ : Type} {T : Treatment σ} {context context' : σ} {pending : List UInt8}
  {segments : List (List UInt8)}

def receiver (size : Nat) (T : Treatment σ) (x : Receiver σ) (segments : List (List UInt8)) :
    Receiver σ :=
  segments.foldl (fun x segment => (treatReceivedBuffer size T x segment).1) x

theorem received_holds (hsize : 0 < size) {x : Receiver σ} (hx : x.Holds size context pending)
    (h : ((framer size).parse T.consume context (pending ++ segments.flatten)).2 =
      .ok (context', rest)) :
    (receiver size T x segments).Holds size context' rest ∧
      ∀ e, .failure e ∉ receive size T x segments := by
  induction segments generalizing x context pending with
  | nil =>
    rw [flatten_nil, hx.parse_nil T] at h
    cases h; exact ⟨hx, by simp [receive]⟩
  | cons segment segments ih =>
    rw [flatten_cons, ← append_assoc] at h
    obtain ⟨c, held, hfirst, hrest⟩ := Framer.parse_beginning h
    obtain ⟨hout, hholds⟩ := treatLoop_refines hsize T hx (Nat.le_refl segment.length)
    obtain ⟨hnext, hlater⟩ := ih (hholds c held hfirst) hrest
    refine ⟨hnext, fun e he => ?_⟩
    rw [receive, treatReceivedBuffer, hout, eventsOf, hfirst, append_nil] at he
    rcases mem_append.mp he with he | he
    · simp at he
    · exact hlater e he

end

/-- What the client has written to its socket, and what the server has received of it. -/
structure Transport where
  connection : ConnectionId
  events : List Sockets.Event
  segments : List (List UInt8)

def Transport.link (p : Transport) : Link := (Link.connected p.connection).run p.events

/-- A reliable transport in order, and writes that do not fail once they have been resumed. -/
structure Transport.Reliable (p : Transport) (sent : List (List UInt8)) : Prop where
  written : Sockets.written p.events = sent.flatten
  resumes : ∀ e ∈ p.events, e.Resumes
  arrived : p.segments.flatten <+: p.link.accepted

theorem Transport.Reliable.arrives {p : Transport} (h : p.Reliable sent) :
    p.segments.flatten <+: sent.flatten ∧
      (p.link.sock.state = .connected → p.link.sock.writeQueue = [] →
        p.segments.flatten = p.link.accepted → p.segments.flatten = sent.flatten) := by
  have hrun := Link.open_or_shut_run h.resumes (.inl (Link.Open.connected p.connection))
  rw [nil_append, h.written] at hrun
  obtain hopen | hshut := hrun
  · refine ⟨h.arrived.trans ⟨_, hopen.bytes⟩, fun _ hqueue hall => ?_⟩
    have hbytes : p.link.accepted ++ Sockets.pending p.link.sock.writeQueue = _ := hopen.bytes
    rw [hall, ← hbytes, hqueue]
    exact (append_nil _).symm
  · refine ⟨h.arrived.trans hshut.bytes, fun hstate => ?_⟩
    have hclosed : p.link.sock.state = .closed := hshut.state
    rw [hclosed] at hstate
    cases hstate

variable (crypto env undefined) in
def deliveredBy (r : Connection) (segments : List (List UInt8)) : List (List UInt8) :=
  (receiver r.props.receiveBufferSize (channelTreatment crypto env undefined) ⟨none, (r, [])⟩
    segments).context.2

/-- Requests are delivered in order, each once and as it was sent, whatever the sizes of chunks,
writes and received segments. The limits are those of a completed `HEL`/`ACK` exchange. -/
theorem requests_delivered {client server : EncodingConfig} (hclient : client.InForce)
    (hserver : server.InForce) {cp sp : MsgProperties} (hexchange : Exchange client server cp sp)
    (hp : Paired keys crypto) (hs : s.Ready keys) (hlink : Linked keys s r) (hsp : s.props = cp.tcp)
    (hrp : r.props = sp.tcp) (hside : r.isServer = true) (hbetween : BetweenMessages r)
    (hsenv : ∀ i, (senv i).Supports) (henv : env.Supports) {requests : List Request}
    (haccepted : ∀ q ∈ requests, q.Accepted s) {p : Transport}
    (hreliable : p.Reliable (sendAll keys senv abortEnv abortBody s requests)) :
    (∀ e, .failure e ∉ receive r.props.receiveBufferSize (channelTreatment crypto env undefined)
        ⟨none, (r, [])⟩ p.segments) ∧
      deliveredBy crypto env undefined r p.segments <+: requests.map Request.body ∧
      (p.link.sock.state = .connected → p.link.sock.writeQueue = [] →
        p.segments.flatten = p.link.accepted →
          deliveredBy crypto env undefined r p.segments = requests.map Request.body) := by
  have hagrees : Agrees s.props r.props := by rw [hsp, hrp]; exact hexchange.agrees.1
  have hbound : Bounded r.props := by rw [hrp]; exact (hexchange.bounded hclient hserver).2
  obtain ⟨⟨r', hall⟩, hframed⟩ := requests_received hp hsenv henv hagrees hbound
    ⟨hs, hlink, hside, .inl hbetween.clear.2⟩ hbetween haccepted
  have hparse := @parse_sent _ _ r r' _ _ _ undefined [] hall hframed
  obtain ⟨⟨rest, hrest⟩, hcomplete⟩ := hreliable.arrives
  rw [← hrest] at hparse
  obtain ⟨c, held, hfirst, hlast⟩ := Framer.parse_beginning hparse
  have hsize : 0 < r.props.receiveBufferSize := by
    have := hs.room.1
    have := hlink.bufferSize
    omega
  have hstart : (⟨none, (r, [])⟩ : Receiver (Connection × List (List UInt8))).Holds
      r.props.receiveBufferSize (r, []) [] := ⟨rfl, rfl, .inl ⟨rfl, rfl⟩⟩
  obtain ⟨hholds, hnone⟩ := received_holds hsize hstart hfirst
  have hcontext : deliveredBy crypto env undefined r p.segments = c.2 := congrArg Prod.snd hholds.1
  refine ⟨hnone, ?_, fun hstate hqueue harrived => ?_⟩
  · rw [hcontext]
    exact Framer.parse_rel (R := fun c c' => c.2 <+: c'.2) (fun _ => prefix_rfl) IsPrefix.trans
      consume_delivered hlast
  · have hnil : rest = [] := by simpa [hcomplete hstate hqueue harrived] using hrest
    rw [hnil, append_nil, hfirst] at hparse
    cases hparse; exact hcontext

def plainSender : Sender :=
  { blockSender with mode := .none, symmSecuMaxBodySize := 8168, props := adaptedClient.tcp }

def plainReceiver : Connection :=
  { signConnection with config := some .none, props := smallServer.tcp }

def twoRequests : List Request := [⟨5, [1, 2, 3]⟩, ⟨6, [4]⟩]

def twoSent : List (List UInt8) :=
  sendAll blockKeys (fun _ => sendMemory) sendMemory (fun _ => none) plainSender twoRequests

/-- The socket blocks after ten bytes, and the bytes arrive in two segments. -/
def twoWritten : Transport where
  connection := ⟨1, by decide⟩
  events := [.socketWrite (some (twoSent.getD 0 [])) [.sent 10, .wouldBlock],
    .socketWrite (some (twoSent.getD 1 [])) [], .intSocketReadyToWrite [.sent 17, .sent 25]]
  segments := [twoSent.flatten.take 30, twoSent.flatten.drop 30]

theorem plainSender_ready : plainSender.Ready blockKeys :=
  ⟨rfl, by decide, by decide, by decide, by decide, by decide⟩

theorem plainReceiver_linked : Linked blockKeys plainSender plainReceiver :=
  ⟨rfl, rfl, rfl, (fun h => nomatch h), rfl, by decide, rfl⟩

theorem twoWritten_reliable : twoWritten.Reliable twoSent where
  written := rfl
  resumes := by simp [twoWritten, Sockets.Event.Resumes, Sockets.Answer.fails]
  arrived := by decide

theorem two_requests_delivered :
    deliveredBy blockCrypto quietEnv (fun c _ => (c, none)) plainReceiver twoWritten.segments =
      [[1, 2, 3], [4]] :=
  (requests_delivered (.inl rfl) smallConfig_inForce default_small_exchange blockKeys_paired
    plainSender_ready plainReceiver_linked rfl rfl rfl (.fresh rfl rfl)
    (fun _ => ⟨rfl, rfl, rfl, rfl⟩) ⟨rfl, rfl, rfl, rfl, rfl⟩
    (forall_mem_cons.mpr ⟨⟨by decide, 1, rfl⟩, forall_mem_singleton.mpr ⟨by decide, 1, rfl⟩⟩)
    twoWritten_reliable).2.2 rfl rfl rfl

end Channels
end S2OPC
