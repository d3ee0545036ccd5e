import Mathlib.Data.List.Basic
import Mathlib.Tactic.Common

/-!
# S2OPC.Sockets.WriteQueue

How a connected socket writes: `sopc_sockets_event_mgr.c`, from `SOCKET_WRITE` to the calls of
`SOPC_Socket_Write`. When the socket blocks, the buffer that has been written in part goes back to the
front of the queue, and the next `INT_SOCKET_READY_TO_WRITE` resumes it.
-/

namespace S2OPC
namespace Sockets

open List

inductive Answer where
  | sent (n : Nat)
  | wouldBlock
  | error
  deriving DecidableEq

/-- No byte sent without blocking is taken for an error. -/
def Answer.fails : Answer → Bool
  | .sent n => n == 0
  | .wouldBlock => false
  | .error => true

inductive WriteStatus where
  | ok
  | wouldBlock
  | nok
  deriving DecidableEq

structure Written where
  status : WriteStatus
  finalSentBytes : Nat
  calls : List Answer
  answers : List Answer

def writeLoop (data : List UInt8) : List Answer → Nat → Written
  | [], total => ⟨.wouldBlock, total, [], []⟩
  | .wouldBlock :: os, total => ⟨.wouldBlock, total, [.wouldBlock], os⟩
  | .error :: os, total => ⟨.nok, total, [.error], os⟩
  | .sent n :: os, total =>
    let sentBytes := min n (data.length - total)
    if total + sentBytes < data.length ∧ 0 < sentBytes then
      let w := writeLoop data os (total + sentBytes)
      { w with calls := .sent n :: w.calls }
    else ⟨if sentBytes = 0 then .nok else .ok, total + sentBytes, [.sent n], os⟩

def writeAll (answers : List Answer) (data : List UInt8) : Written :=
  if data.length = 0 then ⟨.ok, 0, [], answers⟩ else writeLoop data answers 0

structure Written.Right (data : List UInt8) (answers : List Answer) (w : Written) : Prop where
  le : w.finalSentBytes ≤ data.length
  all : w.status = .ok → w.finalSentBytes = data.length
  fails_iff : w.calls.any Answer.fails = true ↔ w.status = .nok
  split : w.calls ++ w.answers = answers

theorem writeLoop_right {data : List UInt8} {answers : List Answer} {total : Nat}
    (h : total < data.length) :
    (writeLoop data answers total).Right data answers := by
  induction answers generalizing total with
  | nil => exact ⟨Nat.le_of_lt h, by simp [writeLoop], by simp [writeLoop], rfl⟩
  | cons a os ih =>
    cases a with
    | wouldBlock | error =>
      exact ⟨Nat.le_of_lt h, by simp [writeLoop], by simp [writeLoop, Answer.fails], rfl⟩
    | sent n =>
      simp only [writeLoop]
      split_ifs with hmore hzero
      · have hn : n ≠ 0 := by omega
        have hw := ih hmore.1
        exact ⟨hw.le, hw.all, by simp [Answer.fails, hn, hw.fails_iff], by simp [hw.split]⟩
      · have hn : n = 0 := by omega
        exact ⟨by simp only; omega, by simp, by simp [Answer.fails, hn], rfl⟩
      · have hn : n ≠ 0 := by omega
        exact ⟨by simp only; omega, fun _ => by simp only; omega, by simp [Answer.fails, hn], rfl⟩

theorem writeAll_right (answers : List Answer) (data : List UInt8) :
    (writeAll answers data).Right data answers := by
  unfold writeAll
  split_ifs with h
  · exact ⟨Nat.zero_le _, fun _ => h.symm, by simp, rfl⟩
  · exact writeLoop_right (Nat.pos_of_ne_zero h)

inductive SocketState where
  | closed
  | connecting
  | connected
  | listening
  | accepted
  deriving DecidableEq

structure WriteBuffer where
  data : List UInt8
  position : Nat

def WriteBuffer.rest (buffer : WriteBuffer) : List UInt8 := buffer.data.drop buffer.position

def pending (queue : List WriteBuffer) : List UInt8 := (queue.map WriteBuffer.rest).flatten

structure Socket where
  state : SocketState
  connectionId : Nat
  writeQueue : List WriteBuffer
  isNotWritable : Bool

inductive Output where
  | socketFailure (connectionId : Nat)
  | socketRcvBytes (connectionId : Nat) (bytes : List UInt8)
  deriving DecidableEq

structure Link where
  sock : Socket
  calls : List Answer
  accepted : List UInt8
  emitted : List Output

abbrev ConnectionId := { c : Nat // c ≠ 0 }

/-- When the connection is established, by `INT_SOCKET_CONNECTED` or `SOCKET_ACCEPTED_CONNECTION`. -/
def Link.connected (c : ConnectionId) : Link := ⟨⟨.connected, c, [], false⟩, [], [], []⟩

namespace Link

variable (l : Link)

def emit (output : Output) : Link := { l with emitted := l.emitted ++ [output] }

def closeSocket : Link := { l with sock := ⟨.closed, 0, [], false⟩ }

def fail : Link := (l.emit (.socketFailure l.sock.connectionId)).closeSocket

def setQueue (queue : List WriteBuffer) (isNotWritable : Bool) : Link :=
  { l with sock := { l.sock with writeQueue := queue, isNotWritable := isNotWritable } }

def wrote (data : List UInt8) (w : Written) : Link :=
  { l with calls := l.calls ++ w.calls, accepted := l.accepted ++ data.take w.finalSentBytes }

def treatLoop : Link → List WriteBuffer → List Answer → Bool × Link
  | l, [], _ => (true, l.setQueue [] false)
  | l, buffer :: queue, answers =>
    let w := writeAll answers buffer.rest
    let l' := l.wrote buffer.rest w
    match w.status with
    | .ok => treatLoop l' queue w.answers
    | .wouldBlock => (true, l'.setQueue
        ({ buffer with position := buffer.position + w.finalSentBytes } :: queue) true)
    | .nok => (false, l'.setQueue queue false)

def treatWriteBuffer (answers : List Answer) : Bool × Link :=
  if l.sock.isNotWritable then (false, l) else l.treatLoop l.sock.writeQueue answers

end Link

inductive ReadAnswer where
  | bytes (l : List UInt8)
  | wouldBlock
  | error

/-- The events that a socket can get from its connection on, with the answers of the operating
system to the calls they lead to. -/
inductive Event where
  | socketWrite (buffer : Option (List UInt8)) (answers : List Answer)
  | socketClose (auxParam : Nat)
  | socketCloseServer (auxParam : Nat)
  | socketAcceptedConnection (auxParam : Nat)
  | intSocketClose
  | intSocketReadyToRead (answer : ReadAnswer)
  | intSocketReadyToWrite (answers : List Answer)

def Event.bytes : Event → List UInt8
  | .socketWrite (some data) _ => data
  | _ => []

def written (events : List Event) : List UInt8 := (events.map Event.bytes).flatten

/-- The two dispatchers, `SOPC_SocketsEventMgr_Dispatcher` and
`SOPC_SocketsInternalEventMgr_Dispatcher`. -/
def Link.step (l : Link) : Event → Link
  | .socketWrite (some data) answers =>
    if l.sock.state = .connected then
      let l := l.setQueue (l.sock.writeQueue ++ [⟨data, 0⟩]) l.sock.isNotWritable
      if l.sock.isNotWritable then l
      else
        let r := l.treatWriteBuffer answers
        if r.1 then r.2 else r.2.fail
    else l.fail
  | .socketWrite none _ => l.fail
  | .socketClose auxParam =>
    if l.sock.state ≠ .closed ∧ l.sock.state ≠ .listening ∧ l.sock.connectionId = auxParam then
      l.closeSocket
    else l
  | .socketCloseServer auxParam =>
    if l.sock.state = .listening ∧ l.sock.connectionId = auxParam then l.closeSocket else l
  | .socketAcceptedConnection auxParam =>
    if l.sock.state = .accepted then
      { l with sock := { l.sock with connectionId := auxParam, state := .connected } }
    else l.closeSocket
  | .intSocketClose => if l.sock.state = .closed then l.closeSocket else l.fail
  | .intSocketReadyToRead answer =>
    if l.sock.state = .connected then
      match answer with
      | .bytes bytes => l.emit (.socketRcvBytes l.sock.connectionId bytes)
      | .wouldBlock => l
      | .error => l.fail
    else l
  | .intSocketReadyToWrite answers =>
    if l.sock.state = .connected ∧ l.sock.isNotWritable then
      -- The result of the treatment is not used.
      ((l.setQueue l.sock.writeQueue false).treatWriteBuffer answers).2
    else l

def Link.run (l : Link) (events : List Event) : Link := events.foldl Link.step l

/-- No write fails that continues after the socket has been blocked. -/
def Event.Resumes : Event → Prop
  | .intSocketReadyToWrite answers => answers.any Answer.fails = false
  | _ => True

namespace Link

variable {l l' : Link} {c : ConnectionId} {before : List UInt8} {answers : List Answer}

structure Open (c : ConnectionId) (before : List UInt8) (l : Link) : Prop where
  state : l.sock.state = .connected
  connectionId : l.sock.connectionId = c
  calls : l.calls.any Answer.fails = false
  emitted : l.emitted.count (.socketFailure c) = 0
  bytes : l.accepted ++ pending l.sock.writeQueue = before

structure Shut (c : ConnectionId) (before : List UInt8) (l : Link) : Prop where
  state : l.sock.state = .closed
  connectionId : l.sock.connectionId = 0
  emitted : l.calls.any Answer.fails = true → l.emitted.count (.socketFailure c) = 1
  bytes : l.accepted <+: before

/-- A treatment of the queue: what is still `Open`, or has failed with nothing out of order. -/
structure Treated (c : ConnectionId) (before : List UInt8) (r : Bool × Link) : Prop where
  of_true : r.1 = true → r.2.Open c before
  of_false : r.1 = false → r.2.fail.Shut c before

theorem Open.closeSocket (h : l.Open c before) : l.closeSocket.Shut c before :=
  ⟨rfl, rfl, by simp [Link.closeSocket, h.calls], by simp [Link.closeSocket, ← h.bytes]⟩

theorem Open.fail (h : l.Open c before) : l.fail.Shut c before := by
  refine ⟨rfl, rfl, fun hfails => ?_, ?_⟩
  · simp [Link.fail, Link.emit, Link.closeSocket, h.calls] at hfails
  · simp [Link.fail, Link.emit, Link.closeSocket, ← h.bytes]

theorem Shut.fail (h : l.Shut c before) : l.fail.Shut c before := by
  have hne : (0 : Nat) ≠ c := c.property.symm
  refine ⟨rfl, rfl, fun hfails => ?_, h.bytes⟩
  simp [Link.fail, Link.emit, Link.closeSocket, h.connectionId, hne, h.emitted hfails]

theorem treatLoop_treated {queue : List WriteBuffer} {l : Link} {answers : List Answer}
    (h : (l.setQueue queue false).Open c before) :
    Treated c before (l.treatLoop queue answers) ∧
      (answers.any Answer.fails = false → (l.treatLoop queue answers).1 = true) := by
  induction queue generalizing l answers with
  | nil => exact ⟨⟨fun _ => h, by simp [treatLoop]⟩, fun _ => rfl⟩
  | cons buffer queue ih =>
    obtain ⟨hstate, hid, hcalls, hemitted, hbytes⟩ := h
    have hw := writeAll_right answers buffer.rest
    simp only [treatLoop]
    set w := writeAll answers buffer.rest
    simp only [setQueue, pending, map_cons, flatten_cons] at hcalls hemitted hid hbytes
    -- Unless the write fails, no call for the buffer has, and the answers to come may.
    have hnone (hne : w.status ≠ .nok) : w.calls.any Answer.fails = false := by
      simpa [hne] using hw.fails_iff
    cases hstatus : w.status with
    | ok =>
      have hcalls' := hnone (by simp [hstatus])
      have hopen : ((l.wrote buffer.rest w).setQueue queue false).Open c before :=
        ⟨hstate, hid, by simp [setQueue, wrote, hcalls, hcalls'], hemitted,
          by simp [setQueue, wrote, hw.all hstatus, ← hbytes, pending]⟩
      refine ⟨(ih hopen).1, fun hfails => (ih hopen).2 ?_⟩
      simpa [← hw.split, hcalls'] using hfails
    | wouldBlock =>
      have hcalls' := hnone (by simp [hstatus])
      refine ⟨⟨fun _ => ⟨hstate, hid, by simp [setQueue, wrote, hcalls, hcalls'], hemitted, ?_⟩,
        by simp⟩, fun _ => rfl⟩
      have hrest : (⟨buffer.data, buffer.position + w.finalSentBytes⟩ : WriteBuffer).rest =
          buffer.rest.drop w.finalSentBytes := by
        simp [WriteBuffer.rest]
      simp [setQueue, wrote, pending, hrest, ← hbytes, ← append_assoc (List.take _ _)]
    | nok =>
      have hsome := hw.fails_iff.mpr hstatus
      refine ⟨⟨by simp, fun _ => ⟨rfl, rfl, fun _ => ?_, ?_⟩⟩, fun hfails => ?_⟩
      · simp [Link.fail, Link.emit, Link.closeSocket, setQueue, wrote, hid, hemitted]
      · simp only [Link.fail, Link.emit, Link.closeSocket, setQueue, wrote, ← hbytes]
        rw [prefix_append_right_inj]
        exact ( take_prefix _ _).trans (prefix_append _ _)
      · rw [← hw.split, any_append, hsome] at hfails; cases hfails

theorem Open.treatWriteBuffer (h : l.Open c before) (hw : l.sock.isNotWritable = false) :
    Treated c before (l.treatWriteBuffer answers) ∧
      (answers.any Answer.fails = false → (l.treatWriteBuffer answers).1 = true) := by
  simp only [Link.treatWriteBuffer, hw]
  exact treatLoop_treated ⟨h.state, h.connectionId, h.calls, h.emitted, h.bytes⟩

theorem Open.step (h : l.Open c before) {e : Event} (he : e.Resumes) :
    (l.step e).Open c (before ++ e.bytes) ∨ (l.step e).Shut c (before ++ e.bytes) := by
  cases e with
  | socketWrite buffer answers =>
    cases buffer with
    | none => exact .inr (by simpa [Link.step, Event.bytes] using h.fail)
    | some data =>
      simp only [Link.step, h.state, if_true, Event.bytes]
      have hopen : (l.setQueue (l.sock.writeQueue ++ [⟨data, 0⟩]) l.sock.isNotWritable).Open c
          (before ++ data) :=
        ⟨h.state, h.connectionId, h.calls, h.emitted,
          by simp [setQueue, ← h.bytes, pending, WriteBuffer.rest]⟩
      split_ifs with hblocked hresult
      · exact .inl hopen
      · exact .inl ((hopen.treatWriteBuffer (by simpa using hblocked)).1.of_true hresult)
      · exact .inr ((hopen.treatWriteBuffer (by simpa using hblocked)).1.of_false
          (by simpa using hresult))
  | socketClose auxParam =>
    simp only [Link.step, Event.bytes, append_nil]
    split_ifs
    · exact .inr h.closeSocket
    · exact .inl h
  | socketCloseServer auxParam => exact .inl (by simpa [Link.step, Event.bytes, h.state] using h)
  | socketAcceptedConnection auxParam =>
    exact .inr (by simpa [Link.step, Event.bytes, h.state] using h.closeSocket)
  | intSocketClose => exact .inr (by simpa [Link.step, Event.bytes, h.state] using h.fail)
  | intSocketReadyToRead answer =>
    simp only [Link.step, h.state, if_true, Event.bytes, append_nil]
    cases answer with
    | bytes bytes =>
      exact .inl ⟨h.state, h.connectionId, h.calls, by simp [Link.emit, h.emitted], h.bytes⟩
    | wouldBlock => exact .inl h
    | error => exact .inr h.fail
  | intSocketReadyToWrite answers =>
    simp only [Link.step, h.state, true_and, Event.bytes, append_nil]
    split_ifs
    · have hopen : (l.setQueue l.sock.writeQueue false).Open c before :=
        ⟨h.state, h.connectionId, h.calls, h.emitted, h.bytes⟩
      have ht := @Open.treatWriteBuffer _ c before answers hopen rfl
      exact .inl (ht.1.of_true (ht.2 he))
    · exact .inl h

theorem Shut.step (h : l.Shut c before) (e : Event) : (l.step e).Shut c (before ++ e.bytes) := by
  have hmore : ∀ {m : Link}, m.Shut c before → m.Shut c (before ++ e.bytes) := fun hm =>
    ⟨hm.state, hm.connectionId, hm.emitted, hm.bytes.trans (prefix_append _ _)⟩
  have hclose : l.closeSocket.Shut c before := ⟨rfl, rfl, h.emitted, h.bytes⟩
  cases e with
  | socketWrite buffer answers =>
    cases buffer with
    | none => exact hmore h.fail
    | some data => simpa [Link.step, h.state] using hmore h.fail
  | socketAcceptedConnection | intSocketClose => simpa [Link.step, h.state] using hmore hclose
  | _ => simpa [Link.step, h.state] using hmore h

theorem open_or_shut_run {events : List Event} (he : ∀ e ∈ events, e.Resumes) {l : Link}
    {before : List UInt8} (h : l.Open c before ∨ l.Shut c before) :
    (l.run events).Open c (before ++ written events) ∨
      (l.run events).Shut c (before ++ written events) := by
  induction events generalizing l before with
  | nil => simpa [Link.run, written] using h
  | cons e events ih =>
    have hstep : (l.step e).Open c (before ++ e.bytes) ∨ (l.step e).Shut c (before ++ e.bytes) := by
      obtain h | h := h
      · exact h.step (he e mem_cons_self)
      · exact .inr (h.step e)
    have hrest := ih (fun e' he' => he e' (mem_cons_of_mem e he')) hstep
    simpa [Link.run, written, append_assoc] using hrest

theorem Open.connected (c : ConnectionId) : (connected c).Open c [] := ⟨rfl, rfl, rfl, rfl, rfl⟩

end Link

/-- After the events, what the operating system has accepted of the buffers, how a failed write has
ended the connection, and what an empty queue says. -/
def InOrder (c : ConnectionId) (events : List Event) : Prop :=
  let l := (Link.connected c).run events
  l.accepted <+: written events ∧
    (l.calls.any Answer.fails = true →
      l.sock.state = .closed ∧ l.emitted.count (.socketFailure c) = 1) ∧
    (l.sock.state = .connected → l.sock.writeQueue = [] → l.accepted = written events)

theorem writes_in_order (c : ConnectionId) (events : List Event) (h : ∀ e ∈ events, e.Resumes) :
    InOrder c events := by
  have hrun := Link.open_or_shut_run h (.inl (Link.Open.connected c))
  obtain hopen | hshut := hrun
  · refine ⟨⟨_, hopen.bytes⟩, fun hfails => ?_, fun _ hqueue => ?_⟩
    · rw [hopen.calls] at hfails; cases hfails
    · simpa [hqueue, pending] using hopen.bytes
  · refine ⟨hshut.bytes, fun hfails => ⟨hshut.state, hshut.emitted hfails⟩, fun hstate => ?_⟩
    rw [hshut.state] at hstate
    cases hstate

/-- A buffer blocked after one of two bytes and resumed, and a second one whose write fails. -/
theorem writes_in_order_resumed :
    InOrder ⟨1, by decide⟩ [.socketWrite (some [1, 2]) [.sent 1, .wouldBlock],
      .intSocketReadyToWrite [.sent 1], .socketWrite (some [3]) [.error]] :=
  writes_in_order _ _ (by simp [Event.Resumes, Answer.fails])

/-- A write that fails when the socket is ready again loses its buffer. The socket stays connected
without a `SOCKET_FAILURE`, and the next buffer follows. -/
theorem resumed_write_lost :
    ¬ InOrder ⟨1, by decide⟩ [.socketWrite (some [1, 2]) [.sent 1, .wouldBlock],
      .intSocketReadyToWrite [.error], .socketWrite (some [3]) [.sent 1]] := by
  rintro ⟨⟨rest, hrest⟩, -⟩; have haccepted : [1, 3] ++ rest = [1, 2, 3] := hrest
  simp at haccepted

end Sockets
end S2OPC
