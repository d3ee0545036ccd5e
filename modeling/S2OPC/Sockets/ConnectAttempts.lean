import Mathlib

/-!
# S2OPC.Sockets.ConnectAttempts

The addresses of a server are tried by `SOPC_SocketsEventMgr_CreateClientSocket` and, when an attempt
fails later on, by `SOPC_SocketsEventMgr_NextConnectClientAttempt`; the addresses left are kept in the
slot of the socket. The log holds the attempts, and the events emitted to the secure channels.
-/

namespace S2OPC
namespace ConnectAttempts

open List

/-- What comes of an attempt: an error at once, or what `SOPC_Socket_CheckAckConnect` tells later. -/
inductive Outcome where
  | refused
  | failed
  | connects
  deriving DecidableEq

inductive SocketState where
  | closed
  | connecting
  | connected
  deriving DecidableEq

inductive Action (A : Type) where
  | attempt (addr : A)
  | connection (connectionId : Nat)
  | failure (connectionId : Nat)
  deriving DecidableEq

/-- `SOPC_Socket`: `sock` is connected to an address, and the empty list a null pointer. -/
structure Slot (A : Type) where
  isUsed : Bool := false
  state : SocketState := .closed
  sock : Option A := none
  nextConnectAttemptAddr : List A := []
  connectAddrs : List A := []
  connectionId : Nat := 0
  log : List (Action A) := []
  deriving DecidableEq

variable {A : Type} (net : A → Outcome)

def closeSocket (s : Slot A) : Slot A := if s.isUsed then { log := s.log } else s

def connectClient (s : Slot A) (addr : A) : Slot A × Bool :=
  if s.state = .closed then
    if net addr = .refused then (closeSocket { s with log := s.log ++ [.attempt addr] }, false)
    else ({ s with sock := some addr, state := .connecting, log := s.log ++ [.attempt addr] }, true)
  else (s, false)

def createLoop (s : Slot A) : List A → Slot A × Option (List A)
  | [] => (s, none)
  | addr :: p =>
    match connectClient net s addr with
    | (s, true) => (s, some p)
    | (s, false) => createLoop s p

def createClient (connectionId : Nat) (res : List A) : Slot A :=
  match createLoop net { isUsed := true } res with
  | (s, none) =>
    let s := closeSocket s
    { s with log := s.log ++ [.failure connectionId] }
  | (s, some []) => { s with connectionId }
  | (s, some p) => { s with nextConnectAttemptAddr := p, connectAddrs := res, connectionId }

/-- `SOPC_SocketsEventMgr_NextConnectClientAttempt`; there is no result where freed addresses are read:
those of the slot are freed when it is closed, and then asked for the next one. -/
def nextConnectClientAttempt (s : Slot A) : Option (Slot A × Bool) :=
  if s.state = .connecting then
    let s := { s with sock := none, state := .closed }
    match s.nextConnectAttemptAddr with
    | [] => some (s, false)
    | addr :: rest =>
      match connectClient net s addr with
      | (t, true) => some ({ t with nextConnectAttemptAddr := [], connectAddrs := [] }, true)
      | (t, false) =>
        if s.isUsed ∧ s.connectAddrs ≠ [] then none
        else some ({ t with nextConnectAttemptAddr := rest }, false)
  else some (s, false)

def attemptFailed (s : Slot A) : Option (Slot A) :=
  (nextConnectClientAttempt net s).map fun (t, result) =>
    if result then t else closeSocket { t with log := t.log ++ [.failure t.connectionId] }

def connected (s : Slot A) : Slot A :=
  let s := if s.connectAddrs = [] then s else { s with connectAddrs := [], nextConnectAttemptAddr := [] }
  { s with log := s.log ++ [.connection s.connectionId], state := .connected }

def networkEvent (s : Slot A) : Option (Slot A) :=
  if s.isUsed ∧ s.state = .connecting then
    if s.sock.map net = some .connects then some (connected s) else attemptFailed net s
  else some s

def networkEvents : Nat → Slot A → Option (Slot A)
  | 0, s => some s
  | n + 1, s => (networkEvent net s).bind (networkEvents n)

/-- Each address in its turn up to the one that connects, and only then what comes of them. -/
def expectedLog (connectionId : Nat) : List A → List (Action A)
  | [] => [.failure connectionId]
  | addr :: rest =>
    .attempt addr :: if net addr = .connects then [.connection connectionId] else expectedLog connectionId rest

/-- The slot stays used, and no address is left where the second attempt fails. -/
def AllTried : List Outcome → Prop
  | .refused :: os => ∀ o ∈ os, o = .refused
  | .failed :: .refused :: _ => False
  | .failed :: .failed :: os => os = []
  | _ => True

variable {net}

attribute [local simp] networkEvents networkEvent attemptFailed nextConnectClientAttempt connectClient
  connected closeSocket createClient createLoop expectedLog AllTried

theorem createLoop_cons_refused {s : Slot A} {a : A} (hu : s.isUsed = false) (hs : s.state = .closed)
    (ha : net a = .refused) (l : List A) :
    createLoop net s (a :: l) = createLoop net { s with log := s.log ++ [.attempt a] } l := by
  simp [hs, ha, hu]

theorem createLoop_refused {s : Slot A} (hu : s.isUsed = false) (hs : s.state = .closed) {l : List A}
    (h : ∀ a ∈ l, net a = .refused) :
    createLoop net s l = ({ s with log := s.log ++ l.map .attempt }, none) := by
  induction l generalizing s with
  | nil => simp
  | cons a l ih =>
    obtain ⟨ha, hl⟩ := forall_mem_cons.1 h
    rw [createLoop_cons_refused hu hs ha, ih]
    · simp
    · exact hu
    · exact hs
    · exact hl

def Silent (s : Slot A) : Prop := ∀ i, .failure i ∉ s.log ∧ .connection i ∉ s.log

theorem Silent.attempt {s t : Slot A} {a : A} (h : Silent s) (ht : t.log = s.log ++ [.attempt a]) :
    Silent t := by
  simpa [Silent, ht] using h

theorem createLoop_started {s : Slot A} (hu : s.isUsed = false) (hs : s.state = .closed)
    (hsilent : Silent s) {l : List A} (h : ¬∀ a ∈ l, net a = .refused) :
    ∃ t p, createLoop net s l = (t, some p) ∧ t.isUsed = false ∧ Silent t := by
  induction l generalizing s with
  | nil => simp at h
  | cons a l ih =>
    by_cases ha : net a = .refused
    · rw [createLoop_cons_refused hu hs ha]
      exact ih hu hs (hsilent.attempt rfl) (by simpa [ha] using h)
    · refine ⟨{ s with sock := some a, state := .connecting, log := s.log ++ [.attempt a] }, l, ?_, hu,
        hsilent.attempt rfl⟩
      simp [hs, ha]

theorem expectedLog_refused {id : Nat} {l : List A} (h : ∀ a ∈ l, net a = .refused) :
    expectedLog net id l = l.map .attempt ++ [.failure id] := by
  induction l with
  | nil => rfl
  | cons a l ih => obtain ⟨ha, hl⟩ := forall_mem_cons.1 h; simp [ha, ih hl]

theorem Silent.log_ne {s : Slot A} (h : Silent s) (id : Nat) (l : List A) :
    s.log ≠ expectedLog net id l := by
  suffices .failure id ∈ expectedLog net id l ∨ .connection id ∈ expectedLog net id l by
    intro he; rw [← he] at this; have := h id; tauto
  induction l with
  | nil => simp
  | cons a l ih => by_cases ha : net a = .connects <;> simp [ha]; exact ih

theorem networkEvents_add (k m : Nat) (s : Slot A) :
    networkEvents net (k + m) s = (networkEvents net k s).bind (networkEvents net m) := by
  induction k generalizing s with
  | zero => simp
  | succ k ih =>
    rw [Nat.succ_add, networkEvents, networkEvents, Option.bind_assoc]
    exact congrArg _ (funext ih)

/-- The addresses are tried as they should, and nothing happens after that. -/
def Tried (net : A → Outcome) (s : Slot A) (expected : List (Action A)) : Prop :=
  ∃ n t, (∀ m ≥ n, networkEvents net m s = some t) ∧ t.log = expected

theorem tried_iff {s t : Slot A} {k : Nat} {expected : List (Action A)}
    (hk : networkEvents net k s = some t) (ht : networkEvent net t = some t) :
    Tried net s expected ↔ t.log = expected := by
  have hfix : ∀ m, networkEvents net m t = some t := by
    intro m; induction m with
    | zero => rfl
    | succ m ih => rw [networkEvents, ht]; exact ih
  constructor
  · rintro ⟨n, u, hn, rfl⟩
    have := hn (k + n) (by omega)
    rw [networkEvents_add, hk, Option.bind_some, hfix] at this
    rw [Option.some.inj this]
  · intro hlog; refine ⟨k, t, fun m hm => ?_, hlog⟩
    obtain ⟨d, rfl⟩ := Nat.exists_eq_add_of_le hm
    rw [networkEvents_add, hk, Option.bind_some, hfix]

theorem createClient_started {id : Nat} {a : A} {rest : List A} (ha : net a ≠ .refused) :
    createClient net id (a :: rest) =
      { isUsed := true, state := .connecting, sock := some a, nextConnectAttemptAddr := rest,
        connectAddrs := if rest = [] then [] else a :: rest, connectionId := id, log := [.attempt a] } := by
  cases rest <;> simp [ha]

theorem tried_refused_iff {id : Nat} {a : A} {rest : List A} (ha : net a = .refused) :
    Tried net (createClient net id (a :: rest)) (expectedLog net id (a :: rest)) ↔
      ∀ b ∈ rest, net b = .refused := by
  have hunused : ∀ s : Slot A, s.isUsed = false → networkEvent net s = some s := by
    intro s hs; simp [hs]
  have hfirst : createLoop net { isUsed := true } (a :: rest) =
      createLoop net { log := [.attempt a] } rest := by
    simp [ha]
  by_cases hall : ∀ b ∈ rest, net b = .refused
  · rw [createClient, hfirst, createLoop_refused rfl rfl hall]
    refine (tried_iff (k := 0) rfl (hunused _ rfl)).trans (iff_of_true ?_ hall)
    rw [expectedLog_refused (forall_mem_cons.2 ⟨ha, hall⟩)]; simp
  · obtain ⟨t, p, ht, hu, hsilent⟩ :=
      createLoop_started (s := { log := [.attempt a] }) rfl rfl (by simp [Silent]) hall
    rw [createClient, hfirst, ht]
    rcases p with _ | ⟨b, p⟩ <;>
      exact iff_of_false ((not_congr (tried_iff (k := 0) rfl (hunused _ (by exact hu)))).2 (hsilent.log_ne id _)) hall

/-- The addresses are all tried before a failure is reported, and what connects is reported. -/
theorem tried_createClient_iff (net : A → Outcome) (connectionId : Nat) (res : List A) :
    Tried net (createClient net connectionId res) (expectedLog net connectionId res) ↔
      AllTried (res.map net) := by
  rcases res with _ | ⟨a, rest⟩
  · exact (tried_iff (k := 0) rfl rfl).trans (by simp)
  cases ha : net a with
  | refused => rw [tried_refused_iff ha]; simp [ha]
  | connects =>
    rw [createClient_started (by simp [ha])]
    refine (tried_iff (k := 1) (by simp [ha]; rfl) (by simp)).trans ?_
    simp [ha]; split <;> rfl
  | failed =>
    rcases rest with _ | ⟨b, rest⟩
    · refine (tried_iff (k := 1) (by simp [ha]; rfl) rfl).trans ?_
      simp [ha]
    cases hb : net b with
    | refused =>
      simp only [map_cons, ha, hb, AllTried, iff_false]
      rintro ⟨n, t, hn, -⟩
      have := hn (1 + n) (by omega)
      simp [networkEvents_add, ha, hb] at this
    | connects =>
      refine (tried_iff (k := 2) (by simp [ha, hb]; rfl) (by simp)).trans ?_
      simp [ha, hb]
    | failed =>
      refine (tried_iff (k := 2) (by simp [ha, hb]; rfl) (by simp)).trans ?_
      cases rest <;> simp [ha, hb]

/-- Two addresses fail, and the third one is not tried. -/
theorem third_address_not_tried :
    (networkEvents id 2 (createClient id 7 [.failed, .failed, .connects])).map Slot.log =
      some [.attempt .failed, .attempt .failed, .failure 7] := by decide

end ConnectAttempts
end S2OPC
