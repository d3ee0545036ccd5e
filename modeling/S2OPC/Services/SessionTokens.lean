import S2OPC.Services.SessionTimers

/-!
# S2OPC.Services.SessionTokens

The session that a token stands for, in a process that has client sessions too: they take their entries
from the same table. In a free entry and in that of a client session the null NodeId stands in place of
the token, and the numbers drawn for tokens are not compared with those in use.
-/

namespace S2OPC
namespace Session

variable {max : Nat}

/-- The table, and for each entry that holds an open server session the number issued as its token. -/
structure Process (max : Nat) where
  server : Server max
  issued : Fin max → Option UInt32

def Process.initial (max : Nat) : Process max := ⟨Session.initial max, fun _ => none⟩

/-- Events of the server, and what a client session does to an entry that holds no server session: it
takes the entry, moves to a state and a channel, and gives it back. -/
inductive ProcessEvent (max : Nat) where
  | server (event : Event max)
  | client (s : Fin max) (valid : Bool) (state : State) (channel : Option Channel)

def Event.freshToken : Event max → Option UInt32
  | .createSession _ r _ => some r.freshToken
  | _ => none

/-- A session that is open after an event and was not before is the one that the event created. -/
def Process.serverStep (p : Process max) (event : Event max) (srv' : Server max) : Process max where
  server := srv'
  issued s :=
    if (srv'.sessions s).valid then
      if (p.server.sessions s).valid then p.issued s else event.freshToken
    else none

def processStep (p : Process max) : ProcessEvent max → Option (Process max × Output max)
  | .server event =>
    (step p.server event).map fun (srv', output) => (p.serverStep event srv', output)
  | .client s valid state channel =>
    if p.issued s = none then
      let entry := { p.server.sessions s with valid, state, channel }
      some ({ p with server := p.server.set s entry }, .silent)
    else some (p, .silent)

/-- The number drawn for a new session is not zero, nor the one of an open session. -/
def Draws (p : Process max) : ProcessEvent max → Prop
  | .server (.createSession _ r _) => r.freshToken ≠ 0 ∧ ∀ s, p.issued s ≠ some r.freshToken
  | _ => True

def RunDraws (events : List (ProcessEvent max)) : Prop :=
  Fallible.Each (fun p event => (processStep p event).map Prod.fst) Draws (Process.initial max) events

def Entry.KeepsToken (old new : Entry) : Prop :=
  new.valid = old.valid ∧ new.token = old.token ∨ new.valid = false ∧ new.token = NodeId.opcua 0

variable {srv srv' : Server max} {event : Event max} {output : Output max} {p : Process max}
  {s : Fin max}

theorem step_tokens (h : step srv event = some (srv', output)) : ∃ new : Option (Fin max), ∀ s,
    (srv.sessions s).KeepsToken (srv'.sessions s) ∨
    new = some s ∧ (srv.sessions s).valid = false ∧ (srv'.sessions s).valid = true ∧
      ∃ n, event.freshToken = some n ∧ (srv'.sessions s).token = NodeId.opcua n := by
  by_cases hcreate : ∃ c r d, event = .createSession c r d
  · obtain ⟨c, r, d, rfl⟩ := hcreate
    obtain ⟨rfl, -⟩ | ⟨s, hunused, hentry⟩ := createSession_outcome h
    · exact ⟨none, fun s => .inl (.inl ⟨rfl, rfl⟩)⟩
    refine ⟨some s, fun t => ?_⟩
    by_cases hts : t = s
    · subst hts
      obtain ⟨entry, rfl, -⟩ | ⟨_, rfl, -⟩ | ⟨_, rfl, -⟩ := hentry
      · rw [Server.set_same]; exact .inl (.inr ⟨rfl, rfl⟩)
      all_goals
        refine .inr ⟨rfl, hunused, ?_, r.freshToken, rfl, ?_⟩ <;>
          simp [Server.startTimer, Server.create]
    · obtain ⟨entry, rfl, -⟩ | ⟨_, rfl, -⟩ | ⟨_, rfl, -⟩ := hentry
      all_goals
        simp [Server.startTimer, Server.create, srv.set_of_ne hts, Entry.KeepsToken]
  · refine ⟨none, fun s => .inl ?_⟩
    have hchange := step_changes h s
    generalize srv'.sessions s = new at hchange ⊢
    cases hchange with
    | closed entry => exact .inr ⟨rfl, rfl⟩
    | created c r d timer heq => exact absurd ⟨c, r, d, heq⟩ hcreate
    | same _ | orphaned _ _ | timed _ _ | activated _ _ _ _ _ _ => exact .inl ⟨rfl, rfl⟩

/-- The tokens are the issued numbers, one for each open server session, and the null NodeId. -/
structure Process.Inv (p : Process max) : Prop where
  valid : ∀ s n, p.issued s = some n → (p.server.sessions s).valid = true
  token : ∀ s, (p.server.sessions s).token = NodeId.opcua ((p.issued s).getD 0)
  nonzero : ∀ s, p.issued s ≠ some 0
  distinct : ∀ s t n, p.issued s = some n → p.issued t = some n → s = t

theorem Process.Inv.issued_of_free (h : p.Inv) (hfree : (p.server.sessions s).valid = false) :
    p.issued s = none := by
  by_contra hne
  obtain ⟨n, hn⟩ := Option.ne_none_iff_exists'.mp hne
  rw [h.valid s n hn] at hfree; cases hfree

theorem Process.Inv.serverStep (h : p.Inv) (hdraws : Draws p (.server event))
    (hstep : step p.server event = some (srv', output)) : (p.serverStep event srv').Inv := by
  obtain ⟨new, htokens⟩ := step_tokens hstep
  have hissued : ∀ s, (srv'.sessions s).token =
        NodeId.opcua (((p.serverStep event srv').issued s).getD 0) ∧
      ∀ n, (p.serverStep event srv').issued s = some n →
        p.issued s = some n ∨ new = some s ∧ event.freshToken = some n := by
    intro s; simp only [Process.serverStep]
    obtain (⟨hvalid, htoken⟩ | ⟨hvalid, htoken⟩) | ⟨hnew, hunused, hvalid, n, hn, htoken⟩ := htokens s
    · cases hold : (p.server.sessions s).valid with
      | false => simp [hvalid, hold, htoken, h.token, h.issued_of_free hold]
      | true => simp +contextual [hvalid, hold, htoken, h.token]
    · simp [hvalid, htoken]
    · simp [hvalid, hunused, hn, htoken, hnew]
  have hfresh : ∀ n, event.freshToken = some n → n ≠ 0 ∧ ∀ t, p.issued t ≠ some n := by
    intro n hn
    cases event with
    | createSession c r d => cases hn; exact hdraws
    | _ => cases hn
  refine ⟨fun s n hn => ?_, fun s => (hissued s).1, fun s hs => ?_, fun s t n hs ht => ?_⟩
  · by_contra hne; simp [Process.serverStep, show ¬(srv'.sessions s).valid = true from hne] at hn
  · obtain hold | ⟨-, hn⟩ := (hissued s).2 0 hs
    · exact h.nonzero s hold
    · exact (hfresh 0 hn).1 rfl
  · obtain hs' | ⟨hs', hn⟩ := (hissued s).2 n hs <;> obtain ht' | ⟨ht', hn'⟩ := (hissued t).2 n ht
    · exact h.distinct s t n hs' ht'
    · exact absurd hs' ((hfresh n hn').2 s)
    · exact absurd ht' ((hfresh n hn).2 t)
    · rw [hs', Option.some.injEq] at ht'; exact ht'

theorem Process.Inv.step (h : p.Inv) {p' : Process max} {e : ProcessEvent max} (hdraws : Draws p e)
    (hstep : processStep p e = some (p', output)) : p'.Inv := by
  cases e with
  | server event =>
    obtain ⟨⟨srv', out⟩, hsrv, heq⟩ := Option.map_eq_some_iff.mp hstep
    cases heq; exact h.serverStep hdraws hsrv
  | client s valid state channel =>
    simp only [processStep] at hstep
    split at hstep
    · rename_i hnone; cases hstep
      refine ⟨fun t n ht => ?_, fun t => ?_, h.nonzero, h.distinct⟩ <;> by_cases hts : t = s
      · subst hts; rw [show p.issued t = some n from ht] at hnone; cases hnone
      · rw [p.server.set_of_ne hts]; exact h.valid t n ht
      · subst hts; rw [Server.set_same]; exact h.token t
      · rw [p.server.set_of_ne hts]; exact h.token t
    · cases hstep; exact h

theorem equal_opcua {n : UInt32} {token : NodeId} :
    NodeId.equal (NodeId.opcua n) token = true ↔ token = NodeId.opcua n := by
  obtain ⟨ns, data⟩ := token
  cases data <;> simp [NodeId.equal, NodeId.opcua]
  constructor <;> rintro ⟨rfl, rfl⟩ <;> exact ⟨rfl, rfl⟩

theorem Process.Inv.lookup (h : p.Inv) {token : NodeId} (hnull : token ≠ NodeId.opcua 0) :
    serverGetSessionFromToken p.server token = some s ↔
      ∃ n, p.issued s = some n ∧ token = NodeId.opcua n := by
  have hfound : ∀ t, NodeId.equal (p.server.sessions t).token token = true →
      ∃ n, p.issued t = some n ∧ token = NodeId.opcua n := by
    intro t ht
    rw [h.token, equal_opcua] at ht
    cases hissued : p.issued t with
    | none => rw [hissued] at ht; exact absurd ht hnull
    | some n => rw [hissued] at ht; exact ⟨n, rfl, ht⟩
  constructor
  · intro hs; exact hfound s (lastSession_sound hs)
  rintro ⟨n, hn, rfl⟩
  cases hlast : serverGetSessionFromToken p.server (NodeId.opcua n) with
  | none =>
    have hs := lastSession_eq_none hlast s
    rw [h.token, hn, Option.getD_some, equal_opcua.mpr rfl] at hs; cases hs
  | some t =>
    obtain ⟨m, hm, heq⟩ := hfound t (lastSession_sound hlast)
    cases heq; rw [h.distinct t s n hm hn]

/-- If the numbers drawn for new sessions are not zero and not in use, a token other than the null
NodeId is resolved to the open server session it was issued for, and to no other entry, and no two
open server sessions have the same token. -/
theorem tokens_resolve {events : List (ProcessEvent max)} {p : Process max}
    {history : List (ProcessEvent max × Output max)} (hdraws : RunDraws events)
    (hrun : Fallible.trace processStep (Process.initial max) events = some (p, history)) :
    (∀ token s, token ≠ NodeId.opcua 0 → (serverGetSessionFromToken p.server token = some s ↔
      ∃ n, p.issued s = some n ∧ token = NodeId.opcua n)) ∧
    (∀ s t n, p.issued s = some n → p.issued t = some n → s = t) ∧
    (∀ s n, p.issued s = some n → (p.server.sessions s).valid = true) := by
  have hinitial : (Process.initial max).Inv := by
    refine ⟨fun _ _ h => ?_, fun _ => rfl, fun _ h => ?_, fun _ _ _ h => ?_⟩ <;> cases h
  have hinv := Fallible.Each.trace_invariant (fun _ _ _ _ h hd hs => h.step hd hs) hinitial hdraws hrun
  exact ⟨fun token s hnull => hinv.lookup hnull, hinv.distinct, hinv.valid⟩

def clientAndServer : List (ProcessEvent 2) :=
  [.client 1 true .init none, .server (.channelConnected 1 true),
    .server (.createSession 1 (createRequest 7) (delivery true))]

theorem token_seven_resolves : RunDraws clientAndServer ∧ ∃ p history,
    Fallible.trace processStep (Process.initial 2) clientAndServer = some (p, history) ∧
      serverGetSessionFromToken p.server (NodeId.opcua 7) = some 0 := by
  have hdraws : RunDraws clientAndServer := by
    refine ⟨trivial, fun p₁ h₁ => ⟨trivial, fun p₂ h₂ => ⟨⟨by decide, ?_⟩, fun _ _ => trivial⟩⟩⟩
    obtain rfl := Option.some.inj h₁; obtain rfl := Option.some.inj h₂; decide
  obtain ⟨p, history, hrun, hissued⟩ : ∃ p history,
      Fallible.trace processStep (Process.initial 2) clientAndServer = some (p, history) ∧
        p.issued 0 = some 7 := ⟨_, _, rfl, rfl⟩
  exact ⟨hdraws, p, history, hrun,
    ((tokens_resolve hdraws hrun).1 _ 0 (by decide)).mpr ⟨7, hissued, rfl⟩⟩

/-- The null NodeId is resolved to the entry of a client session, and two server sessions are issued
one number. -/
theorem null_token_resolves_to_client :
    (∃ p history, Fallible.trace processStep (Process.initial maxSessions)
        [.client 19 true .init none] = some (p, history) ∧
      serverGetSessionFromToken p.server (NodeId.opcua 0) = some 19 ∧ p.issued 19 = none) ∧
    ∃ p history, Fallible.trace processStep (Process.initial maxSessions)
        [.server (.channelConnected 1 true),
          .server (.createSession 1 (createRequest 7) (delivery true)),
          .server (.createSession 1 (createRequest 7) (delivery true))] = some (p, history) ∧
      p.issued 18 = some 7 ∧ p.issued 19 = some 7 :=
  ⟨⟨_, _, rfl, rfl, rfl⟩, _, _, rfl, rfl, rfl⟩

end Session
end S2OPC
