import S2OPC.Services.SessionAuthority

/-!
# S2OPC.Services.SessionTimers

What a failed CreateSession leaves behind. The entry, its token and its timer are taken one after the
other; a failure between the token and the timer returns the error and keeps the entry, so that a
session stays open which no timeout ever closes.

`createSession_timed` says for which requests that is so, and that otherwise every open session has
its timer armed.
-/

namespace S2OPC
namespace Session

open Server

variable {max : Nat}

/-- Every step after the token is a success: the endpoints of the response, the proof of possession
on a secured channel, the certificate where it is needed, and the nonce. -/
structure CreateRequest.Complete (r : CreateRequest) : Prop where
  endpoints : r.endpoints = .ok
  configurations : r.secured = true → r.configurations = true
  clientNonce : r.secured = true → lengthNonce ≤ r.clientNonceLength
  signed : r.secured = true → r.signed = true
  applicationUri : r.secured = true → r.applicationUri = true
  signature : r.secured = true → r.signature = true
  serverCertificate : r.secured = true ∨ r.encryptsUserToken = true → r.serverCertificate = true
  nonce : r.nonce = true

theorem serverCreateSessionReqDoCrypto_eq_ok_iff (r : CreateRequest) :
    serverCreateSessionReqDoCrypto r = .ok ↔ r.configurations = true ∧
      lengthNonce ≤ r.clientNonceLength ∧ r.signed = true ∧ r.applicationUri = true := by
  unfold serverCreateSessionReqDoCrypto
  by_cases hlength : r.clientNonceLength < lengthNonce
  · cases r.configurations <;> simp [hlength]
  · cases r.configurations <;> cases r.signed <;> cases r.applicationUri <;> simp [hlength]
    all_goals omega

theorem CreateRequest.status_eq_ok_iff (r : CreateRequest) : r.status = .ok ↔ r.Complete := by
  have hcrypto := serverCreateSessionReqDoCrypto_eq_ok_iff r
  constructor
  · intro h; unfold CreateRequest.status at h
    split at h
    · rename_i hne; exact absurd h hne
    rename_i hendpoints
    split at h
    · rename_i hne; exact absurd h hne.2
    rename_i hsecured
    split at h
    · simp at h
    rename_i hsignature
    split at h
    · simp at h
    rename_i hcertificate
    split at h
    · simp at h
    rename_i hnonce
    have hok : r.secured = true → serverCreateSessionReqDoCrypto r = .ok := by
      intro hs; by_contra hne
      exact hsecured ⟨hs, hne⟩
    refine ⟨by simpa using hendpoints, fun hs => ?_, fun hs => ?_, fun hs => ?_,
      fun hs => ?_, fun hs => ?_, fun hs => ?_, by simpa using hnonce⟩
    · exact (hcrypto.mp (hok hs)).1
    · exact (hcrypto.mp (hok hs)).2.1
    · exact (hcrypto.mp (hok hs)).2.2.1
    · exact (hcrypto.mp (hok hs)).2.2.2
    · by_contra hne; exact hsignature ⟨hs, by simpa using hne⟩
    · by_contra hne; exact hcertificate ⟨hs, by simpa using hne⟩
  · intro h; unfold CreateRequest.status
    rw [if_neg (by simpa using h.endpoints), if_neg, if_neg, if_neg, if_neg]
    · simp [h.nonce]
    · rintro ⟨hs, hne⟩; simp [h.serverCertificate hs] at hne
    · rintro ⟨hs, hne⟩; simp [h.signature hs] at hne
    · rintro ⟨hs, hne⟩
      exact hne (hcrypto.mpr
        ⟨h.configurations hs, h.clientNonce hs, h.signed hs, h.applicationUri hs⟩)

def SameOpen (srv srv' : Server max) : Prop :=
  ∀ s, (srv'.sessions s).valid = (srv.sessions s).valid ∧
    (srv'.sessions s).token = (srv.sessions s).token

def CreateCompletes (srv : Server max) (r : CreateRequest) (d : Delivery) : Prop :=
  r.userTokenPolicy = true → (∃ s, (srv.sessions s).valid = false) → r.clientCertificate = true →
    d.encoded = true → r.Complete

theorem lastSession_eq_none {p : Fin max → Bool} (h : lastSession p = none) (s : Fin max) :
    p s = false := by
  have hs := List.find?_eq_none.mp h s (by simp); simpa using hs

variable {srv' srv : Server max} {output : Output max} {history : History max}

variable {d : Delivery} {c : Channel} {r : CreateRequest} {s : Fin max}

theorem createSession_cases (h : step srv (.createSession c r d) = some (srv', output)) :
    (srv' = srv ∧ output = .silent) ∨
    ∃ treated answer, Creation srv c r treated answer ∧ output = .response answer d.encoded ∧
      ((d.encoded = true ∧ srv' = treated) ∨
        (d.encoded = false ∧ ∃ s, answer.session = some s ∧ srv' = treated.close s)) := by
  obtain hsilent | htreated := onChannel_cases h
  · exact .inl hsilent
  obtain hsilent | ⟨treated, answer, heq, hout, hsrv⟩ := treatment_cases htreated
  · exact .inl hsilent
  · obtain ⟨srv₁, answer₁, heq₁, hcreation⟩ := receiveCreateReq_spec srv c r
    rw [heq] at heq₁
    cases heq₁; exact .inr ⟨treated, answer, hcreation, hout, hsrv⟩

theorem sameOpen_of_closed (hvalid : (srv.sessions s).valid = false)
    (hunused : (srv.sessions s).closed = srv.sessions s) (entry : Entry) :
    SameOpen srv (srv.set s entry.closed) := by
  intro t
  by_cases hts : t = s
  · subst hts; rw [set_same]; refine ⟨hvalid.symm, ?_⟩; rw [← hunused]; rfl
  · rw [srv.set_of_ne hts]; exact ⟨rfl, rfl⟩

theorem close_create (srv : Server max) (s : Fin max) (c : Channel) (token : UInt32) :
    ∃ entry : Entry, (srv.create s c token).close s = srv.set s entry.closed := by
  refine ⟨(srv.create s c token).sessions s, ?_⟩; simp [close, create]

theorem createSession_outcome (h : step srv (.createSession c r d) = some (srv', output)) :
    (srv' = srv ∧ (output = .silent ∨ CreateCompletes srv r d)) ∨
    ∃ s, (srv.sessions s).valid = false ∧
      ((∃ entry : Entry, srv' = srv.set s entry.closed ∧ CreateCompletes srv r d) ∨
        (∃ answer, srv' = srv.create s c r.freshToken ∧ output = .response answer true ∧
          answer.status ≠ .ok ∧ ¬CreateCompletes srv r d) ∨
        (∃ answer, srv' = (srv.create s c r.freshToken).startTimer (some s) ∧
          output = .response answer true ∧ answer.status = .ok ∧ CreateCompletes srv r d)) := by
  obtain ⟨rfl, rfl⟩ | ⟨treated, answer, hcreation, rfl, hsrv⟩ := createSession_cases h
  · exact .inl ⟨rfl, .inl rfl⟩
  cases hcreation with
  | unsupported hpolicy =>
    obtain ⟨-, rfl⟩ | ⟨-, t, ht, -⟩ := hsrv
    · exact .inl ⟨rfl, .inr fun hp => by simp [hpolicy] at hp⟩
    · cases ht
  | full hpolicy hfull =>
    obtain ⟨-, rfl⟩ | ⟨-, t, ht, -⟩ := hsrv
    · refine .inl ⟨rfl, .inr fun _ ⟨s, hs⟩ => ?_⟩
      have hvalid := lastSession_eq_none hfull s
      simp [hs] at hvalid
    · cases ht
  | certificate s hpolicy hunused hcert =>
    obtain ⟨-, rfl⟩ | ⟨-, t, ht, -⟩ := hsrv
    · obtain ⟨entry, hentry⟩ := close_create srv s c r.freshToken
      exact .inr ⟨s, hunused, .inl ⟨entry, hentry, fun _ _ hc => by simp [hcert] at hc⟩⟩
    · cases ht
  | failed s hpolicy hunused hcert hstatus =>
    obtain ⟨hsent, rfl⟩ | ⟨hsent, t, ht, rfl⟩ := hsrv
    · refine .inr ⟨s, hunused, .inr (.inl ⟨_, rfl, by rw [hsent], hstatus, fun hcompletes => ?_⟩)⟩
      exact hstatus (r.status_eq_ok_iff.mpr (hcompletes hpolicy ⟨s, hunused⟩ hcert hsent))
    · cases ht; obtain ⟨entry, hentry⟩ := close_create srv s c r.freshToken
      exact .inr ⟨s, hunused, .inl ⟨entry, hentry, fun _ _ _ he => by simp [hsent] at he⟩⟩
  | untimed s hpolicy hunused hcert hstatus htimer =>
    have hcompletes : CreateCompletes srv r d := fun _ _ _ _ => r.status_eq_ok_iff.mp hstatus
    obtain ⟨entry, hentry⟩ := close_create srv s c r.freshToken
    obtain ⟨-, rfl⟩ | ⟨-, t, ht, rfl⟩ := hsrv
    · exact .inr ⟨s, hunused, .inl ⟨entry, hentry, hcompletes⟩⟩
    · cases ht; rw [hentry, close, set_set]
      exact .inr ⟨s, hunused, .inl ⟨_, rfl, hcompletes⟩⟩
  | good s hpolicy hunused hcert hstatus htimer =>
    have hcompletes : CreateCompletes srv r d := fun _ _ _ _ => r.status_eq_ok_iff.mp hstatus
    obtain ⟨hsent, rfl⟩ | ⟨-, t, ht, rfl⟩ := hsrv
    · exact .inr ⟨s, hunused, .inr (.inr ⟨_, rfl, by rw [hsent], rfl, hcompletes⟩)⟩
    · cases ht; rw [close, startTimer, create, set_set, set_set]
      exact .inr ⟨s, hunused, .inl ⟨_, rfl, hcompletes⟩⟩

def Server.Timed (srv : Server max) : Prop :=
  ∀ s, (srv.sessions s).valid = true → (srv.sessions s).timer = true

def EventCompletes (srv : Server max) : Event max → Prop
  | .createSession _ r d => CreateCompletes srv r d
  | _ => True

def RunCompletes (events : List (Event max)) : Prop :=
  Fallible.Each (fun srv event => (step srv event).map Prod.fst) EventCompletes (initial max) events

theorem Server.Timed.set (htimed : srv.Timed) {entry : Entry}
    (hentry : entry.valid = true → entry.timer = true) : (srv.set s entry).Timed := by
  intro t
  by_cases hts : t = s
  · subst hts; rwa [set_same]
  · rw [srv.set_of_ne hts]; exact htimed t

theorem Server.Timed.createSession (htimed : srv.Timed) (hcompletes : CreateCompletes srv r d)
    (h : Session.step srv (.createSession c r d) = some (srv', output)) : srv'.Timed := by
  obtain ⟨rfl, -⟩ | ⟨s, -, ⟨entry, rfl, -⟩ | ⟨_, rfl, -, -, hfails⟩ | ⟨_, rfl, -, -, -⟩⟩ :=
    createSession_outcome h
  · exact htimed
  · exact htimed.set (by simp [Entry.closed])
  · exact absurd hcompletes hfails
  · rw [startTimer, create, set_same, set_set]
    exact htimed.set fun _ => rfl

theorem Server.Timed.step {event : Event max} (htimed : srv.Timed)
    (hcompletes : EventCompletes srv event) (h : Session.step srv event = some (srv', output)) :
    srv'.Timed := by
  by_cases hevent : ∃ c r d, event = .createSession c r d
  · obtain ⟨c, r, d, rfl⟩ := hevent; exact htimed.createSession hcompletes h
  · intro s
    have hold := htimed s
    have hchange := step_changes h s
    generalize srv'.sessions s = new at hchange ⊢
    cases hchange with
    | same _ => exact hold
    | closed entry => simp [Entry.closed]
    | orphaned _ _ => exact hold
    | created c r d timer heq => exact absurd ⟨c, r, d, heq⟩ hevent
    | timed _ _ => exact fun _ => rfl
    | activated c r d _ _ _ => exact hold

theorem run_timed {events : List (Event max)} (hcompletes : RunCompletes events)
    (hrun : run events = some (srv, history)) : srv.Timed :=
  Fallible.Each.trace_invariant (fun _ _ _ _ htimed hevent hstep => htimed.step hevent hstep)
    (fun s h => by simp [initial] at h) hcompletes hrun

/-- After every run: a CreateSession that fails leaves no session exactly when it completes once it
takes an entry. If every CreateSession of the run does, every open session has its timer armed. -/
theorem createSession_timed {events : List (Event max)} {srv : Server max} {history : History max}
    (hrun : run events = some (srv, history)) :
    (∀ c r d srv' answer sent,
      step srv (.createSession c r d) = some (srv', .response answer sent) →
      (((answer.status ≠ .ok ∨ sent = false) → SameOpen srv srv') ↔ CreateCompletes srv r d)) ∧
    (RunCompletes events → ∀ s, (srv.sessions s).valid = true → (srv.sessions s).timer = true) := by
  refine ⟨fun c r d srv' answer sent h => ?_, fun hcompletes => run_timed hcompletes hrun⟩
  obtain ⟨rfl, hout | hcompletes⟩ | ⟨s, hunused, ⟨entry, rfl, hcompletes⟩ |
    ⟨_, rfl, hout, hstatus, hfails⟩ | ⟨_, rfl, hout, hstatus, hcompletes⟩⟩ := createSession_outcome h
  · cases hout
  · exact iff_of_true (fun _ s => ⟨rfl, rfl⟩) hcompletes
  · exact iff_of_true (fun _ => sameOpen_of_closed hunused ((run_sound hrun s).unused hunused) entry) hcompletes
  · cases hout
    refine iff_of_false (fun hopen => ?_) hfails
    have hvalid := (hopen (.inl hstatus) s).1
    simp [create, hunused] at hvalid
  · cases hout
    refine iff_of_true (fun hfailed => ?_) hcompletes
    simp [hstatus] at hfailed

theorem createRequest_complete (token : UInt32) : (createRequest token).Complete :=
  ⟨rfl, fun _ => rfl, fun _ => Int.le_refl 32, fun _ => rfl, fun _ => rfl, fun _ => rfl,
    fun _ => rfl, rfl⟩

theorem activated_session_timed : RunCompletes (activatedBy userA) ∧
    ∃ srv history, run (activatedBy userA) = some (srv, history) ∧
      (srv.sessions 19).valid = true ∧ (srv.sessions 19).timer = true := by
  have hcompletes : RunCompletes (activatedBy userA) :=
    ⟨trivial, fun _ _ => ⟨trivial, fun _ _ =>
      ⟨fun _ _ _ _ => createRequest_complete 7, fun _ _ => ⟨trivial, fun _ _ => trivial⟩⟩⟩⟩
  obtain ⟨srv, history, hrun, hvalid⟩ : ∃ srv history,
      run (activatedBy userA) = some (srv, history) ∧ (srv.sessions 19).valid = true :=
    ⟨_, _, rfl, rfl⟩
  exact ⟨hcompletes, srv, history, hrun, hvalid, (createSession_timed hrun).2 hcompletes 19 hvalid⟩

/-- A client nonce of 31 bytes is refused, and the session stays open, without a timer. -/
theorem short_nonce_leaves_session : ∃ srv history srv',
    run [.channelConnected 1 true] = some (srv, history) ∧
    step srv (.createSession 1 { createRequest 7 with clientNonceLength := 31 } (delivery true)) =
      some (srv', .response (⟨some 19, .badNonceInvalid⟩ : Answer maxSessions) true) ∧
    (srv.sessions 19).valid = false ∧ (srv'.sessions 19).valid = true ∧
    (srv'.sessions 19).token = NodeId.opcua 7 ∧ (srv'.sessions 19).timer = false :=
  ⟨_, _, _, rfl, rfl, rfl, rfl, rfl, rfl⟩

end Session
end S2OPC
