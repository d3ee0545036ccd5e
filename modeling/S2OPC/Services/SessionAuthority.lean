import S2OPC.Services.Session

/-!
# S2OPC.Services.SessionAuthority

For whom a server executes requests, over all runs of the session table. `Change` says once what an
event can make of an entry, and the invariant `Sound` follows from it.
-/

namespace S2OPC
namespace Session

open Option

variable {max : Nat}

/-- The user authenticated by the event, when it is a successful activation of the session. -/
def activatedUser (s : Fin max) : Event max × Output max → Option User
  | (.activateSession _ r _, .response answer sent) =>
    if answer = ⟨some s, .ok⟩ ∧ sent then some r.user else none
  | _ => none

def lastActivation (history : History max) (s : Fin max) : Option User :=
  history.foldl (fun last seen => (activatedUser s seen).or last) none

theorem lastActivation_append (history : History max) (seen : Event max × Output max)
    (s : Fin max) :
    lastActivation (history ++ [seen]) s = (activatedUser s seen).or (lastActivation history s) := by
  simp [lastActivation]

/-- What holds of an entry between two events; `last` is the user of its last activation. -/
structure Entry.Sound (entry : Entry) (last : Option User) : Prop where
  activable : entry.valid = true → entry.state.activable = true
  user : entry.valid = true → entry.state ≠ .created → ∃ u, entry.user = some u ∧ last = some u
  unused : entry.valid = false → entry.closed = entry

def Entry.Keeps (entry : Entry) (c : Channel) (user : User) : Prop :=
  entry.channel ≠ some c → ∃ u, entry.user = some u ∧ u.equal user = true

inductive Change (s : Fin max) (event : Event max) (output : Output max) (old : Entry) :
    Entry → Prop where
  | same : activatedUser s (event, output) = none → Change s event output old old
  | closed (entry : Entry) : Change s event output old entry.closed
  | orphaned : activatedUser s (event, output) = none → old.state = .userActivated →
      Change s event output old { old with state := .scOrphaned, channel := none }
  | created (c : Channel) (r : CreateRequest) (d : Delivery) (timer : Bool) :
      event = .createSession c r d → Change s event output old
        { old with
          valid := true, state := .created, channel := some c,
          token := NodeId.opcua r.freshToken, timer }
  | timed : activatedUser s (event, output) = none → old.valid = true →
      Change s event output old { old with timer := true }
  | activated (c : Channel) (r : ActivateRequest) (d : Delivery) :
      event = .activateSession c r d → output = .response ⟨some s, .ok⟩ true →
      old.valid = true → Change s event output old (old.activated c r.user)

theorem Entry.closed_closed (entry : Entry) : entry.closed.closed = entry.closed := rfl

theorem Entry.sound_closed (entry : Entry) (last : Option User) : entry.closed.Sound last where
  activable := by simp [Entry.closed]
  user := by simp [Entry.closed]
  unused := fun _ => entry.closed_closed

variable {event : Event max} {output : Output max} {history : History max} {srv' srv : Server max}
  {c : Channel} {d : Delivery}

variable {s : Fin max} {answer : Answer max} {token : NodeId} {user : Option User}
  {treat : Option (Server max × Answer max)}

theorem Change.sound {old new : Entry} (h : Change s event output old new)
    (hold : old.Sound (lastActivation history s)) :
    new.Sound (lastActivation (history ++ [(event, output)]) s) := by
  rw [lastActivation_append]
  cases h with
  | same hnone => rw [hnone, none_or]; exact hold
  | closed entry => exact entry.sound_closed _
  | orphaned hnone hstate =>
    rw [hnone, none_or]
    refine ⟨fun _ => rfl, fun hvalid _ => hold.user hvalid (by simp [hstate]), fun hvalid => ?_⟩
    have hclosed := hold.unused hvalid
    rw [← hclosed]
    rfl
  | created c r d timer _ => exact ⟨fun _ => rfl, by simp, by simp⟩
  | timed hnone hvalid =>
    rw [hnone, none_or]
    exact ⟨hold.activable, hold.user, by simp [hvalid]⟩
  | activated c r d hevent houtput hvalid =>
    subst hevent houtput
    refine ⟨fun _ => rfl, fun _ _ => ⟨r.user, rfl, by simp [activatedUser]⟩, ?_⟩
    simp [Entry.activated, hvalid]

def Changes (srv : Server max) (event : Event max) (output : Output max) (srv' : Server max) : Prop :=
  ∀ s, Change s event output (srv.sessions s) (srv'.sessions s)

theorem Changes.close (h : Changes srv event output srv') (s : Fin max) :
    Changes srv event output (srv'.close s) := by
  intro t
  by_cases hts : t = s
  · subst hts; rw [Server.close, Server.set_same]; exact .closed _
  · rw [Server.close, srv'.set_of_ne hts]; exact h t

def Idle (event : Event max) (output : Output max) : Prop :=
  ∀ s, activatedUser s (event, output) = none

theorem Idle.unchanged (h : Idle event output) (hsessions : srv'.sessions = srv.sessions) :
    Changes srv event output srv' := by
  intro s; rw [hsessions]; exact .same (h s)

theorem Idle.set (h : Idle event output) (srv : Server max) (s : Fin max) {entry : Entry}
    (hentry : Change s event output (srv.sessions s) entry) :
    Changes srv event output (srv.set s entry) := by
  intro t
  by_cases hts : t = s
  · subst hts; rw [Server.set_same]; exact hentry
  · rw [srv.set_of_ne hts]; exact .same (h t)

theorem Idle.close (h : Idle event output) (srv : Server max) (s : Fin max) :
    Changes srv event output (srv.close s) :=
  (h.unchanged rfl).close s

theorem serverActivateSessionReqAndRespSm_cases (srv : Server max) (c : Channel) (s : Fin max)
    (r : ActivateRequest) :
    ((serverActivateSessionReqAndRespSm srv c s r).1 = srv ∧
      (serverActivateSessionReqAndRespSm srv c s r).2 ≠ .ok) ∨
    (serverActivateSessionReqAndRespSm srv c s r =
        (srv.set s ((srv.sessions s).activated c r.user), .ok) ∧
      (srv.sessions s).Keeps c r.user) := by
  have hkeeps : isSameUserServer (srv.sessions s).user r.user = true →
      (srv.sessions s).Keeps c r.user := by
    intro hsame _
    cases huser : (srv.sessions s).user with
    | none => simp [huser, isSameUserServer] at hsame
    | some u => exact ⟨u, rfl, by simpa [huser, isSameUserServer] using hsame⟩
  have hinternal : (srv.sessions s).Keeps c r.user →
      ((serverInternalActivateReqAndResp srv c s r).1 = srv ∧
        (serverInternalActivateReqAndResp srv c s r).2 ≠ .ok) ∨
      (serverInternalActivateReqAndResp srv c s r =
          (srv.set s ((srv.sessions s).activated c r.user), .ok) ∧
        (srv.sessions s).Keeps c r.user) := by
    intro hk; unfold serverInternalActivateReqAndResp
    split
    · exact .inr ⟨rfl, hk⟩
    · exact .inl ⟨rfl, by simp⟩
  unfold serverActivateSessionReqAndRespSm
  dsimp only
  split
  · split
    · rename_i hchannel
      exact hinternal fun hne => absurd hchannel hne
    · exact .inl ⟨rfl, by simp⟩
  · split
    · rename_i hchannel
      exact hinternal fun hne => absurd hchannel hne
    · split
      · rename_i hsame; exact hinternal (hkeeps hsame)
      · exact .inl ⟨rfl, by simp⟩
  · split
    · rename_i hboth; exact hinternal (hkeeps hboth.2)
    · exact .inl ⟨rfl, by simp⟩
  · exact .inl ⟨rfl, by simp⟩

theorem receiveActivateReq_cases (srv : Server max) (c : Channel) (r : ActivateRequest) :
    ((receiveActivateReq srv c r).1 = srv ∧ (receiveActivateReq srv c r).2.status ≠ .ok) ∨
    ∃ s, (srv.sessions s).valid = true ∧
      ((receiveActivateReq srv c r = (srv.close s, ⟨some s, .badInvalidState⟩) ∧
          (srv.sessions s).state.activable = false) ∨
        receiveActivateReq srv c r =
            (srv.set s ((srv.sessions s).activated c r.user), ⟨some s, .ok⟩) ∧
          (srv.sessions s).Keeps c r.user) := by
  unfold receiveActivateReq
  cases serverGetSessionFromToken srv r.token with
  | none => exact .inl ⟨rfl, by simp⟩
  | some s =>
    dsimp only
    cases hvalid : (srv.sessions s).valid with
    | false => exact .inl ⟨rfl, by simp⟩
    | true =>
      cases hactivable : (srv.sessions s).state.activable with
      | false => exact .inr ⟨s, hvalid, .inl ⟨rfl, hactivable⟩⟩
      | true =>
        simp only [Bool.not_true, Bool.false_eq_true, if_false]
        split
        · exact .inl ⟨rfl, by simp⟩
        split
        · rename_i hfailed; exact .inl ⟨rfl, hfailed⟩
        · obtain ⟨hsrv, hstatus⟩ | ⟨heq, hkeeps⟩ := serverActivateSessionReqAndRespSm_cases srv c s r
          · exact .inl ⟨hsrv, hstatus⟩
          · exact .inr ⟨s, hvalid, .inr ⟨by rw [heq], hkeeps⟩⟩

/-- What a CreateSession can do: refuse, take an unused entry and give it back, or keep it. -/
inductive Creation (srv : Server max) (c : Channel) (r : CreateRequest) :
    Server max → Answer max → Prop where
  | unsupported : r.userTokenPolicy = false → Creation srv c r srv ⟨none, .badServiceUnsupported⟩
  | full : r.userTokenPolicy = true → (lastSession fun s => !(srv.sessions s).valid) = none →
      Creation srv c r srv ⟨none, .badTooManySessions⟩
  | certificate (s : Fin max) : r.userTokenPolicy = true → (srv.sessions s).valid = false →
      r.clientCertificate = false →
      Creation srv c r ((srv.create s c r.freshToken).close s) ⟨none, .badSecurityChecksFailed⟩
  | failed (s : Fin max) : r.userTokenPolicy = true → (srv.sessions s).valid = false →
      r.clientCertificate = true → r.status ≠ .ok →
      Creation srv c r (srv.create s c r.freshToken) ⟨some s, r.status⟩
  | untimed (s : Fin max) : r.userTokenPolicy = true → (srv.sessions s).valid = false →
      r.clientCertificate = true → r.status = .ok → r.timer = false →
      Creation srv c r ((srv.create s c r.freshToken).close s) ⟨some s, .badResourceUnavailable⟩
  | good (s : Fin max) : r.userTokenPolicy = true → (srv.sessions s).valid = false →
      r.clientCertificate = true → r.status = .ok → r.timer = true →
      Creation srv c r ((srv.create s c r.freshToken).startTimer (some s)) ⟨some s, .ok⟩

theorem receiveCreateReq_spec (srv : Server max) (c : Channel) (r : CreateRequest) :
    ∃ srv' answer, receiveCreateReq srv c r = some (srv', answer) ∧ Creation srv c r srv' answer := by
  unfold receiveCreateReq serverCreateSessionReqAndRespSm
  cases hpolicy : r.userTokenPolicy with
  | false => exact ⟨_, _, rfl, .unsupported hpolicy⟩
  | true =>
    cases hfree : lastSession fun s => !(srv.sessions s).valid with
    | none => exact ⟨_, _, rfl, .full hpolicy hfree⟩
    | some s =>
      have hunused : (srv.sessions s).valid = false := by simpa using lastSession_sound hfree
      cases hcert : r.clientCertificate with
      | false => exact ⟨_, _, rfl, .certificate s hpolicy hunused hcert⟩
      | true =>
        by_cases hstatus : r.status = .ok
        · simp only [if_true, hstatus]
          cases htimer : r.timer with
          | false => exact ⟨_, _, rfl, .untimed s hpolicy hunused hcert hstatus htimer⟩
          | true => exact ⟨_, _, rfl, .good s hpolicy hunused hcert hstatus htimer⟩
        · simp only [if_true, if_neg hstatus]
          exact ⟨_, _, rfl, .failed s hpolicy hunused hcert hstatus⟩

theorem Creation.changes {r : CreateRequest}
    (h : Creation srv c r srv' answer) (hidle : Idle (.createSession c r d) output) :
    Changes srv (.createSession c r d) output srv' := by
  have hcreate : ∀ s, Changes srv (.createSession c r d) output (srv.create s c r.freshToken) :=
    fun s => hidle.set srv s (.created c r d (srv.sessions s).timer rfl)
  cases h with
  | unsupported _ => exact hidle.unchanged rfl
  | full _ _ => exact hidle.unchanged rfl
  | certificate s _ _ _ => exact (hcreate s).close s
  | failed s _ _ _ _ => exact hcreate s
  | untimed s _ _ _ _ _ => exact (hcreate s).close s
  | good s _ _ _ _ _ =>
    rw [Server.startTimer, Server.create, Server.set_same, Server.set_set]
    exact hidle.set srv s (.created c r d true rfl)

theorem receiveCloseReq_changes (hidle : Idle event output) (srv : Server max) (c : Channel)
    (token : NodeId) : Changes srv event output (receiveCloseReq srv c token).1 := by
  unfold receiveCloseReq
  cases serverGetSessionFromToken srv token with
  | none => exact hidle.unchanged rfl
  | some s =>
    dsimp only
    split
    · exact hidle.unchanged rfl
    · split
      all_goals first | exact hidle.close srv s | (split <;> exact hidle.close srv s)

structure Entry.Serves (entry : Entry) (c : Channel) : Prop where
  valid : entry.valid = true
  state : entry.state = .userActivated
  channel : entry.channel = some c

theorem serverValidateSessionServiceReq_accepted
    (h : serverValidateSessionServiceReq srv c token = (srv', .accepted s)) :
    srv' = srv ∧ (srv.sessions s).Serves c := by
  unfold serverValidateSessionServiceReq at h
  cases hfound : serverGetSessionFromToken srv token with
  | none => simp [hfound] at h
  | some t =>
    simp only [hfound] at h
    split at h
    · simp at h
    rename_i hvalid
    split at h
    · rename_i hserves; cases h; exact ⟨rfl, by simpa using hvalid, hserves.1, hserves.2⟩
    · split at h
      · simp at h
      · split at h <;> simp at h

theorem serverValidateSessionServiceReq_changes (hidle : Idle event output) (srv : Server max)
    (c : Channel) (token : NodeId) :
    Changes srv event output (serverValidateSessionServiceReq srv c token).1 := by
  unfold serverValidateSessionServiceReq
  cases serverGetSessionFromToken srv token with
  | none => exact hidle.unchanged rfl
  | some s =>
    dsimp only
    split
    · exact hidle.unchanged rfl
    split
    · exact hidle.unchanged rfl
    · split
      · exact hidle.unchanged rfl
      · split <;> exact hidle.close srv s

theorem serverReceiveSessionServiceReq_fst (srv : Server max) (c : Channel) (token : NodeId)
    (endpoint : Bool) (d : Delivery) :
    (serverReceiveSessionServiceReq srv c token endpoint d).1 = srv ∨
      (serverReceiveSessionServiceReq srv c token endpoint d).1 =
        (serverValidateSessionServiceReq srv c token).1 := by
  unfold serverReceiveSessionServiceReq
  split
  · exact .inl rfl
  refine .inr ?_
  obtain ⟨srv', validation⟩ := serverValidateSessionServiceReq srv c token
  cases validation with
  | refused status => rfl
  | accepted s =>
    dsimp only
    split
    · rfl
    · split
      · rfl
      · split <;> rfl

theorem serverReceiveSessionServiceReq_executed {endpoint : Bool}
    (h : serverReceiveSessionServiceReq srv c token endpoint d = (srv', .executed s user)) :
    (srv.sessions s).Serves c ∧ user = (srv.sessions s).user := by
  unfold serverReceiveSessionServiceReq at h
  split at h
  · simp at h
  split at h
  · simp at h
  rename_i hvalidated
  obtain ⟨rfl, hserves⟩ := serverValidateSessionServiceReq_accepted hvalidated
  split at h
  · simp at h
  split at h
  · simp at h
  · split at h
    · simp at h
    · cases h; exact ⟨hserves, rfl⟩

theorem respond_cases {sent : Bool}
    (h : respond sent srv answer = some (srv', output)) :
    output = .response answer sent ∧ ((sent = true ∧ srv' = srv) ∨
      (sent = false ∧ ∃ s, answer.session = some s ∧ srv' = srv.close s)) := by
  cases sent with
  | true => cases h; exact ⟨rfl, .inl ⟨rfl, rfl⟩⟩
  | false =>
    obtain ⟨closed, hclosed, heq⟩ := map_eq_some_iff.mp h
    cases heq
    cases hsession : answer.session with
    | none => rw [hsession] at hclosed; cases hclosed
    | some s => rw [hsession] at hclosed; cases hclosed; exact ⟨rfl, .inr ⟨rfl, s, rfl, rfl⟩⟩

theorem treatment_cases
    (h : serverReceiveSessionTreatmentReq srv d treat = some (srv', output)) :
    (srv' = srv ∧ output = .silent) ∨
    ∃ treated answer, treat = some (treated, answer) ∧ output = .response answer d.encoded ∧
      ((d.encoded = true ∧ srv' = treated) ∨
        (d.encoded = false ∧ ∃ s, answer.session = some s ∧ srv' = treated.close s)) := by
  unfold serverReceiveSessionTreatmentReq at h
  split at h
  · obtain ⟨⟨treated, answer⟩, htreat, hrespond⟩ := bind_eq_some_iff.mp h
    exact .inr ⟨treated, answer, htreat, respond_cases hrespond⟩
  · cases h; exact .inl ⟨rfl, rfl⟩

theorem onChannel_cases {treated : Option (Server max × Output max)}
    (h : onChannel srv c treated = some (srv', output)) :
    (srv' = srv ∧ output = .silent) ∨ treated = some (srv', output) := by
  unfold onChannel at h
  split at h
  · exact .inr h
  · cases h; exact .inl ⟨rfl, rfl⟩

theorem idle_of_not_activation (h : ∀ c r d, event ≠ .activateSession c r d) :
    Idle event output := by
  intro s
  cases event with
  | activateSession c r d => exact absurd rfl (h c r d)
  | _ => rfl

theorem idle_silent (event : Event max) : Idle event .silent := by
  intro s
  cases event <;> rfl

theorem idle_response (event : Event max) (answer : Answer max) (sent : Bool)
    (h : answer.status ≠ .ok ∨ sent = false) : Idle event (.response answer sent) := by
  intro s
  cases event with
  | activateSession c r d =>
    simp only [activatedUser]
    rw [if_neg]
    rintro ⟨hanswer, hsent⟩; subst hanswer
    simp [hsent] at h
  | _ => rfl

theorem Entry.channelLost_change (entry : Entry) (c : Channel) (s : Fin max)
    (hidle : Idle event output) : Change s event output entry (entry.channelLost c) := by
  unfold Entry.channelLost
  split
  · split
    · rename_i hstate; exact .orphaned (hidle s) hstate
    · exact .closed _
  · exact .same (hidle s)

theorem treatment_changes (hidle : Idle event output)
    (htreat : ∀ treated answer, treat = some (treated, answer) → Changes srv event output treated)
    (h : serverReceiveSessionTreatmentReq srv d treat = some (srv', output)) :
    Changes srv event output srv' := by
  obtain ⟨rfl, -⟩ | ⟨treated, answer, heq, -, hsrv⟩ := treatment_cases h
  · exact hidle.unchanged rfl
  · obtain ⟨-, rfl⟩ | ⟨-, s, -, rfl⟩ := hsrv
    · exact htreat _ answer heq
    · exact (htreat treated answer heq).close s

theorem activation_cases {r : ActivateRequest}
    (h : step srv (.activateSession c r d) = some (srv', output)) :
    (srv' = srv ∧ (output = .silent ∨ ∃ answer, output = .response answer true ∧
      answer.status ≠ .ok)) ∨
    (∃ s, srv' = srv.set s ((srv.sessions s).activated c r.user) ∧
      output = .response ⟨some s, .ok⟩ true ∧ (srv.sessions s).valid = true ∧
      (srv.sessions s).Keeps c r.user) ∨
    (∃ s answer sent entry, srv' = srv.set s (Entry.closed entry) ∧
      output = .response answer sent ∧ answer.session = some s ∧
      (answer.status ≠ .ok ∧ (srv.sessions s).valid = true ∧
        (srv.sessions s).state.activable = false ∨ sent = false)) := by
  obtain ⟨rfl, rfl⟩ | htreated := onChannel_cases h
  · exact .inl ⟨rfl, .inl rfl⟩
  obtain ⟨rfl, rfl⟩ | ⟨treated, answer, heq, rfl, hsrv⟩ := treatment_cases htreated
  · exact .inl ⟨rfl, .inl rfl⟩
  rw [some.injEq] at heq
  obtain ⟨hsame, hstatus⟩ | ⟨s, hvalid, ⟨hreq, hstate⟩ | ⟨hreq, hkeeps⟩⟩ :=
    receiveActivateReq_cases srv c r
  · rw [heq] at hsame hstatus
    obtain rfl : treated = srv := hsame
    obtain ⟨hsent, rfl⟩ | ⟨hsent, t, ht, rfl⟩ := hsrv
    · exact .inl ⟨rfl, .inr ⟨answer, by rw [hsent], hstatus⟩⟩
    · exact .inr (.inr ⟨t, answer, _, _, rfl, rfl, ht, .inr hsent⟩)
  · rw [heq] at hreq
    cases hreq; refine .inr (.inr ⟨s, _, _, (srv.sessions s).closed, ?_, rfl, rfl, .inl
      ⟨by simp, hvalid, hstate⟩⟩)
    obtain ⟨-, rfl⟩ | ⟨-, t, ht, rfl⟩ := hsrv
    · rfl
    · cases ht; simp [Server.close]
  · rw [heq] at hreq
    cases hreq; obtain ⟨hsent, rfl⟩ | ⟨hsent, t, ht, rfl⟩ := hsrv
    · exact .inr (.inl ⟨s, rfl, by rw [hsent], hvalid, hkeeps⟩)
    · cases ht; exact .inr (.inr ⟨s, _, _, _, Server.set_set .., rfl, rfl, .inr hsent⟩)

theorem step_changes (h : step srv event = some (srv', output)) : Changes srv event output srv' := by
  cases event with
  | channelConnected c allowed =>
    have hidle : Idle (.channelConnected c allowed) output := idle_of_not_activation (by simp)
    simp only [step] at h
    split at h
    all_goals
      cases h; exact hidle.unchanged rfl
  | channelLost c =>
    have hidle : Idle (.channelLost c) output := idle_of_not_activation (by simp)
    simp only [step] at h
    split at h
    · cases h
      exact fun s => (srv.sessions s).channelLost_change c s hidle
    · cases h; exact hidle.unchanged rfl
  | sessionTimeout s expired =>
    have hidle : Idle (.sessionTimeout s expired) output := idle_of_not_activation (by simp)
    simp only [step] at h
    cases hvalid : (srv.sessions s).valid with
    | false => simp only [hvalid, Bool.not_false, if_true] at h; cases h; exact hidle.unchanged rfl
    | true =>
      simp only [hvalid, Bool.not_true, Bool.false_eq_true, if_false] at h
      split at h
      · cases h; exact hidle.close srv s
      · cases h; exact hidle.set srv s (.timed (hidle s) hvalid)
  | createSession c r d =>
    have hidle : Idle (.createSession c r d) output := idle_of_not_activation (by simp)
    obtain ⟨rfl, -⟩ | htreated := onChannel_cases h
    · exact hidle.unchanged rfl
    · refine treatment_changes hidle (fun treated answer heq => ?_) htreated
      obtain ⟨srv₁, answer₁, heq₁, hcreation⟩ := receiveCreateReq_spec srv c r
      rw [heq] at heq₁
      cases heq₁; exact hcreation.changes hidle
  | activateSession c r d =>
    obtain ⟨rfl, rfl | ⟨answer, rfl, hne⟩⟩ | ⟨s, rfl, rfl, hvalid, -⟩ |
      ⟨s, answer, sent, entry, rfl, rfl, -, hwhy⟩ := activation_cases h
    · exact (idle_silent _).unchanged rfl
    · exact (idle_response _ _ _ (.inl hne)).unchanged rfl
    · intro t
      by_cases hts : t = s
      · subst hts; rw [Server.set_same]; exact .activated c r d rfl rfl hvalid
      · rw [srv.set_of_ne hts]; refine .same ?_; simp [activatedUser, Ne.symm hts]
    · exact (idle_response _ _ _ (hwhy.imp_left And.left)).set srv s (.closed entry)
  | closeSession c token d =>
    have hidle : Idle (.closeSession c token d) output := idle_of_not_activation (by simp)
    obtain ⟨rfl, -⟩ | htreated := onChannel_cases h
    · exact hidle.unchanged rfl
    · refine treatment_changes hidle (fun treated answer heq => ?_) htreated
      have hclose := receiveCloseReq_changes hidle srv c token
      rw [some.injEq] at heq
      rwa [heq] at hclose
  | serviceRequest c token endpoint d =>
    have hidle : Idle (.serviceRequest c token endpoint d) output := idle_of_not_activation (by simp)
    obtain ⟨rfl, -⟩ | htreated := onChannel_cases h
    · exact hidle.unchanged rfl
    rw [some.injEq] at htreated
    obtain hfst | hfst := serverReceiveSessionServiceReq_fst srv c token endpoint d
    · rw [htreated] at hfst; exact hidle.unchanged (congrArg Server.sessions hfst)
    · rw [htreated] at hfst
      dsimp only at hfst
      rw [hfst]
      exact serverValidateSessionServiceReq_changes hidle srv c token

def Server.Sound (history : History max) (srv : Server max) : Prop :=
  ∀ s, (srv.sessions s).Sound (lastActivation history s)

theorem Server.sound_initial : (initial max).Sound [] := by
  intro s; exact Entry.sound_closed ⟨false, .closed, none, NodeId.opcua 0, none, false⟩ none

theorem Server.Sound.step (hsound : srv.Sound history)
    (h : Session.step srv event = some (srv', output)) :
    srv'.Sound (history ++ [(event, output)]) := by
  intro s; exact (step_changes h s).sound (hsound s)

theorem run_sound {events : List (Event max)} (hrun : run events = some (srv, history)) :
    srv.Sound history :=
  Fallible.trace_invariant (P := Server.Sound) (fun _ _ _ _ _ hsound h => hsound.step h)
    Server.sound_initial hrun

theorem step_executed
    (h : step srv event = some (srv', .executed s user)) :
    ∃ c token endpoint d, event = .serviceRequest c token endpoint d ∧
      (srv.sessions s).Serves c ∧ user = (srv.sessions s).user := by
  cases event with
  | channelConnected | channelLost =>
    simp only [step] at h
    split at h <;> simp at h
  | sessionTimeout t expired =>
    simp only [step] at h
    split at h
    · simp at h
    · split at h <;> simp at h
  | createSession | activateSession | closeSession =>
    obtain ⟨-, hout⟩ | htreated := onChannel_cases h
    · simp at hout
    · obtain ⟨-, hout⟩ | ⟨_, _, -, hout, -⟩ := treatment_cases htreated <;> simp at hout
  | serviceRequest c token endpoint d =>
    obtain ⟨-, hout⟩ | htreated := onChannel_cases h
    · simp at hout
    · rw [some.injEq] at htreated
      exact ⟨c, token, endpoint, d, rfl, serverReceiveSessionServiceReq_executed htreated⟩

structure Authority (history : History max) (srv : Server max) (event : Event max)
    (srv' : Server max) (output : Output max) : Prop where
  /-- A request is executed on the channel of an activated session, for the user of its last
  successful activation. -/
  executed : ∀ s user, output = .executed s user → ∃ c token endpoint d u,
    event = .serviceRequest c token endpoint d ∧ (srv.sessions s).Serves c ∧
      user = some u ∧ lastActivation history s = some u
  -- A successful activation on another channel keeps the user.
  moved : ∀ c r d s, event = .activateSession c r d → output = .response ⟨some s, .ok⟩ true →
    (srv.sessions s).channel ≠ some c → ∃ old new, (srv.sessions s).user = some old ∧
      (srv'.sessions s).user = some new ∧ old.equal new = true
  -- An activation that is answered by an error, or not treated, changes no session.
  failed : ∀ c r d, event = .activateSession c r d →
    (output = .silent ∨ ∃ answer, output = .response answer true ∧ answer.status ≠ .ok) →
      srv'.sessions = srv.sessions
  -- An activation that cannot be answered closes its session, and changes no other.
  unanswered : ∀ c r d answer, event = .activateSession c r d → output = .response answer false →
    ∀ s, (srv'.sessions s = srv.sessions s ∧ answer.session ≠ some s) ∨
      (answer.session = some s ∧ (srv'.sessions s).valid = false)

theorem Server.Sound.authority (hsound : srv.Sound history)
    (h : Session.step srv event = some (srv', output)) :
    Authority history srv event srv' output := by
  refine ⟨?_, ?_, ?_, ?_⟩
  · rintro s user rfl; obtain ⟨c, token, endpoint, d, hevent, hserves, rfl⟩ := step_executed h
    obtain ⟨u, huser, hlast⟩ := (hsound s).user hserves.valid (by simp [hserves.state])
    exact ⟨c, token, endpoint, d, u, hevent, hserves, huser, hlast⟩
  · rintro c r d s rfl hout hmoved
    obtain ⟨-, rfl | ⟨answer, rfl, hne⟩⟩ | ⟨t, rfl, rfl, -, hkeeps⟩ |
      ⟨t, answer, sent, entry, -, rfl, -, hwhy⟩ := activation_cases h
    · simp at hout
    · cases hout; exact absurd rfl hne
    · cases hout; obtain ⟨old, hold, hequal⟩ := hkeeps hmoved
      exact ⟨old, r.user, hold, by rw [Server.set_same, Entry.activated], hequal⟩
    · cases hout; simp at hwhy
  · rintro c r d rfl hout
    obtain ⟨rfl, -⟩ | ⟨t, -, rfl, -⟩ | ⟨t, answer, sent, entry, -, rfl, -, ⟨-, hvalid, hstate⟩ | rfl⟩ :=
      activation_cases h
    · rfl
    · simp at hout
    · rw [(hsound t).activable hvalid] at hstate; cases hstate
    · simp at hout
  · rintro c r d answer rfl hout s
    obtain ⟨-, rfl | ⟨answer', rfl, -⟩⟩ | ⟨t, -, rfl, -⟩ | ⟨t, answer', sent, entry, rfl, rfl, ht, -⟩ :=
      activation_cases h
    · simp at hout
    · simp at hout
    · simp at hout
    · cases hout
      by_cases hst : s = t
      · subst hst; exact .inr ⟨ht, by rw [Server.set_same, Entry.closed]⟩
      · refine .inl ⟨srv.set_of_ne hst _, ?_⟩; rw [ht]; simp [Ne.symm hst]

def delivery (encoded : Bool) : Delivery := ⟨true, true, true, encoded⟩

def createRequest (freshToken : UInt32) : CreateRequest where
  userTokenPolicy := true
  clientCertificate := true
  freshToken := freshToken
  endpoints := .ok
  secured := true
  configurations := true
  clientNonceLength := 32
  signed := true
  applicationUri := true
  signature := true
  encryptsUserToken := false
  serverCertificate := true
  nonce := true
  timer := true

def activateRequest (token : UInt32) (user : User) : ActivateRequest where
  token := NodeId.opcua token
  identityToken := true
  authentication := .ok
  user := user
  secured := true
  signature := true
  nonce := true

def userNamed (bytes : List UInt8) (h : ∀ bs ∈ some bytes, bs.length < 2 ^ 31) : User :=
  .username ⟨some bytes, h⟩

def userA : User := userNamed [97] (by simp)
def userB : User := userNamed [98] (by simp)
def userA0B : User := userNamed [97, 0, 98] (by simp)
def userA0C : User := userNamed [97, 0, 99] (by simp)

def activatedBy (user : User) : List (Event maxSessions) :=
  [.channelConnected 1 true, .channelConnected 2 true,
    .createSession 1 (createRequest 7) (delivery true),
    .activateSession 1 (activateRequest 7 user) (delivery true)]

/-- After every run, every event is treated with the authority of the sessions. -/
theorem sessions_authority {events : List (Event max)} {srv srv' : Server max}
    {history : History max} {event : Event max} {output : Output max}
    (hrun : run events = some (srv, history)) (h : step srv event = some (srv', output)) :
    Authority history srv event srv' output :=
  (run_sound hrun).authority h

theorem activated_session_serves : ∃ srv history srv',
    run (activatedBy userA) = some (srv, history) ∧
    step srv (.serviceRequest 1 (NodeId.opcua 7) true (delivery true)) =
      some (srv', .executed 19 (some userA)) ∧
    Authority history srv (.serviceRequest 1 (NodeId.opcua 7) true (delivery true)) srv'
      (.executed 19 (some userA)) := by
  have hrun : ∃ srv history, run (activatedBy userA) = some (srv, history) ∧
      ∃ srv', step srv (.serviceRequest 1 (NodeId.opcua 7) true (delivery true)) =
        some (srv', .executed 19 (some userA)) := ⟨_, _, rfl, _, rfl⟩
  obtain ⟨srv, history, hrun, srv', hstep⟩ := hrun
  exact ⟨srv, history, srv', hrun, hstep, sessions_authority hrun hstep⟩

/-- A failed activation whose ServiceFault cannot be encoded closes the session of another user. And
an activation on another channel replaces a user by another whose name is the same C string. -/
theorem activation_changes_other_session :
    (∃ srv history srv' answer, run (activatedBy userA) = some (srv, history) ∧
      step srv (.activateSession 2 (activateRequest 7 userB) (delivery false)) =
        some (srv', .response answer false) ∧
      answer.status = .badInvalidState ∧
      (srv.sessions 19).channel = some 1 ∧ (srv'.sessions 19).channel = none ∧
      (srv.sessions 19).user = some userA ∧ (srv'.sessions 19).user = none) ∧
    (∃ srv history srv', run (activatedBy userA0B) = some (srv, history) ∧
      step srv (.activateSession 2 (activateRequest 7 userA0C) (delivery true)) =
        some (srv', .response ⟨some 19, .ok⟩ true) ∧
      (srv.sessions 19).channel = some 1 ∧ (srv'.sessions 19).channel = some 2 ∧
      (srv.sessions 19).user = some userA0B ∧ (srv'.sessions 19).user = some userA0C ∧
      userA0B ≠ userA0C) := by
  refine ⟨⟨_, _, _, _, rfl, rfl, rfl, rfl, rfl, rfl, rfl⟩, ⟨_, _, _, rfl, rfl, rfl, rfl, rfl, rfl, ?_⟩⟩
  decide

end Session
end S2OPC
