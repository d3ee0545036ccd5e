import S2OPC.AddressSpace.Access
import S2OPC.Services.SessionAuthority

/-!
# S2OPC.Services.Mediation

The sessions of a server in front of its address space: `service_mgr_i.imp` hands the Read and Write
requests that a session serves to the address space, with the user of the session, and those of the
application without a session.
-/

namespace S2OPC
namespace Mediation

open List Option AddressSpace Session

variable {max : Nat} {Obj : Type}

structure State (max : Nat) (Obj : Type) where
  sessions : Server max
  store : Store Obj

/-- A request that a session serves asks for the given service. -/
inductive Event (max : Nat) (Obj : Type) where
  | session (event : Session.Event max) (service : AccessService (Option User) Obj)
  | application (user : Option User) (service : AccessService (Option User) Obj) (allocated : Bool)

structure Outcome (max : Nat) (Obj : Type) where
  output : Output max
  records : List (AccessItem (Option User) Obj × ItemRecord Obj)

def step (space : AddressSpace) (st : State max Obj) :
    Event max Obj → Option (State max Obj × Outcome max Obj)
  | .session event service =>
    (Session.step st.sessions event).bind fun (srv, output) =>
      match output with
      | .executed s user =>
        -- `treat_session_service_req`
        (space.treatRequest st.store (.remote user service)).map fun (store, records) =>
          (⟨srv, store⟩, ⟨.executed s user, records⟩)
      | output => some (⟨srv, st.store⟩, ⟨output, []⟩)
  | .application user service allocated =>
    (space.treatRequest st.store (.application user service allocated)).map fun (store, records) =>
      (⟨st.sessions, store⟩, ⟨.silent, records⟩)

def initial (values : Values Obj) : State max Obj := ⟨Session.initial max, .initial values⟩

def sessionHistory (past : List (Event max Obj × Outcome max Obj)) : History max :=
  past.filterMap fun
    | (.session event _, out) => some (event, out.output)
    | (.application _ _ _, _) => none

variable {space : AddressSpace} {st st' : State max Obj} {out : Outcome max Obj}
  {past : List (Event max Obj × Outcome max Obj)} {event : Session.Event max}
  {service : AccessService (Option User) Obj}

/-- A session event that is no executed request leaves the values alone. -/
theorem step_session (h : step space st (.session event service) = some (st', out)) :
    Session.step st.sessions event = some (st'.sessions, out.output) ∧
      ((st'.store = st.store ∧ out.records = []) ∨
        ∃ s user, out.output = .executed s user ∧
          space.treatService user st.store service = some (st'.store, out.records)) := by
  simp only [step, bind_eq_some_iff, Prod.exists] at h
  obtain ⟨srv, output, hstep, h⟩ := h
  cases output with
  | executed s user =>
    obtain ⟨⟨store, records⟩, hservice, heq⟩ := map_eq_some_iff.mp h
    cases heq; exact ⟨hstep, .inr ⟨s, user, rfl, hservice⟩⟩
  | silent | response _ _ | refused _ => cases h; exact ⟨hstep, .inl ⟨rfl, rfl⟩⟩

def Inv (past : List (Event max Obj × Outcome max Obj)) (st : State max Obj) : Prop :=
  st.sessions.Sound (sessionHistory past) ∧ st.store.localServiceTreatment = false

theorem Inv.step {event : Event max Obj} (hinv : Inv past st)
    (h : Mediation.step space st event = some (st', out)) : Inv (past ++ [(event, out)]) st' := by
  cases event with
  | session event service =>
    obtain ⟨hstep, hstore⟩ := step_session h
    refine ⟨by simpa [sessionHistory] using hinv.1.step hstep, ?_⟩
    rcases hstore with ⟨hsame, -⟩ | ⟨s, user, -, hservice⟩
    · rw [hsame]; exact hinv.2
    · exact (treatService_flag hservice).1.trans hinv.2
  | application user service allocated =>
    obtain ⟨⟨store, records⟩, hrequest, heq⟩ := map_eq_some_iff.mp h
    cases heq
    exact ⟨by simpa [sessionHistory] using hinv.1, (treatRequest_flag hrequest).trans hinv.2⟩

/-- What a user may do with the items of a service: each is controlled, and nothing else changes. -/
def Controlled (space : AddressSpace) (user : Option User) (service : AccessService (Option User) Obj)
    (store : Store Obj) (records : List (AccessItem (Option User) Obj × ItemRecord Obj))
    (store' : Store Obj) : Prop :=
  records.map Prod.fst = service.items ∧
    (∀ entry ∈ records, ItemControlled space user entry.1 entry.2) ∧
    ∀ idx, store'.values idx ≠ store.values idx →
      ∃ entry ∈ records, entry.2.after.values idx ≠ entry.2.before.values idx

theorem treatService_controlled {user : Option User} {store store' : Store Obj}
    {records : List (AccessItem (Option User) Obj × ItemRecord Obj)}
    (hflag : store.localServiceTreatment = false)
    (h : space.treatService user store service = some (store', records)) :
    Controlled space user service store records store' := by
  refine ⟨Fallible.trace_inputs h, fun entry hentry => ?_, fun idx => ?_⟩
  · obtain ⟨hbefore, -, hitem⟩ := (treatService_flag h).2 entry hentry
    exact treatItem_controlled (hbefore.trans hflag) hitem
  · have hstart : store.values idx ≠ store.values idx →
        ∃ entry ∈ ([] : List (AccessItem (Option User) Obj × ItemRecord Obj)),
          entry.2.after.values idx ≠ entry.2.before.values idx := fun hne => absurd rfl hne
    refine Fallible.trace_invariant (P := fun past s => s.values idx ≠ store.values idx →
      ∃ entry ∈ past, entry.2.after.values idx ≠ entry.2.before.values idx) ?_ hstart h
    intro past s item s' r hpast hstep hne
    obtain ⟨-, rfl, rfl⟩ := treatItem_flag hstep
    by_cases hs : r.before.values idx = store.values idx
    · exact ⟨(item, r), by simp, by rw [hs]; exact hne⟩
    · obtain ⟨entry, hentry, hentry'⟩ := hpast hs
      exact ⟨entry, mem_append_left _ hentry, hentry'⟩

/-- An event of the sessions reads and changes values only as a request on the channel of an activated
session, item by item, as far as the access levels of the variables and the authorizations of the user
allow who last activated this session. -/
def Mediated (space : AddressSpace) (past : List (Event max Obj × Outcome max Obj))
    (st : State max Obj) (event : Session.Event max) (service : AccessService (Option User) Obj)
    (st' : State max Obj) (out : Outcome max Obj) : Prop :=
  (st'.store = st.store ∧ out.records = []) ∨
    ∃ c token endpoint d s u, event = .serviceRequest c token endpoint d ∧
      (st.sessions.sessions s).Serves c ∧ lastActivation (sessionHistory past) s = some u ∧
      Controlled space (some u) service st.store out.records st'.store

/-- Whatever the sessions and the application have done before. -/
theorem values_mediated {values : Values Obj} {events : List (Event max Obj)}
    (hrun : Fallible.trace (step space) (initial values) events = some (st, past))
    (hstep : step space st (.session event service) = some (st', out)) :
    Mediated space past st event service st' out := by
  have hstart : Inv [] (initial values : State max Obj) := ⟨Server.sound_initial, rfl⟩
  have hinv := Fallible.trace_invariant (P := Inv)
    (fun _ _ _ _ _ hinv h => hinv.step h) hstart hrun
  obtain ⟨hsession, hsame | ⟨s, user, hout, hservice⟩⟩ := step_session hstep
  · exact .inl hsame
  · obtain ⟨c, token, endpoint, d, u, hevent, hserves, rfl, hlast⟩ :=
      (hinv.1.authority hsession).executed s user hout
    exact .inr ⟨c, token, endpoint, d, s, u, hevent, hserves, hlast,
      treatService_controlled hinv.2 hservice⟩

def managerForA : AuthorizationManager (Option User) := fun _ _ _ user => some (user = some userA)

def writeCounter : AccessService (Option User) Unit :=
  .write [(managerForA, { noMemoryEnv with copyNew := true },
    { counterReadEnv with
      manager := managerForA, otherAttribute := fun _ _ _ => .error .badInternalError },
    true, counterWrite)]

def serveWrite : Session.Event maxSessions :=
  .serviceRequest 1 (NodeId.opcua 7) true (delivery true)

theorem counter_written_by_user : ∃ st past st' out,
    Fallible.trace (step counterSpace) (initial counterValues)
      ((activatedBy userA).map fun event => .session event .refused) = some (st, past) ∧
    step counterSpace st (.session serveWrite writeCounter) = some (st', out) ∧
    (st'.store.values 0).value = .whole (.single (.int32 2)) ∧
    Mediated counterSpace past st serveWrite writeCounter st' out := by
  have hrun : ∃ st past, Fallible.trace (step counterSpace) (initial counterValues)
        ((activatedBy userA).map fun event => .session event .refused) = some (st, past) ∧
      ∃ st' out, step counterSpace st (.session serveWrite writeCounter) = some (st', out) ∧
        (st'.store.values 0).value = .whole (.single (.int32 2)) := ⟨_, _, rfl, _, _, rfl, rfl⟩
  obtain ⟨st, past, hrun, st', out, hstep, hvalue⟩ := hrun
  exact ⟨st, past, st', out, hrun, hstep, hvalue, values_mediated hrun hstep⟩

end Mediation
end S2OPC
