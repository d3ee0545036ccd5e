import S2OPC.Lib.Fallible
import S2OPC.AddressSpace.WriteFrame

/-!
# S2OPC.AddressSpace.Access

Access control of the values of variables: `read_Node_Attribute` and
`treat_write_request_WriteValue` of `address_space_i.imp`, for remote requests and, with the flag
`local_service_treatment` set, for those of the application.

The decisions of the authorization manager belong to the environment of each item: the application
may change them at any time.
-/

namespace S2OPC

open List Function Option

inductive Operation where
  | read
  | write
  | executable
  deriving DecidableEq, Repr

abbrev AuthorizationManager (User : Type) := Operation → NodeId → UInt32 → User → Option Bool

def getUserAuthorization {User : Type} (manager : AuthorizationManager User) (op : Operation)
    (nodeId : NodeId) (attributeId : UInt32) (user : User) : Bool :=
  (manager op nodeId attributeId user).getD false

inductive ReadStatus where
  | badAttributeIdInvalid
  | badDataEncodingInvalid
  | badNodeIdUnknown
  | badNotReadable
  | badUserAccessDenied
  | badOutOfMemory
  | badInternalError
  | badIndexRangeInvalid
  | badIndexRangeNoData
  deriving DecidableEq, Repr

inductive TimestampsToReturn where
  | source
  | server
  | both
  | neither
  deriving DecidableEq, Repr

structure DataRead (Obj : Type) where
  value : Option (RangeValue Obj)
  status : UInt32
  sourceTs : Timestamp
  serverTs : Timestamp

/-- What the environment decides during a read. There is no preferred text when the only one cannot
be copied. -/
structure ReadEnv (User Obj : Type) where
  manager : AuthorizationManager User
  now : Timestamp
  copyValue : Bool
  preferredText : Variant Obj → Option (Variant Obj)
  allocRange : Bool
  allocVariant : Bool
  allocElements : Bool
  elementCopy : Nat → Option Status
  otherAttribute : Node → UInt32 → User → Except ReadStatus (Variant Obj)

/-- One item of a read request, with the status its decoding gives: the attribute or the data
encoding may be invalid. -/
structure ReadValue where
  decoded : Except ReadStatus UInt32
  nodeId : NodeId
  indexRange : ByteString

structure Store (Obj : Type) where
  values : Values Obj
  localServiceTreatment : Bool

namespace Store

variable {Obj : Type}

def setLocalServiceTreatment (store : Store Obj) (b : Bool) : Store Obj :=
  { store with localServiceTreatment := b }

def initial (values : Values Obj) : Store Obj := ⟨values, false⟩

end Store

namespace AddressSpace

variable {User Obj : Type}

def isMandatoryAttribute (nodeClass : NodeClass) (aid : UInt32) : Bool :=
  -- NodeId, NodeClass, BrowseName, DisplayName
  aid ∈ [1, 2, 3, 4] ||
    match nodeClass with
    -- Value, DataType, ValueRank, ArrayDimensions, AccessLevel, UserAccessLevel, Historizing
    | .variable => aid ∈ [13, 14, 15, 16, 17, 18, 20]
    -- DataType, ValueRank, ArrayDimensions, IsAbstract
    | .variableType => aid ∈ [14, 15, 16, 8]
    -- EventNotifier
    | .object => aid ∈ [12]
    -- IsAbstract
    | .objectType => aid ∈ [8]
    -- IsAbstract, Symmetric
    | .referenceType => aid ∈ [8, 9]
    | .dataType => aid ∈ [8]
    -- Executable, UserExecutable
    | .method => aid ∈ [21, 22]
    -- EventNotifier, ContainsNoLoops
    | .view => aid ∈ [12, 11]

def returnStatus : Status → ReadStatus
  | .outOfMemory => .badOutOfMemory
  | _ => .badInternalError

def readValueStringIndexed (env : ReadEnv User Obj) (src : Variant Obj) (range : ByteString) :
    Option (Except ReadStatus (RangeValue Obj)) :=
  match NumericRange.parse env.allocRange range.cString with
  | .error .nok => some (.error .badIndexRangeInvalid)
  | .error status => some (.error (returnStatus status))
  | .ok dims =>
    match src.hasRange dims with
    | .error _ => some (.error .badIndexRangeInvalid)
    | .ok false => some (.error .badIndexRangeNoData)
    | .ok true =>
      (src.getRange env.allocElements env.elementCopy dims).map fun r => r.mapError returnStatus

def localizedValue (env : ReadEnv User Obj) (value : Variant Obj) : Option (Variant Obj) :=
  if value.builtInTypeId = .localizedText then env.preferredText value else some value

def readAddressSpaceValueValue (env : ReadEnv User Obj) (state : VariableState Obj)
    (indexRange : ByteString) : Option (Except ReadStatus (DataRead Obj)) :=
  match state.value with
  | .torn _ _ => none
  | .whole stored =>
    if env.copyValue = false then some (.error .badOutOfMemory)
    else
      let data (value : Option (RangeValue Obj)) : DataRead Obj :=
        ⟨value, state.status, state.sourceTs, env.now⟩
      if indexRange.length ≤ 0 then
        some (.ok (data ((localizedValue env stored).map .whole)))
      else if env.allocVariant = false then some (.error .badOutOfMemory)
      else
        -- a null pointer is refused by an assertion
        (localizedValue env stored).bind fun value =>
          (readValueStringIndexed env value indexRange).map fun r => r.map fun v => data (some v)

def readAddressSpaceAttributeValue (values : Values Obj) (env : ReadEnv User Obj) (user : User)
    (idx : Nat) (node : Node) (aid : UInt32) (indexRange : ByteString) :
    Option (Except ReadStatus (DataRead Obj)) :=
  if aid ≠ valueAttribute ∧ 0 < indexRange.length then some (.error .badIndexRangeNoData)
  else if aid = valueAttribute then readAddressSpaceValueValue env (values idx) indexRange
  else
    some ((env.otherAttribute node aid user).map fun v => ⟨some (.whole v), 0, ⟨0, 0⟩, env.now⟩)

def readNodeAttribute (store : Store Obj) (env : ReadEnv User Obj) (user : User) (idx : Nat)
    (node : Node) (nodeId : NodeId) (aid : UInt32) (indexRange : ByteString) :
    Option (Except ReadStatus (DataRead Obj)) :=
  if isMandatoryAttribute node.nodeClass aid = false then some (.error .badAttributeIdInvalid)
  else if node.nodeClass = .variable ∧ aid = valueAttribute then
    if store.localServiceTreatment then
      readAddressSpaceAttributeValue store.values env user idx node aid indexRange
    else if node.accessLevel &&& currentReadMask = 0 then some (.error .badNotReadable)
    else if getUserAuthorization env.manager .read nodeId aid user = false then
      some (.error .badUserAccessDenied)
    else readAddressSpaceAttributeValue store.values env user idx node aid indexRange
  else readAddressSpaceAttributeValue store.values env user idx node aid indexRange

def keepTimestamps (ttr : TimestampsToReturn) (data : DataRead Obj) : DataRead Obj :=
  match ttr with
  | .source => { data with serverTs := ⟨0, 0⟩ }
  | .server => { data with sourceTs := ⟨0, 0⟩ }
  | .both => data
  | .neither => { data with sourceTs := ⟨0, 0⟩, serverTs := ⟨0, 0⟩ }

/-- An item that fails is answered without a value. -/
def fillReadResponse (space : AddressSpace) (store : Store Obj) (env : ReadEnv User Obj)
    (user : User) (ttr : TimestampsToReturn) (rv : ReadValue) :
    Option (Except ReadStatus (DataRead Obj)) :=
  match rv.decoded with
  | .error status => some (.error status)
  | .ok aid =>
    match space.getNode rv.nodeId with
    | none => some (.error .badNodeIdUnknown)
    | some idx =>
      match space.nodes[idx]? with
      | none => none
      | some node =>
        (readNodeAttribute store env user idx node rv.nodeId aid rv.indexRange).map fun r =>
          r.map (keepTimestamps ttr)

def writeEnv (store : Store Obj) (manager : AuthorizationManager User) (user : User)
    (env : WriteEnv Obj) (wv : WriteValue Obj) : WriteEnv Obj :=
  { env with
    localTreatment := store.localServiceTreatment
    authorized := getUserAuthorization manager .write wv.nodeId valueAttribute user }

structure WriteTreatment (Obj : Type) where
  status : WriteStatus
  event : Option (DataChange Obj × Except ReadStatus (DataRead Obj))
  notified : Bool

def treatWriteRequestWriteValue (space : AddressSpace) (store : Store Obj)
    (manager : AuthorizationManager User) (user : User) (env : WriteEnv Obj)
    (readEnv : ReadEnv User Obj) (copied : Bool) (wv : WriteValue Obj) :
    Option (Store Obj × WriteTreatment Obj) :=
  (space.treatWriteValue store.values (writeEnv store manager user env wv) wv).bind fun r =>
    let written : Store Obj := { store with values := r.values }
    match r.event, space.getNode wv.nodeId, space.findNode wv.nodeId with
    | some event, some idx, some node =>
      let previous := written.localServiceTreatment
      let reading := written.setLocalServiceTreatment true
      (readAddressSpaceAttributeValue reading.values readEnv user idx node valueAttribute .null).map
        fun new =>
          let restored := reading.setLocalServiceTreatment previous
          (restored, ⟨r.status, some (event, new), !restored.localServiceTreatment && copied⟩)
    | _, _, _ => some (written, ⟨r.status, none, !written.localServiceTreatment && copied⟩)

inductive AccessItem (User Obj : Type) where
  | read (env : ReadEnv User Obj) (ttr : TimestampsToReturn) (rv : ReadValue)
  | write (manager : AuthorizationManager User) (env : WriteEnv Obj) (readEnv : ReadEnv User Obj)
      (copied : Bool) (wv : WriteValue Obj)

structure ItemRecord (Obj : Type) where
  before : Store Obj
  answer : Except ReadStatus (DataRead Obj) ⊕ WriteTreatment Obj
  after : Store Obj

def treatItem (space : AddressSpace) (user : User) (store : Store Obj) :
    AccessItem User Obj → Option (Store Obj × ItemRecord Obj)
  | .read env ttr rv =>
    (space.fillReadResponse store env user ttr rv).map fun r => (store, ⟨store, .inl r, store⟩)
  | .write manager env readEnv copied wv =>
    (space.treatWriteRequestWriteValue store manager user env readEnv copied wv).map fun r =>
      (r.1, ⟨store, .inr r.2, r.1⟩)

inductive AccessService (User Obj : Type) where
  | read (ttr : TimestampsToReturn) (items : List (ReadEnv User Obj × ReadValue))
  | write (items : List (AuthorizationManager User × WriteEnv Obj × ReadEnv User Obj × Bool ×
      WriteValue Obj))
  | refused

def AccessService.items : AccessService User Obj → List (AccessItem User Obj)
  | .read ttr items => items.map fun (env, rv) => .read env ttr rv
  | .write items =>
    items.map fun (manager, env, readEnv, copied, wv) => .write manager env readEnv copied wv
  | .refused => []

def treatService (space : AddressSpace) (user : User) (store : Store Obj)
    (service : AccessService User Obj) :
    Option (Store Obj × List (AccessItem User Obj × ItemRecord Obj)) :=
  Fallible.trace (space.treatItem user) store service.items

inductive AccessRequest (User Obj : Type) where
  | remote (user : User) (service : AccessService User Obj)
  -- a local request; `allocated`: there is memory for the response
  | application (user : User) (service : AccessService User Obj) (allocated : Bool)

def treatRequest (space : AddressSpace) (store : Store Obj) :
    AccessRequest User Obj → Option (Store Obj × List (AccessItem User Obj × ItemRecord Obj))
  | .remote user service => space.treatService user store service
  | .application user service allocated =>
    let previous := store.localServiceTreatment
    let treating := store.setLocalServiceTreatment true
    if allocated then
      (space.treatService user treating service).map fun r =>
        (r.1.setLocalServiceTreatment previous, r.2)
    else some (treating.setLocalServiceTreatment previous, [])

variable {space : AddressSpace} {user : User}

variable {store store' : Store Obj} {records : List (AccessItem User Obj × ItemRecord Obj)}

variable {env : WriteEnv Obj} {wv : WriteValue Obj} {node : Node}

theorem treatWriteRequestWriteValue_spec {manager : AuthorizationManager User}
    {readEnv : ReadEnv User Obj} {copied : Bool} {out : WriteTreatment Obj}
    (h : space.treatWriteRequestWriteValue store manager user env readEnv copied wv =
      some (store', out)) :
    ∃ r, space.treatWriteValue store.values (writeEnv store manager user env wv) wv = some r ∧
      store' = { store with values := r.values } ∧ out.status = r.status := by
  simp only [treatWriteRequestWriteValue, bind_eq_some_iff] at h
  obtain ⟨r, hr, h⟩ := h
  refine ⟨r, hr, ?_⟩
  split at h
  · obtain ⟨new, -, heq⟩ := map_eq_some_iff.mp h; cases heq; exact ⟨rfl, rfl⟩
  · cases h; exact ⟨rfl, rfl⟩

variable {item : AccessItem User Obj} {r : ItemRecord Obj} {request : AccessRequest User Obj}

theorem treatItem_flag
    (h : space.treatItem user store item = some (store', r)) :
    store'.localServiceTreatment = store.localServiceTreatment ∧ r.before = store ∧
      r.after = store' := by
  cases item with
  | read env ttr rv =>
    obtain ⟨a, -, heq⟩ := map_eq_some_iff.mp h
    cases heq; exact ⟨rfl, rfl, rfl⟩
  | write manager env readEnv copied wv =>
    obtain ⟨⟨store₁, out⟩, hwrite, heq⟩ := map_eq_some_iff.mp h
    cases heq; obtain ⟨w, -, hstore, -⟩ := treatWriteRequestWriteValue_spec hwrite
    exact ⟨by rw [hstore], rfl, rfl⟩

def TreatedUnder (space : AddressSpace) (user : User) (flag : Bool)
    (records : List (AccessItem User Obj × ItemRecord Obj)) (store : Store Obj) : Prop :=
  store.localServiceTreatment = flag ∧
    ∀ entry ∈ records, entry.2.before.localServiceTreatment = flag ∧
      entry.2.after.localServiceTreatment = flag ∧
      space.treatItem user entry.2.before entry.1 = some (entry.2.after, entry.2)

theorem treatService_flag {service : AccessService User Obj}
    (h : space.treatService user store service = some (store', records)) :
    TreatedUnder space user store.localServiceTreatment records store' := by
  have hstart : TreatedUnder space user store.localServiceTreatment [] store :=
    ⟨rfl, fun _ h => nomatch h⟩
  refine Fallible.trace_invariant ?_ hstart h
  rintro past s item s' r ⟨hs, hpast⟩ hstep; obtain ⟨hflag, hbefore, hafter⟩ := treatItem_flag hstep
  refine ⟨hflag.trans hs, fun entry hentry => ?_⟩
  rcases mem_append.mp hentry with hentry | hentry
  · exact hpast entry hentry
  · rw [mem_singleton.mp hentry]; subst hbefore hafter; exact ⟨hs, hflag.trans hs, hstep⟩

theorem treatRequest_flag
    (h : space.treatRequest store request = some (store', records)) :
    store'.localServiceTreatment = store.localServiceTreatment := by
  cases request with
  | remote user service => exact (treatService_flag h).1
  | application user service allocated =>
    cases allocated with
    | false => cases h; rfl
    | true => obtain ⟨r, -, heq⟩ := map_eq_some_iff.mp h; cases heq; rfl

/-- What a remote item may do: a value is answered, or a variable changed, only with the access
level of the node and the authorization of the user. -/
def ItemControlled (space : AddressSpace) (user : User) :
    AccessItem User Obj → ItemRecord Obj → Prop
  | .read env _ rv, r =>
    r.after = r.before ∧
    ∀ node data, rv.decoded = .ok valueAttribute → space.findNode rv.nodeId = some node →
      node.nodeClass = .variable → r.answer = .inl (.ok data) →
        node.accessLevel &&& currentReadMask ≠ 0 ∧
          getUserAuthorization env.manager .read rv.nodeId valueAttribute user = true
  | .write manager _ _ _ wv, r =>
    ∀ idx, r.after.values idx ≠ r.before.values idx →
      ∃ node, wv.attributeId = some valueAttribute ∧ space.getNode wv.nodeId = some idx ∧
        space.nodes[idx]? = some node ∧ node.nodeClass = .variable ∧
        node.accessLevel &&& currentWriteMask ≠ 0 ∧
        getUserAuthorization manager .write wv.nodeId valueAttribute user = true ∧
        ((r.after.values idx).status ≠ (r.before.values idx).status →
          node.accessLevel &&& statusWriteMask ≠ 0) ∧
        ((r.after.values idx).sourceTs ≠ (r.before.values idx).sourceTs →
          node.accessLevel &&& timestampWriteMask ≠ 0)

def readDenials : List ReadStatus := [.badNotReadable, .badUserAccessDenied]

theorem readAddressSpaceValueValue_error {env : ReadEnv User Obj} {state : VariableState Obj}
    {range : ByteString} {status : ReadStatus}
    (h : readAddressSpaceValueValue env state range = some (.error status)) :
    status ∉ readDenials := by
  have returned (s : Status) : returnStatus s ∉ readDenials := by cases s <;> decide
  unfold readAddressSpaceValueValue at h
  split at h
  · cases h
  split at h
  · cases h; decide
  split at h
  · cases h
  split at h
  · cases h; decide
  obtain ⟨value, -, h⟩ := bind_eq_some_iff.mp h
  obtain ⟨r, hr, h⟩ := map_eq_some_iff.mp h
  cases r with
  | ok v => cases h
  | error status' =>
    cases h
    unfold readValueStringIndexed at hr
    split at hr
    · cases hr; decide
    · cases hr; exact returned _
    split at hr
    · cases hr; decide
    · cases hr; decide
    obtain ⟨r, -, hr⟩ := map_eq_some_iff.mp hr
    cases r with
    | ok v => cases hr
    | error s => cases hr; exact returned s

theorem fillReadResponse_passes_iff {env : ReadEnv User Obj} (ttr : TimestampsToReturn)
    {rv : ReadValue} (hflag : store.localServiceTreatment = false)
    (haid : rv.decoded = .ok valueAttribute) (hnode : space.findNode rv.nodeId = some node)
    (hclass : node.nodeClass = .variable) :
    (∀ status ∈ readDenials, space.fillReadResponse store env user ttr rv ≠ some (.error status)) ↔
      node.accessLevel &&& currentReadMask ≠ 0 ∧
        getUserAuthorization env.manager .read rv.nodeId valueAttribute user = true := by
  obtain ⟨idx, hidx, hget⟩ := bind_eq_some_iff.mp hnode
  have hmandatory : isMandatoryAttribute .variable valueAttribute = true := rfl
  simp only [fillReadResponse, haid, hidx, hget, readNodeAttribute, hclass, hmandatory, hflag,
    true_and, Bool.true_eq_false, Bool.false_eq_true, if_false, if_true]
  split
  · rename_i hlevel
    exact iff_of_false (fun h => h .badNotReadable (by decide) rfl) fun h => h.1 hlevel
  rename_i hlevel
  split
  · rename_i hauth
    exact iff_of_false (fun h => h .badUserAccessDenied (by decide) rfl) fun h => by
      simp [hauth] at h
  rename_i hauth
  refine iff_of_true (fun status hstatus h => ?_) ⟨hlevel, by simpa using hauth⟩
  obtain ⟨r, hr, h⟩ := map_eq_some_iff.mp h
  cases r with
  | ok v => cases h
  | error s => cases h; exact readAddressSpaceValueValue_error hr hstatus

theorem treatWriteValue_changes {values : Values Obj} {r : WriteResult Obj} {idx : Nat}
    (hlocal : env.localTreatment = false) (h : space.treatWriteValue values env wv = some r)
    (hne : r.values idx ≠ values idx) :
    ∃ node, wv.attributeId = some valueAttribute ∧ space.getNode wv.nodeId = some idx ∧
      space.nodes[idx]? = some node ∧ node.nodeClass = .variable ∧
      node.accessLevel &&& currentWriteMask ≠ 0 ∧ env.authorized = true ∧
      ((r.values idx).status ≠ (values idx).status → node.accessLevel &&& statusWriteMask ≠ 0) ∧
      ((r.values idx).sourceTs ≠ (values idx).sourceTs →
        node.accessLevel &&& timestampWriteMask ≠ 0) := by
  rcases treatWriteValue_cases space values env wv with ⟨⟨status, heq⟩, -⟩ | ⟨i, node, hg, heq⟩
  · cases heq.symm.trans h; exact absurd rfl hne
  rw [heq] at h; obtain ⟨w, -, rfl⟩ := map_eq_some_iff.mp h
  -- only the variable that is designated changes
  obtain rfl : idx = i := by by_contra hi; exact hne (update_of_ne hi _ _)
  refine ⟨node, hg.attributeId_eq, hg.getNode_eq, hg.node_eq, hg.nodeClass_eq,
    by simpa [hlocal] using hg.writable, by simpa [hlocal] using hg.authorized, ?_, ?_⟩
  · intro hstatus hzero; apply hstatus
    simp only [grantedResult, update_self, variableAfter]
    split
    · simp [withMetadata, hlocal, hzero]
    · rfl
  · intro hts hzero; apply hts
    simp only [grantedResult, update_self, variableAfter]
    split
    · simp [withMetadata, hlocal, hzero]
    · rfl

theorem treatItem_controlled
    (hflag : store.localServiceTreatment = false)
    (h : space.treatItem user store item = some (store', r)) :
    ItemControlled space user item r := by
  cases item with
  | read env ttr rv =>
    obtain ⟨a, ha, heq⟩ := map_eq_some_iff.mp h
    cases heq; refine ⟨rfl, fun node data haid hnode hclass hanswer => ?_⟩
    cases hanswer; refine (fillReadResponse_passes_iff ttr hflag haid hnode hclass).mp ?_
    intro status _ h; rw [ha] at h; cases h
  | write manager env readEnv copied wv =>
    obtain ⟨⟨store₁, out⟩, hwrite, heq⟩ := map_eq_some_iff.mp h
    cases heq; obtain ⟨w, hw, hstore, -⟩ := treatWriteRequestWriteValue_spec hwrite
    subst hstore; intro idx hne
    exact treatWriteValue_changes hflag hw hne

def RemoteControlled (space : AddressSpace)
    (history : List (AccessRequest User Obj × List (AccessItem User Obj × ItemRecord Obj))) :
    Prop :=
  ∀ user service records, (.remote user service, records) ∈ history →
    ∀ entry ∈ records, entry.2.before.localServiceTreatment = false ∧
      entry.2.after.localServiceTreatment = false ∧ ItemControlled space user entry.1 entry.2

theorem treatRequest_controlled
    {past : List (AccessRequest User Obj × List (AccessItem User Obj × ItemRecord Obj))}
    (hflag : store.localServiceTreatment = false) (hpast : RemoteControlled space past)
    (hstep : space.treatRequest store request = some (store', records)) :
    RemoteControlled space (past ++ [(request, records)]) := by
  intro user service records' hmem entry hentry
  rcases mem_append.mp hmem with hmem | hmem
  · exact hpast user service records' hmem entry hentry
  · cases mem_singleton.mp hmem
    obtain ⟨hbefore, hafter, hitem⟩ := (treatService_flag hstep).2 entry hentry
    exact ⟨hbefore.trans hflag, hafter.trans hflag,
      treatItem_controlled (hbefore.trans hflag) hitem⟩

/-- Each request leaves the flag as it was. In every run from the start of the server it is down
whenever a remote item is treated, and remote items are controlled. -/
theorem remote_access_controlled (space : AddressSpace) (values : Values Obj)
    (requests : List (AccessRequest User Obj)) :
    (∀ (s s' : Store Obj) (request : AccessRequest User Obj)
      (records : List (AccessItem User Obj × ItemRecord Obj)),
      space.treatRequest s request = some (s', records) →
        s'.localServiceTreatment = s.localServiceTreatment) ∧
    ∀ store history, Fallible.trace space.treatRequest (Store.initial values) requests =
        some (store, history) →
      store.localServiceTreatment = false ∧ RemoteControlled space history := by
  refine ⟨fun s s' request records h => treatRequest_flag h, fun store history hrun => ?_⟩
  have hstart : (Store.initial values).localServiceTreatment = false ∧
      RemoteControlled space ([] : List (AccessRequest User Obj × _)) :=
    ⟨rfl, fun _ _ _ h => nomatch h⟩
  refine Fallible.trace_invariant (P := fun past s =>
    s.localServiceTreatment = false ∧ RemoteControlled space past) ?_ hstart hrun
  rintro past s request s' records ⟨hs, hpast⟩ hstep
  exact ⟨(treatRequest_flag hstep).trans hs, treatRequest_controlled hs hpast hstep⟩

def readOnlyManager : AuthorizationManager Unit := fun op _ _ _ => some (decide (op = .read))

def counterReadEnv : ReadEnv Unit Unit where
  manager := readOnlyManager
  now := ⟨5, 0⟩
  copyValue := true
  preferredText := some
  allocRange := true
  allocVariant := true
  allocElements := true
  elementCopy := fun _ => none
  otherAttribute := fun _ _ _ => .error .badInternalError

def counterRequests : List (AccessRequest Unit Unit) :=
  let writes : AccessService Unit Unit := .write
    [(readOnlyManager, { noMemoryEnv with copyNew := true }, counterReadEnv, true, counterWrite)]
  [.application () writes true,
    .remote () (.read .both [(counterReadEnv, ⟨.ok valueAttribute, ⟨1, .numeric 1⟩, .null⟩)]),
    .remote () writes]

def answers (history : List (AccessRequest Unit Unit × List (AccessItem Unit Unit × ItemRecord Unit))) :
    List (Except ReadStatus (DataRead Unit) ⊕ WriteTreatment Unit) :=
  history.flatMap fun entry => entry.2.map fun r => r.2.answer

/-- The application writes with success, then the client reads what was written and is denied the
write. -/
theorem counter_requests_controlled : ∃ store history,
    Fallible.trace counterSpace.treatRequest (Store.initial counterValues) counterRequests =
      some (store, history) ∧
    answers history =
      [.inr ⟨.ok, some (⟨⟨1, .numeric 1⟩, counterValues 0⟩,
          .ok ⟨some (.whole (.single (.int32 2))), 0, ⟨0, 0⟩, ⟨5, 0⟩⟩), false⟩,
        .inl (.ok ⟨some (.whole (.single (.int32 2))), 0, ⟨0, 0⟩, ⟨5, 0⟩⟩),
        .inr ⟨.badUserAccessDenied, none, true⟩] ∧
    store.localServiceTreatment = false ∧ RemoteControlled counterSpace history :=
  ⟨_, _, rfl, rfl,
    (remote_access_controlled counterSpace counterValues counterRequests).2 _ _ rfl⟩

end AddressSpace
end S2OPC
