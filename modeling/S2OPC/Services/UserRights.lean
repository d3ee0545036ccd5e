import S2OPC.AddressSpace.Access
import S2OPC.Services.CallMethod

/-!
# S2OPC.Services.UserRights

The attributes UserAccessLevel and UserExecutable against the checks of the Read, Write and Call
services. UserExecutable is computed from the answer of the authorization manager about the attribute
Executable, while `check_method_call_inputs` asks about UserExecutable.
-/

namespace S2OPC

open Option AddressSpace CallMethod

variable {User Obj : Type}

def userAccessLevelAttribute : UInt32 := 18
def executableAttribute : UInt32 := 21
def userExecutableAttribute : UInt32 := 22

def userAccessLevel (accessLevel : UInt8) (readAuth writeAuth : Bool) : UInt8 :=
  (if readAuth then accessLevel &&& currentReadMask else 0) |||
    if writeAuth then
      accessLevel &&& (currentWriteMask ||| statusWriteMask ||| timestampWriteMask)
    else 0

def newVariant (alloc : Bool) (v : Value Obj) : Except ReadStatus (Variant Obj) :=
  if alloc then .ok (.single v) else .error .badOutOfMemory

def ReadEnv.withUserRights (env : ReadEnv User Obj) (manager : AuthorizationManager User)
    (nodeId : NodeId) (alloc : Bool) : ReadEnv User Obj :=
  { env with
    manager := manager
    otherAttribute := fun node aid user =>
      if aid = userAccessLevelAttribute then
        newVariant alloc (.byte (userAccessLevel node.accessLevel
          (getUserAuthorization manager .read nodeId valueAttribute user)
          (getUserAuthorization manager .write nodeId valueAttribute user)))
      else if aid = userExecutableAttribute then
        newVariant alloc (.boolean (node.executable &&
          getUserAuthorization manager .executable nodeId executableAttribute user).toUInt8)
      else env.otherAttribute node aid user }

def CallEnv.withManager (env : CallEnv Obj User) (manager : AuthorizationManager User)
    (user : User) : CallEnv Obj User :=
  { env with
    user := user
    authorize := fun user nodeId =>
      getUserAuthorization manager .executable nodeId userExecutableAttribute user }

def writeDenials : List WriteStatus := [.badNotWritable, .badUserAccessDenied]

/-- What a read of an attribute of the node answers; it may fail, for want of memory or with an index
range. -/
def AttributeRead (space : AddressSpace) (manager : AuthorizationManager User) (user : User)
    (nodeId : NodeId) (aid : UInt32) (data : DataRead Obj) : Prop :=
  ∃ (store : Store Obj) (env : ReadEnv User Obj) (alloc : Bool) (ttr : _) (range : _),
    space.fillReadResponse store (env.withUserRights manager nodeId alloc) user ttr ⟨.ok aid, nodeId, range⟩ = some (.ok data)

/-- The attributes on the rights of the user tell what the services answer to the user. -/
structure RightsAgree (Obj : Type) (space : AddressSpace) (manager : AuthorizationManager User)
    (user : User) (nodeId : NodeId) (node : Node) : Prop where
  executable (data : DataRead Obj) (callEnv : CallEnv Obj User) (req : CallMethodRequest Obj) :
    node.nodeClass = .method → AttributeRead space manager user nodeId userExecutableAttribute data →
    req.methodId = nodeId → (space.findNode req.objectId).isSome = true →
    (data.value = some (.whole (.single (.boolean 1))) ↔
      checkMethodCallInputs space (callEnv.withManager manager user) req ≠
        some (StatusCode.badUserAccessDenied, none))
  accessLevel (data : DataRead Obj) (remote : Store Obj) :
    node.nodeClass = .variable → AttributeRead space manager user nodeId userAccessLevelAttribute data →
    remote.localServiceTreatment = false →
    ∃ level, data.value = some (.whole (.single (.byte level))) ∧
      (∀ (env : ReadEnv User Obj) (ttr : _) (range : _), (level &&& currentReadMask ≠ 0 ↔ ∀ status ∈ readDenials,
        space.fillReadResponse remote (env.withUserRights manager nodeId true) user ttr
          ⟨.ok valueAttribute, nodeId, range⟩ ≠ some (.error status))) ∧
      ∀ env (wv : WriteValue Obj) out, wv.nodeId = nodeId → wv.attributeId = some valueAttribute →
        (space.compat node wv.value.value).1 = true →
        space.treatWriteValue remote.values (writeEnv remote manager user env wv) wv = some out →
        (level &&& currentWriteMask ≠ 0 ↔ out.status ∉ writeDenials)

section

variable {space : AddressSpace} {store : Store Obj} {env : ReadEnv User Obj} {user : User}
  {nodeId : NodeId} {node : Node} {ttr : TimestampsToReturn} {range : ByteString} {aid : UInt32}
  {manager : AuthorizationManager User} {data : DataRead Obj}

theorem userAccessLevel_read (l : UInt8) (r w : Bool) :
    userAccessLevel l r w &&& currentReadMask ≠ 0 ↔ l &&& currentReadMask ≠ 0 ∧ r = true := by
  revert l; cases r <;> cases w <;> decide +kernel

theorem userAccessLevel_write (l : UInt8) (r w : Bool) :
    userAccessLevel l r w &&& currentWriteMask ≠ 0 ↔ l &&& currentWriteMask ≠ 0 ∧ w = true := by
  revert l; cases r <;> cases w <;> decide +kernel

variable (hnode : space.findNode nodeId = some node)

include hnode

theorem AttributeRead.otherAttribute (h : AttributeRead space manager user nodeId aid data)
    (haid : aid ≠ valueAttribute) : ∃ (env : ReadEnv User Obj) (alloc : Bool) (v : Variant Obj),
      (env.withUserRights manager nodeId alloc).otherAttribute node aid user = .ok v ∧
        data.value = some (.whole v) := by
  obtain ⟨store, env, alloc, ttr, range, h⟩ := h
  refine ⟨env, alloc, ?_⟩
  generalize env.withUserRights manager nodeId alloc = env at h ⊢
  obtain ⟨idx, hidx, hget⟩ := bind_eq_some_iff.mp hnode
  simp only [fillReadResponse, hidx, hget, map_eq_some_iff, readNodeAttribute, haid, and_false,
    if_false, readAddressSpaceAttributeValue] at h
  obtain ⟨r, hr, hdata⟩ := h
  split at hr
  · cases hr; cases hdata
  split at hr
  · cases hr; cases hdata
  cases hr
  cases hv : env.otherAttribute node aid user with
  | error status => rw [hv] at hdata; cases hdata
  | ok v => rw [hv] at hdata; cases hdata; exact ⟨v, rfl, by cases ttr <;> rfl⟩

theorem AttributeRead.userExecutable
    (h : AttributeRead space manager user nodeId userExecutableAttribute data) :
    data.value = some (.whole (.single (.boolean 1))) ↔ node.executable = true ∧
      getUserAuthorization manager .executable nodeId executableAttribute user = true := by
  obtain ⟨env, alloc, v, hv, hdata⟩ := h.otherAttribute hnode (by decide)
  have haid : userExecutableAttribute ≠ userAccessLevelAttribute := by decide
  simp only [ReadEnv.withUserRights, newVariant, haid, if_false, if_true] at hv
  rw [hdata, ← Bool.and_eq_true]
  generalize (node.executable &&
    getUserAuthorization manager .executable nodeId executableAttribute user) = allowed at hv ⊢
  cases alloc with
  | false => cases hv
  | true => cases hv; cases allowed <;> simp [Bool.toUInt8]

theorem checkMethodCallInputs_passes_iff {callEnv : CallEnv Obj User} {req : CallMethodRequest Obj}
    (hclass : node.nodeClass = .method) (hid : req.methodId = nodeId)
    (hobject : (space.findNode req.objectId).isSome = true) :
    checkMethodCallInputs space callEnv req ≠ some (StatusCode.badUserAccessDenied, none) ↔
      node.executable = true ∧ callEnv.authorize callEnv.user nodeId = true := by
  subst hid; obtain ⟨object, hobject⟩ := isSome_iff_exists.mp hobject
  simp only [checkMethodCallInputs, hobject, hnode, hclass, ne_eq, not_true_eq_false, if_false]
  split
  · rename_i hdenied; exact iff_of_false (fun h => h rfl) hdenied
  rename_i hpasses
  refine iff_of_true ?_ (not_not.mp hpasses)
  split
  · decide
  simp only [checkMethodCallArguments]
  split
  · decide
  split
  · decide
  split
  · decide
  split
  · decide
  intro h; obtain ⟨results, -, h⟩ := map_eq_some_iff.mp h
  split at h
  · exact absurd (congrArg Prod.fst h) (by decide)
  · exact absurd (congrArg Prod.snd h) (by simp)

omit hnode in
theorem setValue_status {env : WriteEnv Obj} {before after : NodeValue Obj} {variant : Variant Obj}
    {conv : Bool} {status : WriteStatus}
    (h : setValue env before variant conv range = some (status, after)) :
    status ∉ writeDenials := by
  have codes (s : Except Status Unit) :
      fullStatus s ∉ writeDenials ∧ rangeStatus s ∉ writeDenials := by
    rcases s with s | s <;> cases s <;> decide
  unfold setValue at h
  split at h
  · cases h
  · cases h; decide
  split at h
  · cases h; decide
  split at h
  · obtain ⟨w, -, heq⟩ := map_eq_some_iff.mp h; cases heq; exact (codes w.1).1
  unfold setValueIndexed at h
  split at h
  · cases h; decide
  · cases h; decide
  · cases h
  split at h
  · cases h; decide
  · cases h; decide
  split at h
  · cases h; decide
  obtain ⟨w, -, heq⟩ := map_eq_some_iff.mp h; cases heq; exact (codes w.1).2

theorem treatWriteValue_passes_iff {env : WriteEnv Obj} {wv : WriteValue Obj}
    {out : WriteResult Obj} (hclass : node.nodeClass = .variable)
    (hremote : store.localServiceTreatment = false) (hid : wv.nodeId = nodeId)
    (haid : wv.attributeId = some valueAttribute)
    (hcompat : (space.compat node wv.value.value).1 = true)
    (h : space.treatWriteValue store.values (writeEnv store manager user env wv) wv =
      some out) :
    out.status ∉ writeDenials ↔ node.accessLevel &&& currentWriteMask ≠ 0 ∧
      getUserAuthorization manager .write nodeId valueAttribute user = true := by
  obtain ⟨idx, hidx, hget⟩ := bind_eq_some_iff.mp hnode
  subst hid
  have hvalue : ¬ (valueAttribute ≠ valueAttribute ∨ node.nodeClass ≠ .variable) := by simp [hclass]
  simp only [treatWriteValue, haid, hidx, hget, if_neg hvalue] at h
  obtain ⟨w, hw, rfl⟩ := map_eq_some_iff.mp h
  simp only [writeVariable, hcompat, writeEnv, hremote, Bool.true_eq_false, if_false, true_and] at hw
  split at hw
  · rename_i hlevel; cases hw
    exact iff_of_false (fun h => h (by simp [writeDenials])) fun h => h.1 hlevel
  rename_i hlevel
  split at hw
  · rename_i hauth; cases hw
    exact iff_of_false (fun h => h (by simp [writeDenials])) fun h => by simp [hauth] at h
  rename_i hauth
  obtain ⟨⟨status, after⟩, hset, rfl⟩ := map_eq_some_iff.mp hw
  exact iff_of_true (setValue_status hset) ⟨hlevel, by simpa using hauth⟩

end

def attributeReads (manager : AuthorizationManager User) : ReadEnv User Obj :=
  ⟨manager, ⟨0, 0⟩, true, some, true, true, true, fun _ => none, fun _ _ _ => .error .badInternalError⟩

def plainCalls (user : User) : CallEnv Obj User :=
  ⟨fun _ => ⟨.whole (.nullArray .boolean), 0, ⟨0, 0⟩⟩, user, fun _ _ => false, true, true, true, none,
    fun _ _ => none⟩

theorem rights_agree_iff (Obj : Type) {space : AddressSpace} {nodeId : NodeId} {node : Node}
    (hnode : space.findNode nodeId = some node) (manager : AuthorizationManager User) (user : User) :
    RightsAgree Obj space manager user nodeId node ↔
      (node.nodeClass = .method → node.executable = true →
        getUserAuthorization manager .executable nodeId executableAttribute user =
          getUserAuthorization manager .executable nodeId userExecutableAttribute user) := by
  constructor
  · intro h hclass hexec
    -- a read that succeeds, and a call with the method itself as the object
    have hread : ∃ data : DataRead Obj,
        AttributeRead space manager user nodeId userExecutableAttribute data := by
      obtain ⟨idx, hidx, hget⟩ := bind_eq_some_iff.mp hnode
      suffices h : ∃ data : DataRead Obj, space.fillReadResponse (.initial (plainCalls user).values)
          ((attributeReads manager).withUserRights manager nodeId true) user .both
          ⟨.ok userExecutableAttribute, nodeId, .null⟩ = some (.ok data) from
        h.imp fun _ h => ⟨_, _, _, _, _, h⟩
      simp only [fillReadResponse, hidx, hget, readNodeAttribute, hclass]
      exact ⟨_, rfl⟩
    obtain ⟨data, hread⟩ := hread
    have hagree := h.executable data (plainCalls user) ⟨nodeId, nodeId, []⟩ hclass hread rfl
      (by simp [hnode])
    rw [checkMethodCallInputs_passes_iff hnode hclass rfl (by simp [hnode]),
      hread.userExecutable hnode] at hagree
    simp only [hexec, true_and] at hagree
    exact Bool.eq_iff_iff.mpr hagree
  · intro h
    constructor
    · intro data callEnv req hclass hread hid hobject
      rw [checkMethodCallInputs_passes_iff hnode hclass hid hobject, hread.userExecutable hnode]
      exact and_congr_right fun hexec => by rw [h hclass hexec]; rfl
    · intro data remote hclass hread hremote
      obtain ⟨env, alloc, v, hv, hdata⟩ := hread.otherAttribute hnode (by decide)
      simp only [ReadEnv.withUserRights, newVariant, if_true] at hv
      cases alloc with
      | false => cases hv
      | true =>
        cases hv
        refine ⟨_, hdata, ?_, ?_⟩
        · intro env ttr range
          rw [userAccessLevel_read, fillReadResponse_passes_iff ttr hremote rfl hnode hclass]; rfl
        · intro env wv out hid haid hcompat hout
          rw [userAccessLevel_write,
            treatWriteValue_passes_iff hnode hclass hremote hid haid hcompat hout]

def startMethod : Node := ⟨⟨1, .numeric 7⟩, .method, [], NodeId.opcua 0, -1, 0, true, .null⟩

def methodSpace : AddressSpace := ⟨[startMethod], ⟨0, fun _ => none, false⟩, false⟩

def allowsExecution (aid : UInt32) : AuthorizationManager Unit := fun op _ asked _ =>
  some (op == .executable && asked == aid)

theorem rights_agree_unrestricted : RightsAgree Unit methodSpace (fun _ _ _ (_ : Unit) => some true) ()
    startMethod.nodeId startMethod :=
  (rights_agree_iff Unit (by decide) _ ()).mpr fun _ _ => rfl

/-- UserExecutable is read as false, and the call passes. -/
theorem userExecutable_false_call_passes :
    (∃ data : DataRead Unit, data.value = some (.whole (.single (.boolean 0))) ∧
      AttributeRead methodSpace (allowsExecution userExecutableAttribute) () startMethod.nodeId
        userExecutableAttribute data) ∧
    checkMethodCallInputs methodSpace
      ((plainCalls () : CallEnv Unit Unit).withManager (allowsExecution userExecutableAttribute) ())
      ⟨startMethod.nodeId, startMethod.nodeId, []⟩ ≠ some (StatusCode.badUserAccessDenied, none) :=
  ⟨⟨_, rfl, .initial (plainCalls ()).values, attributeReads fun _ _ _ _ => none, true, .both, .null,
    rfl⟩, by decide⟩

end S2OPC
