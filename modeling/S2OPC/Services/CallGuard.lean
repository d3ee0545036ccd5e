import S2OPC.Services.CallMethod

/-!
# S2OPC.Services.CallGuard

Which calls get as far as the implementation of the method. `Guarded` is the intended behaviour. An
argument may be handed over without the conversion it needs, a method may be found that is not one of
the object, and the implementation may itself answer `BadInvalidArgument`.
-/

namespace S2OPC
namespace CallMethod

open StatusCode AddressSpace List

variable {Obj User : Type} {space : AddressSpace} {env : CallEnv Obj User}
  {req : CallMethodRequest Obj} {method : Node} {declared : List Argument}

def argCompat (space : AddressSpace) (value : Variant Obj) (arg : Argument) : Bool × Bool :=
  space.isVariableCompatType value.getDataType value.getValueRank arg.dataType arg.valueRank

def Conforms (space : AddressSpace) (value : Variant Obj) (arg : Argument) : Prop :=
  argCompat space value arg = (true, false)

def declaredArguments (space : AddressSpace) (env : CallEnv Obj User) (method : Node) :
    Option (List Argument) :=
  let inputArg := getInputArguments space env.values method
  let nb := readVariantNbArgument inputArg
  if nb.2 then (List.range nb.1.toNat).mapM (readVariantArgument env inputArg) else none

def argumentResults (space : AddressSpace) (args : List (Variant Obj)) (declared : List Argument) :
    List UInt32 :=
  List.zipWith (checkMethodCallOneArgumentType space) args declared

theorem checkArguments_eq {inputArg : Option (NodeValue Obj)} {args : List (Variant Obj)}
    {index : Nat} : checkArguments space env inputArg index args =
      ((List.range' index args.length).mapM (readVariantArgument env inputArg)).map
        (argumentResults space args) := by
  induction args generalizing index with
  | nil => rfl
  | cons value args ih =>
    rw [checkArguments, ih, length_cons, range'_succ, mapM_cons]
    cases readVariantArgument env inputArg index with
    | none => rfl
    | some arg =>
      cases (List.range' (index + 1) args.length).mapM (readVariantArgument env inputArg) with
      | none => rfl
      | some declared => rfl

theorem length_of_mapM {α β : Type} {f : α → Option β} {l : List α} {l' : List β}
    (h : l.mapM f = some l') : l'.length = l.length := by
  induction l generalizing l' with
  | nil => cases h; rfl
  | cons a l ih =>
    rw [mapM_cons] at h
    obtain ⟨b, -, h⟩ := Option.bind_eq_some_iff.mp h
    obtain ⟨rest, hrest, h⟩ := Option.bind_eq_some_iff.mp h
    cases h; rw [length_cons, length_cons, ih hrest]

/-- The call gets as far as the check of its arguments, of which there are as many as declared. -/
structure ArgumentsChecked (space : AddressSpace) (env : CallEnv Obj User)
    (req : CallMethodRequest Obj) (method : Node) (declared : List Argument) : Prop where
  object_found : (space.findNode req.objectId).isSome = true
  method_found : space.findNode req.methodId = some method
  nodeClass_eq : method.nodeClass = .method
  executable : method.executable = true
  authorized : env.authorize env.user req.methodId = true
  hasMethod : space.checkObjectHasMethod req.objectId req.methodId = true
  declared_eq : declaredArguments space env method = some declared
  nb_eq : (readVariantNbArgument (getInputArguments space env.values method)).1 =
    req.inputArguments.length
  alloc : req.inputArguments = [] ∨ env.allocInputResults = true

theorem ArgumentsChecked.length_eq (h : ArgumentsChecked space env req method declared) :
    declared.length = req.inputArguments.length := by
  have hd := h.declared_eq
  simp only [declaredArguments, h.nb_eq] at hd
  split at hd
  · have := length_of_mapM hd; simpa using this
  · cases hd

theorem checkMethodCallInputs_of_not
    (h : ∀ method declared, ¬ ArgumentsChecked space env req method declared)
    {r : UInt32 × Option (List UInt32)} (hr : checkMethodCallInputs space env req = some r) :
    r.1 ≠ good ∧ r.1 ≠ badInvalidArgument ∧ r.2 = none := by
  revert hr
  fun_cases checkMethodCallInputs space env req with
  | case6 object method hmethod hobject hclass hexec hhas =>
    rw [not_not] at hclass hexec
    rw [Bool.not_eq_false] at hhas
    have hno declared hdecl hnb halloc := h method declared
      ⟨by rw [hobject]; rfl, hmethod, hclass, hexec.1, hexec.2, hhas, hdecl, hnb, halloc⟩
    fun_cases checkMethodCallArguments space env req method with
    | case3 inputArg nb _ hmissing hmany hnil =>
      rw [not_or, Bool.not_eq_false] at hmany
      have hnb : nb.1 = req.inputArguments.length := by grind
      exact (hno [] (by simp [declaredArguments, inputArg, nb, hmany.2, hnb, hnil]) hnb (.inl hnil)).elim
    | case5 inputArg nb _ hmissing hmany hnil halloc =>
      rw [not_or, Bool.not_eq_false] at hmany
      have hnb : nb.1 = req.inputArguments.length := by grind
      have hdecl : declaredArguments space env method =
          (List.range' 0 req.inputArguments.length).mapM (readVariantArgument env inputArg) := by
        simp [declaredArguments, inputArg, nb, hmany.2, hnb, range_eq_range']
      rw [checkArguments_eq, ← hdecl]
      cases hd : declaredArguments space env method with
      | none => nofun
      | some declared => exact (hno declared hd hnb (.inr (by simpa using halloc))).elim
    | _ => intro hr; cases hr; exact ⟨by decide, by decide, rfl⟩
  | _ => intro hr; cases hr; exact ⟨by decide, by decide, rfl⟩

def Compatible (space : AddressSpace) : List (Variant Obj) → List Argument → Prop :=
  List.Forall₂ fun value arg => (argCompat space value arg).1 = true

def NoConversion (space : AddressSpace) : List (Variant Obj) → List Argument → Prop :=
  List.Forall₂ fun value arg => (argCompat space value arg).2 = false

variable {value : Variant Obj} {arg : Argument} {args : List (Variant Obj)}

theorem compatible_of_conversion (h : (argCompat space value arg).2 = true) :
    (argCompat space value arg).1 = true := by
  unfold argCompat isVariableCompatType at h ⊢
  split at h
  · cases h
  · rename_i htype
    split at h
    · rename_i hconv; rw [if_neg htype, if_pos hconv]
    · cases h

theorem conforms_iff :
    Conforms space value arg ↔
      (argCompat space value arg).1 = true ∧ (argCompat space value arg).2 = false :=
  Prod.ext_iff

theorem forall₂_conforms (hc : Compatible space args declared)
    (hn : NoConversion space args declared) : List.Forall₂ (Conforms space) args declared := by
  induction hc with
  | nil => exact .nil
  | cons h _ ih =>
    cases hn with
    | cons h' hn => exact .cons (conforms_iff.mpr ⟨h, h'⟩) (ih hn)

theorem checkOne_eq_good :
    checkMethodCallOneArgumentType space value arg = good ↔
      (argCompat space value arg).1 = true := by
  unfold checkMethodCallOneArgumentType argCompat
  split
  · rename_i h; simp [h]
  · rename_i h; simp only [h]; decide

theorem all_good_iff (hlen : declared.length = args.length) :
    (argumentResults space args declared).all (· == good) = true ↔
      Compatible space args declared := by
  induction args generalizing declared with
  | nil =>
    cases declared with
    | nil => exact ⟨fun _ => .nil, fun _ => rfl⟩
    | cons arg declared => cases hlen
  | cons value args ih =>
    cases declared with
    | nil => cases hlen
    | cons arg declared =>
      have hih := ih (Nat.succ.inj hlen)
      simp only [argumentResults, zipWith_cons_cons, all_cons, Bool.and_eq_true,
        beq_iff_eq, checkOne_eq_good] at hih ⊢
      rw [hih]
      unfold Compatible
      rw [forall₂_cons]

theorem entries_iff (hlen : declared.length = args.length) :
    (∀ (i : Nat) value arg, args[i]? = some value → declared[i]? = some arg →
        ((argumentResults space args declared)[i]? = some good ↔ Conforms space value arg)) ↔
      NoConversion space args declared := by
  have hentry : ∀ (value : Variant Obj) (arg : Argument),
      (checkMethodCallOneArgumentType space value arg = good ↔ Conforms space value arg) ↔
        (argCompat space value arg).2 = false := by
    intro value arg; rw [checkOne_eq_good, conforms_iff]
    constructor
    · intro h; by_contra hconv
      rw [Bool.not_eq_false] at hconv
      have := (h.mp (compatible_of_conversion hconv)).2
      rw [hconv] at this
      cases this
    · intro h; simp [h]
  induction args generalizing declared with
  | nil =>
    cases declared with
    | nil => exact ⟨fun _ => .nil, fun _ i _ _ h => by simp at h⟩
    | cons arg declared => cases hlen
  | cons value args ih =>
    cases declared with
    | nil => cases hlen
    | cons arg declared =>
      have hih := ih (Nat.succ.inj hlen)
      unfold NoConversion at hih ⊢
      rw [forall₂_cons, ← hentry value arg]
      refine Iff.trans ?_ (and_congr_right fun _ => hih)
      constructor
      · intro h
        exact ⟨by simpa [argumentResults] using h 0 value arg rfl rfl,
          fun i v a hv ha => h (i + 1) v a hv ha⟩
      · rintro ⟨h₀, h⟩ i v a hv ha
        cases i with
        | zero => cases hv; cases ha; simpa [argumentResults] using h₀
        | succ i => exact h i v a hv ha

structure Allowed (space : AddressSpace) (env : CallEnv Obj User) (req : CallMethodRequest Obj)
    (args : List (Variant Obj)) : Prop where
  methodOf : MethodOf space req.objectId req.methodId
  authorized : env.authorize env.user req.methodId = true
  declared : ∃ method declared, space.findNode req.methodId = some method ∧
    method.nodeClass = .method ∧ method.executable = true ∧
    declaredArguments space env method = some declared ∧
    List.Forall₂ (Conforms space) args declared

/-- The implementation is executed only when allowed, and the results of the arguments are there
exactly with `BadInvalidArgument`, one for each argument, and good for those that conform. -/
structure Guarded (space : AddressSpace) (env : CallEnv Obj User) (req : CallMethodRequest Obj)
    (r : CallMethodResult Obj) : Prop where
  executed : ∀ args, r.executed = some args → Allowed space env req args
  present : r.inputArgumentResults.isSome = true ↔ r.statusCode = badInvalidArgument
  entries : ∀ results, r.inputArgumentResults = some results →
    results.length = req.inputArguments.length ∧
    ∃ method declared, space.findNode req.methodId = some method ∧
      declaredArguments space env method = some declared ∧
      declared.length = req.inputArguments.length ∧
      ∀ (i : Nat) value arg, req.inputArguments[i]? = some value → declared[i]? = some arg →
        (results[i]? = some good ↔ Conforms space value arg)

/-- If the arguments of the call are checked: either they are compatible, and when there is an
implementation then the method is one of the object, no argument needs a conversion and the
implementation does not answer `BadInvalidArgument`; or no argument needs a conversion. -/
def CallCondition (space : AddressSpace) (env : CallEnv Obj User) (req : CallMethodRequest Obj) :
    Prop :=
  ∀ method declared, ArgumentsChecked space env req method declared →
    (Compatible space req.inputArguments declared → ∀ f, implementation env req.methodId = .ok f →
      MethodOf space req.objectId req.methodId ∧ NoConversion space req.inputArguments declared ∧
      execStatus (f req.objectId req.inputArguments) ≠ badInvalidArgument) ∧
    (¬ Compatible space req.inputArguments declared → NoConversion space req.inputArguments declared)

theorem ArgumentsChecked.treatOneMethodCall_eq
    (h : ArgumentsChecked space env req method declared) :
    treatOneMethodCall space env req = some
      (if (argumentResults space req.inputArguments declared).all (· == good) then
        { execCallMethod env req with inputArgumentResults := none }
      else
        ⟨badInvalidArgument, some (argumentResults space req.inputArguments declared), [], none⟩) := by
  obtain ⟨object, hobject⟩ := Option.isSome_iff_exists.mp h.object_found
  have hd := h.declared_eq
  simp only [declaredArguments, h.nb_eq] at hd
  split at hd
  · rename_i hvalid; rw [Int.toNat_natCast, range_eq_range'] at hd
    simp only [treatOneMethodCall, checkMethodCallInputs, hobject, h.method_found, h.nodeClass_eq,
      h.executable, h.authorized, h.hasMethod, checkMethodCallArguments, h.nb_eq, lt_irrefl, hvalid,
      checkArguments_eq, hd, Option.map_some, ne_eq, not_true_eq_false, and_self, and_false,
      Bool.true_eq_false, or_self, if_false]
    by_cases hnil : req.inputArguments = []
    · simp [hnil, argumentResults]
    · simp only [hnil, h.alloc.resolve_left hnil, Bool.true_eq_false, if_false]
      split
      · rfl
      · rfl
  · cases hd

theorem treatOneMethodCall_of_not
    (h : ∀ method declared, ¬ ArgumentsChecked space env req method declared)
    {r : CallMethodResult Obj} (hr : treatOneMethodCall space env req = some r) :
    r.executed = none ∧ r.inputArgumentResults = none ∧ r.statusCode ≠ badInvalidArgument := by
  obtain ⟨check, hcheck, rfl⟩ := Option.map_eq_some_iff.mp hr
  obtain ⟨hgood, hinvalid, hnone⟩ := checkMethodCallInputs_of_not h hcheck
  rw [if_pos hgood]
  exact ⟨rfl, hnone, hinvalid⟩

theorem implementation_error {methodId : NodeId} {status : UInt32}
    (h : implementation env methodId = .error status) : status ≠ badInvalidArgument := by
  unfold implementation at h
  split at h
  · cases h; decide
  · split at h
    · cases h; decide
    · cases h

theorem execCallMethod_of_error {status : UInt32}
    (h : implementation env req.methodId = .error status) :
    (execCallMethod env req).executed = none ∧
      (execCallMethod env req).statusCode ≠ badInvalidArgument := by
  have hexec : execCallMethod env req = ⟨status, none, [], none⟩ := by rw [execCallMethod, h]
  rw [hexec]
  exact ⟨rfl, implementation_error h⟩

theorem execCallMethod_of_ok {f : MethodFunc Obj} (h : implementation env req.methodId = .ok f) :
    (execCallMethod env req).executed = some req.inputArguments ∧
      (execCallMethod env req).statusCode = execStatus (f req.objectId req.inputArguments) := by
  unfold execCallMethod
  rw [h]
  exact ⟨rfl, rfl⟩

theorem ArgumentsChecked.guarded_exec_iff (h : ArgumentsChecked space env req method declared)
    (hc : Compatible space req.inputArguments declared) :
    Guarded space env req { execCallMethod env req with inputArgumentResults := none } ↔
      ∀ f, implementation env req.methodId = .ok f →
        MethodOf space req.objectId req.methodId ∧ NoConversion space req.inputArguments declared ∧
        execStatus (f req.objectId req.inputArguments) ≠ badInvalidArgument := by
  constructor
  · intro hg f hf; obtain ⟨hexec, hstatus⟩ := execCallMethod_of_ok hf
    obtain ⟨hmethod, -, method', declared', hm, -, -, hd, hall⟩ := hg.executed _ hexec
    rw [h.method_found] at hm
    cases hm; rw [h.declared_eq] at hd
    cases hd
    refine ⟨hmethod, ?_, ?_⟩
    · exact hall.imp fun value arg hconf => (conforms_iff.mp hconf).2
    · intro hbad; have := hg.present.mpr (hstatus.trans hbad); cases this
  · intro hcond
    cases hf : implementation env req.methodId with
    | error status =>
      obtain ⟨hexec, hstatus⟩ := execCallMethod_of_error hf
      refine ⟨fun args hargs => ?_, ?_, fun results hresults => ?_⟩
      · rw [hexec] at hargs; cases hargs
      · simp [hstatus]
      · cases hresults
    | ok f =>
      obtain ⟨hexec, hstatus⟩ := execCallMethod_of_ok hf
      obtain ⟨hmethod, hn, hne⟩ := hcond f hf
      refine ⟨fun args hargs => ?_, ?_, fun results hresults => ?_⟩
      · rw [hexec] at hargs
        cases hargs
        exact ⟨hmethod, h.authorized, method, declared, h.method_found, h.nodeClass_eq,
          h.executable, h.declared_eq, forall₂_conforms hc hn⟩
      · simp [hstatus, hne]
      · cases hresults

theorem ArgumentsChecked.guarded_refused_iff (h : ArgumentsChecked space env req method declared) :
    Guarded space env req
        ⟨badInvalidArgument, some (argumentResults space req.inputArguments declared), [], none⟩ ↔
      NoConversion space req.inputArguments declared := by
  have hlen := h.length_eq
  rw [← entries_iff hlen]
  constructor
  · intro hg; obtain ⟨-, method', declared', hm, hd, -, hentries⟩ := hg.entries _ rfl
    rw [h.method_found] at hm
    cases hm; rw [h.declared_eq] at hd
    cases hd; exact hentries
  · intro hentries
    refine ⟨fun args hargs => ?_, by simp, fun results hresults => ?_⟩
    · cases hargs
    · cases hresults
      exact ⟨by simp [argumentResults, hlen], method, declared, h.method_found, h.declared_eq, hlen,
        hentries⟩

def bytesMethodSpace : AddressSpace where
  nodes :=
    [⟨⟨1, .numeric 1⟩, .object,
        [⟨NodeId.opcua 47, false, ⟨⟨1, .numeric 2⟩, .null, 0⟩⟩], NodeId.opcua 0, -1, 0, false, .null⟩,
      ⟨⟨1, .numeric 2⟩, .method,
        [⟨NodeId.opcua 46, false, ⟨⟨1, .numeric 3⟩, .null, 0⟩⟩], NodeId.opcua 0, -1, 0, true, .null⟩,
      ⟨⟨1, .numeric 3⟩, .variable, [], NodeId.opcua 296, 1, 1, false,
        ⟨some inputArgumentsName, by simp [inputArgumentsName]⟩⟩]
  types :=
    { maxTypeInfoNodeId := 28
      hasSubTypeBackward := fun n =>
        if n = 3 then some (NodeId.opcua 28)
        else if n = 28 then some (NodeId.opcua 26)
        else if n = 15 ∨ n = 26 then some (NodeId.opcua 24)
        else none
      hybridResolution := false }
  readOnlyNodes := false

def bytesMethodEnv : CallEnv Unit Unit where
  values := fun _ =>
    ⟨.whole (.array .extensionObject [.extensionObject
      ⟨⟨NodeId.opcua 297, .null, 0⟩, .object ⟨296, 297, .null⟩ ()⟩]), 0, ⟨0, 0⟩⟩
  user := ()
  authorize := fun _ _ => true
  allocInputResults := true
  allocOutputs := true
  serverConfigured := true
  getMethod := some fun _ => some fun _ _ => ⟨good, 0, none⟩
  argumentOf := fun _ _ => some ⟨byteType, 1⟩

def byteStringCall : CallMethodRequest Unit :=
  ⟨⟨1, .numeric 1⟩, ⟨1, .numeric 2⟩, [.single (.byteString ⟨some [1], by simp⟩)]⟩

end CallMethod
end S2OPC
