import S2OPC.AddressSpace.MethodSearch
import S2OPC.AddressSpace.Write

/-!
# S2OPC.Services.CallMethod

The call of a method: `treat_one_method_call` of `call_method_mgr_i.imp`. The implementation of a
method and the authorization manager are functions given by the application. A failed assertion is the
answer `none`.
-/

namespace S2OPC

namespace StatusCode

def good : UInt32 := 0
def badInternalError : UInt32 := 0x80020000
def badOutOfMemory : UInt32 := 0x80030000
def badUserAccessDenied : UInt32 := 0x801F0000
def badNodeIdUnknown : UInt32 := 0x80340000
def badNotImplemented : UInt32 := 0x80400000
def badQueryTooComplex : UInt32 := 0x806E0000
def badTypeMismatch : UInt32 := 0x80740000
def badMethodInvalid : UInt32 := 0x80750000
def badArgumentsMissing : UInt32 := 0x80760000
def badInvalidArgument : UInt32 := 0x80AB0000
def badTooManyArguments : UInt32 := 0x80E50000

def isGood (status : UInt32) : Bool := status &&& 0xC0000000 == 0

end StatusCode

structure Argument where
  dataType : NodeId
  valueRank : Int
  deriving DecidableEq

/-- What the implementation of a method answers; `variants` is the address of the output arguments,
`none` when it is `NULL`. -/
structure ExecOutcome (Obj : Type) where
  status : UInt32
  noOfOutput : UInt32
  variants : Option (Nat → Variant Obj)

abbrev MethodFunc (Obj : Type) := NodeId → List (Variant Obj) → ExecOutcome Obj

structure CallMethodRequest (Obj : Type) where
  objectId : NodeId
  methodId : NodeId
  inputArguments : List (Variant Obj)

structure CallMethodResult (Obj : Type) where
  statusCode : UInt32
  inputArgumentResults : Option (List UInt32)
  outputArguments : List (Variant Obj)
  -- the arguments handed to the implementation, if it was executed
  executed : Option (List (Variant Obj))

structure CallEnv (Obj User : Type) where
  values : Values Obj
  -- the user of the session
  user : User
  -- the answer of the authorization manager on the execution of a method
  authorize : User → NodeId → Bool
  allocInputResults : Bool
  allocOutputs : Bool
  -- the configuration of the endpoint designates one of the server
  serverConfigured : Bool
  -- `pFnGetMethod` of the method call manager
  getMethod : Option (NodeId → Option (MethodFunc Obj))
  -- the argument declaration that an object is, if it is one
  argumentOf : EncodeableType → Obj → Option Argument

namespace CallMethod

open StatusCode AddressSpace

variable {Obj User : Type}

def inputArgumentsName : List UInt8 :=
  [73, 110, 112, 117, 116, 65, 114, 103, 117, 109, 101, 110, 116, 115]

def isInputArgument (node : Node) : Bool :=
  (match node.dataType.data with
    | .numeric n => n == 296
    | _ => false) && node.browseName.cString == inputArgumentsName

def getInputArguments (space : AddressSpace) (values : Values Obj) (method : Node) :
    Option (NodeValue Obj) :=
  method.references.findSome? fun ref =>
    if isProperty ref && isLocalTarget ref.targetId then
      match space.getNode ref.targetId.nodeId with
      | none => none
      | some idx =>
        match space.nodes[idx]? with
        | none => none
        | some node =>
          if node.nodeClass = .variable ∧ isInputArgument node then some (values idx).value else none
    else none

def readVariantNbArgument : Option (NodeValue Obj) → Int × Bool
  | none => (0, true)
  | some (.whole (.array .extensionObject content)) => (content.length, true)
  | some (.whole (.nullArray .extensionObject)) => (-1, true)
  | some (.torn .extensionObject length) => (length, true)
  | some _ => (0, false)

def readVariantArgument (env : CallEnv Obj User) (value : Option (NodeValue Obj)) (index : Nat) :
    Option Argument :=
  match value with
  | some (.whole (.array .extensionObject content)) =>
    match content[index]? with
    | some (.extensionObject ⟨_, .object objType obj⟩) => env.argumentOf objType obj
    | _ => none
  | _ => none

def checkMethodCallOneArgumentType (space : AddressSpace) (value : Variant Obj) (arg : Argument) :
    UInt32 :=
  if (space.isVariableCompatType value.getDataType value.getValueRank arg.dataType
      arg.valueRank).1 then good
  else badTypeMismatch

def checkArguments (space : AddressSpace) (env : CallEnv Obj User)
    (declared : Option (NodeValue Obj)) : Nat → List (Variant Obj) → Option (List UInt32)
  | _, [] => some []
  | index, value :: values =>
    match readVariantArgument env declared index with
    | none => none
    | some arg =>
      (checkArguments space env declared (index + 1) values).map fun results =>
        checkMethodCallOneArgumentType space value arg :: results

def checkMethodCallArguments (space : AddressSpace) (env : CallEnv Obj User)
    (req : CallMethodRequest Obj) (method : Node) : Option (UInt32 × Option (List UInt32)) :=
  let inputArg := getInputArguments space env.values method
  let nb := readVariantNbArgument inputArg
  let nbReq : Int := req.inputArguments.length
  if nb.2 = true ∧ nbReq < nb.1 then some (badArgumentsMissing, none)
  else if nbReq > nb.1 ∨ nb.2 = false then some (badTooManyArguments, none)
  else if req.inputArguments = [] then some (good, none)
  else if env.allocInputResults = false then some (badOutOfMemory, none)
  else
    (checkArguments space env inputArg 0 req.inputArguments).map fun results =>
      if results.all (· == good) then (good, none) else (badInvalidArgument, some results)

def checkMethodCallInputs (space : AddressSpace) (env : CallEnv Obj User)
    (req : CallMethodRequest Obj) : Option (UInt32 × Option (List UInt32)) :=
  match space.findNode req.objectId, space.findNode req.methodId with
  | none, _ => some (badNodeIdUnknown, none)
  | some _, none => some (badMethodInvalid, none)
  | some _, some method =>
    if method.nodeClass ≠ .method then some (badMethodInvalid, none)
    else if ¬ (method.executable = true ∧ env.authorize env.user req.methodId = true) then
      some (badUserAccessDenied, none)
    else if space.checkObjectHasMethod req.objectId req.methodId = false then
      some (badMethodInvalid, none)
    else checkMethodCallArguments space env req method

def implementation (env : CallEnv Obj User) (methodId : NodeId) :
    Except UInt32 (MethodFunc Obj) :=
  if env.serverConfigured = false then .error badInternalError
  else
    match env.getMethod.bind fun get => get methodId with
    | none => .error badNotImplemented
    | some f => .ok f

def execStatus (outcome : ExecOutcome Obj) : UInt32 :=
  if outcome.noOfOutput ≠ 0 ∧ outcome.variants.isNone = true then badNotImplemented
  else if outcome.noOfOutput.toNat < 2 ^ 31 then outcome.status
  else badQueryTooComplex

def execResult (outcome : ExecOutcome Obj) : List (Variant Obj) :=
  match outcome.variants with
  | none => []
  | some variants => (List.range outcome.noOfOutput.toNat).map variants

def execCallMethod (env : CallEnv Obj User) (req : CallMethodRequest Obj) : CallMethodResult Obj :=
  match implementation env req.methodId with
  | .error status => ⟨status, none, [], none⟩
  | .ok f =>
    let outcome := f req.objectId req.inputArguments
    { statusCode := execStatus outcome
      inputArgumentResults := none
      outputArguments :=
        if isGood (execStatus outcome) ∧ env.allocOutputs then execResult outcome else []
      executed := some req.inputArguments }

def treatOneMethodCall (space : AddressSpace) (env : CallEnv Obj User)
    (req : CallMethodRequest Obj) : Option (CallMethodResult Obj) :=
  (checkMethodCallInputs space env req).map fun check =>
    if check.1 ≠ good then ⟨check.1, check.2, [], none⟩
    else { execCallMethod env req with inputArgumentResults := check.2 }

end CallMethod
end S2OPC
