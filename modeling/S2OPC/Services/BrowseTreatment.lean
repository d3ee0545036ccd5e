import S2OPC.AddressSpace.MethodSearch

/-!
# S2OPC.Services.BrowseTreatment

The Browse and BrowseNext services: `service_set_view_i.imp` with `browse_treatment_i.imp`,
`browse_treatment_1_i.imp`, `browse_treatment_context_i.imp` and
`browse_treatment_continuation_points_i.imp`, and the C modules under them. A session has at most one
continuation point.

Allocations do not fail. Text in the language of a display name is left open (`L`).
-/

namespace S2OPC
namespace Browse

open AddressSpace

structure Limits where
  targets : Nat
  responses : Nat
  targets_pos : 0 < targets
  responses_pos : 0 < responses

structure QualifiedName where
  namespaceIndex : UInt16
  name : ByteString
  deriving DecidableEq

/-- The address space with the attributes that only views show, and the classes of the nodes in the
table of embedded types. -/
structure View (L : Type) extends AddressSpace where
  browseNameNamespace : Node → UInt16
  displayName : Node → L
  embeddedClass : UInt32 → Option NodeClass

variable {L : Type} (view : View L)

def View.browseName (node : Node) : QualifiedName :=
  ⟨view.browseNameNamespace node, node.browseName⟩

def View.isValidReferenceTypeId (nodeId : NodeId) : Bool :=
  let inAddressSpace := view.types.hybridResolution &&
    match view.findNode nodeId with
    | some node => node.nodeClass == .referenceType
    | none => false
  match nodeId with
  | ⟨0, .numeric n⟩ =>
    if n ≤ view.types.maxTypeInfoNodeId then view.embeddedClass n == some .referenceType
    else inAddressSpace
  | _ => inAddressSpace

inductive Direction where
  | forward
  | inverse
  | both
  deriving DecidableEq, Repr

def Direction.isForwardCompatible : Direction → Bool → Bool
  | .forward, isForward => isForward
  | .inverse, isForward => !isForward
  | .both, _ => true

def View.isRefTypesCompatible (refType : Option NodeId) (includeSubtypes : Bool)
    (refType2 : NodeId) : Bool :=
  match refType with
  | none => true
  | some refType1 =>
    if NodeId.equal refType1 refType2 then true
    else if includeSubtypes then view.isTransitiveSubtype refType2 refType1
    else false

def nodeClassBit : NodeClass → UInt32
  | .object => 1
  | .variable => 2
  | .method => 4
  | .objectType => 8
  | .variableType => 16
  | .referenceType => 32
  | .dataType => 64
  | .view => 128

/-- A node of unknown class is not filtered. -/
def isNodeClassInNodeClassMask (mask : UInt32) : Option NodeClass → Bool
  | none => true
  | some nodeClass => mask == 0 || mask &&& nodeClassBit nodeClass != 0

/-- What `get_optional_fields_ReferenceDescription` reads of the target, if it is known. -/
structure OptionalFields (L : Type) where
  browseName : Option QualifiedName
  displayName : Option L
  nodeClass : Option NodeClass
  typeDefinition : Option ExpandedNodeId
  deriving DecidableEq

def View.targetNode (target : ExpandedNodeId) : Option Node :=
  if isLocalTarget target then view.findNode target.nodeId else none

def View.optionalFields (target : ExpandedNodeId) : OptionalFields L :=
  match view.targetNode target with
  | some node => ⟨view.browseName node, view.displayName node, node.nodeClass,
      getTypeDefinition node⟩
  | none => ⟨none, none, none, none⟩

structure ReferenceDescription (L : Type) where
  referenceTypeId : Option NodeId
  isForward : Bool
  nodeId : ExpandedNodeId
  browseName : Option QualifiedName
  displayName : Option L
  nodeClass : Option NodeClass
  typeDefinition : Option ExpandedNodeId
  deriving DecidableEq

def applyResultMaskFilter (mask : UInt32) (ref : ReferenceNode) (fields : OptionalFields L) :
    ReferenceDescription L where
  referenceTypeId := if mask &&& 1 != 0 then some ref.referenceTypeId else none
  isForward := if mask &&& 2 != 0 then !ref.isInverse else false
  nodeId := ref.targetId
  browseName := if mask &&& 8 != 0 then fields.browseName else none
  displayName := if mask &&& 16 != 0 then fields.displayName else none
  nodeClass := if mask &&& 4 != 0 then fields.nodeClass else none
  typeDefinition := if mask &&& 32 != 0 then fields.typeDefinition else none

structure Filter where
  direction : Direction
  referenceType : Option NodeId
  includeSubtypes : Bool
  nodeClassMask : UInt32
  resultMask : UInt32
  deriving DecidableEq

/-- Whether there is room for more after it, and the description if the reference passes the filter.
`filled` is `currentBrowseResultIdx_i`. -/
def View.fillBrowseResultRef (filter : Filter) (max filled : Nat) (ref : ReferenceNode) :
    Bool × Option (ReferenceDescription L) :=
  if filter.direction.isForwardCompatible (!ref.isInverse) then
    if view.isRefTypesCompatible filter.referenceType filter.includeSubtypes
        ref.referenceTypeId then
      let fields := view.optionalFields ref.targetId
      if isNodeClassInNodeClassMask filter.nodeClassMask fields.nodeClass then
        (filled + 1 < max, some (applyResultMaskFilter filter.resultMask ref fields))
      else (true, none)
    else (true, none)
  else (true, none)

/-- The loop of `fill_browse_result` over the references that are left: whether there are more,
whether there is room for more, the next index and the results. -/
def View.fillLoop (filter : Filter) (max : Nat) : List ReferenceNode → Bool → Nat →
    List (ReferenceDescription L) → Bool × Bool × Nat × List (ReferenceDescription L)
  | [], continueBri, nextIndex, results => (false, continueBri, nextIndex, results)
  | ref :: refs, continueBri, nextIndex, results =>
    if continueBri then
      let (continueBri, result) := view.fillBrowseResultRef filter max results.length ref
      fillLoop filter max refs continueBri (nextIndex + 1) (results ++ result.toList)
    else (true, continueBri, nextIndex, results)

/-- Whether a continuation point is needed, the index it starts from, and the results. Indexes start
from 1. -/
def View.fillBrowseResult (filter : Filter) (startIndex max : Nat) (node : Node) :
    Bool × Nat × List (ReferenceDescription L) :=
  let (continueRef, continueBri, nextIndex, results) :=
    view.fillLoop filter max (node.references.drop (startIndex - 1)) (decide (0 < max)) startIndex []
  (continueRef && !continueBri, nextIndex, results)

def minNbResultRefs (limits : Limits) (maxTargetRef nbTarget : Nat) : Nat :=
  let maxTargetRef :=
    if maxTargetRef = 0 ∨ limits.targets ≤ maxTargetRef then limits.targets else maxTargetRef
  if nbTarget < maxTargetRef then nbTarget else maxTargetRef

structure ContinuationPoint where
  continuationPointId : UInt64
  nextRefIndexOnNode : Nat
  maxTargetReferencesToReturn : Nat
  nodeId : NodeId
  filter : Filter
  deriving DecidableEq

structure Points where
  seed : UInt64
  isValidSession : Nat → Bool
  point : Nat → Option ContinuationPoint

def freshContinuationPointId (seed : UInt64) : UInt64 :=
  let seed := seed + 1
  if seed = 0 then seed + 1 else seed

def Points.setPoint (p : Points) (session : Nat) (cp : Option ContinuationPoint) : Points :=
  { p with point := Function.update p.point session cp }

def Points.hasContinuationPoint (p : Points) (session : Nat) : Option UInt64 :=
  if p.isValidSession session then (p.point session).map (·.continuationPointId) else none

def Points.createContinuationPoint (p : Points) (session nextIndex maxTargetRef : Nat)
    (nodeId : NodeId) (filter : Filter) : Points × Option UInt64 :=
  if p.isValidSession session && (p.point session).isNone then
    let id := freshContinuationPointId p.seed
    ({ p with seed := id }.setPoint session (some ⟨id, nextIndex, maxTargetRef, nodeId, filter⟩),
      some id)
  else (p, none)

def Points.getContinuationPoint (p : Points) (session : Nat) (id : UInt64) :
    Option ContinuationPoint :=
  if p.isValidSession session then
    (p.point session).filter fun cp => cp.continuationPointId == id
  else none

def Points.releaseContinuationPoint (p : Points) (session : Nat) (id : UInt64) : Points × Bool :=
  match p.getContinuationPoint session id with
  | some _ => (p.setPoint session none, true)
  | none => (p, false)

/-- The previous continuation point of the session gives way to a new one, if the flag is set. -/
def Points.releasePrevious (p : Points) (session : Nat) (autoReleaseCP : Bool) : Points :=
  match p.hasContinuationPoint session with
  | some id => if autoReleaseCP then (p.releaseContinuationPoint session id).1 else p
  | none => p

inductive Status where
  | ok
  | badReferenceTypeIdInvalid
  | badNodeIdUnknown
  | badNodeIdInvalid
  | badBrowseDirectionInvalid
  | badNoContinuationPoints
  | badContinuationPointInvalid
  deriving DecidableEq, Repr

structure BrowseResult (L : Type) where
  status : Status
  continuationPoint : Option UInt64
  references : List (ReferenceDescription L)
  deriving DecidableEq

def BrowseResult.error (status : Status) : BrowseResult L := ⟨status, none, []⟩

structure Context where
  startIndex : Nat
  session : Nat
  maxReferencesPerNode : Nat
  nodeId : NodeId
  filter : Filter
  releasePrevContinuationPoint : Bool

variable (limits : Limits)

/-- The part of `compute_browse_result` in which the result is filled and a continuation point is
created. -/
def View.fillAndContinue (p : Points) (ctx : Context) (node : Node) :
    Points × BrowseResult L :=
  let max := minNbResultRefs limits ctx.maxReferencesPerNode node.references.length
  let (toContinue, nextIndex, references) :=
    view.fillBrowseResult ctx.filter ctx.startIndex max node
  if toContinue then
    let p := p.releasePrevious ctx.session ctx.releasePrevContinuationPoint
    match p.createContinuationPoint ctx.session nextIndex ctx.maxReferencesPerNode ctx.nodeId
        ctx.filter with
    | (p, some id) => (p, ⟨.ok, some id, references⟩)
    | (p, none) => (p, ⟨.badNoContinuationPoints, none, references⟩)
  else (p, ⟨.ok, none, references⟩)

def View.computeBrowseResult (p : Points) (ctx : Context) : Points × BrowseResult L :=
  let validType :=
    match ctx.filter.referenceType with
    | some refType => view.isValidReferenceTypeId refType
    | none => true
  match validType, view.findNode ctx.nodeId with
  | false, _ => (p, .error .badReferenceTypeIdInvalid)
  | true, none => (p, .error .badNodeIdUnknown)
  | true, some node => view.fillAndContinue limits p ctx node

/-- `OpcUa_BrowseDescription` as `getall_BrowseValue` reads it: an identifier is absent if it is
null, a direction if it is not one of the three. -/
structure BrowseValue where
  nodeId : Option NodeId
  direction : Option Direction
  referenceType : Option NodeId
  includeSubtypes : Bool
  nodeClassMask : UInt32
  resultMask : UInt32

def View.browseValue (p : Points) (session maxTargetRef : Nat) (value : BrowseValue)
    (autoReleaseCP : Bool) : Points × BrowseResult L :=
  match value.direction, value.nodeId with
  | none, _ => (p, .error .badBrowseDirectionInvalid)
  | some _, none => (p, .error .badNodeIdInvalid)
  | some direction, some nodeId =>
    view.computeBrowseResult limits p
      ⟨1, session, maxTargetRef, nodeId, ⟨direction, value.referenceType, value.includeSubtypes,
        value.nodeClassMask, value.resultMask⟩, autoReleaseCP⟩

def View.browseValues (session maxTargetRef : Nat) : Points → Bool → List BrowseValue →
    Points × List (BrowseResult L)
  | p, _, [] => (p, [])
  | p, autoReleaseCP, value :: values =>
    let (p, result) := view.browseValue limits p session maxTargetRef value autoReleaseCP
    let (p, results) := browseValues session maxTargetRef p false values
    (p, result :: results)

def View.browseNext (p : Points) (session : Nat) (id : UInt64) : Points × BrowseResult L :=
  match p.getContinuationPoint session id with
  | none => (p, .error .badContinuationPointInvalid)
  | some cp =>
    let (p, _) := p.releaseContinuationPoint session id
    view.computeBrowseResult limits p ⟨cp.nextRefIndexOnNode, session,
      cp.maxTargetReferencesToReturn, cp.nodeId, cp.filter, false⟩

def browseRelease (p : Points) (session : Nat) (id : UInt64) : Points × BrowseResult L :=
  match p.releaseContinuationPoint session id with
  | (p, true) => (p, ⟨.ok, none, []⟩)
  | (p, false) => (p, .error .badContinuationPointInvalid)

def View.browseNexts (session : Nat) (releaseCP : Bool) : Points → List UInt64 →
    Points × List (BrowseResult L)
  | p, [] => (p, [])
  | p, id :: ids =>
    let (p, result) := if releaseCP then browseRelease p session id
      else view.browseNext limits p session id
    let (p, results) := browseNexts session releaseCP p ids
    (p, result :: results)

inductive ServiceStatus where
  | badViewIdUnknown
  | badNothingToDo
  | badTooManyOps
  deriving DecidableEq, Repr

/-- What concerns continuation points: the requests of a session, with the identifiers that
`getall_ContinuationPoint` decodes (0 if it fails), and the life of the sessions. -/
inductive Request where
  | browse (session : Nat) (browseView : Option NodeId) (requestedMaxReferencesPerNode : UInt32)
      (values : List BrowseValue)
  | browseNext (session : Nat) (releaseContinuationPoints : Bool) (ids : List UInt64)
  | sessionCreated (session : Nat)
  | sessionClosed (session : Nat)

def Request.session : Request → Nat
  | .browse session _ _ _ => session
  | .browseNext session _ _ => session
  | .sessionCreated session => session
  | .sessionClosed session => session

abbrev Response (L : Type) := Except ServiceStatus (List (BrowseResult L))

def browseTargetMax (requested : UInt32) : Nat :=
  if requested.toNat ≤ 2 ^ 31 - 1 then requested.toNat else 2 ^ 31 - 1

def View.treat (p : Points) : Request → Points × Response L
  | .browse session browseView requested values =>
    if browseView.isSome then (p, .error .badViewIdUnknown)
    else if values.isEmpty then (p, .error .badNothingToDo)
    else if limits.responses < values.length then (p, .error .badTooManyOps)
    else
      let (p, results) :=
        view.browseValues limits session (browseTargetMax requested) p true values
      (p, .ok results)
  | .browseNext session releaseCP ids =>
    if ids.isEmpty then (p, .error .badNothingToDo)
    else if limits.responses < ids.length then (p, .error .badTooManyOps)
    else
      let (p, results) := view.browseNexts limits session releaseCP p ids
      (p, .ok results)
  | .sessionCreated session =>
    -- `c_session_indet` is not a session
    if session = 0 then (p, .ok [])
    else ({ p with isValidSession := Function.update p.isValidSession session true }, .ok [])
  | .sessionClosed session =>
    ({ p with isValidSession := Function.update p.isValidSession session false }.setPoint session
      none, .ok [])

def View.run : Points → List Request → Points × List (Request × Response L)
  | p, [] => (p, [])
  | p, req :: reqs =>
    let (p, response) := view.treat limits p req
    let (p, history) := run p reqs
    (p, (req, response) :: history)

def Points.init (seed : UInt64) : Points := ⟨seed, fun _ => false, fun _ => none⟩

end Browse
end S2OPC
