import S2OPC.Services.BrowsePages

/-!
# S2OPC.Services.BrowsePath

TranslateBrowsePathsToNodeIds for one path: `translate_browse_path_i.imp` with the fixed-size tables
of `translate_browse_path_1_i.imp` and `msg_translate_browse_path_bs.c`. Allocations do not fail.
-/

namespace S2OPC
namespace Browse

open AddressSpace

structure PathLimits extends Limits where
  resPerElt : Nat
  resPerPath : Nat

structure RelativePathElement where
  referenceTypeId : Option NodeId
  isInverse : Bool
  includeSubtypes : Bool
  targetName : QualifiedName

inductive PathStatus where
  | ok
  | uncertainReferenceOutOfServer
  | badNothingToDo
  | badNodeIdInvalid
  | badNodeIdUnknown
  | badBrowseNameInvalid
  | badNoMatch
  | badQueryTooComplex
  | badTooManyMatches
  | indet
  deriving DecidableEq, Repr

def isQualifiedNamesEmpty (name : QualifiedName) : Bool := name.name.length ≤ 0

def isQualifiedNamesEqual (name1 : QualifiedName) : Option QualifiedName → Bool
  | none => false
  | some name2 =>
    ByteString.stringEqual name1.name name2.name && name1.namespaceIndex == name2.namespaceIndex

def ReferenceDescription.resultBrowseName {L : Type} (ref : ReferenceDescription L) :
    Option QualifiedName :=
  ref.browseName.filter fun name => 0 < name.name.length || 0 < name.namespaceIndex

def getTranslateStatusFromBrowseStatus : Status → PathStatus
  | .badNodeIdUnknown => .badNodeIdUnknown
  | .badReferenceTypeIdInvalid => .badNoMatch
  | .badNoContinuationPoints => .badQueryTooComplex
  | .ok => .ok
  | _ => .indet

/-- The filter of `treat_one_relative_path_element`: the subtypes are ignored without a type. -/
def RelativePathElement.filter (elt : RelativePathElement) : Filter :=
  ⟨if elt.isInverse then .inverse else .forward, elt.referenceTypeId,
    elt.referenceTypeId.isSome && elt.includeSubtypes, 0, 63⟩

structure PathState where
  results : List ExpandedNodeId
  remaining : List (ExpandedNodeId × Nat)

variable {L : Type} (view : View L) (limits : PathLimits)

def PathState.checkAndAddResult (s : PathState) (target : ExpandedNodeId) :
    PathStatus × PathState :=
  if s.results.length = limits.resPerElt then (.badQueryTooComplex, s)
  else (.ok, { s with results := s.results ++ [target] })

def PathState.checkAndAddRemaining (s : PathState) (target : ExpandedNodeId) (index : Nat) :
    PathStatus × PathState :=
  if s.remaining.length = limits.resPerElt then (.badQueryTooComplex, s)
  else (.uncertainReferenceOutOfServer,
    { s with remaining := s.remaining ++ [(target, index)] })

def PathState.treatReference (index : Nat) (targetName : QualifiedName) (status : PathStatus)
    (s : PathState) (ref : ReferenceDescription L) : PathStatus × PathState :=
  if isQualifiedNamesEqual targetName ref.resultBrowseName then
    let (translated, s) := s.checkAndAddResult limits ref.nodeId
    -- an earlier reference out of the server is not forgotten
    if translated = .ok ∧ status = .uncertainReferenceOutOfServer then (status, s)
    else (translated, s)
  else if isLocalTarget ref.nodeId then (status, s)
  else s.checkAndAddRemaining limits ref.nodeId index

def treatBrowseResultOneSource (index : Nat) (targetName : QualifiedName) :
    List (ReferenceDescription L) → PathStatus → PathState → PathStatus × PathState
  | [], status, s => (status, s)
  | ref :: refs, status, s =>
    let (status, s) := s.treatReference limits index targetName status ref
    if status = .ok ∨ status = .uncertainReferenceOutOfServer ∨ status = .badNoMatch then
      treatBrowseResultOneSource index targetName refs status s
    else (status, s)

/-- The session is the indeterminate one, which has no continuation point. -/
def View.computeBrowseResultFromSource (p : Points) (elt : RelativePathElement) (source : NodeId) :
    PathStatus × List (ReferenceDescription L) :=
  let result := (view.computeBrowseResult limits.toLimits p
    ⟨1, 0, 0, source, elt.filter, false⟩).2
  (getTranslateStatusFromBrowseStatus result.status, result.references)

def View.treatSources (p : Points) (elt : RelativePathElement) (index : Nat) :
    List NodeId → PathStatus → PathState → PathStatus × PathState
  | [], status, s => (status, s)
  | source :: sources, status, s =>
    let (translated, references) := view.computeBrowseResultFromSource limits p elt source
    if translated ≠ .ok then treatSources p elt index sources translated s
    else
      let (translated, s) :=
        treatBrowseResultOneSource limits index elt.targetName references .badNoMatch s
      treatSources p elt index sources (if status ≠ .ok then translated else status) s

def View.treatOneRelativePathElement (p : Points) (elt : RelativePathElement) (index : Nat)
    (sources : List NodeId) (s : PathState) : PathStatus × PathState :=
  if isQualifiedNamesEmpty elt.targetName then (.badBrowseNameInvalid, s)
  else view.treatSources limits p elt index sources .badNothingToDo s

def View.treatElements (p : Points) : List RelativePathElement → Nat → List NodeId →
    List (ExpandedNodeId × Nat) → PathStatus × PathState
  | [], _, _, remaining => (.ok, ⟨[], remaining⟩)
  | elt :: elts, index, sources, remaining =>
    let (status, s) :=
      view.treatOneRelativePathElement limits p elt (index + 1) sources ⟨[], remaining⟩
    if elts ≠ [] ∧ (status = .ok ∨ status = .uncertainReferenceOutOfServer) then
      -- `copy_browsePathResult_to_source`
      treatElements p elts (index + 1) (s.results.map (·.nodeId)) s.remaining
    else (status, s)

/-- `OpcUa_BrowsePathResult`; a target without remaining path has no index. -/
structure PathResult where
  status : PathStatus
  targets : List (ExpandedNodeId × Option Nat)

def PathState.copyToMsg (s : PathState) (status : PathStatus) : PathResult :=
  if s.results.length + s.remaining.length ≤ limits.resPerPath then
    ⟨status, s.results.map (fun target => (target, none)) ++
      s.remaining.map fun x => (x.1, some x.2)⟩
  else ⟨.badTooManyMatches, []⟩

def View.treatOneTranslateBrowsePath (p : Points) (startingNode : Option NodeId)
    (path : List RelativePathElement) : PathResult :=
  if path = [] then ⟨.badNothingToDo, []⟩
  else
    match startingNode with
    | none => ⟨.badNodeIdInvalid, []⟩
    | some start =>
      if (view.findNode start).isNone then ⟨.badNodeIdUnknown, []⟩
      else
        let (status, s) := view.treatElements limits p path 0 [start] []
        if status = .ok ∨ status = .uncertainReferenceOutOfServer then s.copyToMsg limits status
        else ⟨status, []⟩

end Browse
end S2OPC
