import S2OPC.Common.BuiltinTypes

/-!
# S2OPC.AddressSpace.Typing

The nodes of the address space, and the type checks made on values (`address_space_typing_bs.c`,
`address_space_typing_i.imp`, `address_space_i.imp`). The generated table of the supertypes of
namespace 0 is a parameter.
-/

namespace S2OPC

inductive NodeClass where
  | object
  | variable
  | method
  | objectType
  | variableType
  | referenceType
  | dataType
  | view
  deriving DecidableEq, Repr

structure ReferenceNode where
  referenceTypeId : NodeId
  isInverse : Bool
  targetId : ExpandedNodeId
  deriving DecidableEq

structure Node where
  nodeId : NodeId
  nodeClass : NodeClass
  references : List ReferenceNode
  dataType : NodeId
  valueRank : Int
  accessLevel : UInt8
  executable : Bool
  -- the name in the `BrowseName`
  browseName : ByteString
  deriving DecidableEq

structure TypeTable where
  maxTypeInfoNodeId : UInt32
  hasSubTypeBackward : UInt32 → Option NodeId
  hybridResolution : Bool

structure AddressSpace where
  nodes : List Node
  types : TypeTable
  readOnlyNodes : Bool

namespace AddressSpace

open NodeId

variable {Obj : Type}

def getNode (space : AddressSpace) (nodeId : NodeId) : Option Nat :=
  space.nodes.findIdx? fun node => equal node.nodeId nodeId

def findNode (space : AddressSpace) (nodeId : NodeId) : Option Node :=
  (space.getNode nodeId).bind fun idx => space.nodes[idx]?

def isLocalTarget (target : ExpandedNodeId) : Bool :=
  target.serverIndex == 0 && target.namespaceUri.length ≤ 0

def isReversedHasChild (ref : ReferenceNode) : Bool :=
  ref.isInverse && ref.referenceTypeId == opcua 45

def getDirectParentOfNode (child : Node) : Option NodeId :=
  (child.references.find? fun ref => isReversedHasChild ref && isLocalTarget ref.targetId).map
    fun ref => ref.targetId.nodeId

def getDirectParent (space : AddressSpace) (childNodeId : NodeId) : Option NodeId :=
  match childNodeId with
  | ⟨0, .numeric n⟩ =>
    if n ≤ space.types.maxTypeInfoNodeId then space.types.hasSubTypeBackward n
    else if space.types.hybridResolution then (space.findNode childNodeId).bind getDirectParentOfNode
    else none
  | _ =>
    if space.types.hybridResolution then (space.findNode childNodeId).bind getDirectParentOfNode
    else none

def recursionLimit : Nat := 50

def recursiveIsTransitiveSubtype (space : AddressSpace) :
    Nat → NodeId → NodeId → Bool
  | 0, _, _ => false
  | limit + 1, currentTypeOrSubtype, expectedParentType =>
    match space.getDirectParent currentTypeOrSubtype with
    | none => false
    | some directParent =>
      equal directParent expectedParentType ||
        recursiveIsTransitiveSubtype space limit directParent expectedParentType

def isTransitiveSubtype (space : AddressSpace) (subtype parentType : NodeId) : Bool :=
  space.recursiveIsTransitiveSubtype recursionLimit subtype parentType

def builtinIdMax : UInt32 := 25

def isCompatibleSimpleTypeOrEnumeration (space : AddressSpace) (valueType dataType : NodeId) :
    Bool :=
  match valueType with
  | ⟨0, .numeric n⟩ =>
    if n > builtinIdMax ∨ n = 22 then false
    else
      space.recursiveIsTransitiveSubtype 1 dataType valueType ||
        -- an Int32 for an Enumeration
        (n == 6 && (equal (opcua 29) dataType ||
          space.isTransitiveSubtype dataType (opcua 29)))
  | _ => false

def isIncludedValueRank (concValueRank expValueRank : Int) : Bool :=
  if expValueRank = -3 then concValueRank = -1 ∨ concValueRank = 1
  else if expValueRank = -2 then true
  else if expValueRank = -1 then concValueRank = -1
  else if expValueRank = 0 then concValueRank ≥ 1
  else expValueRank = concValueRank

def byteStringType : NodeId := opcua 15

def byteType : NodeId := opcua 3

def nullType : NodeId := opcua 0

/-- The type of a value is the declared one, the null type, a subtype, or a compatible simple type
or enumeration. -/
def isTypeIncluded (space : AddressSpace) (dvType varType : NodeId) : Bool :=
  equal dvType varType || equal dvType nullType ||
    space.isTransitiveSubtype dvType varType ||
    space.isCompatibleSimpleTypeOrEnumeration dvType varType

def isConvertible (dvType : NodeId) (dvRank : Int) (varType : NodeId) (varRank : Int) : Bool :=
  (equal dvType byteStringType && dvRank == -1 && equal varType byteType &&
      isIncludedValueRank 1 varRank) ||
    (equal dvType byteType && dvRank == 1 && equal varType byteStringType &&
      isIncludedValueRank (-1) varRank)

def isVariableCompatType (space : AddressSpace) (dvType : NodeId) (dvRank : Int)
    (varType : NodeId) (varRank : Int) : Bool × Bool :=
  if space.isTypeIncluded dvType varType then (isIncludedValueRank dvRank varRank, false)
  else if isConvertible dvType dvRank varType varRank then (true, true)
  else (false, false)

end AddressSpace
end S2OPC
