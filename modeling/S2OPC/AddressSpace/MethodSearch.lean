import S2OPC.AddressSpace.Typing

/-!
# S2OPC.AddressSpace.MethodSearch

Whether an object has a method: `address_space_typing_bs__check_object_has_method`.

The search recognises the reference types by their numeric identifier in any namespace, and follows
the type definition of what it found as that of an object when this is an object itself. `Regular`
excludes both.
-/

namespace S2OPC
namespace AddressSpace

open List

variable {space : AddressSpace} {limit : Nat} {objectId methodId : NodeId}

def isForward (n : UInt32) (ref : ReferenceNode) : Bool :=
  !ref.isInverse &&
    match ref.referenceTypeId.data with
    | .numeric m => m == n
    | _ => false

def isComponent : ReferenceNode → Bool := isForward 47

def isTypeDefinition : ReferenceNode → Bool := isForward 40

def isProperty : ReferenceNode → Bool := isForward 46

def isComponentOf (component : NodeId) (node : Node) : Bool :=
  node.references.any fun ref =>
    isComponent ref && isLocalTarget ref.targetId && NodeId.equal ref.targetId.nodeId component

def getTypeDefinition (node : Node) : Option ExpandedNodeId :=
  (node.references.find? isTypeDefinition).map ReferenceNode.targetId

def recursiveCheckObjectHasMethod (space : AddressSpace) : Nat → NodeId → NodeId → Bool
  | 0, _, _ => false
  | limit + 1, objectId, methodId =>
    match space.findNode objectId with
    | none => false
    | some object =>
      if isComponentOf methodId object then true
      else
        match object.nodeClass with
        | .object =>
          match getTypeDefinition object with
          | some type =>
            isLocalTarget type && recursiveCheckObjectHasMethod space limit type.nodeId methodId
          | none => false
        | .objectType =>
          match space.getDirectParent objectId with
          | some parent => recursiveCheckObjectHasMethod space limit parent methodId
          | none => false
        | _ => false

def checkObjectHasMethod (space : AddressSpace) (objectId methodId : NodeId) : Bool :=
  space.recursiveCheckObjectHasMethod recursionLimit objectId methodId

def HasComponent (space : AddressSpace) (nodeId component : NodeId) : Prop :=
  ∃ node, space.findNode nodeId = some node ∧
    ∃ ref ∈ node.references, ref.isInverse = false ∧ ref.referenceTypeId = NodeId.opcua 47 ∧
      isLocalTarget ref.targetId = true ∧ NodeId.equal ref.targetId.nodeId component = true

def HasTypeDefinition (space : AddressSpace) (objectId typeId : NodeId) : Prop :=
  ∃ node, space.findNode objectId = some node ∧ node.nodeClass = .object ∧
    ∃ ref ∈ node.references, ref.isInverse = false ∧ ref.referenceTypeId = NodeId.opcua 40 ∧
      isLocalTarget ref.targetId = true ∧ ref.targetId.nodeId = typeId

def Supertype (space : AddressSpace) : NodeId → NodeId → Prop :=
  Relation.ReflTransGen fun child parent => space.getDirectParent child = some parent

/-- The method is a component of the object, of its type definition or of one of the supertypes of
this one. -/
inductive MethodOf (space : AddressSpace) (objectId methodId : NodeId) : Prop where
  | component (h : HasComponent space objectId methodId)
  | ofType (typeId superId : NodeId) (htype : HasTypeDefinition space objectId typeId)
      (hsuper : Supertype space typeId superId) (h : HasComponent space superId methodId)
  | ofSupertype (object : Node) (superId : NodeId) (hobject : space.findNode objectId = some object)
      (hclass : object.nodeClass = .objectType) (hsuper : Supertype space objectId superId)
      (h : HasComponent space superId methodId)

/-- The identifiers of HasComponent and HasTypeDefinition are not used for reference types of other
namespaces, and neither the type definition of an object nor a supertype is an object. -/
structure Regular (space : AddressSpace) : Prop where
  component_eq : ∀ node ∈ space.nodes, ∀ ref ∈ node.references, isComponent ref = true →
    ref.referenceTypeId = NodeId.opcua 47
  typeDefinition_eq : ∀ node ∈ space.nodes, ∀ ref ∈ node.references, isTypeDefinition ref = true →
    ref.referenceTypeId = NodeId.opcua 40
  type_not_object : ∀ node ∈ space.nodes, ∀ type, getTypeDefinition node = some type →
    ∀ typeNode, space.findNode type.nodeId = some typeNode → typeNode.nodeClass ≠ .object
  parent_not_object : ∀ childId parentId, space.getDirectParent childId = some parentId →
    ∀ parent, space.findNode parentId = some parent → parent.nodeClass ≠ .object

theorem mem_of_findNode {nodeId : NodeId} {node : Node} (h : space.findNode nodeId = some node) :
    node ∈ space.nodes := by
  obtain ⟨idx, -, hidx⟩ := Option.bind_eq_some_iff.mp h; exact mem_of_getElem? hidx

theorem isForward_isInverse {n : UInt32} {ref : ReferenceNode} (h : isForward n ref = true) :
    ref.isInverse = false := by
  simpa using (Bool.and_eq_true_iff.mp h).1

theorem hasComponent_of_isComponentOf (hreg : Regular space) {object : Node}
    (hobject : space.findNode objectId = some object)
    (h : isComponentOf methodId object = true) : HasComponent space objectId methodId := by
  obtain ⟨ref, href, hc⟩ := any_eq_true.mp h
  simp only [Bool.and_eq_true] at hc
  obtain ⟨⟨hcomp, hlocal⟩, hequal⟩ := hc
  exact ⟨object, hobject, ref, href, isForward_isInverse hcomp,
    hreg.component_eq object (mem_of_findNode hobject) ref href hcomp, hlocal, hequal⟩

theorem search_type_sound (hreg : Regular space) {limit : Nat} {typeId : NodeId}
    (htype : ∀ node, space.findNode typeId = some node → node.nodeClass ≠ .object)
    (h : space.recursiveCheckObjectHasMethod limit typeId methodId = true) :
    ∃ superId, Supertype space typeId superId ∧ HasComponent space superId methodId := by
  fun_induction recursiveCheckObjectHasMethod space limit typeId methodId with
  | case3 limit typeId methodId node hnode hcomp =>
    exact ⟨typeId, .refl, hasComponent_of_isComponentOf hreg hnode hcomp⟩
  | case4 limit typeId methodId node hnode _ hclass => exact absurd hclass (htype node hnode)
  | case5 limit typeId methodId node hnode _ hclass => exact absurd hclass (htype node hnode)
  | case6 limit typeId methodId node hnode _ _ parent hparent ih =>
    obtain ⟨superId, hsuper, hcomp⟩ := ih (hreg.parent_not_object typeId parent hparent) h
    exact ⟨superId, .head hparent hsuper, hcomp⟩
  | _ => cases h

theorem search_sound (hreg : Regular space)
    (h : space.recursiveCheckObjectHasMethod limit objectId methodId = true) :
    MethodOf space objectId methodId := by
  cases limit with
  | zero => cases h
  | succ limit =>
    unfold recursiveCheckObjectHasMethod at h
    split at h
    · cases h
    rename_i object hobject
    split at h
    · rename_i hcomp; exact .component (hasComponent_of_isComponentOf hreg hobject hcomp)
    split at h
    · rename_i hclass
      split at h
      · rename_i type htype; rw [Bool.and_eq_true] at h
        have hmem := mem_of_findNode hobject
        obtain ⟨superId, hsuper, hcomp⟩ :=
          search_type_sound hreg (hreg.type_not_object object hmem type htype) h.2
        obtain ⟨ref, href, rfl⟩ := Option.map_eq_some_iff.mp htype
        have hmem' := mem_of_find?_eq_some href
        have hdef := find?_some href
        exact .ofType ref.targetId.nodeId superId ⟨object, hobject, hclass, ref, hmem',
          isForward_isInverse hdef, hreg.typeDefinition_eq object hmem ref hmem' hdef, h.1, rfl⟩
          hsuper hcomp
      · cases h
    · rename_i hclass
      split at h
      · rename_i parent hparent
        obtain ⟨superId, hsuper, hcomp⟩ :=
          search_type_sound hreg (hreg.parent_not_object objectId parent hparent) h
        exact .ofSupertype object superId hobject hclass (.head hparent hsuper) hcomp
      · cases h
    · cases h

def oneMethod : AddressSpace :=
  ⟨[⟨⟨1, .numeric 1⟩, .object, [⟨NodeId.opcua 47, false, ⟨⟨1, .numeric 2⟩, .null, 0⟩⟩],
    NodeId.opcua 0, -1, 0, false, .null⟩], ⟨0, fun _ => none, false⟩, false⟩

theorem oneMethod_regular : Regular oneMethod where
  component_eq := by decide
  typeDefinition_eq := by decide
  type_not_object := by
    intro node hnode type htype
    cases mem_singleton.mp hnode; cases htype
  parent_not_object := by
    intro childId parentId h
    unfold getDirectParent at h
    split at h <;> simp [oneMethod] at h

theorem oneMethod_search : MethodOf oneMethod ⟨1, .numeric 1⟩ ⟨1, .numeric 2⟩ :=
  @search_sound _ recursionLimit _ _ oneMethod_regular rfl

end AddressSpace
end S2OPC
