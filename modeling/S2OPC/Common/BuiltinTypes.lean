import S2OPC.Lib.Codec

/-!
# S2OPC.Common.BuiltinTypes

The OPC UA built-in types of `sopc_builtintypes.h`. Floating point values are kept as their bit
patterns; the ownership flags of the source have no counterpart. Encodeable objects are a parameter
`Obj`.
-/

namespace S2OPC

open List Option

inductive BuiltinId where
  | null
  | boolean
  | sbyte
  | byte
  | int16
  | uint16
  | int32
  | uint32
  | int64
  | uint64
  | float
  | double
  | string
  | dateTime
  | guid
  | byteString
  | xmlElement
  | nodeId
  | expandedNodeId
  | statusCode
  | qualifiedName
  | localizedText
  | extensionObject
  | dataValue
  | variant
  | diagnosticInfo
  deriving DecidableEq, Repr

namespace BuiltinId

def all : List BuiltinId :=
  [null, boolean, sbyte, byte, int16, uint16, int32, uint32, int64, uint64, float, double, string,
    dateTime, guid, byteString, xmlElement, nodeId, expandedNodeId, statusCode, qualifiedName,
    localizedText, extensionObject, dataValue, variant, diagnosticInfo]

def code (t : BuiltinId) : UInt8 := UInt8.ofNat (all.idxOf t)

def ofCode? (c : UInt8) : Option BuiltinId := all[c.toNat]?

@[simp] theorem ofCode?_code (t : BuiltinId) : ofCode? t.code = some t := by
  cases t <;> rfl

end BuiltinId

/-- `SOPC_String`, `SOPC_ByteString` and `SOPC_XmlElement`: `none` is the null string, of length
-1; the length is an `int32_t`. -/
@[ext] structure ByteString where
  bytes : Option (List UInt8)
  length_lt : ∀ bs ∈ bytes, bs.length < 2 ^ 31
  deriving DecidableEq

namespace ByteString

def null : ByteString := ⟨none, by simp⟩

def length (s : ByteString) : Int :=
  match s.bytes with
  | none => -1
  | some bs => bs.length

def toList (s : ByteString) : List UInt8 := s.bytes.getD []

theorem length_bounds (s : ByteString) : -1 ≤ s.length ∧ s.length < 2 ^ 31 := by
  obtain ⟨_ | bs, h⟩ := s
  · simp [length]
  · have := h bs rfl; simp only [length]; omega

theorem length_toList_lt (s : ByteString) : s.toList.length < 2 ^ 31 := by
  obtain ⟨_ | bs, h⟩ := s
  · simp [toList]
  · exact h bs rfl

theorem bytes_of_length_pos {s : ByteString} (h : s.length > 0) :
    s.bytes = some s.toList ∧ s.length = s.toList.length := by
  obtain ⟨_ | bs, hs⟩ := s
  · simp [length] at h
  · exact ⟨rfl, rfl⟩

theorem toList_of_length_nonpos {s : ByteString} (h : s.length ≤ 0) : s.toList = [] := by
  obtain ⟨_ | bs, hs⟩ := s
  · rfl
  · refine length_eq_zero_iff.mp ?_
    simp only [length] at h
    simp only [toList, getD_some]
    omega

def normalise (s : ByteString) : ByteString := if s.length > 0 then s else null

def splice (s : ByteString) (p : Nat) (bs : List UInt8) (h : p + bs.length ≤ s.toList.length) :
    ByteString :=
  ⟨s.bytes.map fun l => Codec.splice l p bs, by
    have hlt := s.length_toList_lt
    obtain ⟨_ | l, hl⟩ := s
    · simp
    · simp only [toList, getD_some] at h hlt
      simp only [map_some, mem_def, some.injEq, forall_eq']
      rw [Codec.length_splice (by omega)]
      omega⟩

theorem length_slice_lt (s : ByteString) (p n : Nat) :
    ∀ l ∈ some ((s.toList.drop p).take n), l.length < 2 ^ 31 := by
  have hlt := s.length_toList_lt
  simp only [mem_def, some.injEq, forall_eq', length_take, length_drop]
  omega

def slice (s : ByteString) (p n : Nat) : ByteString :=
  ⟨some ((s.toList.drop p).take n), length_slice_lt s p n⟩

def cString (s : ByteString) : List UInt8 := s.toList.takeWhile (· != 0)

def stringEqual (a b : ByteString) : Bool :=
  if a.length ≤ 0 ∧ b.length ≤ 0 then true
  else if a.length = b.length then a.cString == b.cString
  else false

def byteStringEqual (a b : ByteString) : Bool :=
  (a.length ≤ 0 ∧ b.length ≤ 0) || a.bytes == b.bytes

theorem stringEqual_comm (a b : ByteString) : stringEqual a b = stringEqual b a := by
  simp only [stringEqual, and_comm, eq_comm, Bool.beq_comm]

theorem stringEqual_eq {a b : ByteString} (hpos : 0 < a.length) (hnul : 0 ∉ a.toList) :
    stringEqual a b = decide (a = b) := by
  have ha : a.cString = a.toList := by
    refine takeWhile_eq_self_iff.mpr fun x hx => ?_
    simp only [bne_iff_ne]
    rintro rfl; exact hnul hx
  unfold stringEqual
  rw [if_neg (by omega)]
  by_cases heq : a = b
  · subst heq; simp
  rw [decide_eq_false heq]
  split
  · obtain ⟨hab, hla⟩ := bytes_of_length_pos hpos
    obtain ⟨hbb, hlb⟩ := bytes_of_length_pos (show b.length > 0 by omega)
    rw [beq_eq_false_iff_ne, ha]
    intro hstr
    have hb : b.toList.takeWhile (· != 0) = b.toList := by
      refine ( takeWhile_prefix _).eq_of_length ?_
      have : (b.cString).length = a.toList.length := by rw [← hstr]
      unfold cString at this
      omega
    refine heq (ByteString.ext ?_)
    rw [hab, hbb, hstr, cString, hb]
  · rfl

end ByteString

structure Guid where
  data1 : UInt32
  data2 : UInt16
  data3 : UInt16
  data4 : List UInt8
  data4_length : data4.length = 8
  deriving DecidableEq

inductive Identifier where
  | numeric (n : UInt32)
  | string (s : ByteString)
  | guid (g : Guid)
  | byteString (s : ByteString)
  deriving DecidableEq

structure NodeId where
  namespaceIndex : UInt16
  data : Identifier
  deriving DecidableEq

namespace NodeId

def opcua (n : UInt32) : NodeId := ⟨0, .numeric n⟩

def equal (left right : NodeId) : Bool :=
  left.namespaceIndex == right.namespaceIndex &&
    match left.data, right.data with
    | .numeric m, .numeric n => m == n
    | .string s, .string t => ByteString.stringEqual s t
    | .guid g, .guid h => g == h
    | .byteString s, .byteString t => ByteString.byteStringEqual s t
    | _, _ => false

end NodeId

structure ExpandedNodeId where
  nodeId : NodeId
  namespaceUri : ByteString
  serverIndex : UInt32
  deriving DecidableEq

structure DiagnosticFields where
  symbolicId : Int32
  namespaceUri : Int32
  locale : Int32
  localizedText : Int32
  additionalInfo : ByteString
  innerStatusCode : UInt32
  deriving DecidableEq

inductive DiagnosticInfo where
  | leaf (fields : DiagnosticFields)
  | nest (fields : DiagnosticFields) (inner : DiagnosticInfo)
  deriving DecidableEq

structure QualifiedName where
  namespaceIndex : UInt16
  name : ByteString
  deriving DecidableEq

structure LocalizedText where
  defaultLocale : ByteString
  defaultText : ByteString
  localizedTextList : List (ByteString × ByteString)
  deriving DecidableEq

structure EncodeableType where
  typeId : UInt32
  binaryEncodingTypeId : UInt32
  namespaceUri : ByteString
  deriving DecidableEq

inductive ExtObjBody (Obj : Type) where
  | none
  | byteString (bstring : ByteString)
  | xmlElement (xml : ByteString)
  | object (objType : EncodeableType) (value : Obj)
  deriving DecidableEq

/-- The `Length` field, which no function reads, is left out. -/
structure ExtensionObject (Obj : Type) where
  typeId : ExpandedNodeId
  body : ExtObjBody Obj
  deriving DecidableEq

mutual

inductive Value (Obj : Type) where
  | null
  | boolean (v : UInt8)
  | sbyte (v : Int8)
  | byte (v : UInt8)
  | int16 (v : Int16)
  | uint16 (v : UInt16)
  | int32 (v : Int32)
  | uint32 (v : UInt32)
  | int64 (v : Int64)
  | uint64 (v : UInt64)
  | float (bits : UInt32)
  | double (bits : UInt64)
  | string (v : ByteString)
  | dateTime (v : Int64)
  | guid (v : Guid)
  | byteString (v : ByteString)
  | xmlElement (v : ByteString)
  | nodeId (v : NodeId)
  | expandedNodeId (v : ExpandedNodeId)
  | statusCode (v : UInt32)
  | qualifiedName (v : QualifiedName)
  | localizedText (v : LocalizedText)
  | extensionObject (v : ExtensionObject Obj)
  | dataValue (v : DataValue Obj)
  | variant (v : Variant Obj)
  | diagnosticInfo (v : DiagnosticInfo)

/-- The elements of an array or a matrix are of its type; a null array has length -1, a matrix the
product of its dimensions. -/
inductive Variant (Obj : Type) where
  | single (v : Value Obj)
  | nullArray (t : BuiltinId)
  | array (t : BuiltinId) (content : List (Value Obj))
  | matrix (t : BuiltinId) (arrayDimensions : List Int32) (content : List (Value Obj))

structure DataValue (Obj : Type) where
  value : Variant Obj
  status : UInt32
  sourceTimestamp : Int64
  serverTimestamp : Int64
  sourcePicoSeconds : UInt16
  serverPicoSeconds : UInt16

end

variable {Obj : Type}

def Value.typeId : Value Obj → BuiltinId
  | .null => .null
  | .boolean _ => .boolean
  | .sbyte _ => .sbyte
  | .byte _ => .byte
  | .int16 _ => .int16
  | .uint16 _ => .uint16
  | .int32 _ => .int32
  | .uint32 _ => .uint32
  | .int64 _ => .int64
  | .uint64 _ => .uint64
  | .float _ => .float
  | .double _ => .double
  | .string _ => .string
  | .dateTime _ => .dateTime
  | .guid _ => .guid
  | .byteString _ => .byteString
  | .xmlElement _ => .xmlElement
  | .nodeId _ => .nodeId
  | .expandedNodeId _ => .expandedNodeId
  | .statusCode _ => .statusCode
  | .qualifiedName _ => .qualifiedName
  | .localizedText _ => .localizedText
  | .extensionObject _ => .extensionObject
  | .dataValue _ => .dataValue
  | .variant _ => .variant
  | .diagnosticInfo _ => .diagnosticInfo

def Variant.builtInTypeId : Variant Obj → BuiltinId
  | .single v => v.typeId
  | .nullArray t => t
  | .array t _ => t
  | .matrix t _ _ => t

def Variant.getValueRank : Variant Obj → Int
  | .single _ => -1
  | .nullArray _ => 1
  | .array _ _ => 1
  | .matrix _ arrayDimensions _ => arrayDimensions.length

/-- The numeric identifier of the type of an object is put in place of the one of its encoding. -/
def Variant.getDataType : Variant Obj → NodeId
  | .single (.extensionObject e) =>
    if e.typeId.serverIndex = 0 ∧ e.typeId.namespaceUri.length ≤ 0 then
      match e.body, e.typeId.nodeId.data with
      | .object objType _, .numeric _ =>
        ⟨e.typeId.nodeId.namespaceIndex, .numeric objType.typeId⟩
      | .object _ _, _ => e.typeId.nodeId
      | _, _ => NodeId.opcua 22
    else NodeId.opcua 22
  | v => NodeId.opcua v.builtInTypeId.code.toUInt32

end S2OPC
