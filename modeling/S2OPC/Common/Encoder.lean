import S2OPC.Common.Buffer
import S2OPC.Common.BuiltinTypes

/-!
# S2OPC.Common.Encoder

The OPC UA binary encoding of `sopc_encoder.c`: one write and one read function for each built-in
type. The argument `levels` is the number of nesting levels that remain,
`max_nested_struct - nestedStructLevel`. Allocations are taken to succeed.
-/

namespace S2OPC
namespace Encoder

open Codec

structure EncodingConstants where
  maxStringLength : Int
  maxArrayLength : Int
  maxNestedDiagInfo : Nat
  maxNestedStruct : Nat

structure Encodeables (Obj : Type) where
  getEncodeableType : UInt32 → Option EncodeableType
  encode : EncodeableType → Obj → Nat → BufferM Unit
  decode : EncodeableType → Nat → BufferM Obj

def writeError : Status → Status
  | .outOfBounds => .outOfBounds
  | .outOfMemory => .wouldBlock
  | _ => .encodingError

def readError : Status → Status
  | .outOfBounds => .outOfBounds
  | _ => .encodingError

def nested {α : Type} (levels : Nat) (body : Nat → BufferM α) : BufferM α :=
  match levels with
  | 0 => throw .invalidState
  | n + 1 => body n

def checkLevel (levels : Nat) : BufferM Unit := nested levels fun _ => pure ()

def wordWrite (width value levels : Nat) : BufferM Unit :=
  nested levels fun _ => mapError writeError (Buffer.write (some (leBytes width value)))

def wordRead (width levels : Nat) : BufferM Nat :=
  nested levels fun _ => do
    let bs ← mapError readError (Buffer.read width)
    pure (ofLeBytes bs.val)

def byteWrite (v : UInt8) (levels : Nat) : BufferM Unit := wordWrite 1 v.toNat levels
def sbyteWrite (v : Int8) (levels : Nat) : BufferM Unit := wordWrite 1 v.toUInt8.toNat levels
def int16Write (v : Int16) (levels : Nat) : BufferM Unit := wordWrite 2 v.toUInt16.toNat levels
def uint16Write (v : UInt16) (levels : Nat) : BufferM Unit := wordWrite 2 v.toNat levels
def int32Write (v : Int32) (levels : Nat) : BufferM Unit := wordWrite 4 v.toUInt32.toNat levels
def uint32Write (v : UInt32) (levels : Nat) : BufferM Unit := wordWrite 4 v.toNat levels
def int64Write (v : Int64) (levels : Nat) : BufferM Unit := wordWrite 8 v.toUInt64.toNat levels
def uint64Write (v : UInt64) (levels : Nat) : BufferM Unit := wordWrite 8 v.toNat levels
def floatWrite (bits : UInt32) (levels : Nat) : BufferM Unit := wordWrite 4 bits.toNat levels
def doubleWrite (bits : UInt64) (levels : Nat) : BufferM Unit := wordWrite 8 bits.toNat levels

def byteRead (levels : Nat) : BufferM UInt8 := do
  let n ← wordRead 1 levels
  pure (UInt8.ofNat n)

def sbyteRead (levels : Nat) : BufferM Int8 := do
  let n ← wordRead 1 levels
  pure (UInt8.ofNat n).toInt8

def int16Read (levels : Nat) : BufferM Int16 := do
  let n ← wordRead 2 levels
  pure (UInt16.ofNat n).toInt16

def uint16Read (levels : Nat) : BufferM UInt16 := do
  let n ← wordRead 2 levels
  pure (UInt16.ofNat n)

def int32Read (levels : Nat) : BufferM Int32 := do
  let n ← wordRead 4 levels
  pure (UInt32.ofNat n).toInt32

def uint32Read (levels : Nat) : BufferM UInt32 := do
  let n ← wordRead 4 levels
  pure (UInt32.ofNat n)

def int64Read (levels : Nat) : BufferM Int64 := do
  let n ← wordRead 8 levels
  pure (UInt64.ofNat n).toInt64

def uint64Read (levels : Nat) : BufferM UInt64 := do
  let n ← wordRead 8 levels
  pure (UInt64.ofNat n)

def floatRead (levels : Nat) : BufferM UInt32 := uint32Read levels
def doubleRead (levels : Nat) : BufferM UInt64 := uint64Read levels
def statusCodeWrite (v : UInt32) (levels : Nat) : BufferM Unit := uint32Write v levels
def statusCodeRead (levels : Nat) : BufferM UInt32 := uint32Read levels

def toBoolean (v : UInt8) : UInt8 := if v = 0 then v else 1

def booleanWrite (v : UInt8) (levels : Nat) : BufferM Unit :=
  nested levels fun n => byteWrite (toBoolean v) n

def booleanRead (levels : Nat) : BufferM UInt8 :=
  nested levels fun n => do
    let v ← byteRead n
    pure (toBoolean v)

def dateTimeWrite (v : Int64) (levels : Nat) : BufferM Unit :=
  nested levels fun n => int64Write v n

def dateTimeRead (levels : Nat) : BufferM Int64 := nested levels int64Read

def encodedLength (s : ByteString) : Int32 :=
  Int32.ofInt (if s.length > 0 then s.length else -1)

def byteStringWrite (s : ByteString) (levels : Nat) : BufferM Unit :=
  nested levels fun n => do
    mapError writeError (int32Write (encodedLength s) n)
    writeIf (s.length > 0) (mapError writeError (Buffer.write s.bytes))

def stringWrite (s : ByteString) (levels : Nat) : BufferM Unit :=
  nested levels fun n => do
    int32Write (encodedLength s) n
    writeIf (s.length > 0) (mapError writeError (Buffer.write s.bytes))

theorem length_content_of_read (length : Int32)
    (bs : { bs : List UInt8 // bs.length = length.toInt.toNat }) :
    ∀ l ∈ some bs.val, l.length < 2 ^ 31 := by
  have hlt := length.toInt_lt
  simp only [Option.mem_def, Option.some.injEq, forall_eq']
  omega

/-- The string of the `length` bytes read; `length` comes from an `int32_t`. -/
def ofContent (length : Int32) (bs : { bs : List UInt8 // bs.length = length.toInt.toNat }) :
    ByteString :=
  ⟨some bs.val, length_content_of_read length bs⟩

def contentRead (length : Int32) : BufferM ByteString := do
  let bs ← mapError readError (Buffer.read length.toInt.toNat)
  pure (ofContent length bs)

def byteStringRead (cfg : EncodingConstants) (levels : Nat) : BufferM ByteString :=
  nested levels fun n => do
    let length ← int32Read n
    if length.toInt > 0 then
      if length.toInt ≤ cfg.maxStringLength then contentRead length
      else throw .outOfMemory
    else pure .null

/-- `maxLength` is 0 for no other limit than the configured one. -/
def stringReadWithLimitedLength (cfg : EncodingConstants) (maxLength : Int) (levels : Nat) :
    BufferM ByteString :=
  nested levels fun n => do
    let length ← int32Read n
    if length.toInt > 0 then
      if length.toInt ≤ cfg.maxStringLength then
        if 0 = maxLength ∨ length.toInt ≤ maxLength then contentRead length
        else throw .wouldBlock
      else throw .outOfMemory
    else pure .null

def stringRead (cfg : EncodingConstants) (levels : Nat) : BufferM ByteString :=
  stringReadWithLimitedLength cfg 0 levels

def xmlElementWrite (s : ByteString) (levels : Nat) : BufferM Unit := byteStringWrite s levels

def xmlElementRead (cfg : EncodingConstants) (levels : Nat) : BufferM ByteString :=
  byteStringRead cfg levels

def guidWrite (g : Guid) (levels : Nat) : BufferM Unit :=
  nested levels fun n => mapError writeError do
    uint32Write g.data1 n
    uint16Write g.data2 n
    uint16Write g.data3 n
    Buffer.write (some g.data4)

def guidRead (levels : Nat) : BufferM Guid :=
  nested levels fun n => mapError readError do
    let data1 ← uint32Read n
    let data2 ← uint16Read n
    let data3 ← uint16Read n
    let data4 ← Buffer.read 8
    pure ⟨data1, data2, data3, data4.val, data4.property⟩

def nodeIdDataEncoding (nodeId : NodeId) : UInt8 :=
  match nodeId.data with
  | .numeric n =>
    if nodeId.namespaceIndex = 0 ∧ n.toNat ≤ 255 then 0x00
    else if nodeId.namespaceIndex.toNat ≤ 255 ∧ n.toNat ≤ 65535 then 0x01
    else 0x02
  | .string _ => 0x03
  | .guid _ => 0x04
  | .byteString _ => 0x05

def internalNodeIdWrite (encodingByte : UInt8) (nodeId : NodeId) (levels : Nat) : BufferM Unit := do
  byteWrite encodingByte levels
  match (encodingByte &&& 0x0F).toNat, nodeId.data with
  | 0x00, .numeric n => byteWrite n.toUInt8 levels
  | 0x01, .numeric n => do
    byteWrite nodeId.namespaceIndex.toUInt8 levels
    uint16Write n.toUInt16 levels
  | 0x02, .numeric n => do
    uint16Write nodeId.namespaceIndex levels
    uint32Write n levels
  | 0x03, .string s => do
    uint16Write nodeId.namespaceIndex levels
    stringWrite s levels
  | 0x04, .guid g => do
    uint16Write nodeId.namespaceIndex levels
    guidWrite g levels
  | 0x05, .byteString s => do
    uint16Write nodeId.namespaceIndex levels
    byteStringWrite s levels
  | _, _ => throw .invalidParameters

def nodeIdWrite (nodeId : NodeId) (levels : Nat) : BufferM Unit :=
  nested levels fun n => internalNodeIdWrite (nodeIdDataEncoding nodeId) nodeId n

def nodeIdFieldsRead (cfg : EncodingConstants) (encodingByte : UInt8) (levels : Nat) :
    BufferM NodeId :=
  match (encodingByte &&& 0x0F).toNat with
  | 0x00 => do
    let byte ← byteRead levels
    pure ⟨0, .numeric byte.toUInt32⟩
  | 0x01 => do
    let byte ← byteRead levels
    let twoBytes ← uint16Read levels
    pure ⟨byte.toUInt16, .numeric twoBytes.toUInt32⟩
  | 0x02 => do
    let ns ← uint16Read levels
    let n ← uint32Read levels
    pure ⟨ns, .numeric n⟩
  | 0x03 => do
    let ns ← uint16Read levels
    let s ← stringRead cfg levels
    pure ⟨ns, .string s⟩
  | 0x04 => do
    let ns ← uint16Read levels
    let g ← guidRead levels
    pure ⟨ns, .guid g⟩
  | 0x05 => do
    let ns ← uint16Read levels
    let s ← byteStringRead cfg levels
    pure ⟨ns, .byteString s⟩
  | _ => throw .invalidParameters

def internalNodeIdRead (cfg : EncodingConstants) (levels : Nat) : BufferM (UInt8 × NodeId) := do
  checkLevel levels
  let encodingByte ← byteRead levels
  let nodeId ← nodeIdFieldsRead cfg encodingByte levels
  pure (encodingByte, nodeId)

def nodeIdRead (cfg : EncodingConstants) (levels : Nat) : BufferM NodeId :=
  nested levels fun n => do
    let r ← internalNodeIdRead cfg n
    pure r.2

def flag (c : Bool) (m : UInt8) : UInt8 := if c then m else 0

def expandedNodeIdEncodingByte (e : ExpandedNodeId) : UInt8 :=
  nodeIdDataEncoding e.nodeId ||| flag (e.namespaceUri.length > 0) 0x80 |||
    flag (e.serverIndex > 0) 0x40

def expandedNodeIdWrite (e : ExpandedNodeId) (levels : Nat) : BufferM Unit :=
  nested levels fun n => do
    internalNodeIdWrite (expandedNodeIdEncodingByte e) e.nodeId n
    writeIf (e.namespaceUri.length > 0) (stringWrite e.namespaceUri n)
    writeIf (e.serverIndex > 0) (uint32Write e.serverIndex n)

def expandedNodeIdRead (cfg : EncodingConstants) (levels : Nat) : BufferM ExpandedNodeId :=
  nested levels fun n => do
    let r ← internalNodeIdRead cfg n
    let namespaceUri ← readIf (r.1 &&& 0x80 ≠ 0) (stringRead cfg n) .null
    let serverIndex ← readIf (r.1 &&& 0x40 ≠ 0) (uint32Read n) 0
    pure ⟨r.2, namespaceUri, serverIndex⟩

def qualifiedNameWrite (q : QualifiedName) (levels : Nat) : BufferM Unit :=
  nested levels fun n => do
    uint16Write q.namespaceIndex n
    stringWrite q.name n

def qualifiedNameRead (cfg : EncodingConstants) (levels : Nat) : BufferM QualifiedName :=
  nested levels fun n => do
    let namespaceIndex ← uint16Read n
    let name ← stringRead cfg n
    pure ⟨namespaceIndex, name⟩

def localizedTextEncodingByte (t : LocalizedText) : UInt8 :=
  flag (t.defaultLocale.length > 0) 0x01 ||| flag (t.defaultText.length > 0) 0x02

def localizedTextWrite (t : LocalizedText) (levels : Nat) : BufferM Unit :=
  nested levels fun n => do
    byteWrite (localizedTextEncodingByte t) n
    writeIf (localizedTextEncodingByte t &&& 0x01 ≠ 0) (stringWrite t.defaultLocale n)
    writeIf (localizedTextEncodingByte t &&& 0x02 ≠ 0) (stringWrite t.defaultText n)

def localizedTextRead (cfg : EncodingConstants) (levels : Nat) : BufferM LocalizedText :=
  nested levels fun n => do
    let encodingByte ← byteRead n
    let defaultLocale ← readIf (encodingByte &&& 0x01 ≠ 0) (stringRead cfg n) .null
    let defaultText ← readIf (encodingByte &&& 0x02 ≠ 0) (stringRead cfg n) .null
    pure ⟨defaultLocale, defaultText, []⟩

def diagInfoEncodingByte (d : DiagnosticFields) (inner : Bool) : UInt8 :=
  flag (d.symbolicId > -1) 0x01 ||| flag (d.namespaceUri > -1) 0x02 |||
    flag (d.locale > -1) 0x08 ||| flag (d.localizedText > -1) 0x04 |||
    flag (d.additionalInfo.length > 0) 0x10 ||| flag (d.innerStatusCode > 0) 0x20 |||
    flag inner 0x40

def diagnosticFieldsWrite (d : DiagnosticFields) (encodingByte : UInt8) (levels : Nat) :
    BufferM Unit := do
  byteWrite encodingByte levels
  writeIf (encodingByte &&& 0x01 ≠ 0) (int32Write d.symbolicId levels)
  writeIf (encodingByte &&& 0x02 ≠ 0) (int32Write d.namespaceUri levels)
  writeIf (encodingByte &&& 0x08 ≠ 0) (int32Write d.locale levels)
  writeIf (encodingByte &&& 0x04 ≠ 0) (int32Write d.localizedText levels)
  writeIf (encodingByte &&& 0x10 ≠ 0) (stringWrite d.additionalInfo levels)
  writeIf (encodingByte &&& 0x20 ≠ 0) (statusCodeWrite d.innerStatusCode levels)

def diagnosticFieldsRead (cfg : EncodingConstants) (encodingByte : UInt8) (levels : Nat) :
    BufferM DiagnosticFields := do
  let symbolicId ← readIf (encodingByte &&& 0x01 ≠ 0) (int32Read levels) (-1)
  let namespaceUri ← readIf (encodingByte &&& 0x02 ≠ 0) (int32Read levels) (-1)
  let locale ← readIf (encodingByte &&& 0x08 ≠ 0) (int32Read levels) (-1)
  let localizedText ← readIf (encodingByte &&& 0x04 ≠ 0) (int32Read levels) (-1)
  let additionalInfo ← readIf (encodingByte &&& 0x10 ≠ 0) (stringRead cfg levels) .null
  let innerStatusCode ← readIf (encodingByte &&& 0x20 ≠ 0) (statusCodeRead levels) 0
  pure ⟨symbolicId, namespaceUri, locale, localizedText, additionalInfo, innerStatusCode⟩

def diagnosticInfoWriteInternal (cfg : EncodingConstants) : Nat → DiagnosticInfo → BufferM Unit
  | _, .leaf d => diagnosticFieldsWrite d (diagInfoEncodingByte d false) cfg.maxNestedStruct
  | diagLevels, .nest d inner => do
    diagnosticFieldsWrite d (diagInfoEncodingByte d true) cfg.maxNestedStruct
    match diagLevels with
    | 0 => throw .encodingError
    | n + 1 => diagnosticInfoWriteInternal cfg n inner

def diagnosticInfoReadBody (cfg : EncodingConstants) (inner : BufferM DiagnosticInfo) :
    BufferM DiagnosticInfo := do
  let encodingByte ← byteRead cfg.maxNestedStruct
  let d ← diagnosticFieldsRead cfg encodingByte cfg.maxNestedStruct
  if encodingByte &&& 0x40 ≠ 0 then do
    let i ← inner
    pure (.nest d i)
  else pure (.leaf d)

def diagnosticInfoReadInternal (cfg : EncodingConstants) : Nat → BufferM DiagnosticInfo
  | 0 => diagnosticInfoReadBody cfg (throw .outOfMemory)
  | n + 1 => diagnosticInfoReadBody cfg (diagnosticInfoReadInternal cfg n)

def diagnosticInfoWrite (cfg : EncodingConstants) (d : DiagnosticInfo) (levels : Nat) :
    BufferM Unit :=
  nested levels fun _ => diagnosticInfoWriteInternal cfg cfg.maxNestedDiagInfo d

def diagnosticInfoRead (cfg : EncodingConstants) (levels : Nat) : BufferM DiagnosticInfo :=
  nested levels fun _ => diagnosticInfoReadInternal cfg cfg.maxNestedDiagInfo

section Values

variable {Obj : Type} (cfg : EncodingConstants) (E : Encodeables Obj)

def ignoreStatus (x : BufferM Unit) : BufferM Unit := fun b =>
  match x b with
  | .error .outOfBounds b' => .error .outOfBounds b'
  | .error _ b' => .ok () b'
  | .ok _ b' => .ok () b'

def getPosition : BufferM Nat := fun b => .ok b.position b

def patchLength (lengthPos curPos levels : Nat) : BufferM Unit :=
  let size := (curPos + 2 ^ 32 - (lengthPos + 4) % 2 ^ 32) % 2 ^ 32
  writeIf (size < 2 ^ 31) do
    ignoreStatus (Buffer.setPosition lengthPos)
    ignoreStatus (int32Write (Int32.ofNat size) levels)
    ignoreStatus (Buffer.setPosition curPos)

def objectBodyWrite (objType : EncodeableType) (value : Obj) (levels : Nat) : BufferM Unit := do
  let lengthPos ← getPosition
  int32Write (-1) levels
  E.encode objType value levels
  let curPos ← getPosition
  patchLength lengthPos curPos levels

/-- The node identifier written for the type: an object is identified by the identifier of its
binary encoding. -/
def extObjNodeId (e : ExtensionObject Obj) : NodeId :=
  match e.body with
  | .object objType _ => ⟨0, .numeric objType.binaryEncodingTypeId⟩
  | _ => e.typeId.nodeId

def extObjEncodingByte : ExtObjBody Obj → UInt8
  | .none => 0x00
  | .byteString _ => 0x01
  | .xmlElement _ => 0x02
  | .object _ _ => 0x01

def extensionObjectWrite (e : ExtensionObject Obj) (levels : Nat) : BufferM Unit :=
  nested levels fun n => do
    nodeIdWrite (extObjNodeId e) n
    byteWrite (extObjEncodingByte e.body) n
    match e.body with
    | .none => pure ()
    | .byteString s => byteStringWrite s n
    | .xmlElement s => xmlElementWrite s n
    | .object objType value => objectBodyWrite E objType value n

/-- The registered type of a node identifier received with a byte string body. -/
def objectType (nodeId : NodeId) : Option EncodeableType :=
  match nodeId.data with
  | .numeric n => if nodeId.namespaceIndex = 0 then E.getEncodeableType n else none
  | _ => none

def extObjBodyRead (nodeId : NodeId) (encodingByte : UInt8) (levels : Nat) :
    BufferM (ExtensionObject Obj) :=
  match encodingByte.toNat with
  | 0x00 => pure ⟨⟨nodeId, .null, 0⟩, .none⟩
  | 0x01 =>
    match objectType E nodeId with
    | none => throw .encodingError
    | some objType => do
      let _length ← int32Read levels
      let value ← E.decode objType levels
      pure ⟨⟨nodeId, objType.namespaceUri, 0⟩, .object objType value⟩
  | 0x02 => do
    let xml ← xmlElementRead cfg levels
    pure ⟨⟨nodeId, .null, 0⟩, .xmlElement xml⟩
  | _ => throw .encodingError

def extensionObjectRead (levels : Nat) : BufferM (ExtensionObject Obj) :=
  nested levels fun n => do
    let nodeId ← nodeIdRead cfg n
    let encodingByte ← byteRead n
    extObjBodyRead cfg E nodeId encodingByte n

def builtInWrite (levels : Nat) (dataValueWrite : DataValue Obj → BufferM Unit)
    (variantWrite : Variant Obj → BufferM Unit) : Value Obj → BufferM Unit
  | .null => throw .invalidParameters
  | .boolean v => booleanWrite v levels
  | .sbyte v => sbyteWrite v levels
  | .byte v => byteWrite v levels
  | .int16 v => int16Write v levels
  | .uint16 v => uint16Write v levels
  | .int32 v => int32Write v levels
  | .uint32 v => uint32Write v levels
  | .int64 v => int64Write v levels
  | .uint64 v => uint64Write v levels
  | .float v => floatWrite v levels
  | .double v => doubleWrite v levels
  | .string v => stringWrite v levels
  | .dateTime v => dateTimeWrite v levels
  | .guid v => guidWrite v levels
  | .byteString v => byteStringWrite v levels
  | .xmlElement v => xmlElementWrite v levels
  | .nodeId v => nodeIdWrite v levels
  | .expandedNodeId v => expandedNodeIdWrite v levels
  | .statusCode v => statusCodeWrite v levels
  | .qualifiedName v => qualifiedNameWrite v levels
  | .localizedText v => localizedTextWrite v levels
  | .extensionObject v => extensionObjectWrite E v levels
  | .dataValue v => dataValueWrite v
  | .variant v => variantWrite v
  | .diagnosticInfo v => diagnosticInfoWrite cfg v levels

def builtInRead (levels : Nat) (dataValueRead : BufferM (DataValue Obj))
    (variantRead : BufferM (Variant Obj)) : BuiltinId → BufferM (Value Obj)
  | .null => throw .nok
  | .boolean => do let v ← booleanRead levels; pure (.boolean v)
  | .sbyte => do let v ← sbyteRead levels; pure (.sbyte v)
  | .byte => do let v ← byteRead levels; pure (.byte v)
  | .int16 => do let v ← int16Read levels; pure (.int16 v)
  | .uint16 => do let v ← uint16Read levels; pure (.uint16 v)
  | .int32 => do let v ← int32Read levels; pure (.int32 v)
  | .uint32 => do let v ← uint32Read levels; pure (.uint32 v)
  | .int64 => do let v ← int64Read levels; pure (.int64 v)
  | .uint64 => do let v ← uint64Read levels; pure (.uint64 v)
  | .float => do let v ← floatRead levels; pure (.float v)
  | .double => do let v ← doubleRead levels; pure (.double v)
  | .string => do let v ← stringRead cfg levels; pure (.string v)
  | .dateTime => do let v ← dateTimeRead levels; pure (.dateTime v)
  | .guid => do let v ← guidRead levels; pure (.guid v)
  | .byteString => do let v ← byteStringRead cfg levels; pure (.byteString v)
  | .xmlElement => do let v ← xmlElementRead cfg levels; pure (.xmlElement v)
  | .nodeId => do let v ← nodeIdRead cfg levels; pure (.nodeId v)
  | .expandedNodeId => do let v ← expandedNodeIdRead cfg levels; pure (.expandedNodeId v)
  | .statusCode => do let v ← statusCodeRead levels; pure (.statusCode v)
  | .qualifiedName => do let v ← qualifiedNameRead cfg levels; pure (.qualifiedName v)
  | .localizedText => do let v ← localizedTextRead cfg levels; pure (.localizedText v)
  | .extensionObject => do let v ← extensionObjectRead cfg E levels; pure (.extensionObject v)
  | .dataValue => do let v ← dataValueRead; pure (.dataValue v)
  | .variant => do let v ← variantRead; pure (.variant v)
  | .diagnosticInfo => do let v ← diagnosticInfoRead cfg levels; pure (.diagnosticInfo v)

def writeVariantNonArray (levels : Nat) (dataValueWrite : DataValue Obj → BufferM Unit)
    (v : Value Obj) : BufferM Unit := do
  checkLevel levels
  match v with
  | .null => pure ()
  | v => builtInWrite cfg E levels dataValueWrite (fun _ => throw .invalidParameters) v

def readVariantNonArray (levels : Nat) (dataValueRead : BufferM (DataValue Obj))
    (builtInTypeId : Option BuiltinId) : BufferM (Value Obj) := do
  checkLevel levels
  match builtInTypeId with
  | none => throw .nok
  | some .null => pure .null
  | some t => builtInRead cfg E levels dataValueRead (throw .encodingError) t

def elementsWrite (element : Value Obj → BufferM Unit) : Nat → List (Value Obj) → BufferM Unit
  | 0, _ => pure ()
  | _ + 1, [] => throw .outOfBounds
  | n + 1, x :: xs => do
    element x
    elementsWrite element n xs

def writeArray (levels : Nat) (element : Value Obj → BufferM Unit) (t : BuiltinId)
    (noOfElts : Nat) (content : List (Value Obj)) : BufferM Unit :=
  match t with
  | .null => throw .invalidParameters
  | _ => do
    int32Write (Int32.ofNat noOfElts) levels
    elementsWrite element noOfElts content

/-- `SOPC_Read_Array` below its test of the nesting level, for elements of type `t`; a negative
length is read as 0. -/
def readArray (levels : Nat) (t : BuiltinId) (element : BuiltinId → BufferM (Value Obj)) :
    BufferM (List (Value Obj)) :=
  match t with
  | .null => throw .nok
  | t => do
    let noOfElts ← int32Read levels
    if max noOfElts.toInt 0 > cfg.maxArrayLength then throw .outOfMemory
    else readMany (element t) noOfElts.toInt.toNat

def variantEncodingMask : Variant Obj → UInt8
  | .single v => v.typeId.code
  | .nullArray t => t.code ||| 0x80
  | .array t _ => t.code ||| 0x80
  | .matrix t _ _ => t.code ||| 0x80 ||| 0x40

/-- The number of elements of a matrix: every dimension is positive and the product stays within
`INT32_MAX`. -/
def matrixProduct : List Int32 → Int → Option Int
  | [], acc => some acc
  | d :: ds, acc =>
    if d.toInt > 0 ∧ acc * d.toInt ≤ 2147483647 then matrixProduct ds (acc * d.toInt) else none

def matrixLength (arrayDimensions : List Int32) : Option Int :=
  matrixProduct arrayDimensions (if arrayDimensions = [] then 0 else 1)

/-- The loop over the dimensions keeps only the status of the last write. -/
def dimensionsWrite (levels : Nat) : List Int32 → BufferM Unit
  | [] => pure ()
  | [d] => int32Write d levels
  | d :: ds => do
    ignoreStatus (int32Write d levels)
    dimensionsWrite levels ds

/-- Read `n` dimensions, whose product with `acc` is returned and may not exceed `arrayLength`. -/
def dimensionsRead (arrayLength : Int) (levels : Nat) : Nat → Int → BufferM (List Int32 × Int)
  | 0, acc => pure ([], acc)
  | n + 1, acc => do
    let d ← mapError readError (int32Read levels)
    if d.toInt > 0 then
      if acc * d.toInt > arrayLength then throw .encodingError
      else do
        let r ← dimensionsRead arrayLength levels n (acc * d.toInt)
        pure (d :: r.1, r.2)
    else throw .encodingError

def variantWriteBody (levels : Nat) (scalar : Value Obj → BufferM Unit)
    (array : BuiltinId → Nat → List (Value Obj) → BufferM Unit) (v : Variant Obj) :
    BufferM Unit := do
  byteWrite (variantEncodingMask v) levels
  match v with
  | .single x => scalar x
  | .nullArray t => array t 0 []
  | .array t content => array t content.length content
  | .matrix t arrayDimensions content =>
    match matrixLength arrayDimensions with
    | none => throw .encodingError
    | some length => do
      array t length.toNat content
      int32Write (Int32.ofNat arrayDimensions.length) levels
      dimensionsWrite levels arrayDimensions

def matrixRead (levels : Nat) (t : BuiltinId) (content : List (Value Obj)) :
    BufferM (Variant Obj) := do
  let dimensions ← int32Read levels
  if dimensions.toInt < 0 ∨ dimensions.toInt > cfg.maxArrayLength then throw .outOfMemory
  else do
    let r ← dimensionsRead content.length levels dimensions.toInt.toNat
      (if dimensions.toInt = 0 then 0 else 1)
    if r.2 ≠ content.length then throw .encodingError
    else pure (.matrix t r.1 content)

def variantReadBody (levels : Nat) (scalar : Option BuiltinId → BufferM (Value Obj))
    (array : BuiltinId → BufferM (List (Value Obj))) : BufferM (Variant Obj) := do
  let encodingByte ← byteRead levels
  let builtInTypeId := BuiltinId.ofCode? (0x3F &&& encodingByte)
  if encodingByte &&& 0x80 ≠ 0 then
    match builtInTypeId with
    | none => throw .nok
    | some t => do
      let content ← array t
      if encodingByte &&& 0x40 ≠ 0 then matrixRead cfg levels t content
      else pure (.array t content)
  else if encodingByte &&& 0x40 ≠ 0 then throw .invalidParameters
  else do
    let v ← scalar builtInTypeId
    pure (.single v)

def dataValueEncodingMask (d : DataValue Obj) : UInt8 :=
  flag (d.value.builtInTypeId ≠ .null) 0x01 ||| flag (d.status ≠ 0) 0x02 |||
    flag (d.sourceTimestamp > 0) 0x04 ||| flag (d.sourcePicoSeconds > 0) 0x10 |||
    flag (d.serverTimestamp > 0) 0x08 ||| flag (d.serverPicoSeconds > 0) 0x20

def dataValueWriteBody (levels : Nat) (variantWrite : Variant Obj → BufferM Unit)
    (d : DataValue Obj) : BufferM Unit := do
  let mask := dataValueEncodingMask d
  byteWrite mask levels
  writeIf (mask &&& 0x01 ≠ 0) (variantWrite d.value)
  writeIf (mask &&& 0x02 ≠ 0) (statusCodeWrite d.status levels)
  writeIf (mask &&& 0x04 ≠ 0) (dateTimeWrite d.sourceTimestamp levels)
  writeIf (mask &&& 0x10 ≠ 0) (uint16Write d.sourcePicoSeconds levels)
  writeIf (mask &&& 0x08 ≠ 0) (dateTimeWrite d.serverTimestamp levels)
  writeIf (mask &&& 0x20 ≠ 0) (uint16Write d.serverPicoSeconds levels)

def dataValueReadBody (levels : Nat) (variantRead : BufferM (Variant Obj)) :
    BufferM (DataValue Obj) := do
  let mask ← byteRead levels
  let value ← readIf (mask &&& 0x01 ≠ 0) variantRead (.single .null)
  let status ← readIf (mask &&& 0x02 ≠ 0) (statusCodeRead levels) 0
  let sourceTimestamp ← readIf (mask &&& 0x04 ≠ 0) (dateTimeRead levels) 0
  let sourcePicoSeconds ← readIf (mask &&& 0x10 ≠ 0) (uint16Read levels) 0
  let serverTimestamp ← readIf (mask &&& 0x08 ≠ 0) (dateTimeRead levels) 0
  let serverPicoSeconds ← readIf (mask &&& 0x20 ≠ 0) (uint16Read levels) 0
  pure ⟨value, status, sourceTimestamp, serverTimestamp, sourcePicoSeconds, serverPicoSeconds⟩

mutual

/-- The elements of an array are one level below the array, which is one level below the variant. -/
def variantWriteInternal : Nat → Variant Obj → BufferM Unit
  | 0, _ => throw .invalidState
  | n + 1, v =>
    variantWriteBody n (writeVariantNonArray cfg E n (dataValueWriteInternal n))
      (fun t length content =>
        match n with
        | 0 => throw .invalidState
        | m + 1 =>
          writeArray m (builtInWrite cfg E m (dataValueWriteInternal m) (variantWriteInternal m))
            t length content) v

def dataValueWriteInternal : Nat → DataValue Obj → BufferM Unit
  | 0, _ => throw .invalidState
  | n + 1, d => dataValueWriteBody n (variantWriteInternal n) d

end

mutual

def variantReadInternal : Nat → BufferM (Variant Obj)
  | 0 => throw .invalidState
  | n + 1 =>
    variantReadBody cfg n (readVariantNonArray cfg E n (dataValueReadInternal n))
      (fun t =>
        match n with
        | 0 => if t = .null then throw .nok else throw .invalidState
        | m + 1 =>
          readArray cfg m t
            (builtInRead cfg E m (dataValueReadInternal m) (variantReadInternal m)))

def dataValueReadInternal : Nat → BufferM (DataValue Obj)
  | 0 => throw .invalidState
  | n + 1 => dataValueReadBody n (variantReadInternal n)

end

def variantWrite (v : Variant Obj) (levels : Nat) : BufferM Unit := do
  checkLevel levels
  variantWriteInternal cfg E levels v

def variantRead (levels : Nat) : BufferM (Variant Obj) := variantReadInternal cfg E levels

def dataValueWrite (d : DataValue Obj) (levels : Nat) : BufferM Unit :=
  dataValueWriteInternal cfg E levels d

def dataValueRead (levels : Nat) : BufferM (DataValue Obj) := dataValueReadInternal cfg E levels

end Values

end Encoder
end S2OPC
