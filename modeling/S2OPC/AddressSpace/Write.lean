import S2OPC.AddressSpace.Range
import S2OPC.AddressSpace.Typing

/-!
# S2OPC.AddressSpace.Write

The write of the value of a variable: `address_space_bs__set_Value` under the checks of
`treat_write_1` of `address_space_i.imp`.

What the environment decides during a write is a `WriteEnv`. A copy is identified with its source,
except that the null array is copied as an empty one. The answer `none` stands for undefined behaviour
or a failed assertion.
-/

namespace S2OPC

structure Timestamp where
  timestamp : Int64
  picoSeconds : UInt16
  deriving DecidableEq

structure VariableState (Obj : Type) where
  value : NodeValue Obj
  status : UInt32
  sourceTs : Timestamp

abbrev Values (Obj : Type) := Nat → VariableState Obj

inductive WriteStatus where
  | ok
  | badAttributeIdInvalid
  | badNodeIdUnknown
  | badNotWritable
  | badTypeMismatch
  | badUserAccessDenied
  | badOutOfMemory
  | badInternalError
  | badInvalidArgument
  | badIndexRangeInvalid
  | badIndexRangeNoData
  deriving DecidableEq, Repr

structure WriteValue (Obj : Type) where
  nodeId : NodeId
  attributeId : Option UInt32
  value : DataValue Obj
  indexRange : ByteString

structure WriteEnv (Obj : Type) where
  -- the service is called by the local application
  localTreatment : Bool
  -- the locales of the request, if any
  locales : Option (List (List UInt8))
  -- the authorization manager grants the write
  authorized : Bool
  now : Timestamp
  allocPrevious : Bool
  allocConverted : Bool
  allocRange : Bool
  copyNew : Bool
  copyPrevious : Bool
  textAlloc : Nat → Bool
  selfCopy : Except Status Unit
  elementCopy : Nat → ElementCopy Obj

variable {Obj : Type}

namespace Variant

/-- The product of the dimensions of a matrix, when they are positive and it is an `int32_t`. -/
def matrixLength (dims : List Int32) : Option Nat :=
  dims.foldlM (fun (n : Nat) (dim : Int32) =>
    if 0 < dim.toInt ∧ n * dim.toInt.toNat < 2 ^ 31 then some (n * dim.toInt.toNat) else none) 1

def copy (alloc : Bool) (src : Variant Obj) : Option (Variant Obj) :=
  match src with
  | .nullArray t => some (.array t [])
  | .matrix t [] _ => some (.matrix t [] [])
  | .matrix _ dims _ => if (matrixLength dims).isSome && alloc then some src else none
  | _ => if alloc then some src else none

/-- `convertVariantType_ByteArrayByteString`; the length of a byte array is an `int32_t`. -/
def convertByteArrayByteString (alloc : Bool) (toConvert : Variant Obj) :
    Option (Option (Variant Obj)) :=
  if alloc = false then some none
  else
    match toConvert with
    | .nullArray .byte => some (some (.single (.byteString .null)))
    | .array .byte content =>
      let bs := content.map fun v => match v with | .byte b => b | _ => 0
      some (some (.single (.byteString
        (if h : 0 < bs.length ∧ bs.length < 2 ^ 31 then
          ⟨some bs, by simpa only [Option.mem_def, Option.some.injEq, forall_eq'] using h.2⟩
        else .null))))
    | .single (.byteString s) => some (some (.array .byte (s.toList.map .byte)))
    | _ => none

end Variant

namespace LocalizedText

def toLower (c : UInt8) : UInt8 := if 65 ≤ c ∧ c ≤ 90 then c + 32 else c

def sameLocale (a b : ByteString) : Bool :=
  (a.length ≤ 0 ∧ b.length ≤ 0) ||
    (a.length == b.length && a.cString.map toLower == b.cString.map toLower)

def isEmpty (lt : LocalizedText) : Bool :=
  lt.defaultLocale.length ≤ 0 ∧ lt.defaultText.length ≤ 0

def setSupported (alloc : Bool) (dest src : LocalizedText) : Except Status LocalizedText :=
  if alloc = false then .error .outOfMemory
  else if sameLocale dest.defaultLocale src.defaultLocale then
    .ok { dest with defaultText := src.defaultText }
  else
    match dest.localizedTextList.findIdx? fun lt => sameLocale lt.1 src.defaultLocale with
    | some i =>
      .ok { dest with localizedTextList := dest.localizedTextList.modify i fun lt =>
              (lt.1, src.defaultText) }
    | none =>
      .ok { dest with localizedTextList :=
              dest.localizedTextList ++ [(src.defaultLocale, src.defaultText)] }

def removeSupported (alloc : Bool) (dest src : LocalizedText) : Except Status LocalizedText :=
  if sameLocale dest.defaultLocale src.defaultLocale then
    match dest.localizedTextList with
    | [] => .ok ⟨.null, .null, []⟩
    | lt :: rest => if alloc then .ok ⟨lt.1, lt.2, rest⟩ else .error .outOfMemory
  else
    .ok { dest with localizedTextList :=
            dest.localizedTextList.eraseP fun lt => sameLocale lt.1 src.defaultLocale }

def addOrSetLocale (alloc : Bool) (supportedLocaleIds : Option (List (List UInt8)))
    (dest src : LocalizedText) : Except Status LocalizedText :=
  match supportedLocaleIds with
  | none => .error .invalidParameters
  | some locales =>
    if src.localizedTextList ≠ [] then .error .invalidParameters
    else if src.isEmpty then .ok ⟨.null, .null, []⟩
    else if 0 < src.defaultLocale.length ∧
        ¬ locales.any fun locale => locale.map toLower == src.defaultLocale.cString.map toLower then
      .error .notSupported
    else if 0 < src.defaultText.length then
      if dest.isEmpty ∧ dest.localizedTextList = [] then
        if alloc then .ok ⟨src.defaultLocale, src.defaultText, []⟩ else .error .outOfMemory
      else setSupported alloc dest src
    else removeSupported alloc dest src

end LocalizedText

namespace AddressSpace

def isLocalizedTextAndModifiable (nodeValue newValue : Variant Obj) : Bool :=
  if nodeValue.builtInTypeId ≠ .localizedText ∨ newValue.builtInTypeId ≠ .localizedText then false
  else
    match nodeValue, newValue with
    | .single _, .single _ => true
    | .nullArray _, .nullArray _ => true
    | .array _ a, .array _ b => a.length == b.length
    | .matrix _ a _, .matrix _ b _ => a == b
    | _, _ => false

def modifyTexts (env : WriteEnv Obj) :
    Nat → List (Value Obj) → List (Value Obj) → Option (Except Status (List (Value Obj)))
  | i, .localizedText dest :: dests, .localizedText src :: srcs =>
    match LocalizedText.addOrSetLocale (env.textAlloc i) env.locales dest src with
    | .error status => some (.error status)
    | .ok text =>
      (modifyTexts env (i + 1) dests srcs).map fun r => r.map fun texts => .localizedText text :: texts
  | _, [], [] => some (.ok [])
  | _, _, _ => none

def textsOf : Variant Obj → List (Value Obj)
  | .single v => [v]
  | .nullArray _ => []
  | .array _ content => content
  | .matrix _ _ content => content

def withTexts (v : Variant Obj) (texts : List (Value Obj)) : Variant Obj :=
  match v with
  | .single v => .single (texts.headD v)
  | .nullArray t => .nullArray t
  | .array t _ => .array t texts
  | .matrix t dims _ => .matrix t dims texts

/-- The value is modified in a copy and restored when this fails. -/
def modifyLocalizedText (env : WriteEnv Obj) (nodeValue newValue : Variant Obj) :
    Option (Except Status Unit × NodeValue Obj) :=
  match nodeValue.copy env.copyPrevious, newValue with
  | none, _ => some (.error .outOfMemory, .whole nodeValue)
  -- the copy of a null array has the length 0, which an assertion compares with -1
  | some _, .nullArray _ => none
  | some copied, _ =>
    match modifyTexts env 0 (textsOf copied) (textsOf newValue) with
    | none => none
    | some (.error status) => some (.error status, .whole nodeValue)
    | some (.ok texts) => some (.ok (), .whole (withTexts copied texts))

def fullStatus : Except Status Unit → WriteStatus
  | .ok () => .ok
  | .error .notSupported => .badInvalidArgument
  | .error _ => .badInternalError

def overwriteValue (env : WriteEnv Obj) (newValue : Variant Obj) :
    Except Status Unit × NodeValue Obj :=
  match newValue.copy env.copyNew with
  | none => (.error .outOfMemory, .whole (.single .null))
  | some v => (.ok (), .whole v)

def setValueFull (env : WriteEnv Obj) (nodeValue : NodeValue Obj) (newValue : Variant Obj) :
    Option (WriteStatus × NodeValue Obj) :=
  let result :=
    match nodeValue with
    | .whole v =>
      if isLocalizedTextAndModifiable v newValue then modifyLocalizedText env v newValue
      else some (overwriteValue env newValue)
    | .torn t length =>
      if isLocalizedTextAndModifiable (.array t (List.replicate length .null)) newValue then none
      else some (overwriteValue env newValue)
  result.map fun r => (fullStatus r.1, r.2)

def rangeStatus : Except Status Unit → WriteStatus
  | .ok () => .ok
  | .error .outOfMemory => .badOutOfMemory
  | .error _ => .badInternalError

def setValueIndexed (env : WriteEnv Obj) (nodeValue : NodeValue Obj) (newValue : Variant Obj)
    (indexRange : ByteString) : Option (WriteStatus × NodeValue Obj) :=
  match NumericRange.parse env.allocRange indexRange.cString, nodeValue with
  | .error .nok, _ => some (.badIndexRangeInvalid, nodeValue)
  | .error _, _ => some (.badOutOfMemory, nodeValue)
  | .ok _, .torn _ _ => none
  | .ok dims, .whole v =>
    match v.hasRange dims with
    | .error _ => some (.badIndexRangeInvalid, nodeValue)
    | .ok false => some (.badIndexRangeNoData, nodeValue)
    | .ok true =>
      match v.copy env.copyPrevious with
      | none => some (.badOutOfMemory, nodeValue)
      | some _ =>
        (v.setRange env.selfCopy env.elementCopy newValue dims).map fun r =>
          (rangeStatus r.1, r.2)

def newValue (env : WriteEnv Obj) (variant : Variant Obj) (toConvert : Bool) :
    Option (Option (Variant Obj)) :=
  if toConvert then variant.convertByteArrayByteString env.allocConverted else some (some variant)

/-- The converted value is computed, the value that is set is the one that was given. -/
def setValue (env : WriteEnv Obj) (nodeValue : NodeValue Obj) (variant : Variant Obj)
    (toConvert : Bool) (indexRange : ByteString) : Option (WriteStatus × NodeValue Obj) :=
  match newValue env variant toConvert with
  | none => none
  | some none => some (.badOutOfMemory, nodeValue)
  | some (some _) =>
    if env.allocPrevious = false then some (.badOutOfMemory, nodeValue)
    else if indexRange.length ≤ 0 then setValueFull env nodeValue variant
    else setValueIndexed env nodeValue variant indexRange

def currentReadMask : UInt8 := 1
def currentWriteMask : UInt8 := 2
def statusWriteMask : UInt8 := 32
def timestampWriteMask : UInt8 := 64

def valueAttribute : UInt32 := 13

/-- `set_Value_SourceTimestamp`: no timestamp stands for the current time. -/
def newSourceTs (env : WriteEnv Obj) (ts : Timestamp) : Timestamp :=
  if ts = ⟨0, 0⟩ then env.now else ts

def withMetadata (space : AddressSpace) (env : WriteEnv Obj) (node : Node)
    (old : VariableState Obj) (value : NodeValue Obj) (dataValue : DataValue Obj) :
    VariableState Obj where
  value := value
  status :=
    if !space.readOnlyNodes && (env.localTreatment || node.accessLevel &&& statusWriteMask != 0) then
      dataValue.status
    else old.status
  sourceTs :=
    if !space.readOnlyNodes && (env.localTreatment || node.accessLevel &&& timestampWriteMask != 0)
    then newSourceTs env ⟨dataValue.sourceTimestamp, dataValue.sourcePicoSeconds⟩
    else old.sourceTs

def compat (space : AddressSpace) (node : Node) (variant : Variant Obj) : Bool × Bool :=
  space.isVariableCompatType variant.getDataType variant.getValueRank node.dataType node.valueRank

def variableAfter (space : AddressSpace) (env : WriteEnv Obj) (node : Node)
    (old : VariableState Obj) (wv : WriteValue Obj) (r : WriteStatus × NodeValue Obj) :
    VariableState Obj :=
  if r.1 = .ok then space.withMetadata env node old r.2 wv.value else { old with value := r.2 }

def writeVariable (space : AddressSpace) (env : WriteEnv Obj) (node : Node)
    (old : VariableState Obj) (wv : WriteValue Obj) :
    Option (WriteStatus × VariableState Obj) :=
  if (space.compat node wv.value.value).1 = false then some (.badTypeMismatch, old)
  else if env.localTreatment = false ∧ node.accessLevel &&& currentWriteMask = 0 then
    some (.badNotWritable, old)
  else if env.localTreatment = false ∧ env.authorized = false then
    some (.badUserAccessDenied, old)
  else
    (setValue env old.value wv.value.value (space.compat node wv.value.value).2 wv.indexRange).map
      fun r => (r.1, space.variableAfter env node old wv r)

structure DataChange (Obj : Type) where
  nodeId : NodeId
  previous : VariableState Obj

structure WriteResult (Obj : Type) where
  status : WriteStatus
  values : Values Obj
  event : Option (DataChange Obj)

def treatWriteValue (space : AddressSpace) (values : Values Obj) (env : WriteEnv Obj)
    (wv : WriteValue Obj) : Option (WriteResult Obj) :=
  match wv.attributeId with
  | none => some ⟨.badAttributeIdInvalid, values, none⟩
  | some aid =>
    match space.getNode wv.nodeId with
    | none => some ⟨.badNodeIdUnknown, values, none⟩
    | some idx =>
      match space.nodes[idx]? with
      | none => none
      | some node =>
        if aid ≠ valueAttribute ∨ node.nodeClass ≠ .variable then
          some ⟨.badNotWritable, values, none⟩
        else
          (space.writeVariable env node (values idx) wv).map fun r =>
            { status := r.1
              values := Function.update values idx r.2
              event :=
                if r.1 = .ok ∧ node.accessLevel &&& currentReadMask ≠ 0 then
                  some ⟨wv.nodeId, values idx⟩
                else none }

end AddressSpace
end S2OPC
