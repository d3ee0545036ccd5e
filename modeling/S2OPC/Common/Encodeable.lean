import S2OPC.Common.EncoderRoundTrip

/-!
# S2OPC.Common.Encodeable

The structures of messages, written and read field by field as their descriptors tell:
`SOPC_EncodeableObject_Encode` and `SOPC_EncodeableObject_Decode` of `sopc_encodeabletype.c`, for any
table of types. Allocations succeed. A failed assertion is `Status.outOfBounds`.
-/

namespace S2OPC
namespace Encodeable

open Codec Encoder List Buffer RoundTrip

/-- A built-in type, or the index of a known one. -/
abbrev FieldType := BuiltinId ⊕ Nat

structure FieldDescriptor where
  isToEncode : Bool
  isArrayLength : Bool
  type : FieldType

/-- A field of an object. The length of an array is a field before it; `initial` is what
`SOPC_EncodeableObject_Initialize` leaves. -/
inductive Field (Obj : Type) where
  | initial
  | value (v : Value Obj)
  | object (fields : List (Field Obj))
  | array (elements : List (Field Obj))

variable {Obj : Type} (cfg : EncodingConstants) (E : Encodeables Obj)
  (types : Nat → List FieldDescriptor)

def elementWrite (levels : Nat) (object : Nat → List (Field Obj) → BufferM Unit) :
    FieldType → Field Obj → BufferM Unit
  | .inl _, .value v =>
    builtInWrite cfg E levels (dataValueWrite cfg E · levels) (variantWrite cfg E · levels) v
  | .inr i, .object fields => object i fields
  | _, _ => throw .outOfBounds

def elementRead (levels : Nat) (object : Nat → BufferM (List (Field Obj))) :
    FieldType → BufferM (Field Obj)
  | .inl t => do
    let v ← builtInRead cfg E levels (dataValueRead cfg E levels) (variantRead cfg E levels) t
    pure (.value v)
  | .inr i => do let fields ← object i; pure (.object fields)

def elementsWrite (element : Field Obj → BufferM Unit) : Nat → List (Field Obj) → BufferM Unit
  | 0, _ => pure ()
  | _ + 1, [] => throw .outOfBounds
  | n + 1, f :: fs => do
    element f
    elementsWrite element n fs

/-- `SOPC_Write_Array` below its test of the nesting level. -/
def arrayWrite (levels : Nat) (element : Field Obj → BufferM Unit) (noOfElts : Int32)
    (elements : List (Field Obj)) : BufferM Unit := do
  int32Write noOfElts levels
  elementsWrite element noOfElts.toInt.toNat elements

/-- `SOPC_Read_Array` below its test of the nesting level. -/
def arrayRead (levels : Nat) (element : BufferM (Field Obj)) : BufferM (List (Field Obj)) := do
  let noOfElts ← int32Read levels
  if 0 ≤ noOfElts.toInt ∧ noOfElts.toInt > cfg.maxArrayLength then throw .outOfMemory
  else readMany element noOfElts.toInt.toNat

def fieldsWrite (element : FieldType → Field Obj → BufferM Unit)
    (array : FieldType → Int32 → List (Field Obj) → BufferM Unit) :
    List FieldDescriptor → List (Field Obj) → BufferM Unit
  | [], _ => pure ()
  | _ :: _, [] => throw .outOfBounds
  | d :: ds, f :: fs =>
    if d.isToEncode = false then fieldsWrite element array ds fs
    else if d.isArrayLength then
      match d.type, f, ds, fs with
      | .inl .int32, .value (.int32 noOfElts), a :: ds, .array elements :: fs => do
        array a.type noOfElts elements
        fieldsWrite element array ds fs
      | _, _, _, _ => throw .outOfBounds
    else do
      element d.type f
      fieldsWrite element array ds fs

def fieldsRead (element : FieldType → BufferM (Field Obj))
    (array : FieldType → BufferM (List (Field Obj))) :
    List FieldDescriptor → BufferM (List (Field Obj))
  | [] => pure []
  | d :: ds =>
    if d.isToEncode = false then do
      let fs ← fieldsRead element array ds
      pure (.initial :: fs)
    else if d.isArrayLength then
      match d.type, ds with
      | .inl .int32, a :: ds => do
        let elements ← array a.type
        let fs ← fieldsRead element array ds
        pure (.value (.int32 (Int32.ofNat elements.length)) :: .array elements :: fs)
      | _, _ => throw .outOfBounds
    else do
      let f ← element d.type
      let fs ← fieldsRead element array ds
      pure (f :: fs)

/-- `SOPC_EncodeableObject_Encode`. The elements of an array are one level below its length. -/
def encode : Nat → List FieldDescriptor → List (Field Obj) → BufferM Unit
  | 0, _, _ => throw .invalidState
  | n + 1, ds, fields =>
    fieldsWrite (elementWrite cfg E n fun i => encode n (types i))
      (fun t noOfElts elements =>
        if 0 < noOfElts.toInt ∧ elements = [] then throw .invalidParameters
        else
          match n with
          | 0 => throw .invalidState
          | m + 1 => arrayWrite m (elementWrite cfg E m (fun i => encode m (types i)) t) noOfElts elements)
      ds fields

def decode : Nat → List FieldDescriptor → BufferM (List (Field Obj))
  | 0, _ => throw .invalidState
  | n + 1, ds =>
    fieldsRead (elementRead cfg E n fun i => decode n (types i))
      (fun t =>
        match n with
        | 0 => throw .invalidState
        | m + 1 => arrayRead cfg m (elementRead cfg E m (fun i => decode m (types i)) t))
      ds

variable (nf : Obj → Obj)

mutual

/-- What is read back of an element within the limits. -/
inductive ElementBack : FieldType → Field Obj → Field Obj → Prop
  | value {v : Value Obj} : valueWithin cfg E false v = true →
      ElementBack (.inl v.typeId) (.value v) (.value (v.normalise nf))
  | object {i : Nat} {fs fs' : List (Field Obj)} : FieldsBack (types i) fs fs' →
      ElementBack (.inr i) (.object fs) (.object fs')

inductive ElementsBack : FieldType → List (Field Obj) → List (Field Obj) → Prop
  | nil {t : FieldType} : ElementsBack t [] []
  | cons {t : FieldType} {f f' : Field Obj} {fs fs' : List (Field Obj)} : ElementBack t f f' →
      ElementsBack t fs fs' → ElementsBack t (f :: fs) (f' :: fs')

/-- A field that is not encoded is read back as it is initialized, an array of negative length as an
empty one. -/
inductive FieldsBack : List FieldDescriptor → List (Field Obj) → List (Field Obj) → Prop
  | nil : FieldsBack [] [] []
  | skipped {d : FieldDescriptor} {ds : List FieldDescriptor} {f : Field Obj}
      {fs fs' : List (Field Obj)} : d.isToEncode = false → FieldsBack ds fs fs' →
      FieldsBack (d :: ds) (f :: fs) (.initial :: fs')
  | array {d a : FieldDescriptor} {ds : List FieldDescriptor} {n : Int32}
      {es es' fs fs' : List (Field Obj)} : d.isToEncode = true → d.isArrayLength = true →
      d.type = .inl .int32 → n.toInt.toNat = es.length → (es.length : Int) ≤ cfg.maxArrayLength →
      ElementsBack a.type es es' → FieldsBack ds fs fs' →
      FieldsBack (d :: a :: ds) (.value (.int32 n) :: .array es :: fs)
        (.value (.int32 (Int32.ofNat es.length)) :: .array es' :: fs')
  | field {d : FieldDescriptor} {ds : List FieldDescriptor} {f f' : Field Obj}
      {fs fs' : List (Field Obj)} : d.isToEncode = true → d.isArrayLength = false →
      ElementBack d.type f f' → FieldsBack ds fs fs' → FieldsBack (d :: ds) (f :: fs) (f' :: fs')

end

variable {cfg E types nf} {t : FieldType} {f f' : Field Obj} {fs fs' : List (Field Obj)}
  {ds : List FieldDescriptor}

theorem ElementsBack.length_eq (h : ElementsBack cfg E types nf t fs fs') :
    fs'.length = fs.length := by
  induction fs generalizing fs' with
  | nil => cases h; rfl
  | cons f fs ih => cases h with | cons _ h => rw [length_cons, length_cons, ih h]

theorem roundTrip_variantWrite (hE : ObjectsRoundTrip E nf) (levels : Nat) {v : Variant Obj}
    (hv : variantWithin cfg E false v = true) :
    RoundTrip (variantWrite cfg E v levels) (variantRead cfg E levels) (v.normalise nf) := by
  cases levels with
  | zero => exact throw _ _ _
  | succ n => exact (roundTrip_values cfg hE (n + 1)).1 v hv

theorem roundTrip_elements {w : Field Obj → BufferM Unit} {r : BufferM (Field Obj)}
    (helement : ∀ {f f'}, ElementBack cfg E types nf t f f' → RoundTrip (w f) r f')
    (h : ElementsBack cfg E types nf t fs fs') :
    RoundTrip (elementsWrite w fs.length fs) (readMany r fs.length) fs' := by
  induction fs generalizing fs' with
  | nil => cases h; exact RoundTrip.pure []
  | cons f fs ih => cases h with | cons hf hfs => exact (helement hf).bind ((ih hfs).map _)

theorem roundTrip_array {levels : Nat} {n : Int32} {w : Field Obj → BufferM Unit}
    {r : BufferM (Field Obj)}
    (helement : ∀ {f f'}, ElementBack cfg E types nf t f f' → RoundTrip (w f) r f')
    (hn : n.toInt.toNat = fs.length) (hmax : (fs.length : Int) ≤ cfg.maxArrayLength)
    (h : ElementsBack cfg E types nf t fs fs') :
    RoundTrip (arrayWrite levels w n fs) (arrayRead cfg levels r) fs' := by
  refine (roundTrip_int32 n).bind ?_
  rw [if_neg (by omega), hn]
  exact roundTrip_elements helement h

/-- The induction is on the number of descriptors, of which an array takes two. -/
theorem roundTrip_fields {ew : FieldType → Field Obj → BufferM Unit}
    {er : FieldType → BufferM (Field Obj)} {aw : FieldType → Int32 → List (Field Obj) → BufferM Unit}
    {ar : FieldType → BufferM (List (Field Obj))}
    (helement : ∀ {t f f'}, ElementBack cfg E types nf t f f' → RoundTrip (ew t f) (er t) f')
    (harray : ∀ {t n es es'}, n.toInt.toNat = es.length → (es.length : Int) ≤ cfg.maxArrayLength →
      ElementsBack cfg E types nf t es es' → RoundTrip (aw t n es) (ar t) es')
    (h : FieldsBack cfg E types nf ds fs fs') :
    RoundTrip (fieldsWrite ew aw ds fs) (fieldsRead er ar ds) fs' := by
  induction hm : ds.length using Nat.strong_induction_on generalizing ds fs fs' with
  | _ m ih =>
    cases h with
    | nil => exact RoundTrip.pure []
    | skipped hd h =>
      rw [fieldsWrite.eq_def, fieldsRead.eq_def]
      simp only [hd, if_true]
      exact (ih _ (by simp [← hm]) h rfl).map _
    | field hd hlength hf h =>
      rw [fieldsWrite.eq_def, fieldsRead.eq_def]
      simp only [hd, hlength, Bool.true_eq_false, Bool.false_eq_true, if_false]
      exact (helement hf).bind ((ih _ (by simp [← hm]) h rfl).map _)
    | array hd hlength ht hn hmax hes h =>
      simp only [fieldsWrite, fieldsRead, hd, hlength, ht, Bool.true_eq_false, if_false, if_true,
        ← hes.length_eq]
      exact (harray hn hmax hes).bind ((ih _ (by simp [← hm]) h rfl).map _)

theorem FieldsBack.roundTrip (hE : ObjectsRoundTrip E nf) (h : FieldsBack cfg E types nf ds fs fs')
    (levels : Nat) :
    RoundTrip (encode cfg E types levels ds fs) (decode cfg E types levels ds) fs' := by
  induction levels using Nat.strong_induction_on generalizing ds fs fs' with
  | _ levels ih =>
    have helement (k : Nat) (hk : k < levels) {t f f'} (h : ElementBack cfg E types nf t f f') :
        RoundTrip (elementWrite cfg E k (fun i => encode cfg E types k (types i)) t f)
          (elementRead cfg E k (fun i => decode cfg E types k (types i)) t) f' := by
      cases h with
      | value hv =>
        exact (roundTrip_builtIn hE hv (roundTrip_values cfg hE k).2
          fun v hv => roundTrip_variantWrite hE k hv).map _
      | object h => exact (ih k hk h).map _
    cases levels with
    | zero => exact throw _ _ _
    | succ n =>
      rw [encode, decode]
      refine roundTrip_fields (helement n (by omega)) (fun {t m es es'} hm hmax hes => ?_) h
      rw [if_neg]
      · cases n with
        | zero => exact throw _ _ _
        | succ n => exact roundTrip_array (helement n (by omega)) hm hmax hes
      · rintro ⟨hpos, rfl⟩; rw [length_nil] at hm; omega

/-- A header that is not encoded, an array of structures with a flag each, and a number. -/
def sampleTypes : Nat → List FieldDescriptor
  | 0 => [⟨false, false, .inr 2⟩, ⟨true, true, .inl .int32⟩, ⟨true, false, .inr 1⟩,
      ⟨true, false, .inl .uint32⟩]
  | _ => [⟨true, false, .inl .boolean⟩]

def sampleObject (header : Field UInt32) (flag : UInt8) : List (Field UInt32) :=
  [header, .value (.int32 2), .array [.object [.value (.boolean flag)],
    .object [.value (.boolean 0)]], .value (.uint32 7)]

theorem sampleObject_back :
    FieldsBack smallLimits wordTypes sampleTypes id (sampleTypes 0)
      (sampleObject (.object [.value (.boolean 1)]) 2) (sampleObject .initial 1) :=
  .skipped rfl (.array rfl rfl rfl rfl (by decide)
    (.cons (.object (.field rfl rfl (.value (v := .boolean 2) rfl) .nil))
      (.cons (.object (.field rfl rfl (.value (v := .boolean 0) rfl) .nil)) .nil))
    (.field rfl rfl (.value (v := .uint32 7) rfl) .nil))

end Encodeable
end S2OPC
