import S2OPC.Common.EncoderLeaf

/-!
# S2OPC.Common.EncoderRoundTrip

The binary round trip of variants and data values: a value that has been written is read back at
the place where the write began, up to its normal form, and the read stops where the write stopped.
-/

namespace S2OPC

open Codec Encoder List Bool Buffer RoundTrip

variable {Obj : Type}

/-- An extension object keeps the node identifier of its type; for an object this is the
identifier of the binary encoding, together with the namespace of the registered type. -/
def ExtensionObject.normalise (nf : Obj → Obj) (e : ExtensionObject Obj) : ExtensionObject Obj :=
  match e.body with
  | .none => ⟨⟨e.typeId.nodeId.normalise, .null, 0⟩, .none⟩
  | .byteString s => ⟨⟨e.typeId.nodeId.normalise, .null, 0⟩, .byteString s.normalise⟩
  | .xmlElement s => ⟨⟨e.typeId.nodeId.normalise, .null, 0⟩, .xmlElement s.normalise⟩
  | .object t v => ⟨⟨⟨0, .numeric t.binaryEncodingTypeId⟩, t.namespaceUri, 0⟩, .object t (nf v)⟩

mutual

def Value.normalise (nf : Obj → Obj) : Value Obj → Value Obj
  | .boolean v => .boolean (toBoolean v)
  | .string v => .string v.normalise
  | .byteString v => .byteString v.normalise
  | .xmlElement v => .xmlElement v.normalise
  | .nodeId v => .nodeId v.normalise
  | .expandedNodeId v => .expandedNodeId v.normalise
  | .qualifiedName v => .qualifiedName v.normalise
  | .localizedText v => .localizedText v.normalise
  | .extensionObject v => .extensionObject (v.normalise nf)
  | .dataValue v => .dataValue (v.normalise nf)
  | .variant v => .variant (v.normalise nf)
  | .diagnosticInfo v => .diagnosticInfo v.normalise
  | v => v

/-- Null and empty arrays are identified. -/
def Variant.normalise (nf : Obj → Obj) : Variant Obj → Variant Obj
  | .single v => .single (v.normalise nf)
  | .nullArray t => .array t []
  | .array t content => .array t (normaliseAll nf content)
  | .matrix t arrayDimensions content => .matrix t arrayDimensions (normaliseAll nf content)

/-- A value of type Null is not encoded, and neither is a timestamp that is not positive. -/
def DataValue.normalise (nf : Obj → Obj) : DataValue Obj → DataValue Obj
  | ⟨value, status, sourceTs, serverTs, sourcePico, serverPico⟩ =>
    ⟨if value.builtInTypeId ≠ .null then value.normalise nf else .single .null, status,
      if sourceTs > 0 then sourceTs else 0, if serverTs > 0 then serverTs else 0,
      sourcePico, serverPico⟩

def normaliseAll (nf : Obj → Obj) : List (Value Obj) → List (Value Obj)
  | [] => []
  | v :: vs => v.normalise nf :: normaliseAll nf vs

end

theorem normaliseAll_eq_map (nf : Obj → Obj) (vs : List (Value Obj)) :
    normaliseAll nf vs = vs.map (Value.normalise nf) := by
  induction vs with
  | nil => rfl
  | cons v vs ih => rw [normaliseAll, ih, map_cons]

namespace Encoder

variable (cfg : EncodingConstants) (E : Encodeables Obj) (bstring : Bool)

def registered (t : EncodeableType) : Bool :=
  E.getEncodeableType t.binaryEncodingTypeId = some t

def extensionObjectWithin (e : ExtensionObject Obj) : Bool :=
  match e.body with
  | .none => nodeIdWithin cfg e.typeId.nodeId
  | .byteString s => bstring && nodeIdWithin cfg e.typeId.nodeId && stringWithin cfg s
  | .xmlElement s => nodeIdWithin cfg e.typeId.nodeId && stringWithin cfg s
  | .object t _ => registered E t

mutual

def valueWithin : Value Obj → Bool
  | .string v => stringWithin cfg v
  | .byteString v => stringWithin cfg v
  | .xmlElement v => stringWithin cfg v
  | .nodeId v => nodeIdWithin cfg v
  | .expandedNodeId v => expandedNodeIdWithin cfg v
  | .qualifiedName v => qualifiedNameWithin cfg v
  | .localizedText v => localizedTextWithin cfg v
  | .extensionObject v => extensionObjectWithin cfg E bstring v
  | .dataValue v => dataValueWithin v
  | .variant v => variantWithin v
  | .diagnosticInfo v => diagnosticInfoWithin cfg v
  | _ => true

/-- Well-formed variants within the limits: the elements of an array have its type, a matrix has as
many elements as its dimensions tell, and no length exceeds the maximum. -/
def variantWithin : Variant Obj → Bool
  | .single v => valueWithin v
  | .nullArray _ => 0 ≤ cfg.maxArrayLength
  | .array t content =>
    allWithin t content && decide ((content.length : Int) ≤ cfg.maxArrayLength) &&
      decide (content.length < 2 ^ 31)
  | .matrix t arrayDimensions content =>
    allWithin t content && decide ((content.length : Int) ≤ cfg.maxArrayLength) &&
      decide (content.length < 2 ^ 31) &&
      decide ((arrayDimensions.length : Int) ≤ cfg.maxArrayLength) &&
      decide (arrayDimensions.length < 2 ^ 31) &&
      decide (matrixLength arrayDimensions = some (content.length : Int))

def dataValueWithin : DataValue Obj → Bool
  | ⟨value, _, _, _, _, _⟩ => variantWithin value

def allWithin (t : BuiltinId) : List (Value Obj) → Bool
  | [] => true
  | v :: vs => decide (v.typeId = t) && valueWithin v && allWithin t vs

end

variable {t : BuiltinId} {e : Status} {total : Int}

theorem allWithin_iff {vs : List (Value Obj)} :
    allWithin cfg E bstring t vs = true ↔
      ∀ v ∈ vs, v.typeId = t ∧ valueWithin cfg E bstring v = true := by
  induction vs with
  | nil => simp [allWithin]
  | cons v vs ih => simp [allWithin, ih]

/-- The registered types read back what they write, up to `nf`, at every nesting level. -/
def ObjectsRoundTrip (nf : Obj → Obj) : Prop :=
  ∀ t, registered E t = true → ∀ v levels,
    RoundTrip (E.encode t v levels) (E.decode t levels) (nf v)

variable {cfg E bstring} {levels : Nat}

variable {b' b : Buffer} {nf : Obj → Obj} {ds : List Int32}

variable {x : BufferM Unit} {content : List (Value Obj)} {acc : Int}
  {dw : DataValue Obj → BufferM Unit} {vw : Variant Obj → BufferM Unit}
  {dr : BufferM (DataValue Obj)} {vr : BufferM (Variant Obj)} {c : Prop}

theorem ignoreStatus_ok (h : x b = .ok () b') :
    ignoreStatus x b = .ok () b' := by
  unfold ignoreStatus; rw [h]

theorem patchLength_wrote {t : Buffer} {v₀ : Int32} {body : List UInt8}
    (hwrote : Wrote b t (leBytes 4 v₀.toUInt32.toNat ++ body))
    (hpatch : patchLength b.position t.position (levels + 1) t = .ok () b') :
    ∃ v : Int32, Wrote b b' (leBytes 4 v.toUInt32.toNat ++ body) := by
  obtain ⟨hbytes, hpos⟩ := hwrote
  simp only [pos_def, length_append, length_leBytes] at hpos
  have hlt := t.position_le
  unfold patchLength writeIf at hpatch
  split at hpatch
  · generalize Int32.ofNat _ = v at hpatch
    obtain ⟨t₁, hset₁, hbytes₁, hpos₁, hlen₁⟩ := setPosition_ok (b := t) (p := b.position)
      (by omega)
    obtain ⟨t₂, hwrite⟩ :
        ∃ t₂, write (some (leBytes 4 v.toUInt32.toNat)) t₁ = .ok () t₂ :=
      write_inside (by rw [length_leBytes]; omega)
    obtain ⟨hbytes₂, hpos₂⟩ := write_wrote hwrite
    have hlen₂ : t.position ≤ t₂.length := by
      rw [← length_bytes, hbytes₂, length_splice (Tape.pos_le t₁), length_bytes]
      omega
    obtain ⟨t₃, hset₃, hbytes₃, hpos₃, -⟩ := setPosition_ok hlen₂
    obtain ⟨_, u₁, h₁, hpatch⟩ := bind_ok.mp hpatch
    cases (ignoreStatus_ok hset₁).symm.trans h₁; obtain ⟨_, u₂, h₂, h₃⟩ := bind_ok.mp hpatch
    cases (ignoreStatus_ok (mapError_ok.mpr hwrite)).symm.trans h₂
    cases (ignoreStatus_ok hset₃).symm.trans h₃
    refine ⟨v, ?_, ?_⟩
    · have hlen : (leBytes 4 v.toUInt32.toNat).length = (leBytes 4 v₀.toUInt32.toNat).length := by
        simp
      have hp := splice_patch (a := []) (c := body) (Tape.pos_le b) hlen
      rw [hbytes₃, hbytes₂, hbytes₁, hbytes, show Tape.pos t₁ = Tape.pos b from hpos₁]
      exact hp
    · simp [pos_def, hpos₃, hpos, length_leBytes]
  · cases hpatch; exact ⟨v₀, hbytes, by simp [hpos]⟩

theorem roundTrip_objectBody {t : EncodeableType} {v u : Obj}
    (h : RoundTrip (E.encode t v levels) (E.decode t levels) u) :
    RoundTrip (objectBodyWrite E t v levels)
      (int32Read levels >>= fun _ => E.decode t levels) u := by
  intro b b' hw; obtain ⟨_, _, hpos, hw⟩ := bind_ok.mp hw
  cases hpos; obtain ⟨_, t₁, hlen, hw⟩ := bind_ok.mp hw
  obtain ⟨_, t₂, henc, hw⟩ := bind_ok.mp hw
  obtain ⟨_, _, hpos, hpatch⟩ := bind_ok.mp hw
  cases hpos
  cases levels with
  | zero => cases hlen
  | succ n =>
    obtain ⟨pre, rfl, hwr₁⟩ := writes_word 4 (-1 : Int32).toUInt32.toNat hlen
    obtain ⟨body, hbody, hwr₂⟩ := h henc
    obtain ⟨w, hwr⟩ := patchLength_wrote (hwr₁.trans hwr₂) hpatch
    exact ⟨_, (reads_int32 w).bind hbody, hwr⟩

theorem extObjBodyRead_object {nodeId : NodeId} {t : EncodeableType}
    (h : objectType E nodeId = some t) :
    extObjBodyRead cfg E nodeId 0x01 levels =
      (int32Read levels >>= fun _ => E.decode t levels) >>= fun value =>
        pure ⟨⟨nodeId, t.namespaceUri, 0⟩, .object t value⟩ := by
  simp [extObjBodyRead, h]

theorem roundTrip_extensionObject (hE : ObjectsRoundTrip E nf) {e : ExtensionObject Obj}
    (hs : extensionObjectWithin cfg E false e) :
    RoundTrip (extensionObjectWrite E e levels) (extensionObjectRead cfg E levels)
      (e.normalise nf) := by
  obtain ⟨typeId, body⟩ := e
  refine roundTrip_nested fun n => ?_
  cases body with
  | none => exact (roundTrip_nodeId hs).bind ((roundTrip_byte 0x00).bind (pure _))
  | byteString s => simp [extensionObjectWithin] at hs
  | xmlElement s =>
    simp only [extensionObjectWithin, and_eq_true] at hs
    exact (roundTrip_nodeId hs.1).bind ((roundTrip_byte 0x02).bind
      ((roundTrip_byteString hs.2).map _))
  | object t v =>
    have hid : nodeIdWithin cfg ⟨0, .numeric t.binaryEncodingTypeId⟩ = true := rfl
    have htype : objectType E (NodeId.normalise ⟨0, .numeric t.binaryEncodingTypeId⟩) = some t :=
      of_decide_eq_true hs
    refine (roundTrip_nodeId hid).bind ((roundTrip_byte 0x01).bind ?_)
    rw [extObjBodyRead_object htype]
    exact (roundTrip_objectBody (hE t hs v n)).map _

theorem elementsWrite_eq (element : Value Obj → BufferM Unit) (content : List (Value Obj)) :
    elementsWrite element content.length content = writeAll element content := by
  induction content with
  | nil => rfl
  | cons x xs ih => rw [length_cons, elementsWrite, writeAll, ih]

theorem toInt_ofNat {n : Nat} (h : n < 2 ^ 31) : (Int32.ofNat n).toInt = n :=
  Int32.toInt_ofNat_of_lt h

theorem roundTrip_array {w : Value Obj → BufferM Unit} {r : BuiltinId → BufferM (Value Obj)}
    (hmax : (content.length : Int) ≤ cfg.maxArrayLength)
    (hlen : content.length < 2 ^ 31) (h : ∀ x ∈ content, RoundTrip (w x) (r t) (x.normalise nf)) :
    RoundTrip (writeArray levels w t content.length content) (readArray cfg levels t r)
      (normaliseAll nf content) := by
  have hbody : RoundTrip
      (int32Write (Int32.ofNat content.length) levels >>= fun _ =>
        elementsWrite w content.length content)
      (int32Read levels >>= fun n =>
        if max n.toInt 0 > cfg.maxArrayLength then throw .outOfMemory
        else readMany (r t) n.toInt.toNat)
      (normaliseAll nf content) := by
    refine (roundTrip_int32 _).bind ?_
    rw [toInt_ofNat hlen, if_neg (by omega), Int.toNat_natCast, elementsWrite_eq,
      normaliseAll_eq_map]
    exact list h
  cases t with
  | null => exact throw _ _ _
  | _ => exact hbody

theorem int32Write_error (d' : Int32) {d : Int32} (h : int32Write d levels b = .error e b')
    (he : e ≠ .outOfBounds) : b' = b ∧ int32Write d' levels b = .error e b := by
  cases levels with
  | zero => cases h; exact ⟨rfl, rfl⟩
  | succ n =>
    show b' = b ∧ mapError writeError (write (some (leBytes 4 d'.toUInt32.toNat))) b = _
    replace h : mapError writeError (write (some (leBytes 4 d.toUInt32.toNat))) b = _ := h
    unfold mapError at h ⊢
    cases hw : write (some (leBytes 4 d.toUInt32.toNat)) b with
    | ok _ _ => simp [hw] at h
    | error e₀ b₀ =>
      simp only [hw] at h
      cases h
      have he₀ : e₀ ≠ .outOfBounds := by rintro rfl; exact he rfl
      have hlen : (leBytes 4 d'.toUInt32.toNat).length = (leBytes 4 d.toUInt32.toNat).length := by
        simp
      obtain ⟨rfl, hw'⟩ := write_error hw he₀ hlen
      rw [hw']
      exact ⟨rfl, rfl⟩

theorem ignoreStatus_error (h : x b = .error e b') (he : e ≠ .outOfBounds) :
    ignoreStatus x b = .ok () b' := by
  unfold ignoreStatus
  rw [h]
  cases e <;> first | rfl | exact absurd rfl he

theorem dimensionsWrite_error (hne : ds ≠ []) (he : e ≠ .outOfBounds)
    (h : ∀ d, int32Write d levels b = .error e b) : dimensionsWrite levels ds b = .error e b := by
  fun_induction dimensionsWrite levels ds with
  | case1 => exact absurd rfl hne
  | case2 d => exact h d
  | case3 d ds hds ih => rw [bind_of_ok (ignoreStatus_error (h d) he)]; exact ih hds

theorem dimensionsWrite_ok (h : dimensionsWrite levels ds b = .ok () b') :
    writeAll (fun d => int32Write d levels) ds b = .ok () b' := by
  fun_induction dimensionsWrite levels ds generalizing b with
  | case1 => exact h
  | case2 d => rw [writeAll, bind_of_ok h]; rfl
  | case3 d ds hds ih =>
    cases hd : int32Write d levels b with
    | ok _ t => rw [bind_of_ok (ignoreStatus_ok hd)] at h; rw [writeAll, bind_of_ok hd]; exact ih h
    | error e t =>
      by_cases he : e = .outOfBounds
      · obtain ⟨_, t', hig, _⟩ := bind_ok.mp h; simp [ignoreStatus, hd, he] at hig
      · obtain ⟨rfl, _⟩ := int32Write_error d hd he
        rw [bind_of_ok (ignoreStatus_error hd he),
          dimensionsWrite_error hds he fun d' => (int32Write_error d' hd he).2] at h
        cases h

theorem le_of_matrixProduct (hacc : 0 < acc) (h : matrixProduct ds acc = some total) :
    acc ≤ total := by
  induction ds generalizing acc with
  | nil => cases h; exact Int.le_refl _
  | cons d ds ih =>
    unfold matrixProduct at h
    split at h
    · rename_i hd
      have hle : acc ≤ acc * d.toInt := by nlinarith [hd.1]
      exact Int.le_trans hle (ih (by omega) h)
    · cases h

theorem roundTrip_dimensions (hacc : 0 < acc) (h : matrixProduct ds acc = some total) :
    RoundTrip (writeAll (fun d => int32Write d levels) ds)
      (dimensionsRead total levels ds.length acc) (ds, total) := by
  induction ds generalizing acc with
  | nil => cases h; exact pure _
  | cons d ds ih =>
    unfold matrixProduct at h
    split at h
    · rename_i hd; have hpos : 0 < acc * d.toInt := Int.mul_pos hacc hd.1
      refine (roundTrip_int32 d).mapError_read.bind ?_
      rw [if_pos hd.1, if_neg (by have := le_of_matrixProduct hpos h; omega)]
      exact (ih hpos h).map fun r => (d :: r.1, r.2)
    · cases h

theorem roundTrip_matrixDimensions (h : matrixLength ds = some total) :
    RoundTrip (dimensionsWrite levels ds)
      (dimensionsRead total levels ds.length (if (ds.length : Int) = 0 then 0 else 1))
      (ds, total) := by
  intro b b' hw
  cases ds with
  | nil => cases h; exact pure _ hw
  | cons d ds =>
    have hone : (if ((d :: ds).length : Int) = 0 then (0 : Int) else 1) = 1 :=
      if_neg (by rw [length_cons]; omega)
    exact roundTrip_dimensions (by simp) h (dimensionsWrite_ok hw)

theorem roundTrip_matrix
    (hmax : (ds.length : Int) ≤ cfg.maxArrayLength) (hlen : ds.length < 2 ^ 31)
    (h : matrixLength ds = some (content.length : Int)) :
    RoundTrip
      (int32Write (Int32.ofNat ds.length) levels >>= fun _ => dimensionsWrite levels ds)
      (matrixRead cfg levels t content) (.matrix t ds content) := by
  refine (roundTrip_int32 _).bind ?_
  rw [toInt_ofNat hlen, if_neg (by omega), Int.toNat_natCast]
  refine (roundTrip_matrixDimensions h).finish ?_
  exact if_neg (by simp)

theorem roundTrip_builtIn (hE : ObjectsRoundTrip E nf)
        {x : Value Obj} (hs : valueWithin cfg E false x)
    (hd : ∀ d, dataValueWithin cfg E false d → RoundTrip (dw d) dr (d.normalise nf))
    (hv : ∀ v, variantWithin cfg E false v → RoundTrip (vw v) vr (v.normalise nf)) :
    RoundTrip (builtInWrite cfg E levels dw vw x) (builtInRead cfg E levels dr vr x.typeId)
      (x.normalise nf) := by
  cases x with
  | null => exact throw _ _ _
  | boolean v => exact (roundTrip_boolean v).map _
  | sbyte v => exact (roundTrip_sbyte v).map _
  | byte v => exact (roundTrip_byte v).map _
  | int16 v => exact (roundTrip_int16 v).map _
  | uint16 v => exact (roundTrip_uint16 v).map _
  | int32 v => exact (roundTrip_int32 v).map _
  | uint32 v => exact (roundTrip_uint32 v).map _
  | int64 v => exact (roundTrip_int64 v).map _
  | uint64 v => exact (roundTrip_uint64 v).map _
  | float v => exact (roundTrip_uint32 v).map _
  | double v => exact (roundTrip_uint64 v).map _
  | string v => exact (roundTrip_string hs).map _
  | dateTime v => exact (roundTrip_dateTime v).map _
  | guid v => exact (roundTrip_guid v).map _
  | byteString v => exact (roundTrip_byteString hs).map _
  | xmlElement v => exact (roundTrip_byteString hs).map _
  | nodeId v => exact (roundTrip_nodeId hs).map _
  | expandedNodeId v => exact (roundTrip_expandedNodeId hs).map _
  | statusCode v => exact (roundTrip_uint32 v).map _
  | qualifiedName v => exact (roundTrip_qualifiedName hs).map _
  | localizedText v => exact (roundTrip_localizedText hs).map _
  | extensionObject v => exact (roundTrip_extensionObject hE hs).map _
  | dataValue v => exact (hd v hs).map _
  | variant v => exact (hv v hs).map _
  | diagnosticInfo v => exact (roundTrip_diagnosticInfo hs).map _

theorem roundTrip_nonArray (hE : ObjectsRoundTrip E nf)
    {x : Value Obj} (hs : valueWithin cfg E false x)
    (hd : ∀ d, dataValueWithin cfg E false d → RoundTrip (dw d) dr (d.normalise nf)) :
    RoundTrip (writeVariantNonArray cfg E levels dw x)
      (readVariantNonArray cfg E levels dr (some x.typeId)) (x.normalise nf) := by
  cases levels with
  | zero => intro b b' hw; obtain ⟨_, _, h, _⟩ := bind_ok.mp hw; cases h
  | succ n =>
    have hbuiltIn : RoundTrip
        (builtInWrite cfg E (n + 1) dw (fun _ => throw .invalidParameters) x)
        (builtInRead cfg E (n + 1) dr (throw .encodingError) x.typeId) (x.normalise nf) :=
      roundTrip_builtIn hE hs hd fun _ _ => throw _ _ _
    cases x with
    | null => exact pure _
    | _ => exact hbuiltIn

theorem mask_bits (t : BuiltinId) :
    t.code &&& 0x80 = 0 ∧ t.code &&& 0x40 = 0 ∧ 0x3F &&& t.code = t.code ∧
      (t.code ||| 0x80) &&& 0x80 ≠ 0 ∧ (t.code ||| 0x80) &&& 0x40 = 0 ∧
      0x3F &&& (t.code ||| 0x80) = t.code ∧
      (t.code ||| 0x80 ||| 0x40) &&& 0x80 ≠ 0 ∧ (t.code ||| 0x80 ||| 0x40) &&& 0x40 ≠ 0 ∧
      0x3F &&& (t.code ||| 0x80 ||| 0x40) = t.code := by
  cases t <;> decide

theorem length_normaliseAll (nf : Obj → Obj) (vs : List (Value Obj)) :
    (normaliseAll nf vs).length = vs.length := by
  rw [normaliseAll_eq_map, length_map]

theorem roundTrip_variantBody {sw : Value Obj → BufferM Unit}
    {sr : Option BuiltinId → BufferM (Value Obj)}
    {aw : BuiltinId → Nat → List (Value Obj) → BufferM Unit}
    {ar : BuiltinId → BufferM (List (Value Obj))} {v : Variant Obj}
    (hv : variantWithin cfg E false v) (hscalar : ∀ x, valueWithin cfg E false x →
      RoundTrip (sw x) (sr (some x.typeId)) (x.normalise nf))
    (harray : ∀ t content, allWithin cfg E false t content →
      (content.length : Int) ≤ cfg.maxArrayLength → content.length < 2 ^ 31 →
      RoundTrip (aw t content.length content) (ar t) (normaliseAll nf content)) :
    RoundTrip (variantWriteBody levels sw aw v) (variantReadBody cfg levels sr ar)
      (v.normalise nf) := by
  refine (roundTrip_byte (variantEncodingMask v)).bind ?_
  cases v with
  | single x =>
    obtain ⟨h80, h40, hid, -⟩ := mask_bits x.typeId
    simp only [variantEncodingMask, h80, h40, hid, BuiltinId.ofCode?_code, ne_eq,
      not_true_eq_false, if_false]
    exact (hscalar x hv).map Variant.single
  | nullArray t =>
    obtain ⟨-, -, -, h80, h40, hid, -⟩ := mask_bits t
    simp only [variantEncodingMask, h80, h40, hid, BuiltinId.ofCode?_code, ne_eq,
      not_true_eq_false, not_false_eq_true, if_false, if_true]
    exact (harray t [] rfl (of_decide_eq_true hv) (by simp)).map (Variant.array t)
  | array t content =>
    obtain ⟨-, -, -, h80, h40, hid, -⟩ := mask_bits t
    simp only [variantWithin, and_eq_true, decide_eq_true_eq] at hv
    simp only [variantEncodingMask, h80, h40, hid, BuiltinId.ofCode?_code, ne_eq,
      not_true_eq_false, not_false_eq_true, if_false, if_true]
    exact (harray t content hv.1.1 hv.1.2 hv.2).map (Variant.array t)
  | matrix t ds content =>
    obtain ⟨-, -, -, -, -, -, h80, h40, hid⟩ := mask_bits t
    simp only [variantWithin, and_eq_true, decide_eq_true_eq] at hv
    obtain ⟨⟨⟨⟨⟨hall, hmax⟩, hlen⟩, hdmax⟩, hdlen⟩, hproduct⟩ := hv
    simp only [variantEncodingMask, h80, h40, hid, BuiltinId.ofCode?_code, ne_eq,
      not_false_eq_true, if_true, hproduct, Int.toNat_natCast]
    refine (harray t content hall hmax hlen).bind ?_
    rw [← length_normaliseAll nf content] at hproduct
    exact roundTrip_matrix hdmax hdlen hproduct

theorem dataValue_flags (a b c d e f : Bool) :
    let m := flag a 0x01 ||| flag b 0x02 ||| flag c 0x04 ||| flag d 0x10 ||| flag e 0x08 |||
      flag f 0x20
    (m &&& 0x01 ≠ 0 ↔ a = true) ∧ (m &&& 0x02 ≠ 0 ↔ b = true) ∧ (m &&& 0x04 ≠ 0 ↔ c = true) ∧
      (m &&& 0x10 ≠ 0 ↔ d = true) ∧ (m &&& 0x08 ≠ 0 ↔ e = true) ∧
      (m &&& 0x20 ≠ 0 ↔ f = true) := by
  revert a b c d e f
  decide

theorem roundTrip_timestamp [Decidable c] {v : Int64} (hc : c ↔ v > 0) :
    RoundTrip (writeIf c (dateTimeWrite v levels)) (readIf c (dateTimeRead levels) 0)
      (if v > 0 then v else 0) := by
  refine optional Iff.rfl (fun h => (roundTrip_dateTime v).congr ?_) fun h => ?_
  · exact (if_pos (hc.mp h)).symm
  · exact if_neg fun hlt => h (hc.mpr hlt)

theorem roundTrip_picoSeconds [Decidable c] {v : UInt16} (hc : c ↔ v > 0) :
    RoundTrip (writeIf c (uint16Write v levels)) (readIf c (uint16Read levels) 0) v := by
  refine optional Iff.rfl (fun _ => roundTrip_uint16 v) fun h => ?_
  have hzero : ¬ v > 0 := fun hlt => h (hc.mpr hlt)
  simpa using hzero

theorem roundTrip_dataValueBody
    {d : DataValue Obj} (hd : dataValueWithin cfg E false d)
    (hv : ∀ v, variantWithin cfg E false v → RoundTrip (vw v) vr (v.normalise nf)) :
    RoundTrip (dataValueWriteBody levels vw d) (dataValueReadBody levels vr)
      (d.normalise nf) := by
  obtain ⟨h₁, h₂, h₃, h₄, h₅, h₆⟩ := dataValue_flags (d.value.builtInTypeId ≠ .null)
    (d.status ≠ 0) (d.sourceTimestamp > 0) (d.sourcePicoSeconds > 0) (d.serverTimestamp > 0)
    (d.serverPicoSeconds > 0)
  rw [decide_eq_true_iff] at h₁ h₂ h₃ h₄ h₅ h₆
  have hd : variantWithin cfg E false d.value := by cases d; rwa [dataValueWithin] at hd
  refine (roundTrip_byte _).bind ?_
  have hvalue : RoundTrip (writeIf (dataValueEncodingMask d &&& 0x01 ≠ 0) (vw d.value))
      (readIf (dataValueEncodingMask d &&& 0x01 ≠ 0) vr (.single .null))
      (if d.value.builtInTypeId ≠ .null then d.value.normalise nf else .single .null) := by
    refine optional Iff.rfl (fun h => (hv d.value hd).congr ?_) fun h => ?_
    · exact (if_pos (h₁.mp h)).symm
    · exact if_neg fun hne => h (h₁.mpr hne)
  have hstatus : RoundTrip
      (writeIf (dataValueEncodingMask d &&& 0x02 ≠ 0) (statusCodeWrite d.status levels))
      (readIf (dataValueEncodingMask d &&& 0x02 ≠ 0) (statusCodeRead levels) 0) d.status := by
    refine optional Iff.rfl (fun _ => roundTrip_uint32 d.status) fun h => ?_
    exact Classical.byContradiction fun hne => h (h₂.mpr hne)
  cases d
  exact hvalue.bind (hstatus.bind ((roundTrip_timestamp h₃).bind ((roundTrip_picoSeconds h₄).bind
    ((roundTrip_timestamp h₅).bind ((roundTrip_picoSeconds h₆).finish rfl)))))

/-- At every nesting level, variants and data values are read back. A variant goes one level down
for a data value and two for the elements of an array, a data value one level down for its
variant. -/
theorem roundTrip_values (cfg : EncodingConstants) (hE : ObjectsRoundTrip E nf) (levels : Nat) :
    (∀ v, variantWithin cfg E false v →
      RoundTrip (variantWriteInternal cfg E levels v) (variantReadInternal cfg E levels)
        (v.normalise nf)) ∧
    (∀ d, dataValueWithin cfg E false d →
      RoundTrip (dataValueWriteInternal cfg E levels d) (dataValueReadInternal cfg E levels)
        (d.normalise nf)) := by
  induction levels using Nat.strongRecOn with
  | _ levels ih =>
    cases levels with
    | zero => exact ⟨fun _ _ => throw _ _ _, fun _ _ => throw _ _ _⟩
    | succ n =>
      obtain ⟨hvariant, hdataValue⟩ := ih n (by omega)
      refine ⟨fun v hv => ?_, fun d hd => ?_⟩
      · rw [variantWriteInternal, variantReadInternal]
        refine roundTrip_variantBody hv (fun x hx => roundTrip_nonArray hE hx hdataValue)
          fun t content hall hmax hlen => ?_
        cases n with
        | zero => exact throw _ _ _
        | succ m =>
          obtain ⟨hvariant', hdataValue'⟩ := ih m (by omega)
          refine roundTrip_array hmax hlen fun x hx => ?_
          obtain ⟨rfl, hx⟩ := (allWithin_iff cfg E false).mp hall x hx
          exact roundTrip_builtIn hE hx hdataValue' hvariant'
      · rw [dataValueWriteInternal, dataValueReadInternal]
        exact roundTrip_dataValueBody hd hvariant

theorem read_back {α : Type} {w : BufferM Unit} {r : BufferM α} {v : α} (h : RoundTrip w r v)
    (hw : w b = .ok () b') :
    ∃ b₀ b₁, setPosition b.position b' = .ok () b₀ ∧ r b₀ = .ok v b₁ ∧
      b₁.position = b'.position := by
  obtain ⟨bs, _, _, hpos⟩ := h hw
  have hle : b.position ≤ b'.length := by
    have := b'.position_le
    simp only [pos_def] at hpos
    omega
  obtain ⟨b₀, hset, hbytes, hpos₀, -⟩ := setPosition_ok hle
  obtain ⟨b₁, hread, -, hpos₁⟩ := h.reread hw hbytes hpos₀
  exact ⟨b₀, b₁, hset, hread, hpos₁⟩

/-- A variant or data value that `SOPC_Variant_Write` or `SOPC_DataValue_Write` has written is read
back by `SOPC_Variant_Read` or `SOPC_DataValue_Read` from the position where the write began, up to
its normal form, and the read consumes exactly the bytes written. -/
theorem variant_dataValue_read_back {nf : Obj → Obj} (hE : ObjectsRoundTrip E nf) (levels : Nat)
    (b b' : Buffer) :
    (∀ v, variantWithin cfg E false v → variantWrite cfg E v levels b = .ok () b' →
      ∃ b₀ b₁, setPosition b.position b' = .ok () b₀ ∧
        variantRead cfg E levels b₀ = .ok (v.normalise nf) b₁ ∧ b₁.position = b'.position) ∧
    (∀ d, dataValueWithin cfg E false d → dataValueWrite cfg E d levels b = .ok () b' →
      ∃ b₀ b₁, setPosition b.position b' = .ok () b₀ ∧
        dataValueRead cfg E levels b₀ = .ok (d.normalise nf) b₁ ∧
        b₁.position = b'.position) := by
  obtain ⟨hvariant, hdataValue⟩ := roundTrip_values cfg hE levels
  refine ⟨fun v hv hw => ?_, fun d hd hw => read_back (hdataValue d hd) hw⟩
  obtain ⟨_, t, hlevel, hw⟩ := bind_ok.mp hw
  cases levels with
  | zero => cases hlevel
  | succ n => cases hlevel; exact read_back (hvariant v hv) hw

def wordType : EncodeableType := ⟨11, 12, .null⟩

def wordTypes : Encodeables UInt32 where
  getEncodeableType n := if n = 11 ∨ n = 12 then some wordType else none
  encode _ v levels := uint32Write v levels
  decode _ levels := uint32Read levels

def smallLimits : EncodingConstants := ⟨16, 16, 2, 10⟩

theorem wordTypes_roundTrip : ObjectsRoundTrip wordTypes id := fun _ _ v _ => roundTrip_uint32 v

def sampleVariant : Variant UInt32 :=
  .matrix .dataValue [1, 2]
    [.dataValue ⟨.single (.extensionObject ⟨⟨⟨0, .numeric 11⟩, .null, 0⟩, .object wordType 7⟩), 0,
      -1, 5, 0, 1⟩,
     .dataValue ⟨.array .boolean [.boolean 2], 0x80000000, 1, 0, 0, 0⟩]

theorem sampleVariant_read_back :
    ∃ b', variantWrite smallLimits wordTypes sampleVariant 10 (create 128 (by decide))
        = .ok () b' ∧
      ∃ b₀ b₁, setPosition 0 b' = .ok () b₀ ∧
        variantRead smallLimits wordTypes 10 b₀ = .ok (sampleVariant.normalise id) b₁ ∧
        b₁.position = b'.position := by
  have hok : succeeds (variantWrite smallLimits wordTypes sampleVariant 10)
      (create 128 (by decide)) = true := by decide +kernel
  obtain ⟨_, b', hw⟩ := succeeds_iff.mp hok
  exact ⟨b', hw, (variant_dataValue_read_back wordTypes_roundTrip 10 _ b').1 sampleVariant
    (by decide) hw⟩

def unknownBody : Variant UInt32 :=
  .single (.extensionObject ⟨⟨⟨1, .numeric 99⟩, .null, 0⟩, .byteString ⟨some [1, 2], by simp⟩⟩)

/-- Byte string bodies are written but not read back. -/
theorem variant_byteString_body_not_read_back :
    ¬ ∀ (v : Variant UInt32) (b b' : Buffer), variantWithin smallLimits wordTypes true v →
        variantWrite smallLimits wordTypes v 10 b = .ok () b' →
        ∃ b₀ b₁ u, setPosition b.position b' = .ok () b₀ ∧
          variantRead smallLimits wordTypes 10 b₀ = .ok u b₁ := by
  intro h
  have hok : succeeds (variantWrite smallLimits wordTypes unknownBody 10)
      (create 32 (by decide)) = true := by decide +kernel
  obtain ⟨_, b', hw⟩ := succeeds_iff.mp hok
  obtain ⟨b₀, b₁, u, hset, hread⟩ := h unknownBody _ b' (by decide) hw
  -- writing, going back and reading, as one program, fails
  have hfails : succeeds
      (variantWrite smallLimits wordTypes unknownBody 10 >>= fun _ =>
        setPosition 0 >>= fun _ => variantRead smallLimits wordTypes 10)
      (create 32 (by decide)) = false := by decide +kernel
  rw [eq_false_iff, ne_eq, succeeds_iff] at hfails
  exact hfails ⟨u, b₁, bind_ok.mpr ⟨(), b', hw, bind_ok.mpr ⟨(), b₀, hset, hread⟩⟩⟩

end Encoder
end S2OPC
