import S2OPC.Common.Encoder

/-!
# S2OPC.Common.EncoderLeaf

Round trips of the built-in types that hold no other value: whatever is written is read back in
normal form. The normal form identifies null and empty strings, and drops what the encoding does
not carry.
-/

namespace S2OPC

open Bool Buffer

def Identifier.normalise : Identifier → Identifier
  | .string s => .string s.normalise
  | .byteString s => .byteString s.normalise
  | i => i

def NodeId.normalise (n : NodeId) : NodeId := ⟨n.namespaceIndex, n.data.normalise⟩

def ExpandedNodeId.normalise (e : ExpandedNodeId) : ExpandedNodeId :=
  ⟨e.nodeId.normalise, e.namespaceUri.normalise, e.serverIndex⟩

def QualifiedName.normalise (q : QualifiedName) : QualifiedName :=
  ⟨q.namespaceIndex, q.name.normalise⟩

def LocalizedText.normalise (t : LocalizedText) : LocalizedText :=
  ⟨t.defaultLocale.normalise, t.defaultText.normalise, []⟩

/-- A negative index into the string table stands for no text, as -1 does. -/
def tableIndex (v : Int32) : Int32 := if v > -1 then v else -1

def DiagnosticFields.normalise (d : DiagnosticFields) : DiagnosticFields :=
  ⟨tableIndex d.symbolicId, tableIndex d.namespaceUri, tableIndex d.locale,
    tableIndex d.localizedText, d.additionalInfo.normalise, d.innerStatusCode⟩

def DiagnosticInfo.normalise : DiagnosticInfo → DiagnosticInfo
  | .leaf d => .leaf d.normalise
  | .nest d inner => .nest d.normalise inner.normalise

namespace Encoder

open Codec

variable (cfg : EncodingConstants)

def stringWithin (s : ByteString) : Bool := s.length ≤ cfg.maxStringLength

def identifierWithin : Identifier → Bool
  | .string s => stringWithin cfg s
  | .byteString s => stringWithin cfg s
  | _ => true

def nodeIdWithin (n : NodeId) : Bool := identifierWithin cfg n.data

def expandedNodeIdWithin (e : ExpandedNodeId) : Bool :=
  nodeIdWithin cfg e.nodeId && stringWithin cfg e.namespaceUri

def qualifiedNameWithin (q : QualifiedName) : Bool := stringWithin cfg q.name

def localizedTextWithin (t : LocalizedText) : Bool :=
  stringWithin cfg t.defaultLocale && stringWithin cfg t.defaultText

def diagnosticInfoWithin : DiagnosticInfo → Bool
  | .leaf d => stringWithin cfg d.additionalInfo
  | .nest d inner => stringWithin cfg d.additionalInfo && diagnosticInfoWithin inner

variable {cfg} {levels : Nat}

theorem roundTrip_nested {α : Type} {w : Nat → BufferM Unit} {r : Nat → BufferM α} {v : α}
    (h : ∀ n, RoundTrip (w n) (r n) v) : RoundTrip (nested levels w) (nested levels r) v := by
  cases levels with
  | zero => exact RoundTrip.throw _ _ _
  | succ n => exact h n

theorem reads_read_of_length {bs : List UInt8} {n : Nat} (h : bs.length = n) :
    Reads (read n) bs ⟨bs, h⟩ := by
  subst h; exact reads_read bs

theorem writes_word (width value : Nat) :
    Writes (wordWrite width value levels) (· = leBytes width value) := by
  cases levels with
  | zero => intro b b' hw; cases hw
  | succ n => intro b b' hw; exact writes_write _ (mapError_ok.mp hw)

theorem reads_word (width value : Nat) :
    Reads (wordRead width (levels + 1)) (leBytes width value) (value % 256 ^ width) := by
  have hread := (reads_read_of_length (length_leBytes width value)).mapError (f := readError)
  refine hread.finish ?_
  rw [ofLeBytes_leBytes]

theorem roundTrip_word (width value : Nat) :
    RoundTrip (wordWrite width value levels) (wordRead width levels) (value % 256 ^ width) := by
  cases levels with
  | zero => exact RoundTrip.throw _ _ _
  | succ n =>
    refine Writes.imp (writes_word width value) fun bs hbs => ?_
    subst hbs; exact reads_word width value

theorem roundTrip_word_map {α : Type} {width value : Nat} {f : Nat → α} {v : α}
    (hlt : value < 256 ^ width) (h : f value = v) :
    RoundTrip (wordWrite width value levels)
      (wordRead width levels >>= fun n => pure (f n)) v :=
  ((roundTrip_word width value).map f).congr (by rw [Nat.mod_eq_of_lt hlt, h])

theorem roundTrip_byte (v : UInt8) : RoundTrip (byteWrite v levels) (byteRead levels) v := by
  refine roundTrip_word_map (f := UInt8.ofNat) (by simpa using v.toNat_lt) ?_
  rw [UInt8.ofNat_toNat]

theorem roundTrip_sbyte (v : Int8) : RoundTrip (sbyteWrite v levels) (sbyteRead levels) v := by
  refine roundTrip_word_map (f := fun n => (UInt8.ofNat n).toInt8) (by simpa using v.toUInt8.toNat_lt) ?_
  rw [UInt8.ofNat_toNat, Int8.toInt8_toUInt8]

theorem roundTrip_int16 (v : Int16) : RoundTrip (int16Write v levels) (int16Read levels) v := by
  refine roundTrip_word_map (f := fun n => (UInt16.ofNat n).toInt16) (by simpa using v.toUInt16.toNat_lt) ?_
  rw [UInt16.ofNat_toNat, Int16.toInt16_toUInt16]

theorem roundTrip_uint16 (v : UInt16) : RoundTrip (uint16Write v levels) (uint16Read levels) v := by
  refine roundTrip_word_map (f := UInt16.ofNat) (by simpa using v.toNat_lt) ?_
  rw [UInt16.ofNat_toNat]

theorem reads_int32 (v : Int32) :
    Reads (int32Read (levels + 1)) (leBytes 4 v.toUInt32.toNat) v := by
  refine (reads_word 4 v.toUInt32.toNat).finish ?_
  have hlt : v.toUInt32.toNat < 256 ^ 4 := by simpa using v.toUInt32.toNat_lt
  rw [Nat.mod_eq_of_lt hlt, UInt32.ofNat_toNat, Int32.toInt32_toUInt32]

theorem roundTrip_int32 (v : Int32) : RoundTrip (int32Write v levels) (int32Read levels) v := by
  refine roundTrip_word_map (f := fun n => (UInt32.ofNat n).toInt32) (by simpa using v.toUInt32.toNat_lt) ?_
  rw [UInt32.ofNat_toNat, Int32.toInt32_toUInt32]

theorem roundTrip_uint32 (v : UInt32) : RoundTrip (uint32Write v levels) (uint32Read levels) v := by
  refine roundTrip_word_map (f := UInt32.ofNat) (by simpa using v.toNat_lt) ?_
  rw [UInt32.ofNat_toNat]

theorem roundTrip_int64 (v : Int64) : RoundTrip (int64Write v levels) (int64Read levels) v := by
  refine roundTrip_word_map (f := fun n => (UInt64.ofNat n).toInt64) (by simpa using v.toUInt64.toNat_lt) ?_
  rw [UInt64.ofNat_toNat, Int64.toInt64_toUInt64]

theorem roundTrip_uint64 (v : UInt64) : RoundTrip (uint64Write v levels) (uint64Read levels) v := by
  refine roundTrip_word_map (f := UInt64.ofNat) (by simpa using v.toNat_lt) ?_
  rw [UInt64.ofNat_toNat]

theorem roundTrip_boolean (v : UInt8) :
    RoundTrip (booleanWrite v levels) (booleanRead levels) (toBoolean v) := by
  refine roundTrip_nested fun n => ((roundTrip_byte (toBoolean v)).map toBoolean).congr ?_
  unfold toBoolean
  split <;> simp_all

theorem roundTrip_dateTime (v : Int64) :
    RoundTrip (dateTimeWrite v levels) (dateTimeRead levels) v :=
  roundTrip_nested fun _ => roundTrip_int64 v

theorem toInt_encodedLength (s : ByteString) :
    (encodedLength s).toInt = if s.length > 0 then s.length else -1 := by
  have hb := s.length_bounds
  unfold encodedLength
  rw [Int32.toInt_ofInt_of_le] <;> split <;> omega

variable {s : ByteString} {nodeId : NodeId}

theorem reads_content (h : s.length > 0) {length : Int32} (hlen : length.toInt = s.length) :
    Reads (contentRead length) s.toList s := by
  obtain ⟨hbytes, hl⟩ := ByteString.bytes_of_length_pos h
  have hn : s.toList.length = length.toInt.toNat := by omega
  have hread := (reads_read_of_length hn).mapError (f := readError)
  have hs : ofContent length ⟨s.toList, hn⟩ = s := ByteString.ext hbytes.symm
  refine hread.finish ?_
  rw [hs]

theorem roundTrip_content {r : BufferM ByteString}
    (hpos : s.length > 0 → r = contentRead (encodedLength s))
    (hnull : ¬ s.length > 0 → r = pure .null) :
    RoundTrip (writeIf (s.length > 0) (mapError writeError (write s.bytes))) r
      s.normalise := by
  unfold writeIf ByteString.normalise
  by_cases h : s.length > 0
  · rw [if_pos h, if_pos h, hpos h, (ByteString.bytes_of_length_pos h).1]
    refine RoundTrip.mapError_write (Writes.imp (writes_write _) fun bs hbs => ?_)
    subst hbs; exact reads_content h (by rw [toInt_encodedLength, if_pos h])
  · rw [if_neg h, if_neg h, hnull h]; exact RoundTrip.pure _

theorem roundTrip_byteString (hs : stringWithin cfg s) :
    RoundTrip (byteStringWrite s levels) (byteStringRead cfg levels) s.normalise := by
  have hmax : s.length ≤ cfg.maxStringLength := of_decide_eq_true hs
  have hlen := toInt_encodedLength s
  refine roundTrip_nested fun n => (roundTrip_int32 _).mapError_write.bind ?_
  refine roundTrip_content (fun h => ?_) fun h => ?_
  · rw [if_pos h] at hlen; rw [hlen, if_pos h, if_pos hmax]
  · rw [hlen, if_neg (by omega)]

theorem roundTrip_string {s : ByteString} (hs : stringWithin cfg s) :
    RoundTrip (stringWrite s levels) (stringRead cfg levels) s.normalise := by
  have hmax : s.length ≤ cfg.maxStringLength := of_decide_eq_true hs
  have hlen := toInt_encodedLength s
  refine roundTrip_nested fun n => (roundTrip_int32 _).bind ?_
  refine roundTrip_content (fun h => ?_) fun h => ?_
  · rw [if_pos h] at hlen; rw [hlen, if_pos h, if_pos hmax, if_pos (Or.inl rfl)]
  · rw [hlen, if_neg (by omega)]

theorem normalise_of_length_nonpos (h : ¬ s.length > 0) : s.normalise = .null :=
  if_neg h

theorem roundTrip_guid (g : Guid) : RoundTrip (guidWrite g levels) (guidRead levels) g := by
  refine roundTrip_nested fun n => RoundTrip.mapError_write (RoundTrip.mapError_read ?_)
  refine (roundTrip_uint32 g.data1).bind ((roundTrip_uint16 g.data2).bind
    ((roundTrip_uint16 g.data3).bind ?_))
  have hdata : RoundTrip (write (some g.data4)) (read 8)
      ⟨g.data4, g.data4_length⟩ := by
    refine Writes.imp (writes_write _) fun bs hbs => ?_
    subst hbs; exact reads_read_of_length g.data4_length
  exact hdata.map fun d => (⟨g.data1, g.data2, g.data3, d.val, d.property⟩ : Guid)

theorem nodeIdDataEncoding_mem (nodeId : NodeId) :
    nodeIdDataEncoding nodeId ∈ ([0, 1, 2, 3, 4, 5] : List UInt8) := by
  unfold nodeIdDataEncoding
  split <;> (try split) <;> (try split) <;> decide

theorem flagged_encoding {e : UInt8} (he : e ∈ ([0, 1, 2, 3, 4, 5] : List UInt8)) (a b : Bool) :
    (e ||| flag a 0x80 ||| flag b 0x40) &&& 0x0F = e ∧
      ((e ||| flag a 0x80 ||| flag b 0x40) &&& 0x80 ≠ 0 ↔ a = true) ∧
      ((e ||| flag a 0x80 ||| flag b 0x40) &&& 0x40 ≠ 0 ↔ b = true) := by
  revert e a b
  decide +kernel

theorem roundTrip_nodeIdFields {encodingByte : UInt8}
    (hlow : encodingByte &&& 0x0F = nodeIdDataEncoding nodeId) (hs : nodeIdWithin cfg nodeId) :
    RoundTrip (internalNodeIdWrite encodingByte nodeId levels)
      (byteRead levels >>= fun e =>
        nodeIdFieldsRead cfg e levels >>= fun r => pure (e, r))
      (encodingByte, nodeId.normalise) := by
  refine (roundTrip_byte encodingByte).bind ?_
  obtain ⟨ns, data⟩ := nodeId
  unfold nodeIdFieldsRead
  cases data with
  | numeric n =>
    by_cases h₁ : ns = 0 ∧ n.toNat ≤ 255
    · have he : encodingByte &&& 0x0F = 0x00 := hlow.trans (if_pos h₁)
      have hn : n.toUInt8.toUInt32 = n := by
        rw [← UInt32.toNat_inj, UInt8.toNat_toUInt32, UInt32.toNat_toUInt8]
        omega
      rw [he]
      refine (((roundTrip_byte n.toUInt8).map fun b => (⟨0, .numeric b.toUInt32⟩ : NodeId)).map
        fun r => (encodingByte, r)).congr ?_
      simp [NodeId.normalise, Identifier.normalise, hn, h₁.1]
    by_cases h₂ : ns.toNat ≤ 255 ∧ n.toNat ≤ 65535
    · have he : encodingByte &&& 0x0F = 0x01 :=
        hlow.trans ((if_neg h₁).trans (if_pos h₂))
      have hn : n.toUInt16.toUInt32 = n := by
        rw [← UInt32.toNat_inj, UInt16.toNat_toUInt32, UInt32.toNat_toUInt16]
        omega
      have hns : ns.toUInt8.toUInt16 = ns := by
        rw [← UInt16.toNat_inj, UInt8.toNat_toUInt16, UInt16.toNat_toUInt8]
        omega
      rw [he]
      refine (((roundTrip_byte ns.toUInt8).bind (k := fun byte => uint16Read levels >>=
        fun t => pure (⟨byte.toUInt16, .numeric t.toUInt32⟩ : NodeId))
        ((roundTrip_uint16 n.toUInt16).map _)).map
        fun r => (encodingByte, r)).congr ?_
      simp [NodeId.normalise, Identifier.normalise, hn, hns]
    · have he : encodingByte &&& 0x0F = 0x02 :=
        hlow.trans ((if_neg h₁).trans (if_neg h₂))
      rw [he]
      exact ((roundTrip_uint16 ns).bind (k := fun ns => uint32Read levels >>=
        fun n => pure (⟨ns, .numeric n⟩ : NodeId)) ((roundTrip_uint32 n).map _)).map
        fun r => (encodingByte, r)
  | string s =>
    rw [show encodingByte &&& 0x0F = 0x03 from hlow]
    exact ((roundTrip_uint16 ns).bind (k := fun ns => stringRead cfg levels >>=
      fun s => pure (⟨ns, .string s⟩ : NodeId)) ((roundTrip_string hs).map _)).map
      fun r => (encodingByte, r)
  | guid g =>
    rw [show encodingByte &&& 0x0F = 0x04 from hlow]
    exact ((roundTrip_uint16 ns).bind (k := fun ns => guidRead levels >>=
      fun g => pure (⟨ns, .guid g⟩ : NodeId)) ((roundTrip_guid g).map _)).map
      fun r => (encodingByte, r)
  | byteString s =>
    rw [show encodingByte &&& 0x0F = 0x05 from hlow]
    exact ((roundTrip_uint16 ns).bind (k := fun ns => byteStringRead cfg levels >>=
      fun s => pure (⟨ns, .byteString s⟩ : NodeId)) ((roundTrip_byteString hs).map _)).map
      fun r => (encodingByte, r)

theorem roundTrip_internalNodeId {encodingByte : UInt8}
    (hlow : encodingByte &&& 0x0F = nodeIdDataEncoding nodeId) (hs : nodeIdWithin cfg nodeId) :
    RoundTrip (internalNodeIdWrite encodingByte nodeId levels) (internalNodeIdRead cfg levels)
      (encodingByte, nodeId.normalise) := by
  cases levels with
  | zero =>
    -- the encoding byte itself is already too deep
    intro b b' hw; obtain ⟨_, _, h, _⟩ := bind_ok.mp hw
    cases h
  | succ n => exact roundTrip_nodeIdFields hlow hs

theorem roundTrip_nodeId (hs : nodeIdWithin cfg nodeId) :
    RoundTrip (nodeIdWrite nodeId levels) (nodeIdRead cfg levels) nodeId.normalise := by
  refine roundTrip_nested fun n => (roundTrip_internalNodeId ?_ hs).map Prod.snd
  have := (flagged_encoding (nodeIdDataEncoding_mem nodeId) false false).1
  simpa [flag] using this

theorem roundTrip_expandedNodeId {e : ExpandedNodeId} (hs : expandedNodeIdWithin cfg e) :
    RoundTrip (expandedNodeIdWrite e levels) (expandedNodeIdRead cfg levels) e.normalise := by
  simp only [expandedNodeIdWithin, and_eq_true] at hs
  obtain ⟨hlow, huri, hidx⟩ := flagged_encoding (nodeIdDataEncoding_mem e.nodeId)
    (e.namespaceUri.length > 0) (e.serverIndex > 0)
  rw [decide_eq_true_iff] at huri hidx
  refine roundTrip_nested fun n => (roundTrip_internalNodeId hlow hs.1).bind ?_
  refine (RoundTrip.optional huri.symm (fun _ => roundTrip_string hs.2)
    normalise_of_length_nonpos).bind ?_
  refine (RoundTrip.optional hidx.symm (fun _ => roundTrip_uint32 e.serverIndex) fun h => ?_).map
    fun i => (⟨e.nodeId.normalise, e.namespaceUri.normalise, i⟩ : ExpandedNodeId)
  simpa using h

theorem roundTrip_qualifiedName {q : QualifiedName} (hs : qualifiedNameWithin cfg q) :
    RoundTrip (qualifiedNameWrite q levels) (qualifiedNameRead cfg levels) q.normalise :=
  roundTrip_nested fun _ => (roundTrip_uint16 q.namespaceIndex).bind
    ((roundTrip_string hs).map fun name => (⟨q.namespaceIndex, name⟩ : QualifiedName))

theorem localizedText_flags (a b : Bool) :
    ((flag a 0x01 ||| flag b 0x02) &&& 0x01 ≠ 0 ↔ a = true) ∧
      ((flag a 0x01 ||| flag b 0x02) &&& 0x02 ≠ 0 ↔ b = true) := by
  revert a b
  decide

theorem roundTrip_localizedText {t : LocalizedText} (hs : localizedTextWithin cfg t) :
    RoundTrip (localizedTextWrite t levels) (localizedTextRead cfg levels) t.normalise := by
  simp only [localizedTextWithin, and_eq_true] at hs
  obtain ⟨hlocale, htext⟩ :=
    localizedText_flags (t.defaultLocale.length > 0) (t.defaultText.length > 0)
  rw [decide_eq_true_iff] at hlocale htext
  refine roundTrip_nested fun n => (roundTrip_byte (localizedTextEncodingByte t)).bind ?_
  refine (RoundTrip.optional Iff.rfl (fun _ => roundTrip_string hs.1)
    fun h => normalise_of_length_nonpos fun hpos => h (hlocale.mpr hpos)).bind ?_
  exact (RoundTrip.optional Iff.rfl (fun _ => roundTrip_string hs.2)
    fun h => normalise_of_length_nonpos fun hpos => h (htext.mpr hpos)).map
    fun text => (⟨t.defaultLocale.normalise, text, []⟩ : LocalizedText)

theorem diagInfo_flags (a b c d e f g : Bool) :
    let m := flag a 0x01 ||| flag b 0x02 ||| flag c 0x08 ||| flag d 0x04 ||| flag e 0x10 |||
      flag f 0x20 ||| flag g 0x40
    (m &&& 0x01 ≠ 0 ↔ a = true) ∧ (m &&& 0x02 ≠ 0 ↔ b = true) ∧ (m &&& 0x08 ≠ 0 ↔ c = true) ∧
      (m &&& 0x04 ≠ 0 ↔ d = true) ∧ (m &&& 0x10 ≠ 0 ↔ e = true) ∧
      (m &&& 0x20 ≠ 0 ↔ f = true) ∧ (m &&& 0x40 ≠ 0 ↔ g = true) := by
  revert a b c d e f g
  decide

theorem roundTrip_index {c : Prop} [Decidable c] {v : Int32} (hc : c ↔ v > -1) :
    RoundTrip (writeIf c (int32Write v levels)) (readIf c (int32Read levels) (-1))
      (tableIndex v) := by
  refine RoundTrip.optional Iff.rfl (fun h => (roundTrip_int32 v).congr ?_) fun h => ?_
  · exact (if_pos (hc.mp h)).symm
  · exact if_neg fun hlt => h (hc.mpr hlt)

theorem roundTrip_diagnosticFields {d : DiagnosticFields} (inner : Bool)
    (hs : stringWithin cfg d.additionalInfo) :
    RoundTrip (diagnosticFieldsWrite d (diagInfoEncodingByte d inner) levels)
      (byteRead levels >>= fun e => diagnosticFieldsRead cfg e levels >>= fun f => pure (e, f))
      (diagInfoEncodingByte d inner, d.normalise) := by
  obtain ⟨h₁, h₂, h₃, h₄, h₅, h₆, -⟩ := diagInfo_flags (d.symbolicId > -1) (d.namespaceUri > -1)
    (d.locale > -1) (d.localizedText > -1) (d.additionalInfo.length > 0) (d.innerStatusCode > 0)
    inner
  rw [decide_eq_true_iff] at h₁ h₂ h₃ h₄ h₅ h₆
  refine (roundTrip_byte _).bind (RoundTrip.map _ ?_)
  refine (roundTrip_index h₁).bind ((roundTrip_index h₂).bind ((roundTrip_index h₃).bind
    ((roundTrip_index h₄).bind ?_)))
  refine (RoundTrip.optional Iff.rfl (fun _ => roundTrip_string hs)
    fun h => normalise_of_length_nonpos fun hpos => h (h₅.mpr hpos)).bind ?_
  refine (RoundTrip.optional Iff.rfl (fun _ => roundTrip_uint32 d.innerStatusCode)
    fun h => ?_).map fun code => (⟨_, _, _, _, _, code⟩ : DiagnosticFields)
  have hzero : ¬ d.innerStatusCode > 0 := fun hpos => h (h₆.mpr hpos)
  simpa using hzero

theorem diagnosticInfoReadBody_eq (inner : BufferM DiagnosticInfo) :
    diagnosticInfoReadBody cfg inner =
      (byteRead cfg.maxNestedStruct >>= fun e =>
        diagnosticFieldsRead cfg e cfg.maxNestedStruct >>= fun f => pure (e, f)) >>= fun r =>
      if r.1 &&& 0x40 ≠ 0 then inner >>= fun i => pure (.nest r.2 i) else pure (.leaf r.2) := by
  simp [diagnosticInfoReadBody, bind_assoc]

theorem innerFlag (d : DiagnosticFields) (inner : Bool) :
    diagInfoEncodingByte d inner &&& 0x40 ≠ 0 ↔ inner = true :=
  (diagInfo_flags _ _ _ _ _ _ inner).2.2.2.2.2.2

theorem roundTrip_diagnosticInfoInternal {d : DiagnosticInfo} {diagLevels : Nat}
    (hs : diagnosticInfoWithin cfg d) :
    RoundTrip (diagnosticInfoWriteInternal cfg diagLevels d)
      (diagnosticInfoReadInternal cfg diagLevels) d.normalise := by
  induction d generalizing diagLevels with
  | leaf d =>
    have hbody : ∀ inner, RoundTrip (diagnosticInfoWriteInternal cfg diagLevels (.leaf d))
        (diagnosticInfoReadBody cfg inner) (DiagnosticInfo.leaf d).normalise := by
      intro inner; rw [diagnosticInfoReadBody_eq]
      have hflag : ¬ diagInfoEncodingByte d false &&& 0x40 ≠ 0 := by
        rw [innerFlag]
        exact false_ne_true
      rw [diagnosticInfoWriteInternal]
      refine (roundTrip_diagnosticFields false hs).finish ?_
      exact if_neg hflag
    cases diagLevels with
    | zero => exact hbody _
    | succ n => exact hbody _
  | nest d inner ih =>
    simp only [diagnosticInfoWithin, and_eq_true] at hs
    cases diagLevels with
    | zero => intro b b' hw; obtain ⟨_, _, _, h⟩ := bind_ok.mp hw; cases h
    | succ n =>
      rw [diagnosticInfoReadInternal, diagnosticInfoReadBody_eq]
      refine (roundTrip_diagnosticFields true hs.1).bind ?_
      rw [if_pos ((innerFlag d true).mpr rfl)]
      exact (ih hs.2).map (DiagnosticInfo.nest d.normalise)

theorem roundTrip_diagnosticInfo {d : DiagnosticInfo} (hs : diagnosticInfoWithin cfg d) :
    RoundTrip (diagnosticInfoWrite cfg d levels) (diagnosticInfoRead cfg levels) d.normalise :=
  roundTrip_nested fun _ => roundTrip_diagnosticInfoInternal hs

end Encoder
end S2OPC
