import S2OPC.AddressSpace.Range

/-!
# S2OPC.AddressSpace.RangeRoundTrip

The replacement of a range of an array, a String or a ByteString, and the same range read back.

The size of a range is computed on 32 bits: it is 0 for the range of all indexes, and the length -1 of
a null value is the size of a range too. Scalars and arrays are not told apart.
-/

namespace S2OPC
namespace Variant

open Codec List Option

variable {Obj : Type}

def isSequence : Variant Obj → Bool
  | .single (.string _) | .single (.byteString _) | .nullArray _ | .array _ _ => true
  | _ => false

def elements : Variant Obj → List (Value Obj)
  | .single (.string s) => s.toList.map .byte
  | .single (.byteString s) => s.toList.map .byte
  | .array _ content => content
  | _ => []

def isArray : Variant Obj → Bool
  | .nullArray _ | .array _ _ => true
  | _ => false

def sequenceLength : Variant Obj → Int
  | .single (.string s) => s.length
  | .single (.byteString s) => s.length
  | .nullArray _ => -1
  | .array _ content => content.length
  | _ => 0

structure Extent where
  type : BuiltinId
  isArray : Bool
  length : Int

def extent (v : Variant Obj) : Extent := ⟨v.builtInTypeId, v.isArray, v.sequenceLength⟩

/-- The value `dst'` is `dst` with the range replaced by elements of `src`, and the range read back
from it, when memory is at hand, is the elements that were written. -/
structure Written (dst src : Variant Obj) (dim : Dimension) (dst' : Variant Obj) : Prop where
  extent : dst'.extent = dst.extent
  elements : ∀ i < dst.elements.length, dst'.elements[i]? =
    if dim.start.toNat ≤ i ∧ i ≤ dim.stop.toNat then src.elements[i - dim.start.toNat]?
    else dst.elements[i]?
  readBack : ∃ out, dst'.getRange true (fun _ => none) [dim] = some (.ok (.whole out)) ∧
    out.builtInTypeId = dst.builtInTypeId ∧ out.isArray = dst.isArray ∧
    out.elements =
      src.elements.take (min (dim.stop.toNat + 1) dst.elements.length - dim.start.toNat)

structure RangeOutcome (dst src : Variant Obj) (dim : Dimension)
    (outcome : Option (Except Status Unit × NodeValue Obj)) : Prop where
  defined : outcome ≠ none
  written : ∀ v, outcome = some (.ok (), v) → ∃ dst', v = .whole dst' ∧ Written dst src dim dst'
  kept : ∀ status v, outcome = some (.error status, v) → v = .whole dst

variable {dim : Dimension} {src : List (Value Obj)}

theorem not_rangeOutcome_none {dst src : Variant Obj} : ¬ RangeOutcome dst src dim none :=
  fun h => h.defined rfl

theorem rangeOutcome_ok_iff {dst src dst' : Variant Obj} :
    RangeOutcome dst src dim (some (.ok (), .whole dst')) ↔ Written dst src dim dst' := by
  constructor
  · intro h; obtain ⟨v, hv, hwritten⟩ := h.written _ rfl; cases hv; exact hwritten
  · intro h; refine ⟨by simp, fun v hv => ?_, fun status v hv => by simp at hv⟩
    cases hv; exact ⟨dst', rfl, h⟩

theorem rangeOutcome_error_iff {dst src : Variant Obj} {status : Status} {v : NodeValue Obj} :
    RangeOutcome dst src dim (some (.error status, v)) ↔ v = .whole dst := by
  constructor
  · intro h; exact h.kept status v rfl
  · intro h; refine ⟨by simp, fun w hw => by simp at hw, fun e w hw => ?_⟩; cases hw; exact h

structure Accepts (dst src : Variant Obj) (dim : Dimension) : Prop where
  type : dst.builtInTypeId = src.builtInTypeId
  size : hasRangeSize src.sequenceLength dim = true

structure RangeFits (selfCopy : Except Status Unit) (copies : Nat → ElementCopy Obj)
    (dst src : Variant Obj) (dim : Dimension) : Prop where
  -- A string is not written over an array or an array over a string.
  kind : dst.isArray = src.isArray
  -- The destination is not null.
  notNull : 0 ≤ dst.sequenceLength
  -- An array has the start of the range.
  starts : dst.isArray = true → dim.start.toNat < dst.sequenceLength
  -- If an element is written, the source is not empty.
  given : dim.start.toNat < dst.sequenceLength → (dst.isArray = true → selfCopy = .ok ()) →
    0 < src.sequenceLength
  -- An array that is written is not an array of nulls.
  typed : dst.isArray = true → selfCopy = .ok () →
    (∀ i < replacedCount dst.elements.length dim, copies i = .ok) → dst.builtInTypeId ≠ .null
  /-- Should the copy of an element of an array fail, then what was written until then was already
  there. -/
  copied : dst.isArray = true → selfCopy = .ok () →
    ∀ i < replacedCount dst.elements.length dim, (∀ j < i, copies j = .ok) →
      ∀ status leftover, copies i = .fails status leftover →
        ∃ v, leftover = some v ∧
          src.elements.take i ++ [v] = (dst.elements.drop dim.start.toNat).take (i + 1)

variable {p i : Nat} {l : List (Value Obj)}

theorem getElem?_splice {α : Type} {l bs : List α} (hroom : p + bs.length ≤ l.length) :
    (splice l p bs)[i]? = if p ≤ i ∧ i < p + bs.length then bs[i - p]? else l[i]? := by
  have htake : (l.take p).length = p := by rw [length_take]; omega
  unfold splice
  by_cases hlow : i < p
  · rw [getElem?_append_left (by omega), if_neg (by omega), getElem?_take_of_lt hlow]
  · rw [getElem?_append_right (by omega), htake]
    by_cases hhigh : i < p + bs.length
    · rw [getElem?_append_left (by omega), if_pos ⟨by omega, hhigh⟩]
    · rw [getElem?_append_right (by omega), if_neg (by omega), getElem?_drop]; congr 1; omega

theorem replacedCount_eq {length : Nat} (hstart : dim.start.toNat < length) :
    min (dim.stop.toNat + 1) length - dim.start.toNat = replacedCount length dim := by
  have hle : dim.start.toNat ≤ dim.stop.toNat := UInt32.le_iff_toNat_le.mp dim.start_le
  unfold replacedCount
  omega

theorem getElem?_replaced (hstart : dim.start.toNat < l.length)
    (hcount : replacedCount l.length dim ≤ src.length) (hi : i < l.length) :
    (splice l dim.start.toNat (src.take (replacedCount l.length dim)))[i]? =
      if dim.start.toNat ≤ i ∧ i ≤ dim.stop.toNat then src[i - dim.start.toNat]? else l[i]? := by
  have hle : dim.start.toNat ≤ dim.stop.toNat := UInt32.le_iff_toNat_le.mp dim.start_le
  have hlen : (src.take (replacedCount l.length dim)).length = replacedCount l.length dim := by
    rw [length_take, Nat.min_eq_left hcount]
  have hroom := replacedCount_le hstart
  rw [getElem?_splice (by rw [hlen]; exact hroom), hlen]
  have hiff : (dim.start.toNat ≤ i ∧ i < dim.start.toNat + replacedCount l.length dim) ↔
      (dim.start.toNat ≤ i ∧ i ≤ dim.stop.toNat) := by
    unfold replacedCount
    omega
  by_cases hin : dim.start.toNat ≤ i ∧ i ≤ dim.stop.toNat
  · rw [if_pos (hiff.mpr hin), if_pos hin]
    exact getElem?_take_of_lt (by omega)
  · rw [if_neg (fun h => hin (hiff.mp h)), if_neg hin]

theorem drop_take_replaced (hstart : dim.start.toNat < l.length)
    (hcount : replacedCount l.length dim ≤ src.length) :
    ((splice l dim.start.toNat (src.take (replacedCount l.length dim))).drop dim.start.toNat).take
      (replacedCount l.length dim) = src.take (replacedCount l.length dim) := by
  have hlen : (src.take (replacedCount l.length dim)).length = replacedCount l.length dim := by
    rw [length_take, Nat.min_eq_left hcount]
  rw [drop_splice (Nat.le_of_lt hstart), take_append_of_le_length (by omega),
    take_take, Nat.min_self]

theorem getElem?_beyond (hstart : l.length ≤ dim.start.toNat)
    (hi : i < l.length) :
    l[i]? = if dim.start.toNat ≤ i ∧ i ≤ dim.stop.toNat then src[i - dim.start.toNat]? else l[i]? := by
  rw [if_neg]; omega

structure StringView (wrap : ByteString → Variant Obj) : Prop where
  elements : ∀ s, (wrap s).elements = s.toList.map .byte
  sequenceLength : ∀ s, (wrap s).sequenceLength = s.length
  isArray : ∀ s, (wrap s).isArray = false
  type : ∀ s t, (wrap s).builtInTypeId = (wrap t).builtInTypeId
  setRange : ∀ selfCopy copies d s dim, (wrap d).setRange selfCopy copies (wrap s) [dim] =
    (setRangeString d s dim).map fun r => (r.1, .whole (wrap r.2))
  getRange : ∀ alloc copies s dim, (wrap s).getRange alloc copies [dim] =
    (getRangeString alloc s dim).map fun r => r.map fun d => .whole (wrap d)

theorem stringView_string : StringView fun s => (.single (.string s) : Variant Obj) :=
  ⟨fun _ => rfl, fun _ => rfl, fun _ => rfl, fun _ _ => rfl, fun _ _ _ _ _ => rfl,
    fun _ _ _ _ => rfl⟩

theorem stringView_byteString : StringView fun s => (.single (.byteString s) : Variant Obj) :=
  ⟨fun _ => rfl, fun _ => rfl, fun _ => rfl, fun _ _ => rfl, fun _ _ _ _ _ => rfl,
    fun _ _ _ _ => rfl⟩

theorem toList_slice (s : ByteString) (p n : Nat) : (s.slice p n).toList = (s.toList.drop p).take n :=
  rfl

theorem length_of_nonneg {s : ByteString} (h : 0 ≤ s.length) : s.length = s.toList.length := by
  obtain ⟨_ | bs, hs⟩ := s
  · simp [ByteString.length] at h
  · rfl

theorem splice_toList {s : ByteString} {bs : List UInt8}
    (h : p + bs.length ≤ s.toList.length) (hpos : 0 < s.toList.length) :
    (s.splice p bs h).toList = splice s.toList p bs ∧ (s.splice p bs h).length = s.length := by
  obtain ⟨_ | l, hl⟩ := s
  · simp [ByteString.toList] at hpos
  refine ⟨rfl, ?_⟩
  simp only [ByteString.toList, getD_some] at h
  simp only [ByteString.splice, ByteString.length, map_some]
  rw [length_splice (by omega)]
  omega

section Strings

variable {wrap : ByteString → Variant Obj} {d s : ByteString} {dim : Dimension}

theorem StringView.written_beyond (hview : StringView wrap)
    (hstart : d.toList.length ≤ dim.start.toNat) :
    Written (wrap d) (wrap s) dim (wrap d) ↔ 0 ≤ d.length := by
  constructor
  · intro h; obtain ⟨out, hout, -⟩ := h.readBack
    rw [hview.getRange, getRangeString] at hout
    by_contra hneg
    rw [if_pos (by omega)] at hout
    simp at hout
  · intro hnonneg
    refine ⟨rfl, fun i hi => ?_, wrap (d.slice 0 0), ?_, hview.type _ _, ?_, ?_⟩
    · refine getElem?_beyond ?_ hi
      rw [hview.elements, length_map]
      exact hstart
    · rw [hview.getRange, getRangeString, if_neg (by omega), if_pos hstart]; rfl
    · rw [hview.isArray, hview.isArray]
    · rw [hview.elements, hview.elements, hview.elements, toList_slice, length_map]
      have hzero : min (dim.stop.toNat + 1) d.toList.length - dim.start.toNat = 0 := by omega
      rw [hzero]
      simp

theorem StringView.written_splice (hview : StringView wrap) {d' : ByteString}
    (hstart : dim.start.toNat < d.toList.length)
    (hcount : replacedCount d.toList.length dim ≤ s.toList.length)
    (hlist : d'.toList =
      splice d.toList dim.start.toNat (s.toList.take (replacedCount d.toList.length dim)))
    (hlength : d'.length = d.length) : Written (wrap d) (wrap s) dim (wrap d') := by
  have helements : (wrap d').elements = splice (wrap d).elements dim.start.toNat
      ((wrap s).elements.take (replacedCount (wrap d).elements.length dim)) := by
    simp [hview.elements, hlist, splice]
  have hlen : (wrap d).elements.length = d.toList.length := by rw [hview.elements, length_map]
  have hcount' : replacedCount (wrap d).elements.length dim ≤ (wrap s).elements.length := by
    rw [hlen, hview.elements, length_map]
    exact hcount
  have hstart' : dim.start.toNat < (wrap d).elements.length := by rw [hlen]; exact hstart
  refine ⟨?_, fun i hi => ?_,
    wrap (d'.slice dim.start.toNat (replacedCount d.toList.length dim)), ?_, hview.type _ _, ?_, ?_⟩
  · simp [extent, hview.type _ d, hview.isArray, hview.sequenceLength, hlength]
  · rw [helements]; exact getElem?_replaced hstart' hcount' hi
  · have hnonneg : ¬ d.length < 0 := by
      have hpos : d.toList ≠ [] := ne_nil_of_length_pos (by omega)
      intro hneg; exact hpos (ByteString.toList_of_length_nonpos (by omega))
    have hlen' : d'.toList.length = d.toList.length := by
      have hroom := replacedCount_le hstart
      rw [hlist, length_splice (by omega), length_take]
      omega
    rw [hview.getRange, getRangeString, hlength, if_neg hnonneg, hlen',
      if_neg (Nat.not_le.mpr hstart)]
    rfl
  · rw [hview.isArray, hview.isArray]
  · rw [replacedCount_eq hstart', hview.elements, toList_slice, map_take, map_drop,
      ← hview.elements, helements, ← hlen]
    exact drop_take_replaced hstart' hcount'

theorem StringView.rangeFits_iff (hview : StringView wrap) {selfCopy : Except Status Unit}
    {copies : Nat → ElementCopy Obj} :
    RangeFits selfCopy copies (wrap d) (wrap s) dim ↔
      0 ≤ d.length ∧ (dim.start.toNat < d.length → 0 < s.length) := by
  constructor
  · intro h; have hnull := h.notNull
    have hgiven := h.given
    rw [hview.sequenceLength] at hnull hgiven
    rw [hview.sequenceLength, hview.isArray] at hgiven
    exact ⟨hnull, fun hstart => hgiven hstart (by simp)⟩
  · rintro ⟨hnull, hgiven⟩
    have harray : ¬ (wrap d).isArray = true := by simp [hview.isArray]
    refine ⟨?_, ?_, fun h => absurd h harray, fun hstart _ => ?_, fun h => absurd h harray,
      fun h => absurd h harray⟩
    · rw [hview.isArray, hview.isArray]
    · rw [hview.sequenceLength]; exact hnull
    · rw [hview.sequenceLength] at hstart ⊢; exact hgiven hstart

theorem StringView.setRange_iff (hview : StringView wrap) {selfCopy : Except Status Unit}
    {copies : Nat → ElementCopy Obj} (hsize : hasRangeSize s.length dim = true) :
    RangeOutcome (wrap d) (wrap s) dim ((wrap d).setRange selfCopy copies (wrap s) [dim]) ↔
      RangeFits selfCopy copies (wrap d) (wrap s) dim := by
  rw [hview.rangeFits_iff, hview.setRange, setRangeString, if_neg (by simp [hsize])]
  by_cases hstart : d.toList.length ≤ dim.start.toNat
  · rw [dif_pos hstart, map_some, rangeOutcome_ok_iff, hview.written_beyond hstart]
    refine ⟨fun hnull => ⟨hnull, fun hlt => ?_⟩, And.left⟩
    have hlen := length_of_nonneg hnull
    omega
  · rw [dif_neg hstart]
    have hstart' := Nat.not_le.mp hstart
    have hpos : 0 < d.length := by
      by_contra hneg
      rw [ByteString.toList_of_length_nonpos (by omega)] at hstart'
      simp at hstart'
    have hlen := length_of_nonneg (Int.le_of_lt hpos)
    by_cases hcount : s.toList.length < replacedCount d.toList.length dim
    · simp only [if_pos hcount, map_none]
      refine iff_of_false not_rangeOutcome_none ?_
      rintro ⟨-, hgiven⟩; have hs := hgiven (by omega)
      have hslen := length_of_nonneg (Int.le_of_lt hs)
      rw [hslen] at hsize
      have := replacedCount_le_length hsize (by omega) hstart'
      omega
    · simp only [if_neg hcount, map_some]
      rw [rangeOutcome_ok_iff]
      have hroom : dim.start.toNat +
          (s.toList.take (replacedCount d.toList.length dim)).length ≤ d.toList.length := by
        have hle := replacedCount_le hstart'
        rw [length_take]
        omega
      obtain ⟨hlist, hlength⟩ := splice_toList hroom (by omega)
      refine iff_of_true (hview.written_splice hstart' (Nat.not_lt.mp hcount) hlist hlength)
        ⟨Int.le_of_lt hpos, fun _ => ?_⟩
      by_contra hneg
      rw [ByteString.toList_of_length_nonpos (by omega)] at hcount
      unfold replacedCount at hcount
      simp at hcount

end Strings

section Arrays

variable {t : BuiltinId} {content srcs : List (Value Obj)} {src : Variant Obj} {dim : Dimension}
  {selfCopy : Except Status Unit} {copies : Nat → ElementCopy Obj}

theorem not_written_beyond (hstart : content.length ≤ dim.start.toNat) :
    ¬ Written (.array t content) src dim (.array t content) := by
  intro h; obtain ⟨out, hout, -⟩ := h.readBack; simp [getRange, getRangeArray, hstart] at hout

theorem not_written_nullArray : ¬ Written (.nullArray t) src dim (.nullArray t) := by
  intro h; obtain ⟨out, hout, -⟩ := h.readBack; simp [getRange, getRangeArray] at hout

theorem written_array_iff (hsrc : src.elements = srcs) (hstart : dim.start.toNat < content.length)
    (hcount : replacedCount content.length dim ≤ srcs.length) :
    Written (.array t content) src dim (.array t
      (splice content dim.start.toNat (srcs.take (replacedCount content.length dim)))) ↔
      t ≠ .null := by
  have hroom := replacedCount_le hstart
  have hlen : (splice content dim.start.toNat
      (srcs.take (replacedCount content.length dim))).length = content.length := by
    rw [length_splice (by omega), length_take]
    omega
  have hfind : (List.range (replacedCount content.length dim)).findSome?
      (fun _ => (none : Option Status)) = none := by simp
  constructor
  · rintro h rfl; obtain ⟨out, hout, -⟩ := h.readBack
    simp [getRange, getRangeArray, hlen, Nat.not_le.mpr hstart] at hout
  intro htype
  refine ⟨?_, fun i hi => ?_, .array t (srcs.take (replacedCount content.length dim)), ?_, rfl, rfl,
    ?_⟩
  · simp [extent, builtInTypeId, isArray, sequenceLength, hlen]
  · rw [hsrc]; exact getElem?_replaced hstart hcount hi
  · simp only [getRange, getRangeArray, hlen, if_neg (Nat.not_le.mpr hstart), htype, false_or,
      Bool.true_eq_false, if_false, hfind]
    rw [drop_take_replaced hstart hcount]
  · rw [hsrc]; exact congrArg srcs.take (replacedCount_eq hstart).symm

theorem rangeFits_array_iff (hsrc : src.elements = srcs) (harray : src.isArray = true)
    (hstart : dim.start.toNat < content.length) :
    RangeFits selfCopy copies (.array t content) src dim ↔
      (selfCopy = .ok () → 0 < src.sequenceLength ∧
        ((∀ i < replacedCount content.length dim, copies i = .ok) → t ≠ .null) ∧
        ∀ i < replacedCount content.length dim, (∀ j < i, copies j = .ok) →
          ∀ status leftover, copies i = .fails status leftover →
            ∃ v, leftover = some v ∧
              srcs.take i ++ [v] = (content.drop dim.start.toNat).take (i + 1)) := by
  have hlt : (dim.start.toNat : Int) < (Variant.array t content).sequenceLength := by
    simp only [sequenceLength]
    omega
  subst hsrc
  constructor
  · intro h hself; exact ⟨h.given hlt fun _ => hself, h.typed rfl hself, h.copied rfl hself⟩
  · intro h
    refine ⟨harray.symm, by simp [sequenceLength], fun _ => hlt, fun _ hself => (h (hself rfl)).1,
      fun _ hself => (h hself).2.1, fun _ hself => (h hself).2.2⟩

theorem not_rangeFits_of_not_starts {dst : Variant Obj} (harray : dst.isArray = true)
    (hstart : dst.sequenceLength ≤ dim.start.toNat) : ¬ RangeFits selfCopy copies dst src dim := by
  intro h; have hlt := h.starts harray; omega

theorem setRangeElements_iff (hsrc : src.elements = srcs) (harray : src.isArray = true)
    (hlength : src.sequenceLength = srcs.length ∨ (src.sequenceLength = -1 ∧ srcs = []))
    (hsize : hasRangeSize src.sequenceLength dim = true) :
    RangeOutcome (.array t content) src dim
      (setRangeElements selfCopy copies (.array t content) src.sequenceLength srcs dim) ↔
      RangeFits selfCopy copies (.array t content) src dim := by
  unfold setRangeElements
  rw [if_neg (by simp [hsize])]
  by_cases hstart : content.length ≤ dim.start.toNat
  · simp only [if_pos hstart, rangeOutcome_ok_iff]
    refine iff_of_false (not_written_beyond hstart) (not_rangeFits_of_not_starts rfl ?_)
    simp only [sequenceLength]
    omega
  · simp only [if_neg hstart]
    have hstart := Nat.not_le.mp hstart
    rw [rangeFits_array_iff hsrc harray hstart]
    cases hself : selfCopy with
    | error status => simp [rangeOutcome_error_iff]
    | ok u =>
      simp only [true_implies]
      have hpos : 0 < replacedCount content.length dim := by unfold replacedCount; omega
      by_cases hcount : srcs.length < replacedCount content.length dim
      · rw [if_pos hcount]
        refine iff_of_false not_rangeOutcome_none ?_
        rintro ⟨hgiven, -⟩; obtain hlen | ⟨hlen, -⟩ := hlength
        · rw [hlen] at hsize hgiven; have := replacedCount_le_length hsize (by omega) hstart; omega
        · omega
      · rw [if_neg hcount]
        have hcount := Nat.not_lt.mp hcount
        have hgiven : 0 < src.sequenceLength := by
          obtain hlen | ⟨-, hnil⟩ := hlength
          · omega
          · subst hnil; simp only [length_nil] at hcount; omega
        have hlen : (srcs.take (replacedCount content.length dim)).length =
            replacedCount content.length dim := by
          rw [length_take, Nat.min_eq_left hcount]
        have hroom := replacedCount_le hstart
        rcases copies_cases copies (replacedCount content.length dim) with
          hok | ⟨i, hi, hok, status, leftover, hfails⟩
        · rw [copyElements_ok (by omega) (by simpa [hlen] using hok), Nat.add_zero,
            rangeOutcome_ok_iff, written_array_iff hsrc hstart hcount]
          constructor
          · intro htype; refine ⟨hgiven, fun _ => htype, fun i hi _ status leftover hfails => ?_⟩
            rw [hok i hi] at hfails
            cases hfails
          · intro h; exact h.2.1 hok
        · rw [copyElements_fails (n := i) (by omega) (by omega) (by simpa using hok)
            (by simpa using hfails), rangeOutcome_error_iff, take_take,
            Nat.min_eq_left (Nat.le_of_lt hi), Nat.add_zero, failedRange_eq_iff (by omega)]
          constructor
          · intro hkept
            refine ⟨hgiven, fun hall => ?_, fun k hk hokk status' leftover' hfails' => ?_⟩
            · rw [hall i hi] at hfails; cases hfails
            -- there is only one first copy that fails
            obtain hki | hki | hki := Nat.lt_trichotomy k i
            · rw [hok k hki] at hfails'; cases hfails'
            · subst hki; rw [hfails] at hfails'; cases hfails'; exact hkept
            · rw [hokk i hki] at hfails; cases hfails
          · intro h; exact h.2.2 i hi hok status leftover hfails

theorem setRangeElements_nullArray_iff
    (hsize : hasRangeSize src.sequenceLength dim = true) :
    RangeOutcome (.nullArray t) src dim
      (setRangeElements selfCopy copies (.nullArray t) src.sequenceLength srcs dim) ↔
      RangeFits selfCopy copies (.nullArray t) src dim := by
  unfold setRangeElements
  rw [if_neg (by simp [hsize])]
  simp only [rangeOutcome_ok_iff]
  refine iff_of_false not_written_nullArray (not_rangeFits_of_not_starts rfl ?_)
  simp only [sequenceLength]
  omega

end Arrays

theorem sequence_cases {v : Variant Obj} (h : v.isSequence = true) :
    (∃ s, v = .single (.string s)) ∨ (∃ s, v = .single (.byteString s)) ∨ v.isArray = true := by
  unfold isSequence at h
  split at h
  · exact .inl ⟨_, rfl⟩
  · exact .inr (.inl ⟨_, rfl⟩)
  · exact .inr (.inr rfl)
  · exact .inr (.inr rfl)
  · simp at h

section Sequences

variable {dst src : Variant Obj} {dim : Dimension} {selfCopy : Except Status Unit}
  {copies : Nat → ElementCopy Obj}

theorem setRange_one :
    dst.setRange selfCopy copies src [dim] = setRangeArray selfCopy copies dst src dim := rfl

theorem setRange_of_array (harray : src.isArray = true)
    (htype : dst.builtInTypeId = src.builtInTypeId) :
    dst.setRange selfCopy copies src [dim] =
      setRangeElements selfCopy copies dst src.sequenceLength src.elements dim := by
  rw [setRange_one]
  unfold setRangeArray
  rw [if_neg (by simp [htype])]
  cases src with
  | nullArray t => rfl
  | array t content => rfl
  | single v => simp [isArray] at harray
  | matrix t dims content => simp [isArray] at harray

theorem setRange_string_over_array {s : ByteString} (harray : dst.isArray = true)
    (hsrc : src = .single (.string s) ∨ src = .single (.byteString s))
    (htype : dst.builtInTypeId = src.builtInTypeId) :
    dst.setRange selfCopy copies src [dim] =
      if hasRangeSize src.sequenceLength dim = false then some (.error .nok, .whole dst) else none := by
  rw [setRange_one]
  unfold setRangeArray
  rw [if_neg (by simp [htype])]
  rcases hsrc with rfl | rfl
  · cases dst with
    | nullArray t => rfl
    | array t content => rfl
    | single v => simp [isArray] at harray
    | matrix t dims content => simp [isArray] at harray
  · cases dst with
    | nullArray t => rfl
    | array t content => rfl
    | single v => simp [isArray] at harray
    | matrix t dims content => simp [isArray] at harray

theorem sequenceLength_of_array (harray : src.isArray = true) :
    src.sequenceLength = src.elements.length ∨
      (src.sequenceLength = -1 ∧ src.elements = []) := by
  cases src with
  | nullArray t => exact .inr ⟨rfl, rfl⟩
  | array t content => exact .inl rfl
  | single v => simp [isArray] at harray
  | matrix t dims content => simp [isArray] at harray

theorem setRange_of_not_accepts (hdst : dst.isSequence = true) (hsrc : src.isSequence = true)
    (h : ¬ Accepts dst src dim) :
    dst.setRange selfCopy copies src [dim] = some (.error .nok, .whole dst) := by
  by_cases htype : dst.builtInTypeId = src.builtInTypeId
  · have hsize : hasRangeSize src.sequenceLength dim = false := by
      by_contra hne
      exact h ⟨htype, by simpa using hne⟩
    rcases sequence_cases hsrc with ⟨s, rfl⟩ | ⟨s, rfl⟩ | harray
    · rcases sequence_cases hdst with ⟨d, rfl⟩ | ⟨d, rfl⟩ | hdarray
      · simp only [sequenceLength] at hsize
        rw [stringView_string.setRange, setRangeString, if_pos hsize]
        rfl
      · simp [builtInTypeId, Value.typeId] at htype
      · rw [setRange_string_over_array hdarray (.inl rfl) htype, if_pos hsize]
    · rcases sequence_cases hdst with ⟨d, rfl⟩ | ⟨d, rfl⟩ | hdarray
      · simp [builtInTypeId, Value.typeId] at htype
      · simp only [sequenceLength] at hsize
        rw [stringView_byteString.setRange, setRangeString, if_pos hsize]
        rfl
      · rw [setRange_string_over_array hdarray (.inr rfl) htype, if_pos hsize]
    · rw [setRange_of_array harray htype]; unfold setRangeElements; rw [if_pos hsize]
  · rw [setRange_one]; unfold setRangeArray; rw [if_pos htype]

theorem setRange_string_over_array_iff {s : ByteString} (harray : dst.isArray = true)
    (hsrc : src = .single (.string s) ∨ src = .single (.byteString s)) (h : Accepts dst src dim) :
    RangeOutcome dst src dim (dst.setRange selfCopy copies src [dim]) ↔
      RangeFits selfCopy copies dst src dim := by
  rw [setRange_string_over_array harray hsrc h.type, if_neg (by simp [h.size])]
  refine iff_of_false not_rangeOutcome_none fun hfits => ?_
  have hkind := hfits.kind
  rw [harray] at hkind
  rcases hsrc with rfl | rfl <;> cases hkind

theorem setRange_array_iff (hdst : dst.isSequence = true) (harray : src.isArray = true)
    (h : Accepts dst src dim) :
    RangeOutcome dst src dim (dst.setRange selfCopy copies src [dim]) ↔
      RangeFits selfCopy copies dst src dim := by
  rw [setRange_of_array harray h.type]
  cases dst with
  | array t content => exact setRangeElements_iff rfl harray (sequenceLength_of_array harray) h.size
  | nullArray t => exact setRangeElements_nullArray_iff h.size
  | single v =>
    unfold setRangeElements
    rw [if_neg (by simp [h.size])]
    refine iff_of_false not_rangeOutcome_none fun hfits => ?_
    have hkind := hfits.kind
    rw [harray] at hkind
    cases hkind
  | matrix t dims content => simp [isSequence] at hdst

end Sequences

/-- The replacement of a range does what is expected exactly when its inputs fit. -/
theorem range_written_iff {dst src : Variant Obj} (hdst : dst.isSequence = true)
    (hsrc : src.isSequence = true) (selfCopy : Except Status Unit)
    (copies : Nat → ElementCopy Obj) (dim : Dimension) :
    RangeOutcome dst src dim (dst.setRange selfCopy copies src [dim]) ↔
      (Accepts dst src dim → RangeFits selfCopy copies dst src dim) := by
  by_cases haccepts : Accepts dst src dim
  · rw [forall_prop_of_true haccepts]
    rcases sequence_cases hsrc with ⟨s, rfl⟩ | ⟨s, rfl⟩ | harray
    · rcases sequence_cases hdst with ⟨d, rfl⟩ | ⟨d, rfl⟩ | hdarray
      · exact stringView_string.setRange_iff haccepts.size
      · cases haccepts.type
      · exact setRange_string_over_array_iff hdarray (.inl rfl) haccepts
    · rcases sequence_cases hdst with ⟨d, rfl⟩ | ⟨d, rfl⟩ | hdarray
      · cases haccepts.type
      · exact stringView_byteString.setRange_iff haccepts.size
      · exact setRange_string_over_array_iff hdarray (.inr rfl) haccepts
    · exact setRange_array_iff hdst harray haccepts
  · rw [setRange_of_not_accepts hdst hsrc haccepts, rangeOutcome_error_iff]
    exact iff_of_true rfl fun h => absurd h haccepts

def secondIndex : Dimension := ⟨1, 1, UInt32.le_refl 1⟩

def allIndexes : Dimension := ⟨0, 4294967295, by decide⟩

def bytes (values : List UInt8) : Variant Empty := .array .byte (values.map .byte)

theorem second_byte_fits :
    RangeFits (.ok ()) (fun _ => .ok) (bytes [1, 2]) (bytes [3]) secondIndex := by
  have hsrc : (bytes [3]).elements = [.byte 3] := rfl
  refine (rangeFits_array_iff hsrc rfl (by decide)).mpr fun _ =>
    ⟨by decide, fun _ => by decide, fun i _ _ status leftover hfails => ?_⟩
  cases hfails

theorem second_byte_written : (bytes [1, 2]).isSequence = true ∧ (bytes [3]).isSequence = true ∧
    RangeOutcome (bytes [1, 2]) (bytes [3]) secondIndex
      ((bytes [1, 2]).setRange (.ok ()) (fun _ => .ok) (bytes [3]) [secondIndex]) :=
  ⟨rfl, rfl, (range_written_iff rfl rfl _ _ _).mpr fun _ => second_byte_fits⟩

/-- The empty array is accepted for the range of all indexes, whose size is 0 on 32 bits, and two
bytes are read beyond it. The scalar String `"a"` is accepted for an element of an array of Strings,
and written with the wrong member of the union. A copy that fails leaves the array with the elements
before it. And an array is read back beyond its end as a scalar. -/
theorem range_not_written :
    (bytes [1, 2]).setRange (.ok ()) (fun _ => .ok) (bytes []) [allIndexes] = none ∧
    (Variant.array .string [.string .null, .string .null] : Variant Empty).setRange (.ok ())
      (fun _ => .ok) (.single (.string ⟨some [97], by simp⟩)) [secondIndex] = none ∧
    (bytes [1, 2]).setRange (.ok ())
      (fun i => if i = 0 then .ok else .fails .outOfMemory (some (.byte 0))) (bytes [3, 4])
      [⟨0, 1, by decide⟩] = some (.error .outOfMemory, .whole (bytes [3, 0])) ∧
    (bytes [1]).setRange (.ok ()) (fun _ => .ok) (bytes [3]) [secondIndex] =
      some (.ok (), .whole (bytes [1])) ∧
    (bytes [1]).getRange true (fun _ => none) [secondIndex] = some (.ok (.zeroed .byte)) :=
  ⟨rfl, rfl, rfl, rfl, rfl⟩

end Variant
end S2OPC
