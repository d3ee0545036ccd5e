import S2OPC.AddressSpace.WriteFrame
import S2OPC.Lib.Fallible

/-!
# S2OPC.AddressSpace.WriteTyping

The type of the values that writes leave in the variables.

A write stores the value it was given, or modifies the one that is there without changing its type.
The first is what the check of the type was made on, except that a ByteString for an array of Byte,
or the converse, is checked as if it were converted. `TypedWrite` is the condition on a write for
the type to be kept.
-/

namespace S2OPC

open List Function Option

variable {Obj : Type}

structure Shape where
  builtInTypeId : BuiltinId
  dataType : NodeId
  valueRank : Int
  deriving DecidableEq

namespace Variant

def shape (v : Variant Obj) : Shape := ⟨v.builtInTypeId, v.getDataType, v.getValueRank⟩

/-- The elements of an array or a matrix are of its type, and a matrix has as many as its
dimensions say. -/
def WellTyped : Variant Obj → Prop
  | .single _ => True
  | .nullArray _ => True
  | .array t content => ∀ v ∈ content, v.typeId = t
  | .matrix t dims content =>
    (∀ v ∈ content, v.typeId = t) ∧
      (if dims = [] then content = [] else ∀ n, matrixLength dims = some n → content.length = n)

theorem copy_typed {v w : Variant Obj} {alloc : Bool} (h : v.copy alloc = some w)
    (hv : v.WellTyped) : w.shape = v.shape ∧ w.WellTyped := by
  unfold copy at h
  split at h
  · cases h; exact ⟨rfl, by simp [WellTyped]⟩
  · cases h; exact ⟨rfl, by simp [WellTyped]⟩
  · split at h
    · cases h; exact ⟨rfl, hv⟩
    · cases h
  · split at h
    · cases h; exact ⟨rfl, hv⟩
    · cases h

end Variant

namespace AddressSpace

open Codec Variant

variable {space : AddressSpace} {values : Values Obj} {env : WriteEnv Obj} {wv : WriteValue Obj}
  {v w variant : Variant Obj}

theorem typeId_eq_localizedText {x : Value Obj} (h : x.typeId = .localizedText) :
    ∃ text, x = .localizedText text := by
  cases x with
  | localizedText text => exact ⟨text, rfl⟩
  | _ => cases h

theorem modifyTexts_typed {dests srcs : List (Value Obj)} {i : Nat}
    (hdests : ∀ v ∈ dests, v.typeId = .localizedText)
    (hsrcs : ∀ v ∈ srcs, v.typeId = .localizedText) (hlen : dests.length = srcs.length) :
    ∃ r, modifyTexts env i dests srcs = some r ∧
      ∀ texts, r = .ok texts →
        texts.length = dests.length ∧ ∀ v ∈ texts, v.typeId = .localizedText := by
  induction dests generalizing srcs i with
  | nil =>
    cases srcs with
    | nil => refine ⟨.ok [], rfl, ?_⟩; simp
    | cons s srcs => cases hlen
  | cons d dests ih =>
    cases srcs with
    | nil => cases hlen
    | cons s srcs =>
      rw [forall_mem_cons] at hdests hsrcs
      obtain ⟨dest, rfl⟩ := typeId_eq_localizedText hdests.1
      obtain ⟨src, rfl⟩ := typeId_eq_localizedText hsrcs.1
      obtain ⟨r, hr, hr'⟩ := ih (i := i + 1) hdests.2 hsrcs.2 (Nat.succ.inj hlen)
      cases htext : LocalizedText.addOrSetLocale (env.textAlloc i) env.locales dest src with
      | error e => refine ⟨.error e, by simp [modifyTexts, htext], ?_⟩; rintro texts ⟨⟩
      | ok text =>
        refine ⟨r.map (.localizedText text :: ·), by simp [modifyTexts, htext, hr], ?_⟩
        intro texts htexts
        cases r with
        | error e => cases htexts
        | ok rest =>
          cases htexts; obtain ⟨hl, ht⟩ := hr' rest rfl
          exact ⟨by simp [hl], forall_mem_cons.mpr ⟨rfl, ht⟩⟩

theorem withTexts_typed {texts : List (Value Obj)} (ht : v.builtInTypeId = .localizedText)
    (hv : v.WellTyped) (hlen : texts.length = (textsOf v).length)
    (htexts : ∀ x ∈ texts, x.typeId = .localizedText) :
    (withTexts v texts).shape = v.shape ∧ (withTexts v texts).WellTyped := by
  cases v with
  | single x =>
    obtain ⟨y, rfl⟩ := length_eq_one_iff.mp hlen
    obtain ⟨text, rfl⟩ := typeId_eq_localizedText ht
    obtain ⟨text', rfl⟩ := typeId_eq_localizedText (htexts y mem_cons_self)
    exact ⟨rfl, trivial⟩
  | nullArray t => exact ⟨rfl, trivial⟩
  | array t content => obtain rfl : t = .localizedText := ht; exact ⟨rfl, htexts⟩
  | matrix t dims content =>
    obtain rfl : t = .localizedText := ht
    obtain ⟨-, hdims⟩ := hv
    refine ⟨rfl, htexts, ?_⟩
    by_cases hnil : dims = []
    · rw [if_pos hnil] at hdims ⊢; rw [hdims] at hlen; exact length_eq_zero_iff.mp hlen
    · rw [if_neg hnil] at hdims ⊢; rwa [hlen]

theorem textsOf_typed (hv : v.WellTyped) (ht : v.builtInTypeId = .localizedText) :
    ∀ x ∈ textsOf v, x.typeId = .localizedText := by
  cases v with
  | single x => intro y hy; rw [mem_singleton.mp hy]; exact ht
  | nullArray t => simp [textsOf]
  | array t content => obtain rfl : t = .localizedText := ht; exact hv
  | matrix t dims content => obtain rfl : t = .localizedText := ht; exact hv.1

theorem modifiable_builtInTypeId (h : isLocalizedTextAndModifiable v variant = true) :
    v.builtInTypeId = .localizedText ∧ variant.builtInTypeId = .localizedText := by
  unfold isLocalizedTextAndModifiable at h
  split at h
  · cases h
  · rename_i htypes; rw [not_or, ne_eq, ne_eq, not_not, not_not] at htypes; exact htypes

theorem modifiable_length {copied : Variant Obj} {alloc : Bool}
    (h : isLocalizedTextAndModifiable v variant = true) (hv : v.WellTyped)
    (hvariant : variant.WellTyped) (hcopy : v.copy alloc = some copied) :
    (textsOf copied).length = (textsOf variant).length := by
  unfold isLocalizedTextAndModifiable at h
  split at h
  · cases h
  split at h
  · cases alloc <;> cases hcopy
    rfl
  · cases hcopy; rfl
  · cases alloc <;> cases hcopy
    exact beq_iff_eq.mp h
  · rename_i t a content t' b content' _; obtain rfl := beq_iff_eq.mp h
    cases a with
    | nil => cases hcopy; have : content' = [] := hvariant.2; rw [this]; rfl
    | cons dim dims =>
      simp only [Variant.copy] at hcopy
      split at hcopy
      · rename_i hlen; cases hcopy
        obtain ⟨n, hn⟩ := isSome_iff_exists.mp (Bool.and_eq_true_iff.mp hlen).1
        have hc : content.length = n := hv.2 n hn
        have hc' : content'.length = n := hvariant.2 n hn
        exact hc.trans hc'.symm
      · cases hcopy
  · cases h

theorem modifyLocalizedText_typed (hm : isLocalizedTextAndModifiable v variant = true)
    (hv : v.WellTyped) (hvariant : variant.WellTyped) (hnull : ∀ t, variant ≠ .nullArray t) :
    ∃ r w, modifyLocalizedText env v variant = some (r, .whole w) ∧ w.shape = v.shape ∧
      w.WellTyped := by
  obtain ⟨htv, htw⟩ := modifiable_builtInTypeId hm
  unfold modifyLocalizedText
  split
  · exact ⟨_, v, rfl, rfl, hv⟩
  · exact absurd rfl (hnull _)
  rename_i copied hcopy _; obtain ⟨hshape, hcopied⟩ := copy_typed hcopy hv
  have htc : copied.builtInTypeId = .localizedText := (congrArg Shape.builtInTypeId hshape).trans htv
  have hlen := modifiable_length hm hv hvariant hcopy
  obtain ⟨r, hr, htexts⟩ : ∃ r, modifyTexts env 0 (textsOf copied) (textsOf _) = some r ∧ _ :=
    modifyTexts_typed (textsOf_typed hcopied htc) (textsOf_typed hvariant htw) hlen
  rw [hr]
  cases r with
  | error status => exact ⟨_, v, rfl, rfl, hv⟩
  | ok texts =>
    obtain ⟨htlen, httyped⟩ := htexts texts rfl
    obtain ⟨hs, hw⟩ := withTexts_typed htc hcopied htlen httyped
    exact ⟨_, _, rfl, hs.trans hshape, hw⟩

def rangeLength : Variant Obj → Option Int
  | .single (.string s) => some s.length
  | .single (.byteString s) => some s.length
  | .nullArray _ => some (-1)
  | .array _ content => some content.length
  | _ => none

structure RangeTyped (env : WriteEnv Obj) (v variant : Variant Obj) (indexRange : ByteString) :
    Prop where
  /-- A string is not written over an array of strings or the converse, and a value of the size of
  the range, on 32 bits, is not empty. -/
  fits : ∀ dim length, NumericRange.parse env.allocRange indexRange.cString = .ok [dim] →
    v.hasRangeArray dim = true → v.builtInTypeId = variant.builtInTypeId →
    rangeLength variant = some length → hasRangeSize length dim = true →
    0 < length ∧ v.getValueRank = variant.getValueRank
  -- A failed copy of an element leaves a value of the type.
  leftover : ∀ dim t content src, Replaces env (.whole v) variant indexRange dim t content src →
    ∀ i < replacedCount content.length dim, (∀ j < i, env.elementCopy j = .ok) →
      ∀ status left, env.elementCopy i = .fails status left → ∃ x, left = some x ∧ x.typeId = t

variable {dim : Dimension} {src : List (Value Obj)}

variable {d indexRange : ByteString} {t : BuiltinId} {content : List (Value Obj)} {node : Node}

theorem setRangeString_answers {s : ByteString} (hstart : dim.start.toNat < d.toList.length)
    (hfits : hasRangeSize s.length dim = true → 0 < s.length) :
    ∃ r d', setRangeString d s dim = some (r, d') := by
  unfold setRangeString
  split
  · exact ⟨_, _, rfl⟩
  rename_i hsize; rw [Bool.not_eq_false] at hsize
  rw [dif_neg (Nat.not_le.mpr hstart)]
  obtain ⟨-, hlen⟩ := ByteString.bytes_of_length_pos (hfits hsize)
  have hpos := hfits hsize
  rw [hlen] at hsize hpos
  rw [if_neg (Nat.not_lt.mpr (replacedCount_le_length hsize (by omega) hstart))]
  exact ⟨_, _, rfl⟩

theorem copyElements_typed {copies : Nat → ElementCopy Obj} {start : Nat}
    (hroom : start + src.length ≤ content.length)
    (hcontent : ∀ x ∈ content, x.typeId = t) (hsrc : ∀ x ∈ src, x.typeId = t)
    (hleft : ∀ i < src.length, (∀ j < i, copies j = .ok) →
      ∀ status left, copies i = .fails status left → ∃ x, left = some x ∧ x.typeId = t) :
    ∃ r content', copyElements copies t start 0 src content = (r, .whole (.array t content')) ∧
      ∀ x ∈ content', x.typeId = t := by
  rcases copies_cases copies src.length with hok | ⟨i, hi, hok, status, left, hfails⟩
  · refine ⟨_, _, copyElements_ok hroom (fun j hj => by rw [Nat.zero_add]; exact hok j hj), ?_⟩
    intro x hx
    rcases mem_of_mem_splice hx with h | h
    · exact hcontent x h
    · exact hsrc x h
  · obtain ⟨y, rfl, hy⟩ := hleft i hi hok status left hfails
    have hok' : ∀ j < i, copies (0 + j) = .ok := by simpa only [Nat.zero_add] using hok
    have hfails' : copies (0 + i) = .fails status (some y) := by rwa [Nat.zero_add]
    refine ⟨_, _, copyElements_fails hi hroom hok' hfails', ?_⟩
    intro x hx
    rcases mem_of_mem_splice hx with h | h
    · exact hcontent x h
    · rcases mem_append.mp h with h | h
      · exact hsrc x (mem_of_mem_take h)
      · rw [mem_singleton.mp h]; exact hy

theorem setRangeElements_of_size_ne {length : Int} (h : hasRangeSize length dim = false) :
    setRangeElements env.selfCopy env.elementCopy v length src dim =
      some (.error .nok, .whole v) := by
  unfold setRangeElements
  rw [if_pos h]

theorem setRangeElements_typed
    (hstart : dim.start.toNat < content.length) (hcontent : ∀ x ∈ content, x.typeId = t)
    (hsrc : ∀ x ∈ src, x.typeId = t)
    (hfits : hasRangeSize (src.length : Int) dim = true → 0 < src.length)
    (hleft : hasRangeSize (src.length : Int) dim = true → env.selfCopy = .ok () →
      replacedCount content.length dim ≤ src.length →
      ∀ i < replacedCount content.length dim, (∀ j < i, env.elementCopy j = .ok) →
        ∀ status left, env.elementCopy i = .fails status left →
          ∃ x, left = some x ∧ x.typeId = t) :
    ∃ r content', setRangeElements env.selfCopy env.elementCopy (.array t content) src.length src dim
        = some (r, .whole (.array t content')) ∧ ∀ x ∈ content', x.typeId = t := by
  unfold setRangeElements
  split
  · exact ⟨_, content, rfl, hcontent⟩
  rename_i hsize; rw [Bool.not_eq_false] at hsize
  have hcount := replacedCount_le_length hsize (hfits hsize) hstart
  have hroom := replacedCount_le hstart
  simp only [if_neg (Nat.not_le.mpr hstart), if_neg (Nat.not_lt.mpr hcount)]
  cases hself : env.selfCopy with
  | error status => exact ⟨_, content, rfl, hcontent⟩
  | ok u =>
    have hlen : (src.take (replacedCount content.length dim)).length =
        replacedCount content.length dim := by
      rw [length_take, Nat.min_eq_left hcount]
    have hleft' := hleft hsize hself hcount
    rw [← hlen] at hroom hleft'
    obtain ⟨r, content', hcopy, htyped⟩ := copyElements_typed hroom hcontent
      (fun x hx => hsrc x (mem_of_mem_take hx)) hleft'
    exact ⟨r, content', by rw [hcopy], htyped⟩

theorem start_lt_of_hasRangeString (h : hasRangeString d dim = true) :
    dim.start.toNat < d.toList.length := by
  simp only [hasRangeString, Bool.and_eq_true, decide_eq_true_eq] at h
  have := (ByteString.bytes_of_length_pos h.1).2
  omega

theorem eq_string_of_hasRange (hrange : v.hasRangeArray dim = true) (hrank : v.getValueRank = -1) :
    (∃ d, v = .single (.string d)) ∨ ∃ d, v = .single (.byteString d) := by
  cases v with
  | single x =>
    cases x with
    | string d => exact .inl ⟨d, rfl⟩
    | byteString d => exact .inr ⟨d, rfl⟩
    | _ => cases hrange
  | array t content => cases hrank
  | nullArray t => cases hrange
  | matrix t dims content => cases hrange

theorem eq_array_of_hasRange (hrange : v.hasRangeArray dim = true) (hrank : v.getValueRank = 1) :
    ∃ t content, v = .array t content ∧
      dim.start.toNat < content.length := by
  cases v with
  | array t content => exact ⟨t, content, rfl, by simpa [hasRangeArray] using hrange⟩
  | single x => cases hrank
  | nullArray t => cases hrange
  | matrix t dims content => cases hrange

theorem setRangeArray_typed
    (hparse : NumericRange.parse env.allocRange indexRange.cString = .ok [dim])
    (hrange : v.hasRangeArray dim = true) (hprev : env.copyPrevious = true) (hv : v.WellTyped)
    (hvariant : variant.WellTyped) (h : RangeTyped env v variant indexRange) :
    ∃ r w, setRangeArray env.selfCopy env.elementCopy v variant dim = some (r, .whole w) ∧
      w.shape = v.shape ∧ w.WellTyped := by
  unfold setRangeArray
  by_cases htype : v.builtInTypeId = variant.builtInTypeId
  · have hfits := fun length => h.fits dim length hparse hrange htype
    rw [if_neg (not_not.mpr htype)]
    split
    · rename_i s d
      obtain ⟨r, d', hr⟩ := setRangeString_answers (start_lt_of_hasRangeString hrange)
        fun hsize => (hfits s.length rfl hsize).1
      exact ⟨r, .single (.string d'), by rw [hr]; rfl, rfl, trivial⟩
    · rename_i s d
      obtain ⟨r, d', hr⟩ := setRangeString_answers (start_lt_of_hasRangeString hrange)
        fun hsize => (hfits s.length rfl hsize).1
      exact ⟨r, .single (.byteString d'), by rw [hr]; rfl, rfl, trivial⟩
    · rename_i s hne
      split
      · exact ⟨_, v, rfl, rfl, hv⟩
      · rename_i hsize; rw [Bool.not_eq_false] at hsize
        rcases eq_string_of_hasRange hrange (hfits s.length rfl hsize).2 with ⟨d, rfl⟩ | ⟨d, rfl⟩
        · exact absurd rfl (hne d)
        · cases htype
    · rename_i s hne
      split
      · exact ⟨_, v, rfl, rfl, hv⟩
      · rename_i hsize; rw [Bool.not_eq_false] at hsize
        rcases eq_string_of_hasRange hrange (hfits s.length rfl hsize).2 with ⟨d, rfl⟩ | ⟨d, rfl⟩
        · cases htype
        · exact absurd rfl (hne d)
    · cases hsize : hasRangeSize (-1) dim with
      | false => exact ⟨_, v, setRangeElements_of_size_ne hsize, rfl, hv⟩
      | true => have := (hfits (-1) rfl hsize).1; omega
    · rename_i t src
      cases hsize : hasRangeSize (src.length : Int) dim with
      | false => exact ⟨_, v, setRangeElements_of_size_ne hsize, rfl, hv⟩
      | true =>
        obtain ⟨hpos, hrank⟩ := hfits src.length rfl hsize
        obtain ⟨t', content, rfl, hstart⟩ := eq_array_of_hasRange hrange hrank
        obtain rfl : t' = t := htype
        obtain ⟨r, content', hr, htyped⟩ := setRangeElements_typed hstart hv hvariant
          (fun _ => by omega) fun _ hself hcount => h.leftover dim t' content src
            ⟨hparse, rfl, rfl, hstart, hprev, hsize, hself, hcount⟩
        exact ⟨r, _, hr, rfl, htyped⟩
    · exact ⟨_, v, rfl, rfl, hv⟩
  · rw [if_pos htype]; exact ⟨_, v, rfl, rfl, hv⟩

theorem setValueIndexed_typed (hv : v.WellTyped)
    (hvariant : variant.WellTyped) (h : RangeTyped env v variant indexRange) :
    ∃ status w, setValueIndexed env (.whole v) variant indexRange = some (status, .whole w) ∧
      w.shape = v.shape ∧ w.WellTyped := by
  unfold setValueIndexed
  split
  · exact ⟨_, v, rfl, rfl, hv⟩
  · exact ⟨_, v, rfl, rfl, hv⟩
  · rename_i heq; cases heq
  · rename_i dims v' hparse heq; cases heq
    split
    · exact ⟨_, v, rfl, rfl, hv⟩
    · exact ⟨_, v, rfl, rfl, hv⟩
    rename_i hrange
    split
    · exact ⟨_, v, rfl, rfl, hv⟩
    rename_i copied hcopied; obtain ⟨dim, rfl⟩ := hasRange_eq_true hrange
    have hrange' : v.hasRangeArray dim = true := by simpa [hasRange] using hrange
    have hprev : env.copyPrevious = true := by
      by_contra hfalse
      cases v with
      | nullArray t => cases hrange'
      | matrix t dims content => cases hrange'
      | _ => simp [Variant.copy, hfalse] at hcopied
    obtain ⟨r, w, hr, hw⟩ := setRangeArray_typed hparse hrange' hprev hv hvariant h
    exact ⟨rangeStatus r, w, by rw [setRange, hr]; rfl, hw⟩

structure FullTyped (env : WriteEnv Obj) (v variant : Variant Obj) : Prop where
  -- the new value can be copied
  copies : isLocalizedTextAndModifiable v variant = false → (variant.copy env.copyNew).isSome = true
  -- a null array of localized texts is not written over another one
  not_null : isLocalizedTextAndModifiable v variant = true → ∀ t, variant ≠ .nullArray t

theorem setValueFull_typed (hv : v.WellTyped) (hvariant : variant.WellTyped)
    (h : FullTyped env v variant) :
    ∃ status w, setValueFull env (.whole v) variant = some (status, .whole w) ∧
      (w.shape = v.shape ∨ w.shape = variant.shape) ∧ w.WellTyped := by
  cases hm : isLocalizedTextAndModifiable v variant with
  | true =>
    obtain ⟨r, w, hr, hshape, hw⟩ : ∃ r w,
        modifyLocalizedText env v variant = some (r, .whole w) ∧ w.shape = v.shape ∧ w.WellTyped :=
      modifyLocalizedText_typed hm hv hvariant (h.not_null hm)
    exact ⟨fullStatus r, w, by simp [setValueFull, hm, hr], .inl hshape, hw⟩
  | false =>
    obtain ⟨w, hcopy⟩ := isSome_iff_exists.mp (h.copies hm)
    obtain ⟨hshape, hw⟩ := copy_typed hcopy hvariant
    refine ⟨.ok, w, ?_, .inr hshape, hw⟩
    simp [setValueFull, hm, overwriteValue, hcopy, fullStatus]

/-- The condition on a write for the type of the value to be kept: if the write is granted, then it
needs no conversion, and the conditions on full and on indexed writes hold. -/
def TypedWrite (space : AddressSpace) (values : Values Obj) (env : WriteEnv Obj)
    (wv : WriteValue Obj) : Prop :=
  ∀ idx node v, Granted space env wv idx node → (values idx).value = .whole v →
    (space.compat node wv.value.value).2 = false ∧
    (wv.indexRange.length ≤ 0 → FullTyped env v wv.value.value) ∧
    (0 < wv.indexRange.length → RangeTyped env v wv.value.value wv.indexRange)

theorem writeValue_shape (hv : v.WellTyped) (hvariant : wv.value.value.WellTyped)
    (hfull : wv.indexRange.length ≤ 0 → FullTyped env v wv.value.value)
    (hrange : 0 < wv.indexRange.length → RangeTyped env v wv.value.value wv.indexRange) :
    ∃ status w, writeValue env (.whole v) wv = some (status, .whole w) ∧
      (w.shape = v.shape ∨ w.shape = wv.value.value.shape) ∧ w.WellTyped := by
  unfold writeValue
  split
  · rename_i hlen; exact setValueFull_typed hv hvariant (hfull hlen)
  · rename_i hlen
    obtain ⟨status, w, hr, hshape, hw⟩ := setValueIndexed_typed hv hvariant (hrange (by omega))
    exact ⟨status, w, hr, .inl hshape, hw⟩

def Stored (space : AddressSpace) (P : Node → Shape → Prop) (values : Values Obj) : Prop :=
  ∀ idx node, space.nodes[idx]? = some node → node.nodeClass = .variable →
    ∃ v, (values idx).value = .whole v ∧ v.WellTyped ∧ P node v.shape

variable {P : Node → Shape → Prop}

theorem Stored.update {idx : Nat} {state : VariableState Obj}
    (hs : Stored space P values) (hnode : space.nodes[idx]? = some node)
    (hstate : ∃ v, state.value = .whole v ∧ v.WellTyped ∧ P node v.shape) :
    Stored space P (Function.update values idx state) := by
  intro idx' node' hnode' hclass
  by_cases hidx : idx' = idx
  · subst hidx; rw [hnode] at hnode'; cases hnode'; rw [update_self]; exact hstate
  · rw [update_of_ne hidx]; exact hs idx' node' hnode' hclass

theorem variableAfter_value {old : VariableState Obj}
    {r : WriteStatus × NodeValue Obj} : (space.variableAfter env node old wv r).value = r.2 := by
  unfold variableAfter
  split <;> rfl

theorem treatWriteValue_typed
    (hP : ∀ node, space.compat node wv.value.value = (true, false) → P node wv.value.value.shape)
    (hs : Stored space P values) (hvariant : wv.value.value.WellTyped)
    (h : TypedWrite space values env wv) :
    ∃ r, space.treatWriteValue values env wv = some r ∧ Stored space P r.values := by
  rcases treatWriteValue_cases space values env wv with
    ⟨⟨status, heq⟩, -⟩ | ⟨idx, node, hgranted, heq⟩
  · exact ⟨_, heq, hs⟩
  obtain ⟨v, hvalue, hv, hPv⟩ := hs idx node hgranted.node_eq hgranted.nodeClass_eq
  obtain ⟨hconv, hfull, hrange⟩ := h idx node v hgranted hvalue
  obtain ⟨status, w, hset, hw, hPw⟩ : ∃ status w, setValue env (values idx).value wv.value.value false
      wv.indexRange = some (status, .whole w) ∧ w.WellTyped ∧ P node w.shape := by
    cases halloc : env.allocPrevious with
    | false => exact ⟨.badOutOfMemory, v, by simp [setValue, newValue, halloc, hvalue], hv, hPv⟩
    | true =>
      obtain ⟨status, w, hr, hshape, hw⟩ := writeValue_shape hv hvariant hfull hrange
      refine ⟨status, w, ?_, hw, ?_⟩
      · simpa [setValue, newValue, halloc, writeValue, hvalue] using hr
      · rcases hshape with hsame | hnew
        · rwa [hsame]
        · rw [hnew]; exact hP node (Prod.ext hgranted.compatible hconv)
  refine ⟨_, by rw [heq, hconv, hset, map_some], hs.update hgranted.node_eq ?_⟩
  exact ⟨w, variableAfter_value, hw, hPw⟩

def stepWrite (space : AddressSpace) (values : Values Obj) (item : WriteEnv Obj × WriteValue Obj) :
    Option (Values Obj) :=
  (space.treatWriteValue values item.1 item.2).map WriteResult.values

def treatWrites (space : AddressSpace) (values : Values Obj)
    (items : List (WriteEnv Obj × WriteValue Obj)) : Option (Values Obj) :=
  items.foldlM space.stepWrite values

def TypedWrites (space : AddressSpace) (values : Values Obj)
    (items : List (WriteEnv Obj × WriteValue Obj)) : Prop :=
  Fallible.Each space.stepWrite (fun values item => TypedWrite space values item.1 item.2) values
    items

theorem treatWrites_stored {items : List (WriteEnv Obj × WriteValue Obj)}
    (hP : ∀ item ∈ items, ∀ node, space.compat node item.2.value.value = (true, false) →
      P node item.2.value.value.shape)
    (hitems : ∀ item ∈ items, item.2.value.value.WellTyped)
    (hs : Stored space P values) (h : TypedWrites space values items) :
    ∃ values', space.treatWrites values items = some values' ∧ Stored space P values' := by
  refine Fallible.Each.foldlM_some (fun values item hitem hs hc => ?_) hs h
  obtain ⟨r, hr, hr'⟩ := treatWriteValue_typed (hP item hitem) hs (hitems item hitem) hc
  exact ⟨r.values, by rw [stepWrite, hr, map_some], hr'⟩

def ShapeConforms (space : AddressSpace) (node : Node) (s : Shape) : Prop :=
  space.isVariableCompatType s.dataType s.valueRank node.dataType node.valueRank = (true, false)

instance (space : AddressSpace) (node : Node) (s : Shape) :
    Decidable (ShapeConforms space node s) :=
  inferInstanceAs (Decidable (_ = _))

def TypeSafe (space : AddressSpace) (values : Values Obj) : Prop :=
  Stored space (ShapeConforms space) values

def NoNull (space : AddressSpace) (values : Values Obj) : Prop :=
  Stored space (fun _ s => s.builtInTypeId ≠ .null) values

def clientEnv : WriteEnv Unit := { noMemoryEnv with copyNew := true }

def bytesSpace : AddressSpace where
  nodes := [⟨⟨1, .numeric 1⟩, .variable, [], byteType, 1, 3, false, .null⟩]
  types :=
    { maxTypeInfoNodeId := 28
      hasSubTypeBackward := fun n =>
        if n = 3 then some (NodeId.opcua 28)
        else if n = 28 then some (NodeId.opcua 26)
        else if n = 15 ∨ n = 26 then some (NodeId.opcua 24)
        else none
      hybridResolution := false }
  readOnlyNodes := false

def bytesValues : Values Unit := fun _ => ⟨.whole (.array .byte [.byte 1]), 0, ⟨0, 0⟩⟩

def byteStringWrite : WriteValue Unit :=
  ⟨⟨1, .numeric 1⟩, some valueAttribute,
    ⟨.single (.byteString ⟨some [2], by simp⟩), 0, 0, 0, 0, 0⟩, .null⟩

end AddressSpace
end S2OPC
