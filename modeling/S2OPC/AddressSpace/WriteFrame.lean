import S2OPC.AddressSpace.Write

/-!
# S2OPC.AddressSpace.WriteFrame

What a write that does not succeed leaves of the values. Two failures come after the value is touched:
the copy of the new value, once the previous one was moved away, and the copy of an element of a
range. `Keeps` excludes them.
-/

namespace S2OPC
namespace AddressSpace

open Codec Variant Function

variable {Obj : Type} {space : AddressSpace} {values : Values Obj} {env : WriteEnv Obj}
  {wv : WriteValue Obj} {nodeValue nodeValue' : NodeValue Obj} {variant : Variant Obj}

def modifiable (nodeValue : NodeValue Obj) (variant : Variant Obj) : Bool :=
  match nodeValue with
  | .whole v => isLocalizedTextAndModifiable v variant
  | .torn t length => isLocalizedTextAndModifiable (.array t (List.replicate length .null)) variant

def FullKeeps (env : WriteEnv Obj) (nodeValue : NodeValue Obj) (variant : Variant Obj) : Prop :=
  modifiable nodeValue variant = true ∨ (variant.copy env.copyNew).isSome = true ∨
    nodeValue = .whole (.single .null)

variable {r selfCopy : Except Status Unit} {copies : Nat → ElementCopy Obj} {src : List (Value Obj)}
  {indexRange : ByteString}

theorem fullStatus_ne_ok : fullStatus r ≠ .ok ↔ ∃ e, r = .error e := by
  cases r with
  | ok u => simp [fullStatus]
  | error e => cases e <;> simp [fullStatus]

theorem rangeStatus_ne_ok : rangeStatus r ≠ .ok ↔ ∃ e, r = .error e := by
  cases r with
  | ok u => simp [rangeStatus]
  | error e => cases e <;> simp [rangeStatus]

variable {v : Variant Obj} {dim : Dimension}

variable {e : Status} {node : Node}

theorem modifyLocalizedText_error
    (h : modifyLocalizedText env v variant = some (.error e, nodeValue')) :
    nodeValue' = .whole v := by
  unfold modifyLocalizedText at h
  split at h
  · cases h; rfl
  · cases h
  · split at h
    · cases h
    · cases h; rfl
    · cases h

theorem setValueFull_of_not_modifiable (h : modifiable nodeValue variant = false) :
    setValueFull env nodeValue variant =
      some (fullStatus (overwriteValue env variant).1, (overwriteValue env variant).2) := by
  cases nodeValue with
  | whole v => simp only [modifiable] at h; simp [setValueFull, h]
  | torn t length => simp only [modifiable] at h; simp [setValueFull, h]

theorem setValueFull_error_of_modifiable (hm : modifiable nodeValue variant = true)
    {status : WriteStatus} (h : setValueFull env nodeValue variant = some (status, nodeValue'))
    (hs : status ≠ .ok) : nodeValue' = nodeValue := by
  cases nodeValue with
  | torn t length => simp only [modifiable] at hm; simp [setValueFull, hm] at h
  | whole v =>
    simp only [modifiable] at hm
    simp only [setValueFull, hm, if_true, Option.map_eq_some_iff] at h
    obtain ⟨⟨r, nv⟩, hr, heq⟩ := h
    cases heq; obtain ⟨e, rfl⟩ := fullStatus_ne_ok.mp hs
    exact modifyLocalizedText_error hr

theorem setValueFull_keeps_iff :
    (∀ status nodeValue', setValueFull env nodeValue variant = some (status, nodeValue') →
      status ≠ .ok → nodeValue' = nodeValue) ↔ FullKeeps env nodeValue variant := by
  unfold FullKeeps
  cases hm : modifiable nodeValue variant with
  | true =>
    simp only [true_or, iff_true]
    intro status nodeValue' h hs; exact setValueFull_error_of_modifiable hm h hs
  | false =>
    rw [setValueFull_of_not_modifiable hm]
    cases hcopy : variant.copy env.copyNew with
    | some v => simp [overwriteValue, hcopy, fullStatus]
    | none => simp [overwriteValue, hcopy, fullStatus, eq_comm]

/-- The elements of `content` in the range are being replaced by those of `src`: the types and the
sizes fit, and every copy before the elements succeeds. -/
structure Replaces (env : WriteEnv Obj) (nodeValue : NodeValue Obj) (variant : Variant Obj)
    (indexRange : ByteString) (dim : Dimension) (t : BuiltinId) (content src : List (Value Obj)) :
    Prop where
  range_eq : NumericRange.parse env.allocRange indexRange.cString = .ok [dim]
  nodeValue_eq : nodeValue = .whole (.array t content)
  variant_eq : variant = .array t src
  start_lt : dim.start.toNat < content.length
  copyPrevious : env.copyPrevious = true
  size_eq : hasRangeSize src.length dim = true
  selfCopy : env.selfCopy = .ok ()
  count_le : replacedCount content.length dim ≤ src.length

def RangeKeeps (env : WriteEnv Obj) (nodeValue : NodeValue Obj) (variant : Variant Obj)
    (indexRange : ByteString) : Prop :=
  ∀ dim t content src, Replaces env nodeValue variant indexRange dim t content src →
    ∀ i < replacedCount content.length dim, (∀ j < i, env.elementCopy j = .ok) →
      ∀ status leftover, env.elementCopy i = .fails status leftover →
        ∃ v, leftover = some v ∧
          src.take i ++ [v] = (content.drop dim.start.toNat).take (i + 1)

theorem setRangeElements_error
    {length : Int}
    (h : setRangeElements selfCopy copies v length src dim = some (.error e, nodeValue')) :
    nodeValue' = .whole v ∨ ∃ t content i leftover, v = .array t content ∧
      dim.start.toNat < content.length ∧ hasRangeSize length dim = true ∧ selfCopy = .ok () ∧
      replacedCount content.length dim ≤ src.length ∧ i < replacedCount content.length dim ∧
      (∀ j < i, copies j = .ok) ∧ copies i = .fails e leftover ∧
      nodeValue' = failedRange t content dim.start.toNat (src.take i) leftover := by
  unfold setRangeElements at h
  split at h
  · cases h; exact .inl rfl
  rename_i hsize
  split at h
  · rename_i t content
    split at h
    · cases h
    rename_i hstart
    split at h
    · cases h; exact .inl rfl
    simp only at h
    split at h
    · cases h
    rename_i hcount; have hcount := Nat.not_lt.mp hcount
    have hstart := Nat.not_le.mp hstart
    have hroom := replacedCount_le hstart
    have hlen : (src.take (replacedCount content.length dim)).length
        = replacedCount content.length dim := by simp [hcount]
    rcases copies_cases copies (replacedCount content.length dim) with
      hok | ⟨i, hi, hok, status, leftover, hfails⟩
    · rw [copyElements_ok (by omega) (by simpa [hlen] using hok)] at h; cases h
    rw [copyElements_fails (n := i) (by omega) (by omega) (by simpa using hok)
      (by simpa using hfails)] at h
    cases h
    refine .inr ⟨t, content, i, leftover, rfl, hstart, by simpa using hsize, rfl, hcount,
      hi, hok, hfails, ?_⟩
    rw [List.take_take, Nat.min_eq_left (Nat.le_of_lt hi), Nat.add_zero]
  · cases h
  · cases h

theorem setRangeString_error {d s d' : ByteString}
    (h : setRangeString d s dim = some (.error e, d')) : d' = d := by
  unfold setRangeString at h
  split at h
  · cases h; rfl
  split at h
  · cases h
  · simp only at h
    split at h
    · cases h
    · cases h

theorem setRangeArray_error
    (h : setRangeArray selfCopy copies v variant dim = some (.error e, nodeValue')) :
    nodeValue' = .whole v ∨ ∃ t content src i leftover, v = .array t content ∧
      variant = .array t src ∧
      dim.start.toNat < content.length ∧ hasRangeSize src.length dim = true ∧ selfCopy = .ok () ∧
      replacedCount content.length dim ≤ src.length ∧ i < replacedCount content.length dim ∧
      (∀ j < i, copies j = .ok) ∧ copies i = .fails e leftover ∧
      nodeValue' = failedRange t content dim.start.toNat (src.take i) leftover := by
  unfold setRangeArray at h
  split at h
  · cases h; exact .inl rfl
  rename_i htype; rw [not_not] at htype
  split at h
  · simp only [Option.map_eq_some_iff, Prod.exists, Prod.mk.injEq] at h
    obtain ⟨r, d', hr, rfl, rfl⟩ := h
    rw [setRangeString_error hr]
    exact .inl rfl
  · simp only [Option.map_eq_some_iff, Prod.exists, Prod.mk.injEq] at h
    obtain ⟨r, d', hr, rfl, rfl⟩ := h
    rw [setRangeString_error hr]
    exact .inl rfl
  · split at h
    · cases h; exact .inl rfl
    · cases h
  · split at h
    · cases h; exact .inl rfl
    · cases h
  · rcases setRangeElements_error h with hkeep | ⟨t, content, i, leftover, -, -, -, -, hc, hi, -⟩
    · exact .inl hkeep
    · simp only [List.length_nil] at hc; omega
  · rename_i src
    rcases setRangeElements_error h with hkeep | ⟨t, content, i, leftover, rfl, hrest⟩
    · exact .inl hkeep
    · cases htype; exact .inr ⟨_, content, src, i, leftover, rfl, rfl, hrest⟩
  · cases h; exact .inl rfl

theorem setRangeArray_fails {t : BuiltinId} {content : List (Value Obj)}
    {i : Nat} {status : Status} {leftover : Option (Value Obj)}
    (h : Replaces env nodeValue variant indexRange dim t content src)
    (hi : i < replacedCount content.length dim) (hok : ∀ j < i, env.elementCopy j = .ok)
    (hfails : env.elementCopy i = .fails status leftover) :
    setRangeArray env.selfCopy env.elementCopy (.array t content) (.array t src) dim =
      some (.error status, failedRange t content dim.start.toNat (src.take i) leftover) := by
  have hcount := h.count_le
  have hroom := replacedCount_le h.start_lt
  have hlen : (src.take (replacedCount content.length dim)).length
      = replacedCount content.length dim := by simp [hcount]
  have hcopy : copyElements env.elementCopy t dim.start.toNat 0
      (src.take (replacedCount content.length dim)) content = _ :=
    copyElements_fails (n := i) (by omega) (by omega) (by simpa using hok) (by simpa using hfails)
  rw [List.take_take, Nat.min_eq_left (Nat.le_of_lt hi), Nat.add_zero] at hcopy
  simp only [setRangeArray, Variant.builtInTypeId, ne_eq, not_true_eq_false, if_false,
    setRangeElements, h.size_eq, Bool.true_eq_false, h.selfCopy, Nat.not_le.mpr h.start_lt,
    Nat.not_lt.mpr hcount, hcopy]

theorem hasRange_eq_true {dims : List Dimension} (h : v.hasRange dims = .ok true) :
    ∃ dim, dims = [dim] := by
  match dims, h with
  | [dim], _ => exact ⟨dim, rfl⟩

theorem setValueIndexed_keeps_iff :
    (∀ status nodeValue', setValueIndexed env nodeValue variant indexRange =
        some (status, nodeValue') → status ≠ .ok → nodeValue' = nodeValue) ↔
      RangeKeeps env nodeValue variant indexRange := by
  constructor
  · intro hkeep dim t content src h i hi hok status leftover hfails
    have hle : i ≤ src.length := Nat.le_of_lt (Nat.lt_of_lt_of_le hi h.count_le)
    rw [← failedRange_eq_iff (t := t) hle]
    have hset := setRangeArray_fails h hi hok hfails
    have hrange : (Variant.array t content).hasRange [dim] = .ok true := by
      simp [hasRange, hasRangeArray, h.start_lt]
    have hwrite : setValueIndexed env nodeValue variant indexRange =
        some (rangeStatus (.error status),
          failedRange t content dim.start.toNat (src.take i) leftover) := by
      rw [h.nodeValue_eq, h.variant_eq]
      simp [setValueIndexed, h.range_eq, hrange, Variant.copy, h.copyPrevious, setRange, hset]
    have := hkeep _ _ hwrite (rangeStatus_ne_ok.mpr ⟨status, rfl⟩)
    rw [this, h.nodeValue_eq]
  · intro hkeep status nodeValue' h hs; unfold setValueIndexed at h
    split at h
    · cases h; rfl
    · cases h; rfl
    · cases h
    · rename_i dims v hparse
      split at h
      · cases h; rfl
      · cases h; rfl
      rename_i hrange
      split at h
      · cases h; rfl
      rename_i copied hcopied; obtain ⟨⟨r, nv⟩, hr, heq⟩ := Option.map_eq_some_iff.mp h
      cases heq; obtain ⟨e, rfl⟩ := rangeStatus_ne_ok.mp hs
      obtain ⟨dim, rfl⟩ := hasRange_eq_true hrange
      rcases setRangeArray_error hr with hwhole | ⟨t, content, src, i, leftover, rfl, rfl, hstart,
        hsize, hself, hcount, hi, hok, hfails, rfl⟩
      · exact hwhole
      have hprev : env.copyPrevious = true := by
        by_contra hfalse
        simp [Variant.copy, hfalse] at hcopied
      have hle : i ≤ src.length := Nat.le_of_lt (Nat.lt_of_lt_of_le hi hcount)
      rw [failedRange_eq_iff hle]
      exact hkeep dim t content src
        ⟨hparse, rfl, rfl, hstart, hprev, hsize, hself, hcount⟩ i hi hok e leftover hfails

structure Granted (space : AddressSpace) (env : WriteEnv Obj) (wv : WriteValue Obj) (idx : Nat)
    (node : Node) : Prop where
  attributeId_eq : wv.attributeId = some valueAttribute
  getNode_eq : space.getNode wv.nodeId = some idx
  node_eq : space.nodes[idx]? = some node
  nodeClass_eq : node.nodeClass = .variable
  compatible : (space.compat node wv.value.value).1 = true
  writable : env.localTreatment = true ∨ node.accessLevel &&& currentWriteMask ≠ 0
  authorized : env.localTreatment = true ∨ env.authorized = true

structure Reaches (space : AddressSpace) (env : WriteEnv Obj) (wv : WriteValue Obj) (idx : Nat)
    (node : Node) : Prop extends Granted space env wv idx node where
  newValue_eq : ∃ v, newValue env wv.value.value (space.compat node wv.value.value).2 = some (some v)
  allocPrevious : env.allocPrevious = true

def writeValue (env : WriteEnv Obj) (nodeValue : NodeValue Obj) (wv : WriteValue Obj) :
    Option (WriteStatus × NodeValue Obj) :=
  if wv.indexRange.length ≤ 0 then setValueFull env nodeValue wv.value.value
  else setValueIndexed env nodeValue wv.value.value wv.indexRange

def grantedResult (space : AddressSpace) (values : Values Obj) (env : WriteEnv Obj)
    (wv : WriteValue Obj) (idx : Nat) (node : Node) (r : WriteStatus × NodeValue Obj) :
    WriteResult Obj where
  status := r.1
  values := Function.update values idx (space.variableAfter env node (values idx) wv r)
  event :=
    if r.1 = .ok ∧ node.accessLevel &&& currentReadMask ≠ 0 then some ⟨wv.nodeId, values idx⟩
    else none

theorem treatWriteValue_cases (space : AddressSpace) (values : Values Obj) (env : WriteEnv Obj)
    (wv : WriteValue Obj) :
    ((∃ status, space.treatWriteValue values env wv = some ⟨status, values, none⟩) ∧
      ∀ idx node, ¬ Granted space env wv idx node) ∨
    ∃ idx node, Granted space env wv idx node ∧ space.treatWriteValue values env wv =
      (setValue env (values idx).value wv.value.value (space.compat node wv.value.value).2
        wv.indexRange).map (space.grantedResult values env wv idx node) := by
  unfold treatWriteValue
  split
  · rename_i haid; exact .inl ⟨⟨_, rfl⟩, fun _ _ h => by cases haid.symm.trans h.attributeId_eq⟩
  rename_i aid haid
  split
  · rename_i hidx; exact .inl ⟨⟨_, rfl⟩, fun _ _ h => by cases hidx.symm.trans h.getNode_eq⟩
  rename_i idx hidx
  obtain ⟨hlt, -⟩ := List.findIdx?_eq_some_iff_getElem.mp hidx
  have hnode := List.getElem?_eq_getElem hlt
  generalize space.nodes[idx] = node at hnode
  have refused (hno : ¬ Granted space env wv idx node) : ∀ i n, ¬ Granted space env wv i n := by
    intro i n h
    cases hidx.symm.trans h.getNode_eq
    cases hnode.symm.trans h.node_eq
    exact hno h
  simp only [hnode]
  split
  · rename_i hvalue; refine .inl ⟨⟨_, rfl⟩, refused fun h => ?_⟩
    cases haid.symm.trans h.attributeId_eq
    exact hvalue.elim (absurd rfl) (absurd h.nodeClass_eq)
  rename_i hvalue; rw [not_or, not_not, not_not] at hvalue
  obtain ⟨rfl, hclass⟩ := hvalue
  unfold writeVariable
  split
  · rename_i hcompat; refine .inl ⟨⟨.badTypeMismatch, by simp⟩, refused fun h => ?_⟩
    simp [h.compatible] at hcompat
  rename_i hcompat
  split
  · rename_i hwritable; refine .inl ⟨⟨.badNotWritable, by simp⟩, refused fun h => ?_⟩
    simpa [hwritable] using h.writable
  rename_i hwritable
  split
  · rename_i hauth; refine .inl ⟨⟨.badUserAccessDenied, by simp⟩, refused fun h => ?_⟩
    simpa [hauth] using h.authorized
  rename_i hauth
  refine .inr ⟨idx, node, ⟨haid, hidx, hnode, hclass, by simpa using hcompat, ?_, ?_⟩, ?_⟩
  · simpa only [not_and_or, Bool.not_eq_false] using hwritable
  · simpa only [not_and_or, Bool.not_eq_false] using hauth
  · rw [Option.map_map]; rfl

theorem treatWriteValue_of_reaches {idx : Nat} (h : Reaches space env wv idx node) :
    space.treatWriteValue values env wv =
      (writeValue env (values idx).value wv).map (space.grantedResult values env wv idx node) := by
  rcases treatWriteValue_cases space values env wv with ⟨-, hno⟩ | ⟨i, n, hgranted, heq⟩
  · exact absurd h.toGranted (hno idx node)
  · cases h.getNode_eq.symm.trans hgranted.getNode_eq
    cases h.node_eq.symm.trans hgranted.node_eq
    obtain ⟨v, hv⟩ := h.newValue_eq
    simp only [heq, setValue, hv, h.allocPrevious, Bool.true_eq_false, if_false, writeValue]

theorem setValue_of_not_reaches {r : WriteStatus × NodeValue Obj}
    (hr : setValue env nodeValue wv.value.value (space.compat node wv.value.value).2 wv.indexRange
      = some r) (h : ¬ ((∃ v, newValue env wv.value.value (space.compat node wv.value.value).2
      = some (some v)) ∧ env.allocPrevious = true)) : r = (.badOutOfMemory, nodeValue) := by
  unfold setValue at hr
  split at hr
  · cases hr
  · cases hr; rfl
  · rename_i v hv
    split at hr
    · cases hr; rfl
    · rename_i halloc; rw [Bool.not_eq_false] at halloc; exact absurd ⟨⟨v, hv⟩, halloc⟩ h

theorem treatWriteValue_of_not_reaches (h : ∀ idx node, ¬ Reaches space env wv idx node)
    {r : WriteResult Obj} (hr : space.treatWriteValue values env wv = some r) :
    r.values = values ∧ r.event = none := by
  rcases treatWriteValue_cases space values env wv with
    ⟨⟨status, heq⟩, -⟩ | ⟨idx, node, hgranted, heq⟩
  · cases heq.symm.trans hr; exact ⟨rfl, rfl⟩
  · rw [heq] at hr; obtain ⟨r', hr', rfl⟩ := Option.map_eq_some_iff.mp hr
    cases setValue_of_not_reaches hr' fun ⟨hv, halloc⟩ => h idx node ⟨hgranted, hv, halloc⟩
    exact ⟨by simp [grantedResult, variableAfter], by simp [grantedResult]⟩

def FailsWithoutEffect (space : AddressSpace) (values : Values Obj) (env : WriteEnv Obj)
    (wv : WriteValue Obj) : Prop :=
  ∀ r, space.treatWriteValue values env wv = some r → r.status ≠ .ok →
    r.values = values ∧ r.event = none

/-- If the write gets as far as the value: a full write can copy the new value, unless it modifies
a localized text or the node has the null value; an indexed one can copy the elements, or changed
none of them before it could not. -/
def Keeps (space : AddressSpace) (values : Values Obj) (env : WriteEnv Obj) (wv : WriteValue Obj) :
    Prop :=
  ∀ idx node, Reaches space env wv idx node →
    (wv.indexRange.length ≤ 0 → FullKeeps env (values idx).value wv.value.value) ∧
    (0 < wv.indexRange.length → RangeKeeps env (values idx).value wv.value.value wv.indexRange)

theorem writeValue_keeps_iff :
    (∀ status nodeValue', writeValue env nodeValue wv = some (status, nodeValue') →
      status ≠ .ok → nodeValue' = nodeValue) ↔
      (wv.indexRange.length ≤ 0 → FullKeeps env nodeValue wv.value.value) ∧
      (0 < wv.indexRange.length → RangeKeeps env nodeValue wv.value.value wv.indexRange) := by
  by_cases hfull : wv.indexRange.length ≤ 0
  · have hpos : ¬ 0 < wv.indexRange.length := by omega
    simp [writeValue, hfull, hpos, setValueFull_keeps_iff]
  · have hpos : 0 < wv.indexRange.length := by omega
    simp [writeValue, hfull, hpos, setValueIndexed_keeps_iff]

def counterSpace : AddressSpace where
  nodes := [⟨⟨1, .numeric 1⟩, .variable, [], NodeId.opcua 6, -1, 3, false, .null⟩]
  types := ⟨0, fun _ => none, false⟩
  readOnlyNodes := false

def counterValues : Values Unit := fun _ => ⟨.whole (.single (.int32 1)), 0, ⟨0, 0⟩⟩

def noMemoryEnv : WriteEnv Unit where
  localTreatment := false
  locales := none
  authorized := true
  now := ⟨0, 0⟩
  allocPrevious := true
  allocConverted := true
  allocRange := true
  copyNew := false
  copyPrevious := true
  textAlloc := fun _ => true
  selfCopy := .ok ()
  elementCopy := fun _ => .ok

def counterWrite : WriteValue Unit :=
  ⟨⟨1, .numeric 1⟩, some valueAttribute, ⟨.single (.int32 2), 0, 0, 0, 0, 0⟩, .null⟩

end AddressSpace
end S2OPC
