import S2OPC.Common.Buffer
import S2OPC.Common.BuiltinTypes

/-!
# S2OPC.AddressSpace.Range

Index ranges: `SOPC_Variant_HasRange`, `SOPC_Variant_SetRange` and `SOPC_Variant_GetRange` of
`sopc_builtintypes.c`.

A replacement is made in place, and what a failed copy of an element leaves is part of the input. The
answer `none` stands for undefined behaviour.
-/

namespace S2OPC

open List

structure Dimension where
  start : UInt32
  stop : UInt32
  start_le : start ≤ stop
  deriving DecidableEq

namespace NumericRange

def isDigit (c : UInt8) : Bool := 48 ≤ c && c ≤ 57

def digitsValue (digits : List UInt8) : Nat :=
  digits.foldl (fun n c => 10 * n + (c.toNat - 48)) 0

def parseIndex (text : List UInt8) : Option (UInt32 × List UInt8) :=
  let digits := text.takeWhile isDigit
  if digits.length = 0 ∨ digits.length ≥ 21 ∨ digitsValue digits ≥ 2 ^ 32 then none
  else some (UInt32.ofNat (digitsValue digits), text.dropWhile isDigit)

def parseDimension (text : List UInt8) : Option (Dimension × List UInt8) :=
  match parseIndex text with
  | none => none
  -- a colon
  | some (start, 58 :: rest) =>
    match parseIndex rest with
    | none => none
    | some (stop, rest) =>
      if h : stop ≤ start then none
      else some (⟨start, stop, UInt32.le_of_lt (UInt32.not_le.mp h)⟩, rest)
  | some (start, rest) => some (⟨start, start, UInt32.le_refl start⟩, rest)

def parseDimensions : Nat → List UInt8 → Option (List Dimension)
  | 0, _ => none
  | fuel + 1, text =>
    match parseDimension text with
    | none => none
    | some (dim, []) => some [dim]
    -- a comma
    | some (dim, 44 :: rest) => (parseDimensions fuel rest).map (dim :: ·)
    | some (_, _ :: _) => none

def parse (alloc : Bool) (text : List UInt8) : Except Status (List Dimension) :=
  if alloc then
    match parseDimensions (text.length + 1) text with
    | none => .error .nok
    | some dims => .ok dims
  else .error .outOfMemory

end NumericRange

/-- What copying an element does; `none` is left when the element is no value any more. -/
inductive ElementCopy (Obj : Type) where
  | ok
  | fails (status : Status) (leftover : Option (Value Obj))

/-- The value of a variable, or an array of which an element was lost by a failed copy. -/
inductive NodeValue (Obj : Type) where
  | whole (v : Variant Obj)
  | torn (t : BuiltinId) (length : Nat)

/-- What `SOPC_Variant_GetRange` leaves in a variant that was initialised: a value; or, when there
was nothing to copy from an array, a single value of its type with all bits zero, since the kind of
the variant is only set after the copies. -/
inductive RangeValue (Obj : Type) where
  | whole (v : Variant Obj)
  | zeroed (t : BuiltinId)

namespace Variant

variable {Obj : Type}

def rangeSize (dim : Dimension) : UInt32 := dim.stop - dim.start + 1

def hasRangeSize (length : Int) (dim : Dimension) : Bool :=
  (length % 2 ^ 32).toNat == (rangeSize dim).toNat

def hasRangeString (str : ByteString) (dim : Dimension) : Bool :=
  0 < str.length && dim.start.toNat < str.length

def hasRangeArray (variant : Variant Obj) (dim : Dimension) : Bool :=
  match variant with
  | .single (.string s) => hasRangeString s dim
  | .single (.byteString s) => hasRangeString s dim
  | .array _ content => dim.start.toNat < content.length
  | _ => false

def hasRange (variant : Variant Obj) : List Dimension → Except Status Bool
  | [] => .error .invalidParameters
  | [dim] => .ok (hasRangeArray variant dim)
  | _ => .error .notSupported

def replacedCount (length : Nat) (dim : Dimension) : Nat :=
  min dim.stop.toNat (length - 1) - dim.start.toNat + 1

theorem replacedCount_le {length : Nat} {dim : Dimension} (h : dim.start.toNat < length) :
    dim.start.toNat + replacedCount length dim ≤ length := by
  unfold replacedCount; omega

def setRangeString (variant src : ByteString) (dim : Dimension) :
    Option (Except Status Unit × ByteString) :=
  if hasRangeSize src.length dim = false then some (.error .nok, variant)
  else if h : variant.toList.length ≤ dim.start.toNat then some (.ok (), variant)
  else
    let count := replacedCount variant.toList.length dim
    if src.toList.length < count then none
    else
      some (.ok (), variant.splice dim.start.toNat (src.toList.take count) (by
        have := replacedCount_le (Nat.not_le.mp h)
        rw [length_take]
        omega))

def copyElements (copies : Nat → ElementCopy Obj) (t : BuiltinId) (start : Nat) :
    Nat → List (Value Obj) → List (Value Obj) → Except Status Unit × NodeValue Obj
  | _, [], content => (.ok (), .whole (.array t content))
  | i, v :: src, content =>
    match copies i with
    | .ok => copyElements copies t start (i + 1) src (content.set (start + i) v)
    | .fails status (some leftover) =>
      (.error status, .whole (.array t (content.set (start + i) leftover)))
    | .fails status none => (.error status, .torn t content.length)

def setRangeElements (selfCopy : Except Status Unit) (copies : Nat → ElementCopy Obj)
    (variant : Variant Obj) (length : Int) (src : List (Value Obj)) (dim : Dimension) :
    Option (Except Status Unit × NodeValue Obj) :=
  if hasRangeSize length dim = false then some (.error .nok, .whole variant)
  else
    match variant with
    | .array t content =>
      if content.length ≤ dim.start.toNat then some (.ok (), .whole variant)
      else
        match selfCopy with
        | .error status => some (.error status, .whole variant)
        | .ok () =>
          let count := replacedCount content.length dim
          if src.length < count then none
          else some (copyElements copies t dim.start.toNat 0 (src.take count) content)
    | .nullArray _ => some (.ok (), .whole variant)
    | _ => none

/-- A string in place of an array, or an array in place of a string, is written with the wrong
member of the union. -/
def setRangeArray (selfCopy : Except Status Unit) (copies : Nat → ElementCopy Obj)
    (variant src : Variant Obj) (dim : Dimension) : Option (Except Status Unit × NodeValue Obj) :=
  if variant.builtInTypeId ≠ src.builtInTypeId then some (.error .nok, .whole variant)
  else
    match src, variant with
    | .single (.string s), .single (.string d) =>
      (setRangeString d s dim).map fun r => (r.1, .whole (.single (.string r.2)))
    | .single (.byteString s), .single (.byteString d) =>
      (setRangeString d s dim).map fun r => (r.1, .whole (.single (.byteString r.2)))
    | .single (.string s), _ =>
      if hasRangeSize s.length dim = false then some (.error .nok, .whole variant) else none
    | .single (.byteString s), _ =>
      if hasRangeSize s.length dim = false then some (.error .nok, .whole variant) else none
    | .nullArray _, _ => setRangeElements selfCopy copies variant (-1) [] dim
    | .array _ content, _ =>
      setRangeElements selfCopy copies variant content.length content dim
    | _, _ => some (.error .nok, .whole variant)

def setRange (selfCopy : Except Status Unit) (copies : Nat → ElementCopy Obj)
    (variant src : Variant Obj) : List Dimension → Option (Except Status Unit × NodeValue Obj)
  | [] => some (.error .invalidParameters, .whole variant)
  | [dim] => setRangeArray selfCopy copies variant src dim
  | _ => some (.error .notSupported, .whole variant)

/-- The assertion is on a null string. -/
def getRangeString (alloc : Bool) (src : ByteString) (dim : Dimension) :
    Option (Except Status ByteString) :=
  if src.length < 0 then none
  else if src.toList.length ≤ dim.start.toNat then some (.ok (src.slice 0 0))
  else if alloc then
    some (.ok (src.slice dim.start.toNat (replacedCount src.toList.length dim)))
  else some (.error .outOfMemory)

/-- The copy of the element of rank `i` fails with the status `copies i`, if any. The assertion is
on a null array; an array of nulls is not allocated. -/
def getRangeArray (alloc : Bool) (copies : Nat → Option Status) (src : Variant Obj)
    (dim : Dimension) : Option (Except Status (RangeValue Obj)) :=
  match src with
  | .single (.string s) =>
    (getRangeString alloc s dim).map fun r => r.map fun d => .whole (.single (.string d))
  | .single (.byteString s) =>
    (getRangeString alloc s dim).map fun r => r.map fun d => .whole (.single (.byteString d))
  | .nullArray _ => none
  | .array t content =>
    if content.length ≤ dim.start.toNat then some (.ok (.zeroed t))
    else if t = .null ∨ alloc = false then some (.error .outOfMemory)
    else
      let count := replacedCount content.length dim
      match (List.range count).findSome? copies with
      | some status => some (.error status)
      | none => some (.ok (.whole (.array t ((content.drop dim.start.toNat).take count))))
  | _ => some (.error .invalidParameters)

def getRange (alloc : Bool) (copies : Nat → Option Status) (src : Variant Obj) :
    List Dimension → Option (Except Status (RangeValue Obj))
  | [] => some (.error .invalidParameters)
  | [dim] => getRangeArray alloc copies src dim
  | _ => some (.error .notSupported)

open Codec

theorem replacedCount_le_length {n : Nat} {length : Nat} {dim : Dimension}
    (h : hasRangeSize (n : Int) dim = true) (hn : 0 < n) (hstart : dim.start.toNat < length) :
    replacedCount length dim ≤ n := by
  have hstop := dim.stop.toNat_lt
  rw [hasRangeSize, beq_iff_eq] at h
  have hn' : ((n : Int) % 2 ^ 32).toNat = n % 2 ^ 32 := by omega
  rw [hn', rangeSize, UInt32.toNat_add, UInt32.toNat_sub_of_le _ _ dim.start_le] at h
  have h1 : (1 : UInt32).toNat = 1 := rfl
  unfold replacedCount
  omega

section

variable {copies : Nat → ElementCopy Obj} {t : BuiltinId} {start i : Nat}
  {src content : List (Value Obj)}

theorem copyElements_append {rest : List (Value Obj)}
    (hroom : start + i + src.length ≤ content.length)
    (hok : ∀ j < src.length, copies (i + j) = .ok) :
    copyElements copies t start i (src ++ rest) content =
      copyElements copies t start (i + src.length) rest (splice content (start + i) src) := by
  induction src generalizing i content with
  | nil => rw [splice_nil]; rfl
  | cons v src ih =>
    simp only [length_cons] at hroom hok ⊢
    have h₀ := hok 0 (by omega)
    rw [Nat.add_zero] at h₀
    have hset : content.set (start + i) v = splice content (start + i) [v] :=
      (splice_singleton (by omega)).symm
    have hcons : splice content (start + i) (v :: src) =
        splice (splice content (start + i) [v]) (start + (i + 1)) src := by
      exact (splice_splice (a := [v]) (by omega)).symm
    rw [cons_append, copyElements, h₀]
    rw [ih (by rw [length_set]; omega) fun j hj => by
      rw [Nat.add_assoc, Nat.add_comm 1 j]
      exact hok (j + 1) (by omega)]
    rw [hset, hcons, Nat.add_assoc i, Nat.add_comm 1]

theorem copyElements_ok (hroom : start + i + src.length ≤ content.length)
    (hok : ∀ j < src.length, copies (i + j) = .ok) :
    copyElements copies t start i src content =
      (.ok (), .whole (.array t (splice content (start + i) src))) := by
  have h : copyElements copies t start i (src ++ []) content = _ := copyElements_append hroom hok
  rwa [append_nil] at h

def failedRange (t : BuiltinId) (content : List (Value Obj)) (p : Nat)
    (written : List (Value Obj)) : Option (Value Obj) → NodeValue Obj
  | some v => .whole (.array t (splice content p (written ++ [v])))
  | none => .torn t content.length

theorem copyElements_fails {status : Status} {leftover : Option (Value Obj)} {n : Nat}
    (hn : n < src.length) (hroom : start + i + src.length ≤ content.length)
    (hok : ∀ j < n, copies (i + j) = .ok) (hfails : copies (i + n) = .fails status leftover) :
    copyElements copies t start i src content =
      (.error status, failedRange t content (start + i) (src.take n) leftover) := by
  have hlen : (src.take n).length = n := length_take_of_le hn.le
  have hcopied : copyElements copies t start i (src.take n ++ src.drop n) content = _ :=
    copyElements_append (by omega) (by rwa [hlen])
  rw [take_append_drop, hlen, drop_eq_getElem_cons hn] at hcopied
  have hsplice : (splice content (start + i) (src.take n)).length = content.length := by
    rw [length_splice (by omega)]; omega
  rw [hcopied]
  cases leftover with
  | none => simp [copyElements, hfails, failedRange, hsplice]
  | some w =>
    simp only [copyElements, hfails, failedRange]
    rw [← splice_singleton (by omega), ← Nat.add_assoc, ← splice_splice (by omega), hlen]

end

theorem failedRange_eq_iff {t : BuiltinId} {content src : List (Value Obj)} {p i : Nat}
    {leftover : Option (Value Obj)} (hi : i ≤ src.length) :
    failedRange t content p (src.take i) leftover = .whole (.array t content) ↔
      ∃ v, leftover = some v ∧ src.take i ++ [v] = (content.drop p).take (i + 1) := by
  have hlen : (src.take i).length = i := by simp [hi]
  cases leftover with
  | none => simp [failedRange]
  | some v => simp [failedRange, splice_eq_self_iff, hlen]

theorem copies_cases (copies : Nat → ElementCopy Obj) (n : Nat) :
    (∀ j < n, copies j = .ok) ∨
      ∃ i < n, (∀ j < i, copies j = .ok) ∧
        ∃ status leftover, copies i = .fails status leftover := by
  induction n with
  | zero => exact .inl fun j hj => absurd hj (Nat.not_lt_zero j)
  | succ n ih =>
    rcases ih with hok | ⟨i, hi, hok, hfails⟩
    · cases hn : copies n with
      | ok =>
        refine .inl fun j hj => ?_
        rcases Nat.lt_succ_iff_lt_or_eq.mp hj with hlt | rfl
        · exact hok j hlt
        · exact hn
      | fails status leftover => exact .inr ⟨n, Nat.lt_succ_self n, hok, status, leftover, hn⟩
    · exact .inr ⟨i, Nat.lt_succ_of_lt hi, hok, hfails⟩

end Variant
end S2OPC
