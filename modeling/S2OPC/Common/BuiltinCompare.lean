import S2OPC.Common.Encoder
import S2OPC.Common.NodeIdCompare
import S2OPC.Lib.Comparison

/-!
# S2OPC.Common.BuiltinCompare

The comparison functions of `sopc_builtintypes.c` for the types that hold no variant. What a comparison
looks at is a `Sight`: `Sight.code` is that of the source, `Sight.full` that of values that are
equal.
-/

namespace S2OPC

open Comparison ByteString DiagnosticInfo

structure FloatFormat where
  exponent : Nat
  fraction : Nat

namespace FloatFormat

open ByteString

def single : FloatFormat := ⟨8, 23⟩
def double : FloatFormat := ⟨11, 52⟩

variable (f : FloatFormat)

def magnitude (bits : Nat) : Nat := bits % 2 ^ (f.exponent + f.fraction)

def isNaN (bits : Nat) : Bool := (2 ^ f.exponent - 1) * 2 ^ f.fraction < f.magnitude bits

def number (bits : Nat) : Int :=
  let m := f.magnitude bits
  let e := m / 2 ^ f.fraction
  let n : Nat := if e = 0 then m else (2 ^ f.fraction + m % 2 ^ f.fraction) * 2 ^ (e - 1)
  if bits / 2 ^ (f.exponent + f.fraction) = 0 then n else -n

def less (a b : Nat) : Bool := !f.isNaN a && !f.isNaN b && decide (f.number a < f.number b)

def compare (a b : Nat) : Ordering :=
  if f.less a b then .lt
  else if f.less b a then .gt
  else .eq

def alike (a b : Nat) : Bool := f.isNaN a || f.isNaN b || f.number a == f.number b

def same (a b : Nat) : Bool :=
  if f.isNaN a || f.isNaN b then f.isNaN a && f.isNaN b else f.number a == f.number b

variable {f} {a b : Nat}

theorem compare_eq_iff : f.compare a b = .eq ↔ f.alike a b = true := by
  unfold compare alike less
  cases f.isNaN a with
  | true => simp
  | false =>
    cases f.isNaN b with
    | true => simp
    | false =>
      simp only [Bool.not_false, Bool.true_and, decide_eq_true_eq, Bool.false_or, beq_iff_eq]
      split_ifs <;> simp <;> omega

theorem alike_of_same (h : f.same a b = true) : f.alike a b = true := by
  unfold same at h
  unfold alike
  split_ifs at h with hnan
  · rw [hnan, Bool.true_or]
  · rw [h, Bool.or_true]

end FloatFormat

namespace ByteString

/-- The same length, and the same characters up to the first null one. -/
def sameCString (s t : ByteString) : Bool :=
  s.toList.length == t.toList.length && s.cString == t.cString

def sameBytes (s t : ByteString) : Bool := s.toList == t.toList

theorem sameCString_of_sameBytes {s t : ByteString} (h : sameBytes s t = true) :
    sameCString s t = true := by
  have hst : s.toList = t.toList := eq_of_beq h; simp [sameCString, cString, hst]

end ByteString

theorem tells_string (s t : ByteString) :
    Tells (.ok (stringCompare s t) : Except Status Ordering)
      (sameCString s t) False :=
  Tells.of_ok (by simp [stringCompare_eq_iff, sameCString])

theorem tells_byteString (s t : ByteString) :
    Tells (.ok (byteStringCompare s t) : Except Status Ordering)
      (sameBytes s t) False :=
  Tells.of_ok (by simp [byteStringCompare_eq_iff, sameBytes])

theorem tells_compare {α : Type} [Ord α] [Std.LawfulEqOrd α] [DecidableEq α] (a b : α) :
    Tells (.ok (compare a b) : Except Status Ordering) (a == b) False :=
  Tells.of_ok (by simp)

def Guid.compare (left right : Guid) : Ordering :=
  (Ord.compare left.data1 right.data1).then ((Ord.compare left.data2 right.data2).then
    ((Ord.compare left.data3 right.data3).then (Ord.compare left.data4 right.data4)))

theorem tells_guid (g h : Guid) :
    Tells (.ok (g.compare h) : Except Status Ordering) (g == h) False := by
  refine Tells.of_ok ?_
  obtain ⟨a₁, a₂, a₃, a₄, ha⟩ := g
  obtain ⟨b₁, b₂, b₃, b₄, hb⟩ := h
  simp [Guid.compare, Ordering.then_eq_eq]

def NodeId.raw (n : NodeId) : RawNodeId where
  namespaceIndex := n.namespaceIndex
  data :=
    match n.data with
    | .numeric v => .numeric v
    | .string s => .string s
    | .guid g => .guid (some g)
    | .byteString s => .byteString s

def NodeId.compare (le : Bool) (left right : NodeId) : Except Status Ordering :=
  RawNodeId.nodeIdCompare le (fun a => if a = 0 then left.raw else right.raw) 0 1

def ExpandedNodeId.compare (le : Bool) (left right : ExpandedNodeId) : Except Status Ordering :=
  andThen (left.nodeId.compare le right.nodeId)
    (andThen (.ok (stringCompare left.namespaceUri right.namespaceUri))
      (.ok (Ord.compare left.serverIndex right.serverIndex)))

def QualifiedName.compare (left right : QualifiedName) : Except Status Ordering :=
  andThen (.ok (stringCompare left.name right.name))
    (.ok (Ord.compare left.namespaceIndex right.namespaceIndex))

def localeCompare (left right : ByteString × ByteString) : Except Status Ordering :=
  andThen (.ok (stringCompare left.1 right.1))
    (.ok (stringCompare left.2 right.2))

/-- A list that is not there has no text. -/
def LocalizedText.compare (left right : LocalizedText) : Except Status Ordering :=
  andThen (localeCompare (left.defaultLocale, left.defaultText)
      (right.defaultLocale, right.defaultText))
    (andThen (.ok (Ord.compare left.localizedTextList.length right.localizedTextList.length))
      (loop .outOfBounds localeCompare left.localizedTextList.length left.localizedTextList
        right.localizedTextList))

section Like

variable (str : ByteString → ByteString → Bool)

def Identifier.like : Identifier → Identifier → Bool
  | .numeric m, .numeric n => m == n
  | .string s, .string t => str s t
  | .guid g, .guid h => g == h
  | .byteString s, .byteString t => sameBytes s t
  | _, _ => false

def NodeId.like (left right : NodeId) : Bool :=
  left.namespaceIndex == right.namespaceIndex && left.data.like str right.data

def ExpandedNodeId.like (left right : ExpandedNodeId) : Bool :=
  left.nodeId.like str right.nodeId && (str left.namespaceUri right.namespaceUri &&
    left.serverIndex == right.serverIndex)

def QualifiedName.like (left right : QualifiedName) : Bool :=
  str left.name right.name && left.namespaceIndex == right.namespaceIndex

def localeLike (left right : ByteString × ByteString) : Bool :=
  str left.1 right.1 && str left.2 right.2

def LocalizedText.like (left right : LocalizedText) : Bool :=
  localeLike str (left.defaultLocale, left.defaultText) (right.defaultLocale, right.defaultText) &&
    (left.localizedTextList.length == right.localizedTextList.length &&
      alikeUpTo (localeLike str) left.localizedTextList.length left.localizedTextList
        right.localizedTextList)

end Like

theorem compareData_raw (le : Bool) (l r : NodeId)
    (htype : l.raw.identifierType = r.raw.identifierType) :
    Tells (RawNodeId.compareData le l.raw.data r.raw.data)
      (l.data.like sameCString r.data) False := by
  obtain ⟨_, l⟩ := l
  obtain ⟨_, r⟩ := r
  cases l with
  | numeric m =>
    cases r with
    | numeric n => exact tells_compare m n
    | _ => cases htype
  | string s =>
    cases r with
    | string t => exact tells_string s t
    | _ => cases htype
  | guid g =>
    cases r with
    | guid h =>
      refine Tells.of_ok ?_
      have hguid : RawNodeId.compareData le (.guid (some g)) (.guid (some h)) = .ok .eq ↔ g = h :=
        RawNodeId.compareData_guid
      simp only [RawNodeId.compareData, Except.ok.injEq] at hguid
      simp only [Identifier.like, beq_iff_eq]
      exact hguid
    | _ => cases htype
  | byteString s =>
    cases r with
    | byteString t => exact tells_byteString s t
    | _ => cases htype

theorem Identifier.like_type {str : ByteString → ByteString → Bool} {l r : NodeId}
    (h : l.data.like str r.data = true) : l.raw.identifierType = r.raw.identifierType := by
  obtain ⟨_, l⟩ := l
  obtain ⟨_, r⟩ := r
  cases l <;> cases r <;> first | rfl | cases h

theorem tells_nodeId (le : Bool) (l r : NodeId) :
    Tells (l.compare le r) (l.like sameCString r) False := by
  unfold NodeId.compare RawNodeId.nodeIdCompare NodeId.like
  simp only [Nat.zero_ne_one, if_false, if_true, one_ne_zero, Bool.and_eq_true, beq_iff_eq]
  by_cases htype : l.raw.identifierType = r.raw.identifierType
  · by_cases hns : l.raw.namespaceIndex = r.raw.namespaceIndex
    · rw [if_pos ⟨hns, htype⟩]
      exact (compareData_raw le l r htype).congr (iff_and_self.mpr fun _ => hns) Iff.rfl
    · rw [if_neg fun h => hns h.1, if_pos htype]
      refine Tells.of_ok ?_
      rw [Std.compare_eq_iff_eq]
      exact ⟨fun h => absurd h hns, fun h => h.1⟩
  · rw [if_neg fun h => htype h.2, if_neg htype]
    refine Tells.of_ok ?_
    rw [Std.compare_eq_iff_eq]
    exact ⟨fun h => absurd h htype, fun h => Identifier.like_type h.2⟩

theorem tells_expandedNodeId (le : Bool) (l r : ExpandedNodeId) :
    Tells (l.compare le r) (l.like sameCString r) False :=
  ((tells_nodeId le _ _).andThen_ok ((tells_string _ _).andThen_ok (tells_compare _ _))).congr
    (by simp [ExpandedNodeId.like]) Iff.rfl

theorem tells_qualifiedName (l r : QualifiedName) :
    Tells (l.compare r) (l.like sameCString r) False :=
  ((tells_string _ _).andThen_ok (tells_compare _ _)).congr (by simp [QualifiedName.like]) Iff.rfl

theorem tells_locale (l r : ByteString × ByteString) :
    Tells (localeCompare l r) (localeLike sameCString l r) False :=
  ((tells_string _ _).andThen_ok (tells_string _ _)).congr (by simp [localeLike]) Iff.rfl

theorem blockedUpTo_eq_false {α β : Type} {A : α → β → Bool} :
    ∀ {xs : List α} {ys : List β}, xs.length = ys.length →
      blockedUpTo A (fun _ _ => false) xs.length xs ys = false := by
  intro xs
  induction xs with
  | nil => intro ys _; rfl
  | cons x xs ih =>
    intro ys h
    cases ys with
    | nil => cases h
    | cons y ys => simp [blockedUpTo, ih (Nat.succ.inj h)]

theorem tells_localizedText (l r : LocalizedText) :
    Tells (l.compare r) (l.like sameCString r) False := by
  have hlist : l.localizedTextList.length = r.localizedTextList.length →
      Tells (loop .outOfBounds localeCompare l.localizedTextList.length l.localizedTextList
          r.localizedTextList)
        (alikeUpTo (localeLike sameCString) l.localizedTextList.length
          l.localizedTextList r.localizedTextList) False := by
    intro hlen
    refine Tells.congr (Tells.loop (B := fun _ _ => false) _ fun x _ y _ => ?_) Iff.rfl
      (by simp [blockedUpTo_eq_false hlen])
    exact (tells_locale x y).congr Iff.rfl (by simp)
  have hlen : Tells (andThen (.ok (compare l.localizedTextList.length r.localizedTextList.length))
      (loop .outOfBounds localeCompare l.localizedTextList.length l.localizedTextList
        r.localizedTextList)) _ False :=
    ((tells_compare _ _).andThen fun h => hlist (eq_of_beq h)).congr Iff.rfl (by simp)
  exact ((tells_locale _ _).andThen_ok hlen).congr (by simp [LocalizedText.like]) Iff.rfl

def DiagnosticFields.compare (left right : DiagnosticFields) : Except Status Ordering :=
  andThen (.ok (Ord.compare left.locale right.locale))
    (andThen (.ok (Ord.compare left.localizedText right.localizedText))
      (andThen (.ok (Ord.compare left.namespaceUri right.namespaceUri))
        (andThen (.ok (Ord.compare left.symbolicId right.symbolicId))
          (.ok (stringCompare left.additionalInfo right.additionalInfo)))))

/-- There is no inner information to be compared if only one side has some. -/
def DiagnosticInfo.compare : DiagnosticInfo → DiagnosticInfo → Except Status Ordering
  | .leaf l, .leaf r => andThen (l.compare r) (.ok .eq)
  | .nest l i, .nest r j => andThen (l.compare r) (i.compare j)
  | .leaf l, .nest r _ => andThen (l.compare r) (.error .invalidParameters)
  | .nest l _, .leaf r => andThen (l.compare r) (.error .invalidParameters)

def DiagnosticFields.like (str : ByteString → ByteString → Bool)
    (status : UInt32 → UInt32 → Bool) (left right : DiagnosticFields) : Bool :=
  left.locale == right.locale && (left.localizedText == right.localizedText &&
    (left.namespaceUri == right.namespaceUri && (left.symbolicId == right.symbolicId &&
      (str left.additionalInfo right.additionalInfo &&
        status left.innerStatusCode right.innerStatusCode))))

def DiagnosticInfo.like (str : ByteString → ByteString → Bool) (status : UInt32 → UInt32 → Bool) :
    DiagnosticInfo → DiagnosticInfo → Bool
  | .leaf l, .leaf r => l.like str status r
  | .nest l i, .nest r j => l.like str status r && i.like str status j
  | _, _ => false

def DiagnosticInfo.blocked : DiagnosticInfo → DiagnosticInfo → Bool
  | .leaf _, .leaf _ => false
  | .nest l i, .nest r j => l.like sameCString (fun _ _ => true) r && i.blocked j
  | .leaf l, .nest r _ => l.like sameCString (fun _ _ => true) r
  | .nest l _, .leaf r => l.like sameCString (fun _ _ => true) r

theorem tells_diagnosticFields (l r : DiagnosticFields) :
    Tells (l.compare r) (l.like sameCString (fun _ _ => true) r) False :=
  ((tells_compare _ _).andThen_ok ((tells_compare _ _).andThen_ok ((tells_compare _ _).andThen_ok
    ((tells_compare _ _).andThen_ok (tells_string _ _))))).congr
    (by simp [DiagnosticFields.like]) Iff.rfl

theorem tells_diagnosticInfo (l r : DiagnosticInfo) :
    Tells (l.compare r) (l.like sameCString (fun _ _ => true) r) (l.blocked r) := by
  induction l generalizing r with
  | leaf l =>
    cases r with
    | leaf r =>
      exact ((tells_diagnosticFields l r).andThen fun _ => Tells.ok_eq).congr
        (by simp [like]) (by simp [blocked])
    | nest r j =>
      exact ((tells_diagnosticFields l r).andThen fun _ => Tells.of_error _).congr
        (by simp [like]) (by simp [blocked])
  | nest l i ih =>
    cases r with
    | leaf r =>
      exact ((tells_diagnosticFields l r).andThen fun _ => Tells.of_error _).congr
        (by simp [like]) (by simp [blocked])
    | nest r j =>
      exact ((tells_diagnosticFields l r).andThen fun _ => ih j).congr
        (by simp [like]) (by simp [blocked])

structure Sight (Obj : Type) where
  string : ByteString → ByteString → Bool
  number : FloatFormat → Nat → Nat → Bool
  innerStatusCode : UInt32 → UInt32 → Bool
  object : EncodeableType → Obj → EncodeableType → Obj → Bool
  -- Whether arrays without elements can be alike.
  empty : Bool
  /-- How many elements of a matrix count, by the number of its dimensions and that of its
  elements. -/
  elements : Nat → Nat → Nat

/-- What the comparisons of the source look at. The number of elements of a matrix is read from the
field of its number of dimensions. -/
def Sight.code (Obj : Type) : Sight Obj where
  string := sameCString
  number := FloatFormat.alike
  innerStatusCode _ _ := true
  object _ _ _ _ := false
  empty := false
  elements dimensions _ := dimensions

/-- Equality: null and empty strings are the same, and so are all that are not a number. -/
def Sight.full (Obj : Type) [DecidableEq Obj] : Sight Obj where
  string := sameBytes
  number := FloatFormat.same
  innerStatusCode a b := a == b
  object t v u w := t == u && v == w
  empty := true
  elements _ length := length

variable {Obj : Type}

namespace ExtObjBody

def encoding : ExtObjBody Obj → Nat
  | .none => 0
  | .byteString _ => 1
  | .xmlElement _ => 2
  | .object _ _ => 3

def compare : ExtObjBody Obj → ExtObjBody Obj → Except Status Ordering
  | .none, .none => .ok .eq
  | .byteString s, .byteString t => .ok (byteStringCompare s t)
  | .xmlElement s, .xmlElement t => .ok (byteStringCompare s t)
  | .object _ _, .object _ _ => .error .notSupported
  | _, _ => .error .invalidParameters

def like (object : EncodeableType → Obj → EncodeableType → Obj → Bool) :
    ExtObjBody Obj → ExtObjBody Obj → Bool
  | .none, .none => true
  | .byteString s, .byteString t => sameBytes s t
  | .xmlElement s, .xmlElement t => sameBytes s t
  | .object t v, .object u w => object t v u w
  | _, _ => false

end ExtObjBody

namespace ExtensionObject

def compare (le : Bool) (left right : ExtensionObject Obj) : Except Status Ordering :=
  andThen (.ok (Ord.compare left.body.encoding right.body.encoding))
    (andThen (left.typeId.compare le right.typeId) (left.body.compare right.body))

def like (S : Sight Obj) (left right : ExtensionObject Obj) : Bool :=
  left.typeId.like S.string right.typeId && left.body.like S.object right.body

/-- Objects of one type are not compared. -/
def blocked (left right : ExtensionObject Obj) : Bool :=
  left.body.encoding == 3 && right.body.encoding == 3 &&
    left.typeId.like sameCString right.typeId

theorem tells_compare (le : Bool) (l r : ExtensionObject Obj) :
    Tells (l.compare le r) (l.like (Sight.code Obj) r) (l.blocked r) := by
  obtain ⟨lt, lb⟩ := l
  obtain ⟨rt, rb⟩ := r
  have htype := tells_expandedNodeId le lt rt
  -- a difference of the encodings decides before the types are compared
  have hdiffer : lb.encoding ≠ rb.encoding →
      lb.like (Sight.code Obj).object rb = false →
      Tells (compare le ⟨lt, lb⟩ ⟨rt, rb⟩) (like (Sight.code Obj) ⟨lt, lb⟩ ⟨rt, rb⟩)
        (blocked ⟨lt, lb⟩ ⟨rt, rb⟩) := by
    intro hne hlike
    have hfirst : Tells (.ok (Ord.compare lb.encoding rb.encoding) : Except Status Ordering) False
        False := Tells.of_ok (by simp [hne])
    refine hfirst.andThen_differs.congr ?_ ?_
    · simp [like, hlike]
    · simp only [blocked, Bool.and_eq_true, beq_iff_eq, false_iff]
      exact fun h => hne (h.1.1.trans h.1.2.symm)
  have hsame : ∀ {A B : Prop}, lb.encoding = rb.encoding → Tells (lb.compare rb) A B →
      Tells (compare le ⟨lt, lb⟩ ⟨rt, rb⟩)
        (lt.like sameCString rt = true ∧ A)
        (lt.like sameCString rt = true ∧ B) := by
    intro A B heq hbody
    have hfirst : Tells (.ok (Ord.compare lb.encoding rb.encoding) : Except Status Ordering) True
        False := Tells.of_ok (by simp [heq])
    exact (hfirst.andThen fun _ => htype.andThen fun _ => hbody).congr (by simp) (by simp)
  cases lb with
  | none =>
    cases rb with
    | none =>
      exact (hsame rfl Tells.ok_eq).congr (by simp [like, ExtObjBody.like, Sight.code])
        (by simp [blocked, ExtObjBody.encoding])
    | _ => exact hdiffer (by simp [ExtObjBody.encoding]) rfl
  | byteString s =>
    cases rb with
    | byteString t =>
      exact (hsame rfl (tells_byteString s t)).congr
        (by simp [like, ExtObjBody.like, Sight.code]) (by simp [blocked, ExtObjBody.encoding])
    | _ => exact hdiffer (by simp [ExtObjBody.encoding]) rfl
  | xmlElement s =>
    cases rb with
    | xmlElement t =>
      exact (hsame rfl (tells_byteString s t)).congr
        (by simp [like, ExtObjBody.like, Sight.code]) (by simp [blocked, ExtObjBody.encoding])
    | _ => exact hdiffer (by simp [ExtObjBody.encoding]) rfl
  | object t v =>
    cases rb with
    | object u w =>
      exact (hsame rfl (Tells.of_error _)).congr
        (by simp [like, ExtObjBody.like, Sight.code]) (by simp [blocked, ExtObjBody.encoding])
    | _ => exact hdiffer (by simp [ExtObjBody.encoding]) rfl

end ExtensionObject

section Mono

variable {str str' : ByteString → ByteString → Bool}
  (hstr : ∀ s t, str s t = true → str' s t = true)

include hstr

theorem NodeId.like_mono {l r : NodeId} (h : l.like str r = true) : l.like str' r = true := by
  obtain ⟨ns, l⟩ := l
  obtain ⟨ns', r⟩ := r
  simp only [NodeId.like, Bool.and_eq_true] at h ⊢
  refine ⟨h.1, ?_⟩
  cases l with
  | string s =>
    cases r with
    | string t => exact hstr s t h.2
    | _ => cases h.2
  | _ => cases r <;> exact h.2

theorem ExpandedNodeId.like_mono {l r : ExpandedNodeId} (h : l.like str r = true) :
    l.like str' r = true := by
  simp only [ExpandedNodeId.like, Bool.and_eq_true] at h ⊢
  exact ⟨NodeId.like_mono hstr h.1, hstr _ _ h.2.1, h.2.2⟩

theorem QualifiedName.like_mono {l r : QualifiedName} (h : l.like str r = true) :
    l.like str' r = true := by
  simp only [QualifiedName.like, Bool.and_eq_true] at h ⊢; exact ⟨hstr _ _ h.1, h.2⟩

theorem localeLike_mono {l r : ByteString × ByteString} (h : localeLike str l r = true) :
    localeLike str' l r = true := by
  simp only [localeLike, Bool.and_eq_true] at h ⊢; exact ⟨hstr _ _ h.1, hstr _ _ h.2⟩

theorem LocalizedText.like_mono {l r : LocalizedText} (h : l.like str r = true) :
    l.like str' r = true := by
  simp only [LocalizedText.like, Bool.and_eq_true, beq_iff_eq] at h ⊢
  obtain ⟨hdefault, hlen, hlist⟩ := h
  refine ⟨localeLike_mono hstr hdefault, hlen, ?_⟩
  have hor := alikeUpTo_or_blockedUpTo (A := localeLike str') (B := fun _ _ => false)
    l.localizedTextList.length (fun x _ y _ hxy => .inl (localeLike_mono hstr hxy)) hlist
  rw [blockedUpTo_eq_false hlen] at hor
  simpa using hor

theorem DiagnosticInfo.like_mono {status status' : UInt32 → UInt32 → Bool}
    (hstatus : ∀ a b, status a b = true → status' a b = true) {l r : DiagnosticInfo}
    (h : l.like str status r = true) : l.like str' status' r = true := by
  have hfields : ∀ {l r : DiagnosticFields}, l.like str status r = true →
      l.like str' status' r = true := by
    intro l r h; simp only [DiagnosticFields.like, Bool.and_eq_true] at h ⊢
    exact ⟨h.1, h.2.1, h.2.2.1, h.2.2.2.1, hstr _ _ h.2.2.2.2.1, hstatus _ _ h.2.2.2.2.2⟩
  induction l generalizing r with
  | leaf l =>
    cases r with
    | leaf r => exact hfields h
    | nest r j => cases h
  | nest l i ih =>
    cases r with
    | leaf r => cases h
    | nest r j =>
      simp only [like, Bool.and_eq_true] at h ⊢
      exact ⟨hfields h.1, ih h.2⟩

end Mono

theorem ExtensionObject.like_or_blocked [DecidableEq Obj] {l r : ExtensionObject Obj}
    (h : l.like (Sight.full Obj) r = true) :
    l.like (Sight.code Obj) r = true ∨ l.blocked r = true := by
  obtain ⟨lt, lb⟩ := l
  obtain ⟨rt, rb⟩ := r
  simp only [ExtensionObject.like, ExtensionObject.blocked, Bool.and_eq_true] at h ⊢
  have htype : lt.like sameCString rt = true :=
    ExpandedNodeId.like_mono (fun _ _ => sameCString_of_sameBytes) h.1
  cases lb with
  | object t v =>
    cases rb with
    | object u w => exact .inr ⟨⟨rfl, rfl⟩, htype⟩
    | _ => cases h.2
  | _ => cases rb <;> exact .inl ⟨htype, h.2⟩

namespace Value

def leafCompare (le : Bool) : Value Obj → Value Obj → Except Status Ordering
  | .null, .null => .ok .eq
  | .boolean l, .boolean r => .ok (Ord.compare l r)
  | .sbyte l, .sbyte r => .ok (Ord.compare l r)
  | .byte l, .byte r => .ok (Ord.compare l r)
  | .int16 l, .int16 r => .ok (Ord.compare l r)
  | .uint16 l, .uint16 r => .ok (Ord.compare l r)
  | .int32 l, .int32 r => .ok (Ord.compare l r)
  | .uint32 l, .uint32 r => .ok (Ord.compare l r)
  | .int64 l, .int64 r => .ok (Ord.compare l r)
  | .uint64 l, .uint64 r => .ok (Ord.compare l r)
  | .float l, .float r => .ok (FloatFormat.single.compare l.toNat r.toNat)
  | .double l, .double r => .ok (FloatFormat.double.compare l.toNat r.toNat)
  | .string l, .string r => .ok (stringCompare l r)
  | .dateTime l, .dateTime r => .ok (Ord.compare l r)
  | .guid l, .guid r => .ok (l.compare r)
  | .byteString l, .byteString r => .ok (byteStringCompare l r)
  | .xmlElement l, .xmlElement r => .ok (byteStringCompare l r)
  | .nodeId l, .nodeId r => l.compare le r
  | .expandedNodeId l, .expandedNodeId r => l.compare le r
  | .statusCode l, .statusCode r => .ok (Ord.compare l r)
  | .qualifiedName l, .qualifiedName r => l.compare r
  | .localizedText l, .localizedText r => l.compare r
  | .extensionObject l, .extensionObject r => l.compare le r
  | .diagnosticInfo l, .diagnosticInfo r => l.compare r
  | _, _ => .error .invalidParameters

def leafLike (S : Sight Obj) : Value Obj → Value Obj → Bool
  | .null, .null => true
  | .boolean l, .boolean r => l == r
  | .sbyte l, .sbyte r => l == r
  | .byte l, .byte r => l == r
  | .int16 l, .int16 r => l == r
  | .uint16 l, .uint16 r => l == r
  | .int32 l, .int32 r => l == r
  | .uint32 l, .uint32 r => l == r
  | .int64 l, .int64 r => l == r
  | .uint64 l, .uint64 r => l == r
  | .float l, .float r => S.number .single l.toNat r.toNat
  | .double l, .double r => S.number .double l.toNat r.toNat
  | .string l, .string r => S.string l r
  | .dateTime l, .dateTime r => l == r
  | .guid l, .guid r => l == r
  | .byteString l, .byteString r => sameBytes l r
  | .xmlElement l, .xmlElement r => sameBytes l r
  | .nodeId l, .nodeId r => l.like S.string r
  | .expandedNodeId l, .expandedNodeId r => l.like S.string r
  | .statusCode l, .statusCode r => l == r
  | .qualifiedName l, .qualifiedName r => l.like S.string r
  | .localizedText l, .localizedText r => l.like S.string r
  | .extensionObject l, .extensionObject r => l.like S r
  | .diagnosticInfo l, .diagnosticInfo r => l.like S.string S.innerStatusCode r
  | _, _ => false

def leafBlocked : Value Obj → Value Obj → Bool
  | .extensionObject l, .extensionObject r => l.blocked r
  | .diagnosticInfo l, .diagnosticInfo r => l.blocked r
  | _, _ => false

def isLeaf : Value Obj → Bool
  | .dataValue _ => false
  | .variant _ => false
  | _ => true

theorem tells_leaf (le : Bool) {l r : Value Obj} (hl : l.isLeaf = true) (htype : l.typeId = r.typeId) :
    Tells (l.leafCompare le r) (l.leafLike (Sight.code Obj) r) (l.leafBlocked r) := by
  have hplain : ∀ {c : Except Status Ordering} {A : Prop}, Tells c A False →
      Tells c A (false = true) := fun h => h.congr Iff.rfl (by simp)
  cases l with
  | null =>
    cases r with
    | null => exact hplain (Tells.ok_eq.congr (by simp [leafLike]) Iff.rfl)
    | _ => cases htype
  | boolean l =>
    cases r with
    | boolean r => exact hplain (tells_compare _ _)
    | _ => cases htype
  | sbyte l =>
    cases r with
    | sbyte r => exact hplain (tells_compare _ _)
    | _ => cases htype
  | byte l =>
    cases r with
    | byte r => exact hplain (tells_compare _ _)
    | _ => cases htype
  | int16 l =>
    cases r with
    | int16 r => exact hplain (tells_compare _ _)
    | _ => cases htype
  | uint16 l =>
    cases r with
    | uint16 r => exact hplain (tells_compare _ _)
    | _ => cases htype
  | int32 l =>
    cases r with
    | int32 r => exact hplain (tells_compare _ _)
    | _ => cases htype
  | uint32 l =>
    cases r with
    | uint32 r => exact hplain (tells_compare _ _)
    | _ => cases htype
  | int64 l =>
    cases r with
    | int64 r => exact hplain (tells_compare _ _)
    | _ => cases htype
  | uint64 l =>
    cases r with
    | uint64 r => exact hplain (tells_compare _ _)
    | _ => cases htype
  | float l =>
    cases r with
    | float r => exact hplain (Tells.of_ok FloatFormat.compare_eq_iff)
    | _ => cases htype
  | double l =>
    cases r with
    | double r => exact hplain (Tells.of_ok FloatFormat.compare_eq_iff)
    | _ => cases htype
  | string l =>
    cases r with
    | string r => exact hplain (tells_string _ _)
    | _ => cases htype
  | dateTime l =>
    cases r with
    | dateTime r => exact hplain (tells_compare _ _)
    | _ => cases htype
  | guid l =>
    cases r with
    | guid r => exact hplain (tells_guid _ _)
    | _ => cases htype
  | byteString l =>
    cases r with
    | byteString r => exact hplain (tells_byteString _ _)
    | _ => cases htype
  | xmlElement l =>
    cases r with
    | xmlElement r => exact hplain (tells_byteString _ _)
    | _ => cases htype
  | nodeId l =>
    cases r with
    | nodeId r => exact hplain (tells_nodeId le _ _)
    | _ => cases htype
  | expandedNodeId l =>
    cases r with
    | expandedNodeId r => exact hplain (tells_expandedNodeId le _ _)
    | _ => cases htype
  | statusCode l =>
    cases r with
    | statusCode r => exact hplain (tells_compare _ _)
    | _ => cases htype
  | qualifiedName l =>
    cases r with
    | qualifiedName r => exact hplain (tells_qualifiedName _ _)
    | _ => cases htype
  | localizedText l =>
    cases r with
    | localizedText r => exact hplain (tells_localizedText _ _)
    | _ => cases htype
  | extensionObject l =>
    cases r with
    | extensionObject r => exact ExtensionObject.tells_compare le _ _
    | _ => cases htype
  | diagnosticInfo l =>
    cases r with
    | diagnosticInfo r => exact tells_diagnosticInfo _ _
    | _ => cases htype
  | dataValue l => cases hl
  | variant l => cases hl

theorem leafLike_or_blocked [DecidableEq Obj] {l r : Value Obj}
    (h : l.leafLike (Sight.full Obj) r = true) :
    l.leafLike (Sight.code Obj) r = true ∨ l.leafBlocked r = true := by
  have hstr : ∀ s t, (Sight.full Obj).string s t = true → (Sight.code Obj).string s t = true :=
    fun _ _ => sameCString_of_sameBytes
  unfold leafLike at h
  split at h
  case h_11 => exact .inl (FloatFormat.alike_of_same h)
  case h_12 => exact .inl (FloatFormat.alike_of_same h)
  case h_13 => exact .inl (hstr _ _ h)
  case h_18 => exact .inl (NodeId.like_mono hstr h)
  case h_19 => exact .inl (ExpandedNodeId.like_mono hstr h)
  case h_21 => exact .inl (QualifiedName.like_mono hstr h)
  case h_22 => exact .inl (LocalizedText.like_mono hstr h)
  case h_23 => exact ExtensionObject.like_or_blocked h
  case h_24 => exact .inl (like_mono hstr (fun _ _ _ => rfl) h)
  case h_25 => cases h
  all_goals exact .inl h

end Value

end S2OPC
