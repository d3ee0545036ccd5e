import S2OPC.Common.BuiltinCompare
import S2OPC.Common.EncoderRoundTrip
import S2OPC.Lib.Fallible

/-!
# S2OPC.Common.VariantCompare

`SOPC_Variant_Compare` and `SOPC_Variant_Copy`, with the data values and variants that a variant may
hold. An array without elements has no content: the pointer to it is null.

* `tells_values`: what the comparison can tell of two values, two variants.
-/

namespace S2OPC

open Comparison Encoder Fallible List Sight Value

variable {Obj : Type}

def Variant.arrayType : Variant Obj → Nat
  | .single _ => 0
  | .nullArray _ => 1
  | .array _ _ => 1
  | .matrix _ _ _ => 2

def dimensionsCompare : List Int32 → List Int32 → Int → Except Status Ordering
  | d :: ds, e :: es, matrixLength =>
    if d.toInt > 0 ∧ matrixLength * d.toInt ≤ 2147483647 then
      andThen (.ok (compare d e)) (dimensionsCompare ds es (matrixLength * d.toInt))
    else .error .invalidParameters
  | _, _, _ => .ok .eq

def compArray (t : BuiltinId) (left right : List (Value Obj)) (elements : Except Status Ordering) :
    Except Status Ordering :=
  if t = .null then .error .nok
  else if left.isEmpty ∨ right.isEmpty then .error .invalidParameters
  else elements

mutual

def Value.compare (le : Bool) : Value Obj → Value Obj → Except Status Ordering
  | .dataValue l, .dataValue r => l.compare le r
  | .variant l, .variant r => l.compare le r
  | l, r => l.leafCompare le r
termination_by structural l => l

/-- `SOPC_Variant_Compare`. The elements of a matrix are counted by `Value.Array.Length`, which is the
number of dimensions. -/
def Variant.compare (le : Bool) (left right : Variant Obj) : Except Status Ordering :=
  andThen (.ok (Ord.compare left.builtInTypeId.code right.builtInTypeId.code))
    (match left, right with
    -- the result is not set
    | .single (.variant _), .single (.variant _) => .error .outOfBounds
    | .single l, .single r => l.compare le r
    | .nullArray t, .nullArray _ => if t = .null then .error .nok else .error .invalidParameters
    | .nullArray _, .array _ _ => .ok .lt
    | .array _ _, .nullArray _ => .ok .gt
    | .array t xs, .array _ ys =>
      andThen (.ok (Ord.compare xs.length ys.length))
        (compArray t xs ys (Value.compareAll le xs.length xs ys))
    | .matrix t ds xs, .matrix _ es ys =>
      andThen (.ok (Ord.compare ds.length es.length))
        (andThen (dimensionsCompare ds es 1) (compArray t xs ys (Value.compareAll le ds.length xs ys)))
    | l, r => .ok (Ord.compare l.arrayType r.arrayType))
termination_by structural left

def DataValue.compare (le : Bool) : DataValue Obj → DataValue Obj → Except Status Ordering
  | ⟨value, status, sourceTs, serverTs, sourcePico, serverPico⟩,
    ⟨value', status', sourceTs', serverTs', sourcePico', serverPico'⟩ =>
    andThen (.ok (Ord.compare status status')) (andThen (.ok (Ord.compare serverTs serverTs'))
      (andThen (.ok (Ord.compare serverPico serverPico')) (andThen (.ok (Ord.compare sourceTs sourceTs'))
        (andThen (.ok (Ord.compare sourcePico sourcePico')) (value.compare le value')))))
termination_by structural l => l

def Value.compareAll (le : Bool) :
    Nat → List (Value Obj) → List (Value Obj) → Except Status Ordering
  | 0, _, _ => .ok .eq
  | n + 1, x :: xs, y :: ys => andThen (x.compare le y) (Value.compareAll le n xs ys)
  | _ + 1, _, _ => .error .outOfBounds
termination_by structural _ l => l

end

mutual

def Value.like (S : Sight Obj) : Value Obj → Value Obj → Bool
  | .dataValue l, .dataValue r => l.like S r
  | .variant l, .variant r => l.like S r
  | l, r => l.leafLike S r
termination_by structural l => l

/-- The same type and shape, the same dimensions, and elements that are alike, as many as count. -/
def Variant.like (S : Sight Obj) : Variant Obj → Variant Obj → Bool
  | .single l, .single r => l.like S r
  | .nullArray t, .nullArray u => t == u && S.empty
  | .array t xs, .array u ys =>
    t == u && (xs.length == ys.length && ((S.empty || !xs.isEmpty) &&
      Value.likeAll S xs.length xs ys))
  | .matrix t ds xs, .matrix u es ys =>
    t == u && (ds == es && ((S.empty || !xs.isEmpty) &&
      Value.likeAll S (S.elements ds.length xs.length) xs ys))
  | _, _ => false
termination_by structural l => l

def DataValue.like (S : Sight Obj) : DataValue Obj → DataValue Obj → Bool
  | ⟨value, status, sourceTs, serverTs, sourcePico, serverPico⟩,
    ⟨value', status', sourceTs', serverTs', sourcePico', serverPico'⟩ =>
    status == status' && (serverTs == serverTs' && (serverPico == serverPico' &&
      (sourceTs == sourceTs' && (sourcePico == sourcePico' && value.like S value'))))
termination_by structural l => l

def Value.likeAll (S : Sight Obj) : Nat → List (Value Obj) → List (Value Obj) → Bool
  | 0, _, _ => true
  | n + 1, x :: xs, y :: ys => x.like S y && Value.likeAll S n xs ys
  | _ + 1, _, _ => false
termination_by structural _ l => l

end

mutual

def Value.blocked : Value Obj → Value Obj → Bool
  | .dataValue l, .dataValue r => l.blocked r
  | .variant l, .variant r => l.blocked r
  | l, r => l.leafBlocked r
termination_by structural l => l

/-- Two arrays or matrices without elements, or with one that is in the way. -/
def Variant.blocked : Variant Obj → Variant Obj → Bool
  | .single l, .single r => l.blocked r
  | .nullArray t, .nullArray u => t == u
  | .array t xs, .array u ys =>
    t == u && (xs.length == ys.length && (xs.isEmpty || Value.blockedAll xs.length xs ys))
  | .matrix t ds xs, .matrix u es ys =>
    t == u && (ds == es && (xs.isEmpty || Value.blockedAll ds.length xs ys))
  | _, _ => false
termination_by structural l => l

def DataValue.blocked : DataValue Obj → DataValue Obj → Bool
  | ⟨value, status, sourceTs, serverTs, sourcePico, serverPico⟩,
    ⟨value', status', sourceTs', serverTs', sourcePico', serverPico'⟩ =>
    status == status' && (serverTs == serverTs' && (serverPico == serverPico' &&
      (sourceTs == sourceTs' && (sourcePico == sourcePico' && value.blocked value'))))
termination_by structural l => l

def Value.blockedAll : Nat → List (Value Obj) → List (Value Obj) → Bool
  | 0, _, _ => false
  | n + 1, x :: xs, y :: ys =>
    x.blocked y || x.like (Sight.code Obj) y && Value.blockedAll n xs ys
  | _ + 1, _, _ => true
termination_by structural _ l => l

end

mutual

def Value.wellFormed : Value Obj → Bool
  | .dataValue d => d.wellFormed
  | .variant v => v.wellFormed
  | _ => true

/-- A variant is not itself a single value, a null value not an element. -/
def Variant.wellFormed : Variant Obj → Bool
  | .single (.variant _) => false
  | .single v => v.wellFormed
  | .nullArray t => t != .null
  | .array t content =>
    t != .null && (decide (content.length < 2 ^ 31) && Value.allWellFormed t content)
  | .matrix t ds content =>
    t != .null && (decide (ds.length < 2 ^ 31) &&
      (decide (matrixLength ds = some (content.length : Int)) && Value.allWellFormed t content))

def DataValue.wellFormed : DataValue Obj → Bool
  | ⟨value, _, _, _, _, _⟩ => value.wellFormed

def Value.allWellFormed (t : BuiltinId) : List (Value Obj) → Bool
  | [] => true
  | v :: vs => v.typeId == t && (v.wellFormed && Value.allWellFormed t vs)

end

theorem Value.induction {P : Value Obj → Prop} {Q : Variant Obj → Prop}
    (leaf : ∀ v : Value Obj, v.isLeaf = true → P v)
    (dataValue : ∀ d : DataValue Obj, Q d.value → P (.dataValue d))
    (variant : ∀ v, Q v → P (.variant v))
    (single : ∀ v, P v → Q (.single v)) (nullArray : ∀ t, Q (.nullArray t))
    (array : ∀ t content, (∀ v ∈ content, P v) → Q (.array t content))
    (matrix : ∀ t ds content, (∀ v ∈ content, P v) → Q (.matrix t ds content)) :
    (∀ v, P v) ∧ ∀ v, Q v := by
  have hnil : ∀ v ∈ ([] : List (Value Obj)), P v := by simp
  have hcons : ∀ (v : Value Obj) (vs : List (Value Obj)), P v → (∀ u ∈ vs, P u) →
      ∀ u ∈ v :: vs, P u := by
    intro v vs hv hvs u hu; obtain rfl | hu := mem_cons.mp hu
    · exact hv
    · exact hvs u hu
  refine ⟨fun v => ?_, fun v => ?_⟩
  · refine @Value.rec Obj P Q (fun d => Q d.value) (fun vs => ∀ u ∈ vs, P u) ?_ ?_ ?_ ?_ ?_ ?_ ?_ ?_ ?_
      ?_ ?_ ?_ ?_ ?_ ?_ ?_ ?_ ?_ ?_ ?_ ?_ ?_ ?_ dataValue variant ?_ single nullArray array matrix
      (fun value _ _ _ _ _ h => h) hnil hcons v <;> intros <;> exact leaf _ rfl
  · refine @Variant.rec Obj P Q (fun d => Q d.value) (fun vs => ∀ u ∈ vs, P u) ?_ ?_ ?_ ?_ ?_ ?_ ?_ ?_ ?_
      ?_ ?_ ?_ ?_ ?_ ?_ ?_ ?_ ?_ ?_ ?_ ?_ ?_ ?_ dataValue variant ?_ single nullArray array matrix
      (fun value _ _ _ _ _ h => h) hnil hcons v <;> intros <;> exact leaf _ rfl

theorem compareAll_eq (le : Bool) (xs ys : List (Value Obj)) (n : Nat) :
    compareAll le n xs ys = loop .outOfBounds (compare le) n xs ys := by
  induction xs generalizing ys n with
  | nil => cases n <;> rfl
  | cons x xs ih =>
    rcases n with _ | n
    · rfl
    rcases ys with _ | ⟨y, ys⟩
    · rfl
    · rw [compareAll, loop, ih]

theorem likeAll_eq (S : Sight Obj) (xs ys : List (Value Obj)) (n : Nat) :
    likeAll S n xs ys = alikeUpTo (like S) n xs ys := by
  induction xs generalizing ys n with
  | nil => cases n <;> rfl
  | cons x xs ih =>
    rcases n with _ | n
    · rfl
    rcases ys with _ | ⟨y, ys⟩
    · rfl
    · rw [likeAll, alikeUpTo, ih]

theorem blockedAll_eq (xs ys : List (Value Obj)) (n : Nat) :
    blockedAll n xs ys = blockedUpTo (like (code Obj)) blocked n xs ys := by
  induction xs generalizing ys n with
  | nil => cases n <;> rfl
  | cons x xs ih =>
    rcases n with _ | n
    · rfl
    rcases ys with _ | ⟨y, ys⟩
    · rfl
    · rw [blockedAll, blockedUpTo, ih]

variable {t : BuiltinId} {l r : Value Obj} {ys xs : List (Value Obj)}

theorem allWellFormed_iff {vs : List (Value Obj)} :
    allWellFormed t vs = true ↔ ∀ v ∈ vs, v.typeId = t ∧ v.wellFormed = true := by
  induction vs with
  | nil => simp [allWellFormed]
  | cons v vs ih => simp [allWellFormed, ih, and_assoc]

theorem compare_leaf (le : Bool) (h : l.isLeaf = true) (r : Value Obj) :
    l.compare le r = l.leafCompare le r := by
  cases l <;> first | rfl | cases h

theorem like_leaf (S : Sight Obj) (h : l.isLeaf = true) (r : Value Obj) :
    l.like S r = l.leafLike S r := by
  cases l <;> first | rfl | cases h

theorem blocked_leaf (h : l.isLeaf = true) (r : Value Obj) : l.blocked r = l.leafBlocked r := by
  cases l <;> first | rfl | cases h

variable {total : Int} {c : Except Status Ordering} {A B : Prop}

theorem tells_dimensions (ds es : List Int32) (acc : Int)
    (hproduct : matrixProduct ds acc = some total) (hlen : ds.length = es.length) :
    Tells (dimensionsCompare ds es acc) (ds = es) False := by
  induction ds generalizing es acc with
  | nil =>
    obtain rfl : es = [] := length_eq_zero_iff.mp hlen.symm
    exact Tells.ok_eq.congr (by simp) Iff.rfl
  | cons d ds ih =>
    cases es with
    | nil => cases hlen
    | cons e es =>
      unfold matrixProduct at hproduct
      by_cases hd : d.toInt > 0 ∧ acc * d.toInt ≤ 2147483647
      · rw [if_pos hd] at hproduct
        rw [dimensionsCompare, if_pos hd]
        exact ((tells_compare d e).andThen_ok (ih es _ hproduct (Nat.succ.inj hlen))).congr
          (by simp) Iff.rfl
      · rw [if_neg hd] at hproduct; cases hproduct

theorem tells_matrixDimensions {ds es : List Int32}
    (h : matrixLength ds = some total) :
    Tells (andThen (.ok (compare ds.length es.length)) (dimensionsCompare ds es 1)) (ds = es)
      False := by
  have hloop : ds.length = es.length → Tells (dimensionsCompare ds es 1) (ds = es) False := by
    intro hlen
    cases ds with
    | nil => exact tells_dimensions [] es 1 rfl hlen
    | cons d ds => exact tells_dimensions (d :: ds) es 1 h hlen
  refine ((tells_compare ds.length es.length).andThen fun hlen => hloop (eq_of_beq hlen)).congr ?_
    (by simp)
  simp only [beq_iff_eq, and_iff_right_iff_imp]
  exact congrArg List.length

theorem tells_compArray (ht : t ≠ .null)
    (hlen : xs.isEmpty = ys.isEmpty) (h : Tells c A B) :
    Tells (compArray t xs ys c) (xs.isEmpty = false ∧ A) (xs.isEmpty = true ∨ B) := by
  unfold compArray
  rw [if_neg ht, ← hlen]
  cases hxs : xs.isEmpty with
  | true => simp only [or_self, if_true]; exact (Tells.of_error _).congr (by simp) (by simp)
  | false => simp only [Bool.false_eq_true, or_self, if_false]; exact h.congr (by simp) (by simp)

theorem isEmpty_eq_of_length (h : xs.length = ys.length) : xs.isEmpty = ys.isEmpty := by
  cases xs with
  | nil => rw [length_eq_zero_iff.mp h.symm]
  | cons x xs =>
    cases ys with
    | nil => cases h
    | cons y ys => rfl

theorem code_inj {u : BuiltinId} : t.code = u.code ↔ t = u := by
  constructor
  · intro h; have hcode := congrArg BuiltinId.ofCode? h
    rw [BuiltinId.ofCode?_code, BuiltinId.ofCode?_code] at hcode
    exact Option.some.inj hcode
  · rintro rfl; rfl

theorem tells_dataValue (le : Bool) {l r : DataValue Obj}
    (h : Tells (l.value.compare le r.value) (l.value.like (code Obj) r.value)
      (l.value.blocked r.value)) :
    Tells (l.compare le r) (l.like (code Obj) r) (l.blocked r) := by
  obtain ⟨value, status, sourceTs, serverTs, sourcePico, serverPico⟩ := l
  obtain ⟨value', status', sourceTs', serverTs', sourcePico', serverPico'⟩ := r
  exact ((tells_compare _ _).andThen fun _ => (tells_compare _ _).andThen fun _ =>
    (tells_compare _ _).andThen fun _ => (tells_compare _ _).andThen fun _ =>
    (tells_compare _ _).andThen fun _ => h).congr (by simp [DataValue.like])
    (by simp [DataValue.blocked])

theorem tells_of_type_ne (le : Bool) {l r : Variant Obj} (h : l.builtInTypeId ≠ r.builtInTypeId) :
    Tells (l.compare le r) False False := by
  unfold Variant.compare
  refine Tells.andThen_differs (Tells.of_ok ?_)
  simp [code_inj, h]

theorem tells_of_type_eq {l r : Variant Obj}
    (h : l.builtInTypeId = r.builtInTypeId) (hc : Tells c A B) :
    Tells (andThen (.ok (Ord.compare l.builtInTypeId.code r.builtInTypeId.code)) c) A B := by
  have hfirst : Tells (.ok (Ord.compare l.builtInTypeId.code r.builtInTypeId.code) :
      Except Status Ordering) True False := Tells.of_ok (by simp [h])
  exact (hfirst.andThen fun _ => hc).congr (by simp) (by simp)

variable {S : Sight Obj}

theorem leafLike_type (h : l.leafLike S r = true) : l.typeId = r.typeId := by
  unfold leafLike at h
  split at h <;> first | rfl | cases h

theorem leafBlocked_type (h : l.leafBlocked r = true) : l.typeId = r.typeId := by
  unfold leafBlocked at h
  split at h <;> first | rfl | cases h

theorem like_type (h : l.like S r = true) : l.typeId = r.typeId := by
  unfold like at h
  split at h
  · rfl
  · rfl
  · exact leafLike_type h

theorem blocked_type (h : l.blocked r = true) : l.typeId = r.typeId := by
  unfold blocked at h
  split at h
  · rfl
  · rfl
  · exact leafBlocked_type h

theorem Variant.like_type {l r : Variant Obj} (h : l.like S r = true) :
    l.builtInTypeId = r.builtInTypeId := by
  unfold Variant.like at h
  split at h
  · exact S2OPC.like_type h
  · exact eq_of_beq (Bool.and_eq_true _ _ ▸ h).1
  · exact eq_of_beq (Bool.and_eq_true _ _ ▸ h).1
  · exact eq_of_beq (Bool.and_eq_true _ _ ▸ h).1
  · cases h

theorem Variant.blocked_type {l r : Variant Obj} (h : l.blocked r = true) :
    l.builtInTypeId = r.builtInTypeId := by
  unfold Variant.blocked at h
  split at h
  · exact S2OPC.blocked_type h
  · exact eq_of_beq h
  · exact eq_of_beq (Bool.and_eq_true _ _ ▸ h).1
  · exact eq_of_beq (Bool.and_eq_true _ _ ▸ h).1
  · cases h

theorem DataValue.wellFormed_eq (d : DataValue Obj) : d.wellFormed = d.value.wellFormed := by
  cases d; rw [DataValue.wellFormed]

theorem compare_single (le : Bool) (h : (Variant.single l).wellFormed = true) :
    (Variant.single l).compare le (.single r) =
      andThen (.ok (compare l.typeId.code r.typeId.code)) (l.compare le r) := by
  cases l with
  | variant v => cases h
  | _ => rfl

theorem wellFormed_of_single (h : (Variant.single l).wellFormed = true) : l.wellFormed = true := by
  cases l with
  | variant v => cases h
  | dataValue d => exact h
  | _ => rfl

theorem tells_single (le : Bool) (hl : (Variant.single l).wellFormed = true)
    (h : l.typeId = r.typeId → Tells (l.compare le r) (l.like (code Obj) r) (l.blocked r)) :
    Tells ((Variant.single l).compare le (.single r))
      ((Variant.single l).like (code Obj) (.single r))
      ((Variant.single l).blocked (.single r)) := by
  by_cases htype : l.typeId = r.typeId
  · rw [compare_single le hl]
    exact tells_of_type_eq (l := Variant.single l) (r := .single r) htype (h htype)
  refine (tells_of_type_ne le (l := .single l) (r := .single r) htype).congr ?_ ?_
  · simp only [false_iff]
    exact fun h => htype (like_type h)
  · simp only [false_iff]
    exact fun h => htype (blocked_type h)

section Elements

variable {le : Bool} (h : ∀ x ∈ xs, ∀ y : Value Obj, x.wellFormed = true → y.wellFormed = true →
  x.typeId = y.typeId → Tells (x.compare le y) (x.like (code Obj) y) (x.blocked y))

include h

theorem tells_elements (n : Nat) (ht : t ≠ .null) (hlen : xs.length = ys.length)
    (hxs : allWellFormed t xs = true) (hys : allWellFormed t ys = true) :
    Tells (compArray t xs ys (compareAll le n xs ys))
      (xs.isEmpty = false ∧ likeAll (code Obj) n xs ys = true)
      (xs.isEmpty = true ∨ blockedAll n xs ys = true) := by
  refine tells_compArray ht (isEmpty_eq_of_length hlen) ?_
  rw [compareAll_eq, likeAll_eq, blockedAll_eq]
  refine Tells.loop n fun x hx y hy => ?_
  obtain ⟨hxt, hxw⟩ := allWellFormed_iff.mp hxs x hx
  obtain ⟨hyt, hyw⟩ := allWellFormed_iff.mp hys y hy
  exact h x hx y hxw hyw (hxt.trans hyt.symm)

theorem tells_array (hl : (Variant.array t xs).wellFormed = true)
    (hr : (Variant.array t ys).wellFormed = true) :
    Tells ((Variant.array t xs).compare le (.array t ys))
      ((Variant.array t xs).like (code Obj) (.array t ys))
      ((Variant.array t xs).blocked (.array t ys)) := by
  simp only [Variant.wellFormed, Bool.and_eq_true, bne_iff_ne, decide_eq_true_eq] at hl hr
  obtain ⟨ht, -, hxs⟩ := hl
  obtain ⟨-, -, hys⟩ := hr
  have hbody : Tells (andThen (.ok (compare xs.length ys.length))
      (compArray t xs ys (compareAll le xs.length xs ys)))
      _ _ := (tells_compare xs.length ys.length).andThen fun hlen =>
    tells_elements h xs.length ht (eq_of_beq hlen) hxs hys
  refine (tells_of_type_eq (l := Variant.array t xs) (r := .array t ys) rfl hbody).congr ?_ ?_
  · simp [Variant.like, code]
  · simp [Variant.blocked]

theorem tells_matrix {ds es : List Int32}
    (hl : (Variant.matrix t ds xs).wellFormed = true)
    (hr : (Variant.matrix t es ys).wellFormed = true) :
    Tells ((Variant.matrix t ds xs).compare le (.matrix t es ys))
      ((Variant.matrix t ds xs).like (code Obj) (.matrix t es ys))
      ((Variant.matrix t ds xs).blocked (.matrix t es ys)) := by
  simp only [Variant.wellFormed, Bool.and_eq_true, bne_iff_ne, decide_eq_true_eq] at hl hr
  obtain ⟨ht, -, hds, hxs⟩ := hl
  obtain ⟨-, -, hes, hys⟩ := hr
  have hbody : Tells (andThen (andThen (.ok (compare ds.length es.length)) (dimensionsCompare ds es 1))
      (compArray t xs ys (compareAll le ds.length xs ys)))
      _ _ := (tells_matrixDimensions hds).andThen fun heq => by
    subst heq; rw [hds, Option.some.injEq, Int.natCast_inj] at hes
    exact tells_elements h ds.length ht hes hxs hys
  rw [andThen_assoc] at hbody
  refine (tells_of_type_eq (l := Variant.matrix t ds xs) (r := .matrix t es ys) rfl hbody).congr ?_ ?_
  · simp [Variant.like, code]
  · simp [Variant.blocked]

end Elements

theorem tells_of_shape_ne (le : Bool) {l r : Variant Obj} {o : Ordering} (hne : o ≠ .eq)
    (htype : l.builtInTypeId = r.builtInTypeId)
    (hc : l.compare le r = andThen (.ok (compare l.builtInTypeId.code r.builtInTypeId.code)) (.ok o))
    (hlike : l.like (code Obj) r = false) (hblocked : l.blocked r = false) :
    Tells (l.compare le r) (l.like (code Obj) r) (l.blocked r) := by
  rw [hc]
  exact (tells_of_type_eq htype (Tells.of_ok (A := False) (by simp [hne]))).congr
    (by simp [hlike]) (by simp [hblocked])

theorem tells_values (le : Bool) :
    (∀ l r : Value Obj, l.wellFormed = true → r.wellFormed = true → l.typeId = r.typeId →
      Tells (l.compare le r) (l.like (code Obj) r) (l.blocked r)) ∧
    (∀ l r : Variant Obj, l.wellFormed = true → r.wellFormed = true →
      Tells (l.compare le r) (l.like (code Obj) r) (l.blocked r)) := by
  have hdiffer : ∀ l r : Variant Obj, l.builtInTypeId ≠ r.builtInTypeId →
      Tells (l.compare le r) (l.like (code Obj) r) (l.blocked r) := by
    intro l r hne
    refine (tells_of_type_ne le hne).congr ?_ ?_
    · simp only [false_iff]
      exact fun h => hne (Variant.like_type h)
    · simp only [false_iff]
      exact fun h => hne (Variant.blocked_type h)
  have hmain := @Value.induction Obj
    (fun l => ∀ r, l.wellFormed = true → r.wellFormed = true → l.typeId = r.typeId →
      Tells (l.compare le r) (l.like (code Obj) r) (l.blocked r))
  refine hmain ?_ ?_ ?_ ?_ ?_ ?_ ?_
  · intro l hleaf r _ _ htype; rw [compare_leaf le hleaf, like_leaf _ hleaf, blocked_leaf hleaf]
    exact tells_leaf le hleaf htype
  · intro d ih r hl hr htype
    cases r with
    | dataValue e =>
      have hd : d.value.wellFormed = true := d.wellFormed_eq ▸ hl
      have he : e.value.wellFormed = true := e.wellFormed_eq ▸ hr
      exact tells_dataValue le (ih e.value hd he)
    | _ => cases htype
  · intro v ih r hl hr htype
    cases r with
    | variant w => exact ih w hl hr
    | _ => cases htype
  · intro v ih r hl hr
    by_cases htype : (Variant.single v).builtInTypeId = r.builtInTypeId
    · cases r with
      | single w =>
        exact tells_single le hl (ih w (wellFormed_of_single hl) (wellFormed_of_single hr))
      | _ =>
        refine tells_of_shape_ne le (o := .lt) (by simp) htype ?_ rfl rfl
        cases v <;> rfl
    · exact hdiffer _ _ htype
  · intro t r hl hr
    by_cases htype : (Variant.nullArray t : Variant Obj).builtInTypeId = r.builtInTypeId
    · cases r with
      | single w => exact tells_of_shape_ne le (o := .gt) (by simp) htype rfl rfl rfl
      | nullArray u =>
        have ht : t ≠ .null := by simpa [Variant.wellFormed] using hl
        have hc : (Variant.nullArray t : Variant Obj).compare le (.nullArray u) =
            andThen (.ok (compare t.code u.code)) (.error .invalidParameters) := by
          rw [Variant.compare]
          simp only [if_neg ht]
          rfl
        have htells := tells_of_type_eq (l := (Variant.nullArray t : Variant Obj)) (r := .nullArray u)
          htype (Tells.of_error Status.invalidParameters)
        rw [hc]
        exact htells.congr (by simp [Variant.like, code])
          (by simpa [Variant.blocked, Variant.builtInTypeId] using htype)
      | array | matrix => exact tells_of_shape_ne le (o := .lt) (by simp) htype rfl rfl rfl
    · exact hdiffer _ _ htype
  · intro t xs ih r hl hr
    by_cases htype : (Variant.array t xs).builtInTypeId = r.builtInTypeId
    · cases r with
      | single | nullArray => exact tells_of_shape_ne le (o := .gt) (by simp) htype rfl rfl rfl
      | array u ys => obtain rfl : t = u := htype; exact tells_array ih hl hr
      | matrix u es ys => exact tells_of_shape_ne le (o := .lt) (by simp) htype rfl rfl rfl
    · exact hdiffer _ _ htype
  · intro t ds xs ih r hl hr
    by_cases htype : (Variant.matrix t ds xs).builtInTypeId = r.builtInTypeId
    · cases r with
      | matrix u es ys => obtain rfl : t = u := htype; exact tells_matrix ih hl hr
      | _ => exact tells_of_shape_ne le (o := .gt) (by simp) htype rfl rfl rfl
    · exact hdiffer _ _ htype

theorem like_or_blocked_values [DecidableEq Obj] :
    (∀ l r : Value Obj, l.like (full Obj) r = true →
      l.like (code Obj) r = true ∨ l.blocked r = true) ∧
    (∀ l r : Variant Obj, l.like (full Obj) r = true →
      l.like (code Obj) r = true ∨ l.blocked r = true) := by
  have hmain := @Value.induction Obj
  -- the elements of two arrays, as many of them as are looked at
  have helements : ∀ {xs ys : List (Value Obj)} (n : Nat),
      (∀ x ∈ xs, ∀ y, x.like (full Obj) y = true →
        x.like (code Obj) y = true ∨ x.blocked y = true) →
      likeAll (full Obj) xs.length xs ys = true →
      (xs.isEmpty = false ∧ likeAll (code Obj) n xs ys = true) ∨
        (xs.isEmpty = true ∨ blockedAll n xs ys = true) := by
    intro xs ys n ih h; rw [likeAll_eq] at h
    rw [likeAll_eq, blockedAll_eq]
    have hor := alikeUpTo_or_blockedUpTo n (fun x hx y _ => ih x hx y) h
    cases xs.isEmpty with
    | true => exact .inr (.inl rfl)
    | false => exact hor.imp (fun h => ⟨rfl, h⟩) .inr
  refine hmain ?_ ?_ ?_ ?_ ?_ ?_ ?_
  · intro l hleaf r h; rw [like_leaf _ hleaf] at h
    rw [like_leaf _ hleaf, blocked_leaf hleaf]
    exact leafLike_or_blocked h
  · intro d ih r h
    cases r with
    | dataValue e =>
      obtain ⟨value, status, sourceTs, serverTs, sourcePico, serverPico⟩ := d
      obtain ⟨value', status', sourceTs', serverTs', sourcePico', serverPico'⟩ := e
      simp only [like, blocked, DataValue.like, DataValue.blocked,
        Bool.and_eq_true] at h ⊢
      obtain ⟨h₁, h₂, h₃, h₄, h₅, h₆⟩ := h
      exact (ih value' h₆).imp (fun h => ⟨h₁, h₂, h₃, h₄, h₅, h⟩) fun h => ⟨h₁, h₂, h₃, h₄, h₅, h⟩
    | _ => cases h
  · intro v ih r h
    cases r with
    | variant w => exact ih w h
    | _ => cases h
  · intro v ih r h
    cases r with
    | single w => exact ih w h
    | _ => cases h
  · intro t r h
    cases r with
    | nullArray u => exact .inr ((Bool.and_eq_true _ _).mp h).1
    | _ => cases h
  · intro t xs ih r h
    cases r with
    | array u ys =>
      simp only [Variant.like, Variant.blocked, full, code, Bool.true_or, Bool.true_and,
        Bool.false_or, Bool.and_eq_true, Bool.or_eq_true, Bool.not_eq_true'] at h ⊢
      obtain ⟨ht, hlen, hxs⟩ := h
      exact (helements xs.length ih hxs).imp (fun h => ⟨ht, hlen, h⟩) fun h => ⟨ht, hlen, h⟩
    | _ => cases h
  · intro t ds xs ih r h
    cases r with
    | matrix u es ys =>
      simp only [Variant.like, Variant.blocked, full, code, Bool.true_or, Bool.true_and,
        Bool.false_or, Bool.and_eq_true, Bool.or_eq_true, Bool.not_eq_true'] at h ⊢
      obtain ⟨ht, hds, hxs⟩ := h
      exact (helements ds.length ih hxs).imp (fun h => ⟨ht, hds, h⟩) fun h => ⟨ht, hds, h⟩
    | _ => cases h

namespace DiagnosticInfo

def inner? : DiagnosticInfo → Option DiagnosticInfo
  | .leaf _ => none
  | .nest _ inner => some inner

def fields : DiagnosticInfo → DiagnosticFields
  | .leaf d => d
  | .nest d _ => d

def zero : DiagnosticInfo := .leaf ⟨0, 0, 0, 0, .null, 0⟩

/-- The inner information is copied first, whether there is some or not, to the one of the
destination. The inner status code is not copied. -/
def copy : Option DiagnosticInfo → DiagnosticInfo → Except Status DiagnosticInfo
  | none, _ => .error .invalidParameters
  | some _, .leaf _ => .error .invalidParameters
  | some dest, .nest d inner => do
    let i ← copy dest.inner? inner
    .ok (.nest { d with innerStatusCode := dest.fields.innerStatusCode } i)

theorem copy_eq_error (dest : Option DiagnosticInfo) (d : DiagnosticInfo) :
    d.copy dest = .error .invalidParameters := by
  induction d generalizing dest with
  | leaf d => cases dest <;> rfl
  | nest d inner ih =>
    cases dest with
    | none => rfl
    | some dest => rw [copy, ih]; rfl

end DiagnosticInfo

section Copy

variable (cfg : EncodingConstants) (E : Encodeables Obj) (encodedObject : Buffer)

/-- An object is encoded in a buffer and decoded from it, and its type is copied afterwards: a
string is not copied over another one. -/
def ExtensionObject.copy (e : ExtensionObject Obj) : Except Status (ExtensionObject Obj) :=
  match e.body with
  | .object _ _ =>
    match (do
      extensionObjectWrite E e cfg.maxNestedStruct
      Buffer.setPosition 0
      extensionObjectRead cfg E cfg.maxNestedStruct) encodedObject with
    | .error s _ => .error s
    | .ok read _ =>
      if read.typeId.namespaceUri.bytes.isSome then .error .invalidParameters
      else .ok ⟨e.typeId, read.body⟩
  | _ => .ok e

def Value.leafCopy : Value Obj → Except Status (Value Obj)
  | .extensionObject e => do
    let e' ← e.copy cfg E encodedObject
    .ok (.extensionObject e')
  | .diagnosticInfo d => do
    let d' ← d.copy (some .zero)
    .ok (.diagnosticInfo d')
  | v => .ok v

mutual

def Value.valueCopy : Value Obj → Except Status (Value Obj)
  | .dataValue d => do
    let d' ← d.dataValueCopy
    .ok (.dataValue d')
  | .variant v => do
    let v' ← v.variantCopy
    .ok (.variant v')
  | v => v.leafCopy cfg E encodedObject
termination_by structural v => v

/-- A null array becomes an empty one. -/
def Variant.variantCopy : Variant Obj → Except Status (Variant Obj)
  -- nothing is copied
  | .single (.variant _) => .error .outOfBounds
  | .single v => do
    let v' ← v.valueCopy
    .ok (.single v')
  | .nullArray t => .ok (.array t [])
  | .array t content =>
    if t = .null then .error .nok
    else do
      let content' ← Value.opArray content.length content
      .ok (.array t content')
  | .matrix t ds content =>
    match matrixLength ds with
    | none => .error .invalidParameters
    | some length =>
      if ds = [] then .ok (.matrix t [] [])
      else if t = .null then .error .nok
      else do
        let content' ← Value.opArray length.toNat content
        .ok (.matrix t ds content')
termination_by structural v => v

def DataValue.dataValueCopy : DataValue Obj → Except Status (DataValue Obj)
  | ⟨value, status, sourceTs, serverTs, sourcePico, serverPico⟩ => do
    let value' ← value.variantCopy
    .ok ⟨value', status, sourceTs, serverTs, sourcePico, serverPico⟩
termination_by structural d => d

def Value.opArray : Nat → List (Value Obj) → Except Status (List (Value Obj))
  | 0, _ => .ok []
  | _ + 1, [] => .error .outOfBounds
  | n + 1, v :: vs => do
    let v' ← v.valueCopy
    let vs' ← Value.opArray n vs
    .ok (v' :: vs')
termination_by structural _ vs => vs

end

mutual

/-- Nothing that is held is diagnostic information, or an object whose encoding cannot be decoded. -/
def Value.copies : Value Obj → Bool
  | .dataValue d => d.copies
  | .variant v => v.copies
  | .extensionObject e => (e.copy cfg E encodedObject).isOk
  | .diagnosticInfo _ => false
  | _ => true

def Variant.copies : Variant Obj → Bool
  | .single v => v.copies
  | .nullArray _ => true
  | .array _ content => Value.allCopy content
  | .matrix _ _ content => Value.allCopy content

def DataValue.copies : DataValue Obj → Bool
  | ⟨value, _, _, _, _, _⟩ => value.copies

def Value.allCopy : List (Value Obj) → Bool
  | [] => true
  | v :: vs => v.copies && Value.allCopy vs

end

variable {cfg E encodedObject}

/-- A copy of the type of `v`, well-formed, that looks like `v` if `v` itself does. -/
structure Value.CopyOf (v w : Value Obj) : Prop where
  typeId_eq : w.typeId = v.typeId
  wellFormed : w.wellFormed = true
  like_eq : w.like (Sight.code Obj) v = v.like (Sight.code Obj) v

structure Variant.CopyOf (v w : Variant Obj) : Prop where
  builtInTypeId_eq : w.builtInTypeId = v.builtInTypeId
  wellFormed : w.wellFormed = true
  like_eq : w.like (Sight.code Obj) v = v.like (Sight.code Obj) v

def Copied {α : Type} (c : Except Status α) (succeeds : Bool) (R : α → Prop) : Prop :=
  (c.isOk = succeeds) ∧ ∀ w, c = .ok w → R w

variable {α : Type} {v : Value Obj}

theorem Copied.ok {w : α} {R : α → Prop} (h : R w) : Copied (.ok w) true R := by
  refine ⟨rfl, fun u hu => ?_⟩; cases hu; exact h

theorem Copied.error {R : α → Prop} (s : Status) : Copied (.error s) false R :=
  ⟨rfl, fun _ hu => by cases hu⟩

theorem Copied.map {β : Type} {c : Except Status α} {b : Bool} {R : α → Prop} {R' : β → Prop}
    (h : Copied c b R) (f : α → β) (hf : ∀ w, R w → R' (f w)) :
    Copied (c >>= fun w => .ok (f w)) b R' := by
  obtain ⟨hok, hR⟩ := h
  cases c with
  | error s => exact ⟨hok, fun _ hu => by cases hu⟩
  | ok w => refine ⟨hok, fun u hu => ?_⟩; cases hu; exact hf w (hR w rfl)

theorem ExtensionObject.copied (e : ExtensionObject Obj) :
    Copied (e.copy cfg E encodedObject) (e.copy cfg E encodedObject).isOk fun e' =>
      e'.like (code Obj) e = e.like (code Obj) e := by
  refine ⟨rfl, fun e' h => ?_⟩
  obtain ⟨typeId, body⟩ := e
  cases body with
  | object t v =>
    have hobject : ∀ b : ExtObjBody Obj, b.like (code Obj).object (.object t v) = false := by
      intro b
      cases b <;> rfl
    simp [ExtensionObject.like, hobject]
  | _ => cases h; rfl

theorem leaf_copied (hleaf : v.isLeaf = true) :
    Copied (v.valueCopy cfg E encodedObject) (v.copies cfg E encodedObject) v.CopyOf := by
  cases v with
  | dataValue d => cases hleaf
  | variant v => cases hleaf
  | extensionObject e =>
    exact e.copied.map extensionObject fun e' he => ⟨rfl, rfl, he⟩
  | diagnosticInfo d =>
    have herror : (diagnosticInfo d : Value Obj).valueCopy cfg E encodedObject =
        .error .invalidParameters := by
      show (d.copy (some .zero) >>= fun d' => .ok (diagnosticInfo d')) = _
      rw [DiagnosticInfo.copy_eq_error]
      rfl
    rw [herror]
    exact Copied.error _
  | _ => exact Copied.ok ⟨rfl, rfl, rfl⟩

theorem opArray_copied {vs : List (Value Obj)}
    (h : ∀ v ∈ vs, v.wellFormed = true →
      Copied (v.valueCopy cfg E encodedObject) (v.copies cfg E encodedObject) v.CopyOf)
    (hwf : allWellFormed t vs = true) :
    Copied (opArray cfg E encodedObject vs.length vs) (allCopy cfg E encodedObject vs)
      fun ws => ws.length = vs.length ∧ allWellFormed t ws = true ∧
        ∀ n, likeAll (code Obj) n ws vs = likeAll (code Obj) n vs vs := by
  induction vs with
  | nil => exact Copied.ok ⟨rfl, rfl, fun n => rfl⟩
  | cons v vs ih =>
    simp only [allWellFormed, Bool.and_eq_true, beq_iff_eq] at hwf
    obtain ⟨htype, hv, hvs⟩ := hwf
    obtain ⟨hok, hcopy⟩ := h v mem_cons_self hv
    obtain ⟨hoks, hcopies⟩ := ih (fun u hu => h u (mem_cons_of_mem v hu)) hvs
    rw [length_cons, opArray, allCopy]
    cases hc : v.valueCopy cfg E encodedObject with
    | error s => rw [hc] at hok; rw [← hok]; exact Copied.error s
    | ok w =>
      rw [hc] at hok
      obtain ⟨hwt, hww, hwl⟩ := hcopy w hc
      rw [← hok]
      refine Copied.map ⟨hoks, hcopies⟩ (fun ws => w :: ws) ?_
      rintro ws ⟨hlen, hall, hlike⟩
      refine ⟨congrArg Nat.succ hlen, ?_, fun n => ?_⟩
      · simp only [allWellFormed, Bool.and_eq_true, beq_iff_eq]
        exact ⟨hwt.trans htype, hww, hall⟩
      · cases n with
        | zero => rfl
        | succ n => rw [likeAll, likeAll, hwl, hlike n]

theorem DataValue.copies_eq (d : DataValue Obj) :
    d.copies cfg E encodedObject = d.value.copies cfg E encodedObject := by
  cases d; rw [DataValue.copies]

theorem dataValue_copied {d : DataValue Obj}
    (h : Copied (d.value.variantCopy cfg E encodedObject) (d.value.copies cfg E encodedObject)
      d.value.CopyOf) :
    Copied (d.dataValueCopy cfg E encodedObject) (d.value.copies cfg E encodedObject) fun e =>
      (dataValue d).CopyOf (.dataValue e) := by
  obtain ⟨value, status, sourceTs, serverTs, sourcePico, serverPico⟩ := d
  refine h.map (fun w => (⟨w, status, sourceTs, serverTs, sourcePico, serverPico⟩ : DataValue Obj)) ?_
  intro w hw; refine ⟨rfl, hw.wellFormed, ?_⟩
  simp [like, DataValue.like, hw.like_eq]

theorem single_copied (hv : (Variant.single v).wellFormed = true)
    (h : Copied (v.valueCopy cfg E encodedObject) (v.copies cfg E encodedObject) v.CopyOf) :
    Copied ((Variant.single v).variantCopy cfg E encodedObject) (v.copies cfg E encodedObject)
      (Variant.single v).CopyOf := by
  have heq : (Variant.single v).variantCopy cfg E encodedObject =
      v.valueCopy cfg E encodedObject >>= fun w => .ok (.single w) := by
    cases v with
    | variant u => cases hv
    | _ => rfl
  rw [heq]
  refine h.map Variant.single fun w hw => ⟨hw.typeId_eq, ?_, hw.like_eq⟩
  have htype := hw.typeId_eq
  have hwf := hw.wellFormed
  cases w with
  | variant u =>
    cases v with
    | variant u => cases hv
    | _ => cases htype
  | dataValue d => exact hwf
  | _ => rfl

section Copies

variable {vs : List (Value Obj)} (h : ∀ v ∈ vs, v.wellFormed = true →
  Copied (v.valueCopy cfg E encodedObject) (v.copies cfg E encodedObject) v.CopyOf)

include h

theorem array_copied (hv : (Variant.array t vs).wellFormed = true) :
    Copied ((Variant.array t vs).variantCopy cfg E encodedObject)
      (allCopy cfg E encodedObject vs) (Variant.array t vs).CopyOf := by
  simp only [Variant.wellFormed, Bool.and_eq_true, bne_iff_ne, decide_eq_true_eq] at hv
  obtain ⟨ht, hlen, hvs⟩ := hv
  rw [Variant.variantCopy, if_neg ht]
  refine (opArray_copied h hvs).map (Variant.array t) ?_
  rintro ws ⟨hlen', hws, hlike⟩
  refine ⟨rfl, ?_, ?_⟩
  · simp only [Variant.wellFormed, Bool.and_eq_true, bne_iff_ne, decide_eq_true_eq]
    exact ⟨ht, by omega, hws⟩
  · simp [Variant.like, hlen', isEmpty_eq_of_length hlen', hlike]

theorem matrix_copied {ds : List Int32}
    (hv : (Variant.matrix t ds vs).wellFormed = true) :
    Copied ((Variant.matrix t ds vs).variantCopy cfg E encodedObject)
      (allCopy cfg E encodedObject vs) (Variant.matrix t ds vs).CopyOf := by
  have hwf := hv
  simp only [Variant.wellFormed, Bool.and_eq_true, bne_iff_ne, decide_eq_true_eq] at hv
  obtain ⟨ht, hds, hlen, hvs⟩ := hv
  rw [Variant.variantCopy, hlen]
  by_cases hnil : ds = []
  · subst hnil
    -- a matrix without dimensions has no elements
    obtain rfl : vs = [] := by
      have hzero : (0 : Int) = vs.length := Option.some.inj hlen
      exact length_eq_zero_iff.mp (by omega)
    exact Copied.ok ⟨rfl, hwf, rfl⟩
  · simp only [if_neg hnil, if_neg ht, Int.toNat_natCast]
    refine (opArray_copied h hvs).map (Variant.matrix t ds) ?_
    rintro ws ⟨hlen', hws, hlike⟩
    refine ⟨rfl, ?_, ?_⟩
    · simp only [Variant.wellFormed, Bool.and_eq_true, bne_iff_ne, decide_eq_true_eq, hlen']
      exact ⟨ht, hds, hlen, hws⟩
    · simp [Variant.like, hlen', isEmpty_eq_of_length hlen', hlike]

end Copies

variable (cfg E encodedObject) in
theorem copied_values :
    (∀ v : Value Obj, v.wellFormed = true →
      Copied (v.valueCopy cfg E encodedObject) (v.copies cfg E encodedObject) v.CopyOf) ∧
    (∀ v : Variant Obj, v.wellFormed = true →
      Copied (v.variantCopy cfg E encodedObject) (v.copies cfg E encodedObject) v.CopyOf) := by
  have hmain := @Value.induction Obj
    (fun v => v.wellFormed = true →
      Copied (v.valueCopy cfg E encodedObject) (v.copies cfg E encodedObject) v.CopyOf)
  refine hmain ?_ ?_ ?_ ?_ ?_ ?_ ?_
  · intro v hleaf _; exact leaf_copied hleaf
  · intro d ih hd
    have hcopies : (dataValue d).copies cfg E encodedObject =
        d.value.copies cfg E encodedObject := DataValue.copies_eq d
    rw [hcopies, valueCopy]
    exact (dataValue_copied (ih (d.wellFormed_eq ▸ hd))).map dataValue fun _ h => h
  · intro v ih hv; rw [copies, valueCopy]
    exact (ih hv).map variant fun w hw => ⟨rfl, hw.wellFormed, hw.like_eq⟩
  · intro v ih hv; exact single_copied hv (ih (wellFormed_of_single hv))
  · intro t ht
    refine Copied.ok ⟨rfl, ?_, ?_⟩
    · simp only [Variant.wellFormed] at ht ⊢; simp [ht, allWellFormed]
    · simp [Variant.like, code]
  · intro t vs ih hv; exact array_copied ih hv
  · intro t ds vs ih hv; exact matrix_copied ih hv

variable (cfg E encodedObject)

def Variant.ComparedRight [DecidableEq Obj] (le : Bool) (left right : Variant Obj) : Prop :=
  Right (left.compare le right) (left.like (Sight.full Obj) right = true)

def Variant.CopiedRight (le : Bool) (v : Variant Obj) : Prop :=
  ∃ w, v.variantCopy cfg E encodedObject = .ok w ∧ w.compare le v = .ok .eq

/-- Two variants are compared as they should unless they cannot be compared, or differ in nothing that
is looked at. A variant is found equal to its copy if it can be copied and can be found equal to
itself. -/
theorem compared_copied_iff [DecidableEq Obj] (le : Bool) {left right : Variant Obj}
    (hleft : left.wellFormed = true) (hright : right.wellFormed = true) :
    (left.ComparedRight le right ↔ left.blocked right = false ∧
      (left.like (code Obj) right = true → left.like (full Obj) right = true)) ∧
    (left.CopiedRight cfg E encodedObject le ↔
      left.copies cfg E encodedObject = true ∧ left.like (code Obj) left = true) := by
  refine ⟨?_, ?_⟩
  · have htells := (tells_values le).2 left right hleft hright
    rw [Variant.ComparedRight, htells.right_iff (like_or_blocked_values.2 left right),
      Bool.not_eq_true]
  · obtain ⟨hok, hcopy⟩ := (copied_values cfg E encodedObject).2 left hleft
    constructor
    · rintro ⟨w, hw, hcompare⟩; have hcopyOf := hcopy w hw
      rw [((tells_values le).2 w left hcopyOf.wellFormed hleft).eq_iff, hcopyOf.like_eq] at hcompare
      rw [hw] at hok
      exact ⟨hok.symm, hcompare⟩
    · rintro ⟨hcopies, hlike⟩; rw [hcopies] at hok
      cases hc : left.variantCopy cfg E encodedObject with
      | error s => rw [hc] at hok; cases hok
      | ok w =>
        have hcopyOf := hcopy w hc
        refine ⟨w, hc, ?_⟩
        rw [((tells_values le).2 w left hcopyOf.wellFormed hleft).eq_iff, hcopyOf.like_eq]
        exact hlike

end Copy

def squareMatrix (a b c d : Int32) : Variant UInt32 :=
  .matrix .int32 [2, 2] [.int32 a, .int32 b, .int32 c, .int32 d]

def noElement : Variant UInt32 := .array .int32 []

def noMessage : Variant UInt32 := .single (.diagnosticInfo (.leaf ⟨-1, -1, -1, -1, .null, 0⟩))

theorem compared_copied_iff_rows :
    (squareMatrix 1 2 3 4).ComparedRight true (squareMatrix 1 5 3 4) ∧
      (squareMatrix 1 2 3 4).CopiedRight smallLimits wordTypes (Buffer.create 16 (by decide)) true := by
  have hleft : (squareMatrix 1 2 3 4).wellFormed = true := rfl
  have hright : (squareMatrix 1 5 3 4).wellFormed = true := rfl
  have h := compared_copied_iff smallLimits wordTypes (Buffer.create 16 (by decide)) true hleft hright
  exact ⟨h.1.mpr ⟨rfl, fun h => Bool.noConfusion h⟩, h.2.mpr ⟨rfl, rfl⟩⟩

/-- The last row of a matrix is not looked at, empty arrays are not compared, and diagnostic
information is not copied. -/
theorem last_row_overlooked :
    (squareMatrix 1 2 3 4).wellFormed = true ∧ (squareMatrix 1 2 5 6).wellFormed = true ∧
      (squareMatrix 1 2 3 4).compare true (squareMatrix 1 2 5 6) = .ok .eq ∧
      (squareMatrix 1 2 3 4).like (full UInt32) (squareMatrix 1 2 5 6) = false ∧
      noElement.compare true noElement = .error .invalidParameters ∧
      noMessage.variantCopy smallLimits wordTypes (Buffer.create 16 (by decide)) =
        .error .invalidParameters :=
  ⟨rfl, rfl, rfl, rfl, rfl, rfl⟩

end S2OPC
