import S2OPC.Lib.Numeral

/-!
# S2OPC.Common.NumberText

`SOPC_strtouint8_t`, `SOPC_strtouint16_t` and `SOPC_strtouint32_t` of `sopc_helper_string.c`, over the
`strtoul` of the C library (`strtoul`), and the texts they accept (`Reads`).
-/

namespace S2OPC
namespace NumberText

open Numeral Option

structure ULong where
  bits : Nat
  bits_ge : 32 ≤ bits

variable (ul : ULong)

/-- The value, whether it was out of range (`ERANGE`), and the text from `pEnd` on. Nothing if there
is no number. A number with a minus sign is negated as an unsigned one. -/
def strtoul (s : List UInt8) (base : Nat) : Option (Nat × Bool × List UInt8) :=
  (scan base s).map fun r =>
    let v := value base r.digits
    if 2 ^ ul.bits ≤ v then (2 ^ ul.bits - 1, true, r.rest)
    else if r.negative then ((2 ^ ul.bits - v) % 2 ^ ul.bits, false, r.rest)
    else (v, false, r.rest)

/-- The body of the three functions; only the last one looks at `errno`. -/
def strtouint (maximum : Nat) (checkRange : Bool) (s : List UInt8) (base : Nat) (cEnd : UInt8) :
    Option Nat :=
  match strtoul ul s base with
  | none => none
  | some (v, erange, rest) =>
    if rest.headD 0 ≠ cEnd ∨ (checkRange = true ∧ v = 2 ^ ul.bits - 1 ∧ erange = true) ∨ maximum < v
    then none
    else some v

def strtouint8 (s : List UInt8) (base : Nat) (cEnd : UInt8) : Option UInt8 :=
  (strtouint ul (2 ^ 8 - 1) false s base cEnd).map UInt8.ofNat

def strtouint16 (s : List UInt8) (base : Nat) (cEnd : UInt8) : Option UInt16 :=
  (strtouint ul (2 ^ 16 - 1) false s base cEnd).map UInt16.ofNat

def strtouint32 (s : List UInt8) (base : Nat) (cEnd : UInt8) : Option UInt32 :=
  (strtouint ul (2 ^ 32 - 1) true s base cEnd).map UInt32.ofNat

def unsigned (sg : List UInt8) (v : Nat) : Nat :=
  if sg = [45] then (2 ^ ul.bits - v) % 2 ^ ul.bits else v

def Reads (maximum : Nat) (s : List UInt8) (base : Nat) (cEnd : UInt8) (n : Nat) : Prop :=
  ∃ spaces sg pre ds rest, s = spaces ++ sg ++ pre ++ ds ++ rest ∧ Spelled base spaces sg pre ds ∧
    rest.headD 0 = cEnd ∧ value base ds < 2 ^ ul.bits ∧ unsigned ul sg (value base ds) = n ∧
    n ≤ maximum

variable {ul}

variable {cEnd : UInt8} {base maximum : Nat} {s rest sg ds : List UInt8}

theorem Reads.le {n : Nat} (h : Reads ul maximum s base cEnd n) : n ≤ maximum := by
  obtain ⟨-, -, -, -, -, -, -, -, -, -, hle⟩ := h; exact hle

structure EndsNumber (base : Nat) (cEnd : UInt8) : Prop where
  not_digit : isDigit base cEnd = false
  not_prefix : cEnd ≠ 120 ∧ cEnd ≠ 88

theorem EndsNumber.head (h : EndsNumber base cEnd) (hrest : rest.headD 0 = cEnd) :
    (∀ c ∈ rest.head?, isDigit base c = false) ∧ ∀ c ∈ rest.head?, c ≠ 120 ∧ c ≠ 88 := by
  cases rest with
  | nil => simp
  | cons c rest => rw [List.headD_cons] at hrest; subst hrest; simp [h.not_digit, h.not_prefix]

theorem strtoul_of_scan {r : Scanned} (hscan : scan base s = some r)
    (hneg : r.negative = decide (sg = [45])) :
    strtoul ul s base = some (if 2 ^ ul.bits ≤ value base r.digits then (2 ^ ul.bits - 1, true, r.rest)
      else (unsigned ul sg (value base r.digits), false, r.rest)) := by
  rw [strtoul, hscan, map_some, hneg]
  unfold unsigned
  by_cases hsg : sg = [45] <;> simp [hsg]

theorem strtouint_eq_some_iff {checkRange : Bool}
    (hmax : maximum < 2 ^ ul.bits - 1 ∨ checkRange = true) (hend : EndsNumber base cEnd) {n : Nat} :
    strtouint ul maximum checkRange s base cEnd = some n ↔ Reads ul maximum s base cEnd n := by
  constructor
  · intro h; unfold strtouint at h
    cases hscan : scan base s with
    | none => rw [strtoul, hscan] at h; cases h
    | some r =>
      obtain ⟨spaces, sg, pre, hs, hspelled, hneg, -⟩ := spelled_of_scan hscan
      rw [strtoul_of_scan hscan hneg] at h
      by_cases hrange : 2 ^ ul.bits ≤ value base r.digits
      · rw [if_pos hrange] at h
        dsimp only at h
        rw [if_pos] at h
        · cases h
        · exact .inr (hmax.symm.imp (fun hcheck => ⟨hcheck, rfl, rfl⟩) id)
      · rw [if_neg hrange] at h
        obtain ⟨hbad, hn⟩ := ite_none_left_eq_some.mp h
        cases hn; simp only [not_or, not_lt, ne_eq, not_not] at hbad
        exact ⟨spaces, sg, pre, r.digits, r.rest, hs, hspelled, hbad.1, by omega, rfl, hbad.2.2⟩
  · rintro ⟨spaces, sg, pre, ds, rest, rfl, hspelled, hrest, hrange, hn, hle⟩
    obtain ⟨hdigit, hx⟩ := hend.head hrest
    unfold strtouint
    rw [strtoul_of_scan (scan_spelled hspelled hdigit hx) rfl, if_neg (Nat.not_le.mpr hrange), hn]
    dsimp only
    rw [if_neg]
    simp only [Bool.false_eq_true, and_false, false_or, not_or, not_lt, ne_eq, not_not]
    exact ⟨hrest, hle⟩

theorem two_pow_le (ul : ULong) : 2 ^ 32 ≤ 2 ^ ul.bits := Nat.pow_le_pow_right (by decide) ul.bits_ge

section Members

variable {s : List UInt8} {base : Nat} {cEnd : UInt8} (hend : EndsNumber base cEnd)

include hend

theorem strtouint_map_eq_some_iff {checkRange : Bool} {β : Type*} {f : Nat → β} {g : β → Nat} {b : β}
    (hmax : maximum < 2 ^ ul.bits - 1 ∨ checkRange = true) (hfg : f (g b) = b)
    (hgf : ∀ n, n ≤ maximum → g (f n) = n) :
    (strtouint ul maximum checkRange s base cEnd).map f = some b ↔ Reads ul maximum s base cEnd (g b) := by
  rw [← strtouint_eq_some_iff hmax hend]
  constructor
  · intro h; obtain ⟨n, hn, rfl⟩ := map_eq_some_iff.mp h
    rw [hn, hgf n ((strtouint_eq_some_iff hmax hend).mp hn).le]
  · intro h; rw [h, map_some, hfg]

theorem strtouint8_eq_some_iff {n : UInt8} :
    strtouint8 ul s base cEnd = some n ↔ Reads ul (2 ^ 8 - 1) s base cEnd n.toNat := by
  have hmax : 2 ^ 8 - 1 < 2 ^ ul.bits - 1 := by have := two_pow_le ul; omega
  exact strtouint_map_eq_some_iff hend (.inl hmax) UInt8.ofNat_toNat
    fun _ hm => UInt8.toNat_ofNat_of_lt' (Nat.lt_succ_of_le hm)

theorem strtouint16_eq_some_iff {n : UInt16} :
    strtouint16 ul s base cEnd = some n ↔ Reads ul (2 ^ 16 - 1) s base cEnd n.toNat := by
  have hmax : 2 ^ 16 - 1 < 2 ^ ul.bits - 1 := by have := two_pow_le ul; omega
  exact strtouint_map_eq_some_iff hend (.inl hmax) UInt16.ofNat_toNat
    fun _ hm => UInt16.toNat_ofNat_of_lt' (Nat.lt_succ_of_le hm)

theorem strtouint32_eq_some_iff {n : UInt32} :
    strtouint32 ul s base cEnd = some n ↔ Reads ul (2 ^ 32 - 1) s base cEnd n.toNat :=
  strtouint_map_eq_some_iff hend (.inr rfl) UInt32.ofNat_toNat
    fun _ hm => UInt32.toNat_ofNat_of_lt' (Nat.lt_succ_of_le hm)

end Members

theorem pre_eq_nil {spaces pre : List UInt8} (h : Spelled 10 spaces sg pre ds) : pre = [] := by
  obtain hpre | ⟨h16, -⟩ := h.pre
  · exact hpre
  · exact absurd h16 (by decide)

theorem spelled_unique {spaces spaces' sg' ds' : List UInt8} (h : Spelled 10 spaces sg [] ds)
    (h' : Spelled 10 spaces' sg' [] ds') (heq : spaces ++ sg ++ ds = spaces' ++ sg' ++ ds') :
    (sg = [45] ↔ sg' = [45]) ∧ ds = ds' := by
  have hscan : scan 10 (spaces ++ sg ++ [] ++ ds ++ []) = _ := scan_spelled h (by simp) (by simp)
  have hscan' : scan 10 (spaces' ++ sg' ++ [] ++ ds' ++ []) = _ :=
    scan_spelled h' (by simp) (by simp)
  rw [List.append_nil, List.append_nil] at hscan hscan'
  rw [heq, hscan'] at hscan
  simp only [some.injEq, Scanned.mk.injEq, decide_eq_decide] at hscan
  exact ⟨hscan.1.symm, hscan.2.1.symm⟩

theorem reads_digits (hne : ds ≠ []) (h : ∀ c ∈ ds, isDigit base c = true)
    (hrest : rest.headD 0 = cEnd) (hmax : maximum < 2 ^ ul.bits) (hle : value base ds ≤ maximum) :
    Reads ul maximum (ds ++ rest) base cEnd (value base ds) :=
  ⟨[], [], [], ds, rest, rfl, spelled_of_digits hne h, hrest, by omega, rfl, hle⟩

theorem reads_decimal {n : Nat} (hrest : rest.headD 0 = cEnd) (hmax : maximum < 2 ^ ul.bits)
    (hle : n ≤ maximum) : Reads ul maximum (decimal n ++ rest) 10 cEnd n := by
  have h := reads_digits (decimal_ne_nil n) (isDigit_decimal n) hrest hmax (by rwa [value_decimal])
  rwa [value_decimal] at h

end NumberText
end S2OPC
