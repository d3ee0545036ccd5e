import Mathlib

/-!
# S2OPC.Lib.Numeral

Numbers in text, as the functions of the `strtoul` family read them: white space, a sign, for base 16
a prefix `0x`, and digits (`Spelled`). `scan` finds such a number at the start of a text, as long as
possible. Characters are bytes; the end of the text reads as a null byte.
-/

namespace Numeral

open List

def digit? (c : UInt8) : Option Nat :=
  if 48 ≤ c ∧ c ≤ 57 then some (c.toNat - 48)
  else if 97 ≤ c ∧ c ≤ 122 then some (c.toNat - 87)
  else if 65 ≤ c ∧ c ≤ 90 then some (c.toNat - 55)
  else none

def isDigit (base : Nat) (c : UInt8) : Bool := (digit? c).any (· < base)

def isSpace (c : UInt8) : Bool := c == 32 || (decide (9 ≤ c) && decide (c ≤ 13))

def digits (cs : List UInt8) : List Nat := (cs.map fun c => (digit? c).getD 0).reverse

def value (base : Nat) (cs : List UInt8) : Nat := Nat.ofDigits base (digits cs)

def sign : List UInt8 → Bool × List UInt8
  | 45 :: s => (true, s)
  | 43 :: s => (false, s)
  | s => (false, s)

/-- A prefix is one only if a digit follows. -/
def skipPrefix (base : Nat) : List UInt8 → List UInt8
  | 48 :: x :: c :: s =>
    if base = 16 ∧ (x = 120 ∨ x = 88) ∧ isDigit 16 c = true then c :: s else 48 :: x :: c :: s
  | s => s

structure Scanned where
  negative : Bool
  digits : List UInt8
  rest : List UInt8
  deriving DecidableEq

def scan (base : Nat) (s : List UInt8) : Option Scanned :=
  let (negative, s) := sign (s.dropWhile isSpace)
  let s := skipPrefix base s
  let ds := s.takeWhile (isDigit base)
  if ds = [] then none else some ⟨negative, ds, s.dropWhile (isDigit base)⟩

structure Spelled (base : Nat) (spaces sign pre ds : List UInt8) : Prop where
  spaces : ∀ c ∈ spaces, isSpace c = true
  sign : sign = [] ∨ sign = [43] ∨ sign = [45]
  pre : pre = [] ∨ base = 16 ∧ (pre = [48, 120] ∨ pre = [48, 88])
  digits_ne : ds ≠ []
  digits : ∀ c ∈ ds, isDigit base c = true

variable {c : UInt8} {base : Nat} {cs rest : List UInt8}

theorem isDigit_iff : isDigit base c = true ↔ ∃ d, digit? c = some d ∧ d < base := by
  unfold isDigit
  cases digit? c <;> simp

variable {d : Nat} {p : UInt8 → Bool} {sg pre ds : List UInt8}

theorem le_of_digit (h : digit? c = some d) : 48 ≤ c := by
  unfold digit? at h
  split_ifs at h with h₁ h₂ h₃
  · exact h₁.1
  · exact UInt8.le_trans (show (48 : UInt8) ≤ 97 by decide) h₂.1
  · exact UInt8.le_trans (show (48 : UInt8) ≤ 65 by decide) h₃.1

theorem isSpace_of_isDigit (h : isDigit base c = true) : isSpace c = false := by
  obtain ⟨d, hd, -⟩ := isDigit_iff.mp h
  have hle := le_of_digit hd
  simp only [isSpace, Bool.or_eq_false_iff, beq_eq_false_iff_ne, Bool.and_eq_false_iff,
    decide_eq_false_iff_not]
  rw [UInt8.le_iff_toNat_le] at hle
  constructor
  · rintro rfl; exact absurd hle (by decide)
  · right; rw [UInt8.le_iff_toNat_le]; simp at hle ⊢; omega

theorem isDigit_ne_sign (h : isDigit base c = true) : c ≠ 43 ∧ c ≠ 45 := by
  obtain ⟨d, hd, -⟩ := isDigit_iff.mp h
  have hle := le_of_digit hd
  constructor
  · rintro rfl; exact absurd hle (by decide)
  · rintro rfl; exact absurd hle (by decide)

theorem isDigit_ne_x (h : isDigit 16 c = true) : c ≠ 120 ∧ c ≠ 88 := by
  constructor
  · rintro rfl; exact absurd h (by decide)
  · rintro rfl; exact absurd h (by decide)

theorem digits_append (cs ds : List UInt8) : digits (cs ++ ds) = digits ds ++ digits cs := by
  simp [digits]

theorem length_digits (cs : List UInt8) : (digits cs).length = cs.length := by
  simp [digits]

theorem digits_lt (h : ∀ c ∈ cs, isDigit base c = true) : ∀ d ∈ digits cs, d < base := by
  intro d hd; simp only [digits, mem_reverse, mem_map] at hd
  obtain ⟨c, hc, rfl⟩ := hd
  obtain ⟨d, hd, hlt⟩ := isDigit_iff.mp (h c hc)
  rw [hd]
  exact hlt

theorem value_lt (hbase : 1 < base) (h : ∀ c ∈ cs, isDigit base c = true) :
    value base cs < base ^ cs.length := by
  rw [← length_digits]; exact Nat.ofDigits_lt_base_pow_length hbase (digits_lt h)

theorem takeWhile_append_rest (h : ∀ c ∈ cs, p c = true)
    (hrest : ∀ c ∈ rest.head?, p c = false) : (cs ++ rest).takeWhile p = cs := by
  rw [takeWhile_append_of_pos h]
  cases rest with
  | nil => simp
  | cons c rest => simp [hrest c rfl]

theorem dropWhile_append_rest (h : ∀ c ∈ cs, p c = true)
    (hrest : ∀ c ∈ rest.head?, p c = false) : (cs ++ rest).dropWhile p = rest := by
  rw [dropWhile_append_of_pos h]
  cases rest with
  | nil => rfl
  | cons c rest => simp [hrest c rfl]

theorem head?_dropWhile (cs : List UInt8) :
    ∀ c ∈ (cs.dropWhile p).head?, p c = false := by
  intro c hc; have h := head?_dropWhile_not p cs
  rw [hc] at h
  simpa using h

theorem sign_of_digit (hc : c ≠ 43 ∧ c ≠ 45) (s : List UInt8) :
    sign (c :: s) = (false, c :: s) := by
  unfold sign
  split
  · rename_i h; cases h; exact absurd rfl hc.2
  · rename_i h; cases h; exact absurd rfl hc.1
  · rfl

theorem sign_append (hsg : sg = [] ∨ sg = [43] ∨ sg = [45])
    (hc : c ≠ 43 ∧ c ≠ 45) (s : List UInt8) :
    sign (sg ++ c :: s) = (decide (sg = [45]), c :: s) := by
  obtain rfl | rfl | rfl := hsg
  · simp [sign_of_digit hc]
  · rfl
  · rfl

theorem skipPrefix_append
    (hpre : pre = [] ∨ base = 16 ∧ (pre = [48, 120] ∨ pre = [48, 88])) (hne : ds ≠ [])
    (hds : ∀ c ∈ ds, isDigit base c = true) (hx : ∀ c ∈ rest.head?, c ≠ 120 ∧ c ≠ 88) :
    skipPrefix base (pre ++ ds ++ rest) = ds ++ rest := by
  obtain ⟨d, ds, rfl⟩ := exists_cons_of_ne_nil hne
  obtain rfl | ⟨rfl, hpre⟩ := hpre
  · rw [nil_append]
    unfold skipPrefix
    split
    · rename_i x c s heq; rw [if_neg, heq]
      rintro ⟨rfl, hletter, -⟩
      -- the second character is a digit, or the first one of the rest
      have hnot : x ≠ 120 ∧ x ≠ 88 := by
        cases ds with
        | nil =>
          cases rest with
          | nil => cases heq
          | cons r rest => cases heq; exact hx x rfl
        | cons d' ds =>
          simp only [cons_append, List.cons.injEq] at heq
          obtain ⟨-, rfl, -⟩ := heq
          exact isDigit_ne_x (hds d' (by simp))
      exact hletter.elim hnot.1 hnot.2
    · rfl
  · have hd := hds d mem_cons_self
    obtain rfl | rfl := hpre <;> simp [skipPrefix, hd]

theorem scan_spelled {spaces : List UInt8} (h : Spelled base spaces sg pre ds)
    (hrest : ∀ c ∈ rest.head?, isDigit base c = false) (hx : ∀ c ∈ rest.head?, c ≠ 120 ∧ c ≠ 88) :
    scan base (spaces ++ sg ++ pre ++ ds ++ rest) = some ⟨decide (sg = [45]), ds, rest⟩ := by
  obtain ⟨d, ds', hd⟩ := exists_cons_of_ne_nil h.digits_ne
  -- the prefix and the digits start with a character that is no space and no sign
  obtain ⟨c, s, hcs, hspace, hsign⟩ : ∃ c s, pre ++ ds ++ rest = c :: s ∧ isSpace c = false ∧
      (c ≠ 43 ∧ c ≠ 45) := by
    have hdigit := h.digits d (by simp [hd])
    obtain rfl | ⟨-, hpre⟩ := h.pre
    · exact ⟨d, ds' ++ rest, by simp [hd], isSpace_of_isDigit hdigit, isDigit_ne_sign hdigit⟩
    · obtain rfl | rfl := hpre
      · exact ⟨48, 120 :: (ds ++ rest), rfl, by decide, by decide⟩
      · exact ⟨48, 88 :: (ds ++ rest), rfl, by decide, by decide⟩
  have hassoc : spaces ++ sg ++ pre ++ ds ++ rest = spaces ++ (sg ++ c :: s) := by rw [← hcs]; simp
  have hdrop : (spaces ++ sg ++ pre ++ ds ++ rest).dropWhile isSpace = sg ++ c :: s := by
    rw [hassoc]
    refine dropWhile_append_rest h.spaces ?_
    intro x hx; obtain hsg | hsg | hsg := h.sign
    · rw [hsg] at hx; cases hx; exact hspace
    · rw [hsg] at hx; cases hx; decide
    · rw [hsg] at hx; cases hx; decide
  unfold scan
  rw [hdrop, sign_append h.sign hsign, ← hcs]
  dsimp only
  rw [skipPrefix_append h.pre h.digits_ne h.digits hx, takeWhile_append_rest h.digits hrest,
    dropWhile_append_rest h.digits hrest, if_neg h.digits_ne]

theorem sign_spec (s : List UInt8) : ∃ sg, (sg = [] ∨ sg = [43] ∨ sg = [45]) ∧
    s = sg ++ (sign s).2 ∧ (sign s).1 = decide (sg = [45]) := by
  unfold sign
  split
  · exact ⟨[45], by simp, rfl, rfl⟩
  · exact ⟨[43], by simp, rfl, rfl⟩
  · exact ⟨[], by simp, rfl, rfl⟩

theorem skipPrefix_spec (base : Nat) (s : List UInt8) :
    ∃ pre, (pre = [] ∨ base = 16 ∧ (pre = [48, 120] ∨ pre = [48, 88])) ∧
      s = pre ++ skipPrefix base s := by
  unfold skipPrefix
  split
  · split_ifs with h
    · obtain ⟨hbase, rfl | rfl, -⟩ := h
      · exact ⟨[48, 120], .inr ⟨hbase, .inl rfl⟩, rfl⟩
      · exact ⟨[48, 88], .inr ⟨hbase, .inr rfl⟩, rfl⟩
    · exact ⟨[], .inl rfl, rfl⟩
  · exact ⟨[], .inl rfl, rfl⟩

theorem spelled_of_scan {s : List UInt8} {r : Scanned} (h : scan base s = some r) :
    ∃ spaces sg pre, s = spaces ++ sg ++ pre ++ r.digits ++ r.rest ∧
      Spelled base spaces sg pre r.digits ∧ r.negative = decide (sg = [45]) ∧
      ∀ c ∈ r.rest.head?, isDigit base c = false := by
  unfold scan at h
  dsimp only at h
  obtain ⟨sg, hsg, hs, hneg⟩ := sign_spec (s.dropWhile isSpace)
  obtain ⟨pre, hpre, hs'⟩ := skipPrefix_spec base (sign (s.dropWhile isSpace)).2
  split_ifs at h with hne
  cases h
  refine ⟨s.takeWhile isSpace, sg, pre, ?_, ⟨?_, hsg, hpre, hne, ?_⟩, hneg, head?_dropWhile _⟩
  · rw [append_assoc _ _ (List.dropWhile _ _), takeWhile_append_dropWhile,
      append_assoc _ _ (skipPrefix _ _), ← hs', append_assoc, ← hs,
      takeWhile_append_dropWhile]
  · intro c hc; exact mem_takeWhile_imp hc
  · intro c hc; exact mem_takeWhile_imp hc

def char (d : Nat) : UInt8 := if d < 10 then UInt8.ofNat (48 + d) else UInt8.ofNat (55 + d)

def spell (ds : List Nat) : List UInt8 := ds.reverse.map char

def lastDigits (base : Nat) : Nat → Nat → List Nat
  | 0, _ => []
  | k + 1, n => n % base :: lastDigits base k (n / base)

def decimal (n : Nat) : List UInt8 := spell (if n = 0 then [0] else Nat.digits 10 n)

theorem digit?_char (h : d < 36) : digit? (char d) = some d := by
  revert d
  decide

theorem isDigit_char (hbase : base ≤ 36) (h : d < base) : isDigit base (char d) = true :=
  isDigit_iff.mpr ⟨d, digit?_char (by omega), h⟩

theorem isDigit_spell (hbase : base ≤ 36) {ds : List Nat} (h : ∀ d ∈ ds, d < base) :
    ∀ c ∈ spell ds, isDigit base c = true := by
  intro c hc; simp only [spell, mem_map, mem_reverse] at hc
  obtain ⟨d, hd, rfl⟩ := hc
  exact isDigit_char hbase (h d hd)

theorem digits_spell {ds : List Nat} (h : ∀ d ∈ ds, d < 36) : digits (spell ds) = ds := by
  unfold digits spell
  rw [map_reverse, map_reverse, reverse_reverse, map_map]
  refine (map_congr_left fun d hd => ?_).trans (map_id ds)
  simp [digit?_char (h d hd)]

theorem length_spell (ds : List Nat) : (spell ds).length = ds.length := by
  simp [spell]

theorem value_spell {ds : List Nat} (h : ∀ d ∈ ds, d < 36) :
    value base (spell ds) = Nat.ofDigits base ds := by
  rw [value, digits_spell h]

theorem length_lastDigits (base k n : Nat) : (lastDigits base k n).length = k := by
  induction k generalizing n with
  | zero => rfl
  | succ k ih => simp [lastDigits, ih]

theorem lastDigits_lt (hbase : 0 < base) (k n : Nat) : ∀ d ∈ lastDigits base k n, d < base := by
  induction k generalizing n with
  | zero => intro d hd; exact absurd hd not_mem_nil
  | succ k ih =>
    intro d hd; obtain rfl | hd := mem_cons.mp hd
    · exact Nat.mod_lt n hbase
    · exact ih (n / base) d hd

theorem ofDigits_lastDigits (base k n : Nat) (hn : n < base ^ k) :
    Nat.ofDigits base (lastDigits base k n) = n := by
  induction k generalizing n with
  | zero => rw [pow_zero] at hn; simp only [lastDigits, Nat.ofDigits_nil]; omega
  | succ k ih =>
    have hdiv : n / base < base ^ k := by
      exact Nat.div_lt_of_lt_mul (by rwa [Nat.mul_comm])
    rw [lastDigits, Nat.ofDigits_cons, ih _ hdiv]
    exact Nat.mod_add_div n base

theorem decimal_digits_lt (n : Nat) : ∀ d ∈ (if n = 0 then [0] else Nat.digits 10 n), d < 10 := by
  intro d hd; split_ifs at hd with h
  · rw [mem_singleton.mp hd]; decide
  · exact Nat.digits_lt_base (by decide) hd

theorem isDigit_decimal (n : Nat) : ∀ c ∈ decimal n, isDigit 10 c = true :=
  isDigit_spell (by decide) (decimal_digits_lt n)

theorem decimal_ne_nil (n : Nat) : decimal n ≠ [] := by
  rw [← length_pos_iff, decimal, length_spell, length_pos_iff]
  split_ifs with h
  · exact cons_ne_nil 0 []
  · exact Nat.digits_ne_nil_iff_ne_zero.mpr h

theorem value_decimal (n : Nat) : value 10 (decimal n) = n := by
  rw [decimal, value_spell fun d hd => (decimal_digits_lt n d hd).trans (by decide)]
  split_ifs with h
  · simp [h]
  · exact Nat.ofDigits_digits 10 n

theorem spelled_of_digits (hne : ds ≠ []) (h : ∀ c ∈ ds, isDigit base c = true) :
    Spelled base [] [] [] ds :=
  ⟨by simp, .inl rfl, .inl rfl, hne, h⟩

end Numeral
