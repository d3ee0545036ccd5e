import Mathlib

/-!
# S2OPC.Lib.Gregorian

The proleptic Gregorian calendar, for years before and after its introduction. Days are counted from
0001-01-01.
-/

namespace Gregorian

def leap (y : Int) : Bool := decide (4 ∣ y) && (!decide (100 ∣ y) || decide (400 ∣ y))

def daysInMonth (y : Int) (m : Nat) : Nat :=
  if m = 2 then if leap y then 29 else 28
  else if m = 4 ∨ m = 6 ∨ m = 9 ∨ m = 11 then 30
  else 31

def yearStart (y : Int) : Int := 365 * (y - 1) + (y - 1) / 4 - (y - 1) / 100 + (y - 1) / 400

def monthStart (y : Int) (m : Nat) : Nat := ((List.range (m - 1)).map fun k => daysInMonth y (k + 1)).sum

def dayNumber (y : Int) (m d : Nat) : Int := yearStart y + monthStart y m + (d - 1)

theorem leap_iff {y : Int} : leap y = true ↔ y % 4 = 0 ∧ (y % 100 ≠ 0 ∨ y % 400 = 0) := by
  simp [leap]

theorem yearStart_succ (y : Int) : yearStart (y + 1) = yearStart y + if leap y then 366 else 365 := by
  unfold yearStart
  split_ifs with h
  · rw [leap_iff] at h; omega
  · rw [leap_iff] at h; omega

theorem monthStart_succ (y : Int) {m : Nat} (hm : 1 ≤ m) :
    monthStart y (m + 1) = monthStart y m + daysInMonth y m := by
  obtain ⟨k, rfl⟩ := Nat.exists_eq_add_of_le' hm; simp [monthStart, List.range_succ]

theorem yearStart_le {y z : Int} (h : y ≤ z) : yearStart y ≤ yearStart z := by
  unfold yearStart; omega

theorem monthStart_eq (y : Int) {m : Nat} (h₁ : 1 ≤ m) (h₁₂ : m ≤ 12) :
    (monthStart y m : Int) =
      [0, 31, 59, 90, 120, 151, 181, 212, 243, 273, 304, 334].getD (m - 1) 0 +
        if 2 < m ∧ leap y then 1 else 0 := by
  cases hleap : leap y <;> interval_cases m <;> simp [monthStart, daysInMonth, hleap, List.range_succ]

theorem monthStart_le (y : Int) {m n : Nat} (hm : 1 ≤ m) (h : m ≤ n) :
    monthStart y m ≤ monthStart y n := by
  induction n, h using Nat.le_induction with
  | base => exact le_rfl
  | succ n hn ih => rw [monthStart_succ y (hm.trans hn)]; omega

theorem monthStart_add_le (y : Int) {m n : Nat} (hm : 1 ≤ m) (h : m < n) :
    monthStart y m + daysInMonth y m ≤ monthStart y n := by
  rw [← monthStart_succ y hm]; exact monthStart_le y (by omega) h

theorem monthStart_thirteen (y : Int) : monthStart y 13 = if leap y then 366 else 365 := by
  cases hleap : leap y <;> simp [monthStart, daysInMonth, hleap, List.range_succ]

theorem dayNumber_lt {y : Int} {m d : Nat} (h₁ : 1 ≤ m) (h₁₂ : m ≤ 12) (hd : d ≤ daysInMonth y m) :
    dayNumber y m d < yearStart (y + 1) := by
  have hle := monthStart_add_le y h₁ (Nat.lt_succ_of_le h₁₂)
  have hyear := yearStart_succ y
  rw [monthStart_thirteen] at hle
  unfold dayNumber
  split_ifs at hle hyear <;> omega

end Gregorian
