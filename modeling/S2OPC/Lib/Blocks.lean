import Mathlib

/-!
# S2OPC.Lib.Blocks

Data that is filled up to a whole number of blocks.
-/

namespace Blocks

/-- What is missing from `n` up to the next multiple of `p`. -/
def missing (p n : Nat) : Nat := if n % p = 0 then 0 else p - n % p

theorem missing_lt {p : Nat} (hp : 0 < p) (n : Nat) : missing p n < p := by
  unfold missing
  split <;> omega

theorem dvd_add_missing {p : Nat} (hp : 0 < p) (n : Nat) : p ∣ n + missing p n := by
  unfold missing
  split
  · rename_i h; exact Nat.dvd_of_mod_eq_zero h
  have hlt := Nat.mod_lt n hp
  have hdiv := Nat.div_add_mod n p
  refine ⟨n / p + 1, ?_⟩
  rw [Nat.mul_add, Nat.mul_one]
  omega

theorem add_missing_le {p n k : Nat} (hp : 0 < p) (h : n ≤ p * k) : n + missing p n ≤ p * k := by
  obtain ⟨b, hb⟩ := dvd_add_missing hp n
  have hlt := missing_lt hp n
  have hbk : b ≤ k := by
    by_contra hkb
    have : p * (k + 1) ≤ p * b := Nat.mul_le_mul_left p (by omega)
    rw [Nat.mul_add, Nat.mul_one] at this
    omega
  rw [hb]
  exact Nat.mul_le_mul_left p hbk

theorem div_mul_le {p c n room : Nat} (hp : 0 < p) (h : n ≤ p * (room / c)) : n / p * c ≤ room := by
  have hblocks : n / p ≤ room / c := by
    calc n / p ≤ p * (room / c) / p := Nat.div_le_div_right h
      _ = room / c := Nat.mul_div_cancel_left _ hp
  calc n / p * c ≤ room / c * c := Nat.mul_le_mul_right c hblocks
    _ ≤ room := Nat.div_mul_le_self room c

end Blocks
