import Mathlib

/-!
# S2OPC.Lib.Tally

How many places of a finite table hold an entry of some kind, and what an update of the table makes
of that number.
-/

namespace S2OPC

open Function Finset

variable {ι α : Type} [Fintype ι]

def tally (p : α → Bool) (f : ι → α) : Nat := ∑ i, (p (f i)).toNat

variable {p : α → Bool} {f : ι → α}

theorem tally_le_card : tally p f ≤ Fintype.card ι := by
  have h := sum_le_card_nsmul univ (fun i => (p (f i)).toNat) 1 (fun i _ => Bool.toNat_le _)
  simpa [tally] using h

theorem tally_pos {i : ι} (h : p (f i) = true) : 0 < tally p f := by
  have hle := single_le_sum (f := fun i => (p (f i)).toNat) (by simp) (mem_univ i)
  simp only [h, Bool.toNat_true] at hle
  exact hle

theorem tally_update [DecidableEq ι] (p : α → Bool) (f : ι → α) (i : ι) (a : α) :
    tally p (update f i a) + (p (f i)).toNat = tally p f + (p a).toNat := by
  have hrest : ∑ j ∈ univ.erase i, (p (update f i a j)).toNat =
      ∑ j ∈ univ.erase i, (p (f j)).toNat := by
    refine sum_congr rfl fun j hj => ?_
    rw [update_of_ne (ne_of_mem_erase hj)]
  rw [tally, tally, ← add_sum_erase _ _ (mem_univ i),
    ← add_sum_erase _ (fun j => (p (f j)).toNat) (mem_univ i), hrest, update_self]
  omega

end S2OPC
