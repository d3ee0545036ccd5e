import Mathlib

/-!
# S2OPC.Lib.SerialNumber

Serial numbers of a fixed width that go around. A number is newer than another if it is at most
`span` steps ahead of it. A number that was left behind becomes newer again once the numbers have
advanced by all but `span` of the `2 ^ w` steps of a turn, and not before.
-/

namespace SerialNumber

variable {w : Nat}

def ahead (a b : BitVec w) : Nat := (b - a).toNat

def Newer (span : Nat) (a b : BitVec w) : Prop := 0 < ahead a b ∧ ahead a b ≤ span

/-- How far the numbers `bs` advance, one after the other, from `a` on. -/
def advance : BitVec w → List (BitVec w) → Nat
  | _, [] => 0
  | a, b :: bs => ahead a b + advance b bs

theorem ofNat_advance (a : BitVec w) (bs : List (BitVec w)) :
    BitVec.ofNat w (advance a bs) = bs.getLastD a - a := by
  induction bs generalizing a with
  | nil => simp [advance]
  | cons b bs ih =>
    rw [advance, BitVec.ofNat_add, ih b, ahead, BitVec.ofNat_toNat, BitVec.setWidth_eq,
      List.getLastD_cons, add_comm, sub_add_sub_cancel]

theorem not_newer_of_advance_lt {span : Nat} {a : BitVec w} {bs : List (BitVec w)}
    (h : advance a bs + span < 2 ^ w) : ¬ Newer span (bs.getLastD a) a := by
  have hback : a - bs.getLastD a = -BitVec.ofNat w (advance a bs) := by rw [ofNat_advance, neg_sub]
  have hsmall : advance a bs % 2 ^ w = advance a bs := Nat.mod_eq_of_lt (by omega)
  rintro ⟨hpos, hle⟩; rw [ahead, hback, BitVec.toNat_neg, BitVec.toNat_ofNat, hsmall] at hpos hle
  obtain hzero | hne := Nat.eq_zero_or_pos (advance a bs)
  · rw [hzero, Nat.sub_zero, Nat.mod_self] at hpos; exact absurd hpos (Nat.lt_irrefl 0)
  · rw [Nat.mod_eq_of_lt (by omega)] at hle; omega

end SerialNumber
