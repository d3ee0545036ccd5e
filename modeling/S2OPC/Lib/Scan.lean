import Mathlib

/-!
# S2OPC.Lib.Scan

Bounded search loops. A loop `for (i = 0; i < n; ++i)` that may leave early with a result is
`(List.range n).findSome? f`, where `f i` is the result of the `i`-th turn if it leaves.
-/

namespace S2OPC
namespace Scan

open List

variable {α β : Type}

theorem findSome?_range_eq_some {n : Nat} {f : Nat → Option α} {a : α} :
    (List.range n).findSome? f = some a ↔ ∃ i < n, f i = some a ∧ ∀ j < i, f j = none := by
  induction n generalizing a with
  | zero => simp
  | succ n ih =>
    rw [range_succ, findSome?_append]
    cases h : (List.range n).findSome? f with
    | some b =>
      obtain ⟨i, hi, hfi, hmin⟩ := ih.mp h
      simp only [Option.some_or, Option.some.injEq]
      constructor
      · rintro rfl; exact ⟨i, by omega, hfi, hmin⟩
      rintro ⟨i', _, hfi', hmin'⟩
      have : i = i' := by
        rcases Nat.lt_trichotomy i i' with hlt | heq | hgt
        · rw [hmin' i hlt] at hfi; cases hfi
        · exact heq
        · rw [hmin i' hgt] at hfi'; cases hfi'
      subst this; rw [hfi] at hfi'
      exact Option.some.inj hfi'
    | none =>
      have hnone : ∀ j < n, f j = none := by
        intro j hj; exact (findSome?_eq_none_iff.mp h) j (mem_range.mpr hj)
      have hlast : (none.or ([n].findSome? f) : Option α) = f n := by
        cases hn : f n <;> simp [List.findSome?, hn]
      rw [hlast]
      constructor
      · intro hn; exact ⟨n, by omega, hn, hnone⟩
      rintro ⟨i, hi, hfi, _⟩
      have : i = n := by
        by_contra hne
        rw [hnone i (by omega)] at hfi
        cases hfi
      exact this ▸ hfi

theorem findSome?_range_eq_none {n : Nat} {f : Nat → Option α} :
    (List.range n).findSome? f = none ↔ ∀ i < n, f i = none := by
  simp [findSome?_eq_none_iff]

theorem findSome?_range_isSome {n i : Nat} {f : Nat → Option α} (hi : i < n)
    (hf : f i ≠ none) : ∃ a, (List.range n).findSome? f = some a := by
  cases h : (List.range n).findSome? f with
  | some a => exact ⟨a, rfl⟩
  | none => exact absurd (findSome?_range_eq_none.mp h i hi) hf

theorem exists_notMem_of_injOn {n : Nat} {f : Nat → β} [DecidableEq β] (occupied : List β)
    (hinj : ∀ i < n, ∀ j < n, f i = f j → i = j) (hlen : occupied.length < n) :
    ∃ i < n, f i ∉ occupied := by
  by_contra hall
  push Not at hall
  have hsub : (List.range n).map f ⊆ occupied := by
    intro x hx; obtain ⟨i, hi, rfl⟩ := mem_map.mp hx
    exact hall i (mem_range.mp hi)
  have hnodup : ((List.range n).map f).Nodup := by
    refine List.Nodup.map_on ?_ nodup_range
    intro i hi j hj hij; exact hinj i (mem_range.mp hi) j (mem_range.mp hj) hij
  have hle := (subperm_of_subset hnodup hsub).length_le
  simp at hle
  omega

theorem countP_of_find? {p q : α → Bool} {a : α} {l : List α}
    (h : l.find? p = some a) : l.countP q = (q a).toNat + (l.eraseP p).countP q := by
  induction l with
  | nil => cases h
  | cons x l ih =>
    by_cases hx : p x = true
    · rw [find?_cons_of_pos hx] at h
      obtain rfl : x = a := Option.some.inj h
      rw [eraseP_cons_of_pos hx]
      cases hq : q x <;> simp [hq, Nat.add_comm]
    · rw [find?_cons_of_neg hx] at h
      have hl := ih h
      rw [eraseP_cons_of_neg hx, countP_cons, countP_cons, hl]
      omega

end Scan
end S2OPC
