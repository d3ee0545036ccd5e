import Mathlib

/-!
# S2OPC.Lib.Paging

A list is scanned for what is to be found in it, so many finds at a time. What is left when a page is
full is scanned for the next one.
-/

namespace Paging

open List

variable {α β : Type*} (f : α → Option β)

/-- The first `n` finds, and what was not scanned for them. -/
def page : Nat → List α → List β × List α
  | 0, l => ([], l)
  | _ + 1, [] => ([], [])
  | n + 1, a :: l =>
    match f a with
    | none => page (n + 1) l
    | some b => (b :: (page n l).1, (page n l).2)

@[simp] theorem page_zero (l : List α) : page f 0 l = ([], l) := by
  cases l <;> rfl

@[simp] theorem page_nil (n : Nat) : page f n [] = ([], []) := by
  cases n <;> rfl

theorem page_append (l : List α) (n : Nat) :
    (page f n l).1 ++ (page f n l).2.filterMap f = l.filterMap f := by
  fun_induction page f n l with
  | case1 l => rfl
  | case2 n => rfl
  | case3 n a l hfa ih => rw [ih, filterMap_cons_none hfa]
  | case4 n a l b hfa ih => rw [cons_append, ih, filterMap_cons_some hfa]

theorem length_page_le (l : List α) (n : Nat) : (page f n l).1.length ≤ n := by
  fun_induction page f n l with
  | case1 l => exact le_rfl
  | case2 n => exact Nat.zero_le _
  | case3 n a l hfa ih => exact ih
  | case4 n a l b hfa ih => exact Nat.succ_le_succ ih

theorem length_page_of_rest (l : List α) (n : Nat) (h : (page f n l).2 ≠ []) :
    (page f n l).1.length = n := by
  fun_induction page f n l with
  | case1 l => rfl
  | case2 n => exact absurd rfl h
  | case3 n a l hfa ih => exact ih h
  | case4 n a l b hfa ih => exact congrArg Nat.succ (ih h)

theorem page_rest_suffix (l : List α) (n : Nat) : (page f n l).2 <:+ l := by
  fun_induction page f n l with
  | case1 l => exact suffix_rfl
  | case2 n => exact suffix_rfl
  | case3 n a l hfa ih => exact ih.trans (suffix_cons a l)
  | case4 n a l b hfa ih => exact ih.trans (suffix_cons a l)

theorem length_page_add_rest_le (l : List α) (n : Nat) :
    (page f n l).1.length + (page f n l).2.length ≤ l.length := by
  fun_induction page f n l with
  | case1 l => simp
  | case2 n => simp
  | case3 n a l hfa ih => rw [length_cons]; omega
  | case4 n a l b hfa ih => simp only [length_cons]; omega

theorem page_rest_eq_nil {l : List α} {n : Nat} (h : l.length ≤ n ∨ (l.filterMap f).length < n) :
    (page f n l).2 = [] := by
  by_contra hrest
  have hfull := length_page_of_rest f l n hrest
  have hpos := length_pos_iff.mpr hrest
  obtain h | h := h
  · have hle := length_page_add_rest_le f l n; omega
  · have happend := congrArg List.length (page_append f l n); rw [length_append] at happend; omega

theorem length_rest_lt {l : List α} {n : Nat} (hn : 0 < n) (hl : l ≠ []) :
    (page f n l).2.length < l.length := by
  obtain ⟨n, rfl⟩ := Nat.exists_eq_succ_of_ne_zero hn.ne'
  cases l with
  | nil => exact absurd rfl hl
  | cons a l =>
    cases hfa : f a with
    | none =>
      simp only [page, hfa, length_cons]
      exact Nat.lt_succ_of_le (page_rest_suffix f l (n + 1)).length_le
    | some b =>
      simp only [page, hfa, length_cons]
      exact Nat.lt_succ_of_le (page_rest_suffix f l n).length_le

end Paging
