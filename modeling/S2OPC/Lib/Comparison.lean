import Mathlib

/-!
# S2OPC.Lib.Comparison

Comparisons made field by field and element by element. A comparison goes on as long as it finds no
difference, and an error ends it.

`Tells c alike blocked` says what a comparison `c` can tell: it finds no difference exactly if the two
things look `alike`, and ends with an error exactly if they are `blocked`. `Right c same` is what is
wanted of it. The two meet in `Tells.right_iff`.
-/

namespace Comparison

open List

variable {ε α β : Type} {c d : Except ε Ordering} {A A' B B' S : Prop}

def andThen (c d : Except ε Ordering) : Except ε Ordering :=
  match c with
  | .ok .eq => d
  | c => c

theorem andThen_assoc (c d e : Except ε Ordering) :
    andThen (andThen c d) e = andThen c (andThen d e) := by
  cases c with
  | error _ => rfl
  | ok o => cases o <;> rfl

structure Tells (c : Except ε Ordering) (alike blocked : Prop) : Prop where
  eq_iff : c = .ok .eq ↔ alike
  error_iff : (∃ e, c = .error e) ↔ blocked

/-- The comparison succeeds, and finds no difference exactly if there is none. -/
def Right (c : Except ε Ordering) (same : Prop) : Prop := ∃ o, c = .ok o ∧ (o = .eq ↔ same)

theorem Tells.of_ok {o : Ordering} (h : o = .eq ↔ A) : Tells (.ok o : Except ε Ordering) A False := by
  refine ⟨?_, ?_⟩
  · rw [Except.ok.injEq, h]
  · simp

theorem Tells.ok_eq : Tells (.ok .eq : Except ε Ordering) True False := Tells.of_ok (by simp)

theorem Tells.of_error (e : ε) : Tells (.error e : Except ε Ordering) False True := by
  refine ⟨?_, ?_⟩
  · simp
  · simp

theorem Tells.congr (h : Tells c A B) (hA : A ↔ A') (hB : B ↔ B') : Tells c A' B' :=
  ⟨h.eq_iff.trans hA, h.error_iff.trans hB⟩

theorem Tells.andThen (h : Tells c A B) (h' : A → Tells d A' B') :
    Tells (andThen c d) (A ∧ A') (B ∨ A ∧ B') := by
  cases c with
  | error e =>
    have hB : B := h.error_iff.mp ⟨e, rfl⟩
    have hA : ¬ A := fun hA => by cases h.eq_iff.mpr hA
    refine ⟨?_, ?_⟩
    · simp [Comparison.andThen, hA]
    · simp [Comparison.andThen, hB]
  | ok o =>
    have hB : ¬ B := fun hB => by
      obtain ⟨e, he⟩ := h.error_iff.mpr hB
      cases he
    cases o with
    | eq =>
      have hA : A := h.eq_iff.mp rfl
      refine ⟨?_, ?_⟩
      · simp only [Comparison.andThen, hA, true_and]; exact (h' hA).eq_iff
      · simp only [Comparison.andThen, hA, hB, true_and, false_or]; exact (h' hA).error_iff
    | _ =>
      have hA : ¬ A := fun hA => by cases h.eq_iff.mpr hA
      refine ⟨?_, ?_⟩
      · simp [Comparison.andThen, hA]
      · simp [Comparison.andThen, hA, hB]

theorem Tells.andThen_ok (h : Tells c A False) (h' : Tells d A' False) :
    Tells (Comparison.andThen c d) (A ∧ A') False :=
  (h.andThen fun _ => h').congr Iff.rfl (by simp)

theorem Tells.andThen_differs (h : Tells c False False) : Tells (Comparison.andThen c d) False False :=
  (h.andThen fun hA => hA.elim).congr (A := False ∧ False) (B := False ∨ False ∧ False) (by simp)
    (by simp)

theorem Tells.right_iff (h : Tells c A B) (hS : S → A ∨ B) : Right c S ↔ ¬ B ∧ (A → S) := by
  constructor
  · rintro ⟨o, rfl, ho⟩
    refine ⟨fun hB => ?_, fun hA => ?_⟩
    · obtain ⟨e, he⟩ := h.error_iff.mpr hB; cases he
    · exact ho.mp (Except.ok.inj (h.eq_iff.mpr hA))
  · rintro ⟨hB, hAS⟩
    cases c with
    | error e => exact absurd (h.error_iff.mp ⟨e, rfl⟩) hB
    | ok o =>
      refine ⟨o, rfl, fun ho => hAS (h.eq_iff.mp (congrArg _ ho)), fun hs => ?_⟩
      exact Except.ok.inj (h.eq_iff.mpr ((hS hs).resolve_right hB))

/-- The first `n` pairs of elements, one after the other; `short` if there are not as many. -/
def loop (short : ε) (f : α → β → Except ε Ordering) : Nat → List α → List β → Except ε Ordering
  | 0, _, _ => .ok .eq
  | n + 1, x :: xs, y :: ys => andThen (f x y) (loop short f n xs ys)
  | _ + 1, _, _ => .error short

/-- The first `n` pairs of elements look alike. -/
def alikeUpTo (A : α → β → Bool) : Nat → List α → List β → Bool
  | 0, _, _ => true
  | n + 1, x :: xs, y :: ys => A x y && alikeUpTo A n xs ys
  | _ + 1, _, _ => false

/-- One of the first `n` pairs is blocked, or there is none, and all before it look alike. -/
def blockedUpTo (A B : α → β → Bool) : Nat → List α → List β → Bool
  | 0, _, _ => false
  | n + 1, x :: xs, y :: ys => B x y || A x y && blockedUpTo A B n xs ys
  | _ + 1, _, _ => true

theorem Tells.loop {short : ε} {f : α → β → Except ε Ordering} {A B : α → β → Bool} {xs : List α}
    {ys : List β} (n : Nat) (h : ∀ x ∈ xs, ∀ y ∈ ys, Tells (f x y) (A x y) (B x y)) :
    Tells (loop short f n xs ys) (alikeUpTo A n xs ys) (blockedUpTo A B n xs ys) := by
  fun_induction Comparison.loop short f n xs ys with
  | case1 xs ys => exact Tells.ok_eq.congr (by simp [alikeUpTo]) (by simp [blockedUpTo])
  | case2 n x xs y ys ih =>
    have hx := h x mem_cons_self y mem_cons_self
    have hxs := ih fun u hu v hv => h u (mem_cons_of_mem x hu) v (mem_cons_of_mem y hv)
    exact (hx.andThen fun _ => hxs).congr (by simp [alikeUpTo]) (by simp [blockedUpTo])
  | case3 n xs ys hshort =>
    refine (Tells.of_error short).congr ?_ ?_
    · rw [alikeUpTo.eq_3 _ _ _ _ hshort]; simp
    · rw [blockedUpTo.eq_3 _ _ _ _ _ hshort]; simp

theorem alikeUpTo_or_blockedUpTo {A B S : α → β → Bool} {xs : List α} {ys : List β} (n : Nat)
    (h : ∀ x ∈ xs, ∀ y ∈ ys, S x y = true → A x y = true ∨ B x y = true)
    (hS : alikeUpTo S xs.length xs ys = true) :
    alikeUpTo A n xs ys = true ∨ blockedUpTo A B n xs ys = true := by
  induction xs generalizing ys n with
  | nil =>
    cases n with
    | zero => exact .inl rfl
    | succ n => exact .inr rfl
  | cons x xs ih =>
    cases n with
    | zero => exact .inl rfl
    | succ n =>
      cases ys with
      | nil => exact .inr rfl
      | cons y ys =>
        simp only [length_cons, alikeUpTo, blockedUpTo, Bool.and_eq_true, Bool.or_eq_true] at hS ⊢
        have hxs := ih n (fun u hu v hv => h u (mem_cons_of_mem x hu) v (mem_cons_of_mem y hv)) hS.2
        obtain hx | hx := h x mem_cons_self y mem_cons_self hS.1
        · exact hxs.imp (fun hA => ⟨hx, hA⟩) fun hB => .inr ⟨hx, hB⟩
        · exact .inr (.inl hx)

end Comparison
