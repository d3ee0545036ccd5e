import Mathlib

/-!
# S2OPC.Lib.Segment

Singly linked cells in a memory. `Seg mem p cells q` says that the links lead from `p` through the
cells, each with its address, to `q`; a whole chain ends at no cell.

* `Seg.update`: a write outside of the cells keeps the segment.
* `Seg.insertAfter`, `Seg.removeAfter`: what one or two writes of links do to a chain.
* `advance_spec`: where the walk along a chain stops.
-/

namespace S2OPC
namespace Segment

open Function List

variable {A α : Type}

structure Cell (A α : Type) where
  item : α
  next : Option A

/-- No cell is at an address that is not allocated. -/
abbrev Memory (A α : Type) := A → Option (Cell A α)

def Seg (mem : Memory A α) (p : Option A) : List (A × α) → Option A → Prop
  | [], q => p = q
  | (a, x) :: cells, q => p = some a ∧ ∃ next, mem a = some ⟨x, next⟩ ∧ Seg mem next cells q

/-- The walk to the cell before the first one that `stop` holds of, or to the last cell. -/
def advance (mem : Memory A α) (stop : A → α → Bool) : Nat → A → Option A
  | 0, _ => none
  | fuel + 1, a => do
    let cell ← mem a
    match cell.next with
    | none => some a
    | some b =>
      let cell ← mem b
      if stop b cell.item then some a else advance mem stop fuel b

variable {mem : Memory A α} {p q : Option A} {xs ys cells : List (A × α)} {a b : A} {x y : α}
  {next : Option A}

theorem seg_append : Seg mem p (xs ++ ys) q ↔ ∃ r, Seg mem p xs r ∧ Seg mem r ys q := by
  induction xs generalizing p with
  | nil => simp [Seg]
  | cons c xs ih =>
    simp only [cons_append, Seg, ih]
    constructor
    · rintro ⟨hp, next, hmem, r, hxs, hys⟩
      exact ⟨r, ⟨hp, next, hmem, hxs⟩, hys⟩
    · rintro ⟨r, ⟨hp, next, hmem, hxs⟩, hys⟩
      exact ⟨hp, next, hmem, r, hxs, hys⟩

theorem Seg.allocated (h : Seg mem p cells q) (ha : a ∈ cells.map Prod.fst) : mem a ≠ none := by
  induction cells generalizing p with
  | nil => simp at ha
  | cons c cells ih =>
    obtain ⟨-, next, hmem, hrest⟩ := h
    rcases mem_cons.1 ha with rfl | ha
    · simp [hmem]
    · exact ih hrest ha

theorem advance_spec (stop : A → α → Bool) {fuel : Nat} (h : Seg mem (some a) ((a, x) :: cells) none)
    (hstop : stop a x = false) (hfuel : cells.length < fuel) :
    ∃ pre c post, (a, x) :: cells = pre ++ c :: post ∧ advance mem stop fuel a = some c.1 ∧
      (∀ d ∈ pre ++ [c], stop d.1 d.2 = false) ∧ ∀ d ∈ post.head?, stop d.1 d.2 = true := by
  induction cells generalizing a x fuel with
  | nil =>
    obtain ⟨-, next, hmem, rfl⟩ := h
    obtain ⟨fuel, rfl⟩ := Nat.exists_eq_add_of_lt hfuel
    exact ⟨[], (a, x), [], rfl, by simp [advance, hmem], by simpa using hstop, by simp⟩
  | cons d cells ih =>
    obtain ⟨b, y⟩ := d
    obtain ⟨-, _, hmem, rfl, next, hmem', hrest⟩ := h
    obtain ⟨fuel, rfl⟩ := Nat.exists_eq_add_of_lt hfuel
    cases hb : stop b y with
    | true =>
      exact ⟨[], (a, x), (b, y) :: cells, rfl, by simp [advance, hmem, hmem', hb], by simpa using hstop,
        by simpa using hb⟩
    | false =>
      obtain ⟨pre, c, post, heq, hadvance, hbefore, hafter⟩ :=
        @ih b y (cells.length + 1 + fuel) ⟨rfl, next, hmem', hrest⟩ hb (by omega)
      refine ⟨(a, x) :: pre, c, post, by rw [heq]; rfl, ?_, ?_, hafter⟩
      · rw [← hadvance]
        simp [advance, hmem, hmem', hb, Nat.add_right_comm]
      · exact forall_mem_cons.2 ⟨hstop, hbefore⟩

variable [DecidableEq A]

theorem Seg.update (h : Seg mem p cells q) (ha : a ∉ cells.map Prod.fst) (c : Option (Cell A α)) :
    Seg (update mem a c) p cells q := by
  induction cells generalizing p with
  | nil => exact h
  | cons d cells ih =>
    obtain ⟨hp, next, hmem, hrest⟩ := h
    rw [map_cons, mem_cons, not_or] at ha
    exact ⟨hp, next, by rwa [update_of_ne (Ne.symm ha.1)], ih hrest ha.2⟩

theorem Seg.relink (hxs : Seg mem p xs (some a)) (ha : a ∉ xs.map Prod.fst) (hys : Seg mem next ys q)
    (ha' : a ∉ ys.map Prod.fst) : Seg (Function.update mem a (some ⟨x, next⟩)) p (xs ++ (a, x) :: ys) q :=
  seg_append.2 ⟨some a, hxs.update ha _, rfl, next, update_self _ _ _, hys.update ha' _⟩

theorem Seg.insertAfter (h : Seg mem p (xs ++ (a, x) :: ys) q)
    (hnodup : ((xs ++ (a, x) :: ys).map Prod.fst).Nodup) (hnext : mem a = some ⟨x, next⟩)
    (hb : mem b = none) :
    Seg (Function.update (Function.update mem b (some ⟨y, next⟩)) a (some ⟨x, some b⟩)) p
      (xs ++ (a, x) :: (b, y) :: ys) q := by
  have hfresh : b ∉ (xs ++ (a, x) :: ys).map Prod.fst := fun hmem => h.allocated hmem hb
  obtain ⟨r, hxs, rfl, next', hmem, hys⟩ := seg_append.1 h
  cases hnext.symm.trans hmem
  simp only [map_append, map_cons, mem_append, mem_cons, not_or] at hfresh
  simp only [map_append, map_cons, nodup_append, nodup_cons] at hnodup
  have ha : a ∉ xs.map Prod.fst := fun hx => hnodup.2.2 a hx a mem_cons_self rfl
  refine (hxs.update hfresh.1 _).relink ha ⟨rfl, next, update_self _ _ _, hys.update hfresh.2.2 _⟩ ?_
  simpa using ⟨Ne.symm hfresh.2.1, by simpa using hnodup.2.1.1⟩

theorem Seg.removeAfter (h : Seg mem p (xs ++ (a, x) :: (b, y) :: ys) q)
    (hnodup : ((xs ++ (a, x) :: (b, y) :: ys).map Prod.fst).Nodup) (hb : mem b = some ⟨y, next⟩) :
    Seg (Function.update (Function.update mem b none) a (some ⟨x, next⟩)) p (xs ++ (a, x) :: ys) q := by
  obtain ⟨r, hxs, rfl, _, -, rfl, next', hmem, hys⟩ := seg_append.1 h
  cases hb.symm.trans hmem
  simp only [map_append, map_cons, nodup_append, nodup_cons] at hnodup
  obtain ⟨-, ⟨hab, hby, -⟩, hdisj⟩ := hnodup
  have hne c (hc : c ∈ [a, b]) : c ∉ xs.map Prod.fst := fun hx => hdisj c hx c (by grind) rfl
  exact (hxs.update (hne b (by simp)) _).relink (hne a (by simp)) (hys.update hby _)
    fun hmem => hab (mem_cons_of_mem _ hmem)

end Segment
end S2OPC
