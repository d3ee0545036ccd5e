import Mathlib

/-!
# S2OPC.Lib.SortedList

Lists kept in the order of a key, when keys of elements already in the list change: the elements are
taken out and inserted again, one after the other. Elements that still wait for their turn can be in
the way (`Unhindered`).
-/

namespace SortedList

open List

variable {α ι κ : Type} [LinearOrder κ] (key : α → κ) (id : α → ι)

def insertBy (x : α) : List α → List α
  | [] => [x]
  | y :: ys => if key x < key y then x :: y :: ys else y :: insertBy x ys

def Sorted (l : List α) : Prop := l.Pairwise fun x y => key x ≤ key y

theorem perm_insertBy (x : α) (l : List α) : (insertBy key x l).Perm (x :: l) := by
  induction l with
  | nil => exact .refl _
  | cons y ys ih =>
    unfold insertBy
    split_ifs
    · exact .refl _
    · exact (ih.cons y).trans (.swap x y ys)

theorem insertBy_split (x : α) (l : List α) : ∃ before after, l = before ++ after ∧
    insertBy key x l = before ++ x :: after ∧ (∀ y ∈ before, key y ≤ key x) ∧
      ∀ y ∈ after.head?, key x < key y := by
  induction l with
  | nil => exact ⟨[], [], rfl, rfl, by simp, by simp⟩
  | cons y ys ih =>
    unfold insertBy
    split_ifs with h
    · exact ⟨[], y :: ys, rfl, rfl, by simp, by simpa using h⟩
    · obtain ⟨before, after, rfl, hinsert, hbefore, hafter⟩ := ih
      refine ⟨y :: before, after, rfl, by rw [hinsert]; rfl, ?_, hafter⟩
      simpa [not_lt.mp h] using hbefore

variable {l : List α}

theorem Sorted.insertBy {key : α → κ} {x : α} (h : Sorted key l) :
    Sorted key (insertBy key x l) := by
  obtain ⟨before, after, rfl, hinsert, hbefore, hafter⟩ := insertBy_split key x l
  rw [hinsert]
  obtain ⟨hb, ha, hba⟩ := pairwise_append.mp h
  refine pairwise_append.mpr ⟨hb, pairwise_cons.mpr ⟨?_, ha⟩, ?_⟩
  · intro y hy
    cases after with
    | nil => cases hy
    | cons z zs =>
      have hz : key x ≤ key z := (hafter z rfl).le
      obtain rfl | hy := mem_cons.mp hy
      · exact hz
      · exact hz.trans ((pairwise_cons.mp ha).1 y hy)
  · intro y hy z hz; obtain rfl | hz := mem_cons.mp hz
    · exact hbefore y hy
    · exact hba y hy z hz

theorem Sorted.takeWhile_eq {key : α → κ} (h : Sorted key l) (b : κ) :
    l.takeWhile (fun x => key x ≤ b) = l.filter (fun x => key x ≤ b) ∧
      l.dropWhile (fun x => key x ≤ b) = l.filter (fun x => b < key x) := by
  induction l with
  | nil => exact ⟨rfl, rfl⟩
  | cons x l ih =>
    obtain ⟨hx, hl⟩ := pairwise_cons.mp h
    by_cases hle : key x ≤ b
    · simp [hle, ih hl, not_lt.mpr hle]
    have hall : ∀ y ∈ l, b < key y := fun y hy => (not_le.mp hle).trans_le (hx y hy)
    have hnone : l.filter (fun y => key y ≤ b) = [] :=
      filter_eq_nil_iff.mpr fun y hy => by simpa using hall y hy
    have hsome : l.filter (fun y => b < key y) = l :=
      filter_eq_self.mpr fun y hy => by simpa using hall y hy
    simp [hle, not_le.mp hle, hnone, hsome]

section Reinsert

variable [DecidableEq ι]

def remove (i : ι) (l : List α) : List α := l.eraseP fun x => id x = i

def reinsert (x : α) (l : List α) : List α := insertBy key x (remove id (id x) l)

def reinsertAll (xs l : List α) : List α := xs.foldl (fun l x => reinsert key id x l) l

variable {x : α} {l xs rest : List α}

theorem perm_remove (hnodup : (l.map id).Nodup) (h : x ∈ l) :
    l.Perm (x :: remove id (id x) l) := by
  induction l with
  | nil => cases h
  | cons y ys ih =>
    rw [map_cons, nodup_cons] at hnodup
    obtain rfl | h := mem_cons.mp h
    · simp [remove]
    · have hne : id y ≠ id x := fun he => hnodup.1 (he ▸ mem_map_of_mem h)
      have hstep : remove id (id x) (y :: ys) = y :: remove id (id x) ys := by simp [remove, hne]
      rw [hstep]
      exact ((ih hnodup.2 h).cons y).trans (.swap x y _)

theorem perm_reinsert (hnodup : (l.map id).Nodup) (h : x ∈ l) :
    (reinsert key id x l).Perm l :=
  (perm_insertBy key x _).trans (perm_remove id hnodup h).symm

theorem perm_reinsertAll : ∀ {l : List α}, (l.map id).Nodup → (∀ x ∈ xs, x ∈ l) →
    (reinsertAll key id xs l).Perm l := by
  induction xs with
  | nil => exact fun _ _ => .refl _
  | cons x xs ih =>
    intro l hnodup hmem; have hx := perm_reinsert key id hnodup (hmem x (by simp))
    refine (ih ((hx.map id).nodup_iff.mpr hnodup) fun y hy => ?_).trans hx
    exact hx.mem_iff.mpr (hmem y (mem_cons_of_mem x hy))

/-- No element of `xs` has a greater one after it in `xs` and a smaller one in `rest`. -/
def Unhindered (xs rest : List α) : Prop :=
  xs.Pairwise fun x y => key x < key y → ∀ z ∈ rest, key x ≤ key z

/-- The state between two insertions: the elements that do not wait are sorted, and one that waits is
ahead only of greater elements and of the rest. -/
structure Partly (waiting rest l : List α) : Prop where
  nodup : (l.map id).Nodup
  mem : ∀ x ∈ waiting, x ∈ l
  waiting_nodup : (waiting.map id).Nodup
  sorted : l.Pairwise fun x y => x ∉ waiting → y ∉ waiting → key x ≤ key y
  ahead : l.Pairwise fun x y => x ∈ waiting → y ∉ waiting → y ∈ rest ∨ key x ≤ key y

theorem Partly.reinsert {waiting : List α} (h : Partly key id (x :: waiting) rest l)
    (hx : ∀ y ∈ waiting, key x < key y → ∀ z ∈ rest, key x ≤ key z) :
    Partly key id waiting rest (reinsert key id x l) := by
  have hxl : x ∈ l := h.mem x (by simp)
  have hperm := perm_reinsert key id h.nodup hxl
  obtain ⟨hxw, hwaiting⟩ := nodup_cons.mp h.waiting_nodup
  have hxw : x ∉ waiting := fun hmem => hxw (mem_map_of_mem hmem)
  -- the element is not in the list while it is inserted
  have hne : ∀ y ∈ remove id (id x) l, y ≠ x := by
    have hcons : ((x :: remove id (id x) l).map id).Nodup :=
      ((perm_remove id h.nodup hxl).map id).nodup_iff.mp h.nodup
    rintro y hy rfl; exact (nodup_cons.mp hcons).1 (mem_map_of_mem hy)
  have hsub : (remove id (id x) l).Sublist l := eraseP_sublist
  obtain ⟨before, after, hsplit, hinsert, hbefore, hafter⟩ := insertBy_split key x (remove id (id x) l)
  rw [hsplit] at hne hsub
  have hsorted := (h.sorted.sublist hsub).imp_of_mem (S := fun y z =>
    y ∉ waiting → z ∉ waiting → key y ≤ key z) fun hy hz hyz hyw hzw =>
    hyz (by simp [hyw, hne _ hy]) (by simp [hzw, hne _ hz])
  have hahead := (h.ahead.sublist hsub).imp_of_mem (S := fun y z =>
    y ∈ waiting → z ∉ waiting → z ∈ rest ∨ key y ≤ key z) fun _ hz hyz hyw hzw =>
    hyz (by simp [hyw]) (by simp [hzw, hne _ hz])
  obtain ⟨hsb, hsa, hsba⟩ := pairwise_append.mp hsorted
  obtain ⟨hab, haa, haba⟩ := pairwise_append.mp hahead
  refine ⟨(hperm.map id).nodup_iff.mpr h.nodup, fun y hy =>
    hperm.mem_iff.mpr (h.mem y (mem_cons_of_mem x hy)), hwaiting, ?_, ?_⟩
  · show (insertBy key x (remove id (id x) l)).Pairwise _
    rw [hinsert]
    refine pairwise_append.mpr ⟨hsb, pairwise_cons.mpr ⟨?_, hsa⟩, ?_⟩
    · intro z hz _ hzw
      cases after with
      | nil => cases hz
      | cons b as =>
        have hb : key x < key b := hafter b rfl
        obtain rfl | hz := mem_cons.mp hz
        · exact hb.le
        by_cases hbw : b ∈ waiting
        · -- held up by an element that waits: only the rest can be smaller
          obtain hrest | hle := (pairwise_cons.mp haa).1 z hz hbw hzw
          · exact hx b hbw hb z hrest
          · exact hb.le.trans hle
        · exact hb.le.trans ((pairwise_cons.mp hsa).1 z hz hbw hzw)
    · intro y hy z hz; obtain rfl | hz := mem_cons.mp hz
      · exact fun _ _ => hbefore y hy
      · exact hsba y hy z hz
  · show (insertBy key x (remove id (id x) l)).Pairwise _
    rw [hinsert]
    refine pairwise_append.mpr ⟨hab, pairwise_cons.mpr ⟨?_, haa⟩, ?_⟩
    · exact fun z _ hw => absurd hw hxw
    · intro y hy z hz; obtain rfl | hz := mem_cons.mp hz
      · exact fun _ _ => .inr (hbefore y hy)
      · exact haba y hy z hz

theorem Partly.reinsertAll (h : Partly key id xs rest l)
    (hu : Unhindered key xs rest) : Sorted key (reinsertAll key id xs l) := by
  induction xs generalizing l with
  | nil => exact h.sorted.imp fun hxy => hxy (by simp) (by simp)
  | cons x xs ih =>
    obtain ⟨hx, hxs⟩ := pairwise_cons.mp hu
    exact ih (h.reinsert key id hx) hxs

theorem sorted_reinsertAll (hnodup : ((xs ++ rest).map id).Nodup)
    (hrest : Sorted key rest) (h : Unhindered key xs rest) :
    Sorted key (reinsertAll key id xs (xs ++ rest)) := by
  have hxs : (xs.map id).Nodup := by rw [map_append] at hnodup; exact hnodup.of_append_left
  have hmem : ∀ x ∈ xs, x ∈ xs ++ rest := fun x hx => mem_append_left rest hx
  refine Partly.reinsertAll key id ⟨hnodup, hmem, hxs, ?_, ?_⟩ h
  · refine pairwise_append.mpr ⟨?_, hrest.imp fun hle _ _ => hle, ?_⟩
    · exact pairwise_of_forall_mem_list fun x hx _ _ hw => absurd hx hw
    · exact fun x hx _ _ hw => absurd hx hw
  · refine pairwise_append.mpr ⟨?_, ?_, ?_⟩
    · exact pairwise_of_forall_mem_list fun _ _ y hy _ hw => absurd hy hw
    · exact pairwise_of_forall_mem_list fun _ _ y hy _ _ => .inl hy
    · exact fun _ _ y hy _ _ => .inl hy

end Reinsert

end SortedList
