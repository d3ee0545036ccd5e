import S2OPC.Common.DictInv

/-!
# S2OPC.Common.DictRefine

What the operations of the dictionary do to its finite map of items.
-/

set_option linter.unusedSectionVars false

namespace S2OPC
namespace Dict

open AssocMap List

variable {K V : Type} [DecidableEq K] [Inhabited V] {f : DictKeyFuncs K} {d d' : Dict K V}

variable {key : K} {value : V} {k i size nItems : Nat}

theorem insertItem_eq_some {f : DictFuncs K} {hash : UInt64} {overwrite : Bool} :
    insertItem f d hash key value overwrite = some d' ↔ ∃ i < d.size,
      (∀ j < i, d.isFree (d.bucketAt (d.probe hash j)) = false ∧
        (overwrite = true → f.eqv key (d.bucketAt (d.probe hash j)).key = false)) ∧
      ((d.isFree (d.bucketAt (d.probe hash i)) = true ∧
          d' = d.storeNew (d.probe hash i) ⟨key, value⟩) ∨
        (d.isFree (d.bucketAt (d.probe hash i)) = false ∧ overwrite = true ∧
          f.eqv key (d.bucketAt (d.probe hash i)).key = true ∧
          d' = d.store (d.probe hash i) ⟨key, value⟩)) := by
  unfold insertItem
  rw [Scan.findSome?_range_eq_some]
  refine exists_congr fun i => and_congr_right fun _ => ?_
  rw [and_comm]
  refine and_congr (forall₂_congr fun j _ => ?_) ?_
  · cases hf : d.isFree (d.bucketAt (d.probe hash j)) <;> cases overwrite <;>
      cases hk : f.eqv key (d.bucketAt (d.probe hash j)).key <;> simp [hf, hk]
  · cases hf : d.isFree (d.bucketAt (d.probe hash i)) <;> cases overwrite <;>
      cases hk : f.eqv key (d.bucketAt (d.probe hash i)).key <;> simp [hf, hk, eq_comm]

theorem length_live :
    d.live.length = ((List.range d.size).filter fun idx => !d.isFree (d.bucketAt idx)).length := by
  have hbuckets : d.buckets = (List.range d.size).map d.bucketAt := by
    refine ext_getElem (by simp [size]) ?_
    intro i h₁ h₂; simp [bucketAt, h₁]
  have : d.live = (((List.range d.size).filter fun idx => !d.isFree (d.bucketAt idx)).map
      d.bucketAt).map fun b => (b.key, b.value) := by
    conv_lhs => rw [live, items, hbuckets, filter_map]
    rfl
  rw [this, length_map, length_map]

theorem insertItem_isSome {f : DictFuncs K} (hsize : d.size = 2 ^ k) (hk : k ≤ 63)
    (hlen : d.live.length < d.size / 2) (hash : UInt64) (key : K) (value : V) (overwrite : Bool) :
    ∃ d', insertItem f d hash key value overwrite = some d' := by
  rw [length_live] at hlen
  obtain ⟨i, hi, hfree⟩ := Scan.exists_notMem_of_injOn _ (probe_injOn hsize hk hash) hlen
  have hfree' : d.isFree (d.bucketAt (d.probe hash (2 * i))) = true := by
    by_contra hne
    exact hfree (mem_filter.mpr ⟨mem_range.mpr (probe_lt hsize hash (2 * i)), by simp [hne]⟩)
  exact Scan.findSome?_range_isSome (i := 2 * i) (by omega) (by simp [hfree'])

theorem Core.storeNew (h : Core f d) (hi : i < d.size)
    (he : key ≠ d.emptyKey) (ht : key ≠ d.tombstoneKey)
    (hbefore : ∀ j < i, d.isFree (d.bucketAt (d.probe (f.hashFunc key) j)) = false)
    (hfree : d.isFree (d.bucketAt (d.probe (f.hashFunc key) i)) = true)
    (hnew : ∀ p ∈ d.live, f.eqv key p.1 = false) :
    Core f (d.storeNew (d.probe (f.hashFunc key) i) ⟨key, value⟩) ∧
      (d.storeNew (d.probe (f.hashFunc key) i) ⟨key, value⟩).live.Perm
        ((key, value) :: d.live) := by
  obtain ⟨k, hk4, hk, hsize⟩ := h.size_eq
  have hlt := probe_lt hsize (f.hashFunc key) i
  have hkey : d.isFree (⟨key, value⟩ : DictBucket K V) = false := isFree_eq_false.mpr ⟨he, ht⟩
  have hlive : (d.storeNew (d.probe (f.hashFunc key) i) ⟨key, value⟩).live.Perm
      ((key, value) :: d.live) := by
    have h₁ := live_store_perm (b := ⟨key, value⟩) hlt
    have h₂ := live_perm hlt
    rw [hkey] at h₁
    rw [hfree] at h₂
    exact h₁.trans (h₂.symm.cons _)
  refine ⟨⟨⟨k, hk4, hk, ?_⟩, ?_, ?_, ?_, ?_⟩, hlive⟩
  · exact (size_store).trans hsize
  · have := hlive.length_eq
    simp [Dict.storeNew, h.nItems_eq] at this ⊢
    omega
  · have := h.nItems_le; simp [Dict.storeNew]; omega
  · refine reach_store hlt he h.reach fun _ => ⟨i, hi, rfl, ?_⟩
    intro j hj; exact (isFree_eq_false.mp (hbefore j hj)).1
  · have : Distinct f.toKeyEq ((key, value) :: d.live) :=
      pairwise_cons.mpr ⟨hnew, h.distinct⟩
    exact this.perm hlive.symm

theorem Core.insertItem_new (h : Core f d) (he : key ≠ d.emptyKey)
    (ht : key ≠ d.tombstoneKey) (hhalf : 2 * (d.nItems + 1) ≤ d.size)
    (hnew : ∀ p ∈ d.live, f.eqv key p.1 = false) (value : V) (overwrite : Bool) :
    ∃ i < d.size, d.isFree (d.bucketAt (d.probe (f.hashFunc key) i)) = true ∧
      insertItem f d (f.hashFunc key) key value overwrite =
        some (d.storeNew (d.probe (f.hashFunc key) i) ⟨key, value⟩) ∧
      Core f (d.storeNew (d.probe (f.hashFunc key) i) ⟨key, value⟩) ∧
      (d.storeNew (d.probe (f.hashFunc key) i) ⟨key, value⟩).live.Perm
        ((key, value) :: d.live) := by
  obtain ⟨k, _, hk, hsize⟩ := h.size_eq
  have hlen : d.live.length < d.size / 2 := by rw [← h.nItems_eq]; omega
  obtain ⟨d', hd'⟩ := insertItem_isSome (f := f) hsize (by omega) hlen (f.hashFunc key) key value
    overwrite
  obtain ⟨i, hi, hbefore, ⟨hfree, rfl⟩ | ⟨hfree, _, hkey, _⟩⟩ := insertItem_eq_some.mp hd'
  · exact ⟨i, hi, hfree, hd', h.storeNew hi he ht (fun j hj => (hbefore j hj).1) hfree hnew⟩
  · cases hkey.symm.trans (hnew _ (mem_live.mpr ⟨_, probe_lt hsize _ i, hfree, rfl⟩))

/-- A tombstone comes first on the probes of the key, before any empty bucket and before the
bucket of the key. -/
def tombstoneFirst (f : DictKeyFuncs K) (d : Dict K V) (key : K) : Bool :=
  ((List.range d.size).findSome? fun i =>
    let bucketKey := (d.bucketAt (d.probe (f.hashFunc key) i)).key
    if bucketKey = d.emptyKey then some false
    else if bucketKey = d.tombstoneKey then some true
    else if f.eqv key bucketKey then some false
    else none) == some true

theorem not_isFree_before (htomb : tombstoneFirst f d key = false)
    (hi : i < d.size)
    (hbefore : ∀ j < i, (d.bucketAt (d.probe (f.hashFunc key) j)).key ≠ d.emptyKey ∧
      (d.isFree (d.bucketAt (d.probe (f.hashFunc key) j)) = false →
        f.eqv key (d.bucketAt (d.probe (f.hashFunc key) j)).key = false)) :
    ∀ j < i, d.isFree (d.bucketAt (d.probe (f.hashFunc key) j)) = false := by
  intro j
  induction j using Nat.strong_induction_on with
  | _ j ih =>
    intro hj; by_contra hfree
    have htj : (d.bucketAt (d.probe (f.hashFunc key) j)).key = d.tombstoneKey := by
      by_contra hne
      exact hfree (isFree_eq_false.mpr ⟨(hbefore j hj).1, hne⟩)
    have : tombstoneFirst f d key = true := by
      unfold tombstoneFirst
      rw [beq_iff_eq, Scan.findSome?_range_eq_some]
      refine ⟨j, by omega, ?_, fun j' hj' => ?_⟩
      · rw [if_neg (hbefore j hj).1, if_pos htj]
      · have hf := ih j' hj' (by omega)
        obtain ⟨he, ht⟩ := isFree_eq_false.mp hf
        simp [he, ht, (hbefore j' (by omega)).2 hf]
    rw [this] at htomb
    cases htomb

theorem Core.insertItem_stored (h : Core f d) {idx : Nat} (he : key ≠ d.emptyKey)
    (ht : key ≠ d.tombstoneKey) (hget : getInternal f d key = some idx)
    (htomb : tombstoneFirst f d key = false) (value : V) :
    insertItem f d (f.hashFunc key) key value true = some (d.store idx ⟨key, value⟩) ∧
      Core f (d.store idx ⟨key, value⟩) ∧
      (d.store idx ⟨key, value⟩).live.Perm (AssocMap.insert f.toKeyEq d.live key value) := by
  obtain ⟨k, hk4, hk, hsize⟩ := h.size_eq
  obtain ⟨i, hi, rfl, hfree, hkey, hbefore⟩ := getInternal_eq_some.mp hget
  have hfull := not_isFree_before htomb hi hbefore
  have hlt := probe_lt hsize (f.hashFunc key) i
  have hkeyFree : d.isFree (⟨key, value⟩ : DictBucket K V) = false := isFree_eq_false.mpr ⟨he, ht⟩
  have hold := live_perm hlt
  have hnew := live_store_perm (b := ⟨key, value⟩) hlt
  rw [hfree] at hold
  rw [hkeyFree] at hnew
  have hlive : (d.store (d.probe (f.hashFunc key) i) ⟨key, value⟩).live.Perm
      (AssocMap.insert f.toKeyEq d.live key value) :=
    hnew.trans ((erase_perm_of_mem h.distinct hold hkey).symm.cons _)
  refine ⟨insertItem_eq_some.mpr ⟨i, hi, fun j hj => ⟨hfull j hj, fun _ =>
    (hbefore j hj).2 (hfull j hj)⟩, .inr ⟨hfree, rfl, hkey, rfl⟩⟩, ⟨⟨k, hk4, hk, ?_⟩,
    ?_, h.nItems_le, ?_, ?_⟩, hlive⟩
  · exact size_store.trans hsize
  · have h₁ := hold.length_eq
    have h₂ := hnew.length_eq
    simp only [Bool.false_eq_true, if_false, length_cons] at h₁ h₂
    rw [h₂, ← h₁]
    exact h.nItems_eq
  · exact reach_store hlt he h.reach fun _ => ⟨i, hi, rfl, fun j hj => (hbefore j hj).1⟩
  · exact (h.distinct.insert key value).perm hlive.symm

def NoTombstone (d : Dict K V) : Prop :=
  ∀ idx < d.size, (d.bucketAt idx).key ≠ d.emptyKey → (d.bucketAt idx).key ≠ d.tombstoneKey

theorem NoTombstone.tombstoneFirst (h : d.NoTombstone) (hsize : d.size = 2 ^ k)
    (key : K) : tombstoneFirst f d key = false := by
  unfold Dict.tombstoneFirst
  by_contra htrue
  rw [Bool.not_eq_false, beq_iff_eq, Scan.findSome?_range_eq_some] at htrue
  obtain ⟨i, _, hi, _⟩ := htrue
  have hno := h _ (probe_lt hsize (f.hashFunc key) i)
  simp only at hi
  split_ifs at hi with he ht
  · simp at hi
  · exact hno he ht
  · simp at hi

structure Resized (f : DictKeyFuncs K) (d d' : Dict K V) : Prop where
  core : Core f d'
  emptyKey_eq : d'.emptyKey = d.emptyKey
  tombstoneKey_eq : d'.tombstoneKey = d.tombstoneKey
  live_perm : d'.live.Perm d.live

theorem reinsert_loop (bs : List (DictBucket K V)) (d : Dict K V) (h : Core f d)
    (hno : d.NoTombstone) (hhalf : 2 * (d.nItems + (d.items bs).length) ≤ d.size)
    (hdist : Distinct f.toKeyEq (d.items bs ++ d.live)) :
    ∃ d', bs.foldlM (reinsert f) d = some d' ∧ Core f d' ∧ d'.NoTombstone ∧
      d'.size = d.size ∧ d'.emptyKey = d.emptyKey ∧ d'.tombstoneKey = d.tombstoneKey ∧
      d'.live.Perm (d.items bs ++ d.live) := by
  induction bs generalizing d with
  | nil => exact ⟨d, rfl, h, hno, rfl, rfl, rfl, List.Perm.refl _⟩
  | cons b bs ih =>
    rw [foldlM_cons]
    rw [items_cons] at hhalf hdist ⊢
    cases hfree : d.isFree b with
    | true =>
      simp only [hfree, if_true] at hhalf hdist ⊢
      simp only [reinsert, hfree, if_true]
      exact ih d h hno hhalf hdist
    | false =>
      simp only [hfree, Bool.false_eq_true, if_false, length_cons, cons_append] at hhalf hdist ⊢
      obtain ⟨he, ht⟩ := isFree_eq_false.mp hfree
      obtain ⟨hb, hrest⟩ := pairwise_cons.mp hdist
      obtain ⟨i, hi, _, hins, hcore, hlive⟩ := h.insertItem_new he ht (by omega)
        (fun p hp => hb p (mem_append_right _ hp)) b.value false
      obtain ⟨k, _, _, hsize⟩ := h.size_eq
      have hlt := probe_lt hsize (f.hashFunc b.key) i
      have hsize₁ : (d.storeNew (d.probe (f.hashFunc b.key) i) ⟨b.key, b.value⟩).size = d.size :=
        size_store
      have hperm : (d.items bs ++
          (d.storeNew (d.probe (f.hashFunc b.key) i) ⟨b.key, b.value⟩).live).Perm
          ((b.key, b.value) :: (d.items bs ++ d.live)) :=
        (hlive.append_left _).trans perm_middle
      have hno₁ : (d.storeNew (d.probe (f.hashFunc b.key) i) ⟨b.key, b.value⟩).NoTombstone := by
        intro idx hidx
        have : (d.storeNew (d.probe (f.hashFunc b.key) i) ⟨b.key, b.value⟩).bucketAt idx =
            if idx = d.probe (f.hashFunc b.key) i then ⟨b.key, b.value⟩ else d.bucketAt idx :=
          bucketAt_store hlt idx
        rw [this]
        split
        · exact fun _ => ht
        · exact hno idx (hsize₁ ▸ hidx)
      obtain ⟨d', hd', hcore', hno', hsize', he', ht', hlive'⟩ := ih _ hcore hno₁
        (by rw [hsize₁]; show 2 * (d.nItems + 1 + (d.items bs).length) ≤ d.size; omega)
        (Distinct.perm hdist hperm.symm)
      simp only [reinsert, hfree, Bool.false_eq_true, if_false, hins]
      exact ⟨d', hd', hcore', hno', hsize'.trans hsize₁, he', ht', hlive'.trans hperm⟩

theorem core_emptied (hk4 : 4 ≤ k) (hk : k ≤ 60) (hsize : size = 2 ^ k) :
    Core f (d.emptied size) ∧ (d.emptied size).NoTombstone ∧ (d.emptied size).live = [] := by
  have hlive : (d.emptied size).live = [] := by simp [live, items, emptied, isFree]
  have hbucket : ∀ idx, ((d.emptied size).bucketAt idx).key = d.emptyKey := by
    intro idx; simp only [bucketAt, emptied, getD_eq_getElem?_getD, getElem?_replicate]
    split <;> rfl
  refine ⟨⟨⟨k, hk4, hk, ?_⟩, ?_, le_refl _, ?_, ?_⟩, ?_, hlive⟩
  · simp [Dict.size, emptied, hsize]
  · rw [hlive]; rfl
  · intro idx _ hfree; exact absurd (hbucket idx) (isFree_eq_false.mp hfree).1
  · rw [hlive]; exact List.Pairwise.nil
  · intro idx _ hne; exact absurd (hbucket idx) hne

theorem minimumDictSizeLoop_spec (fuel k : Nat)
    (h : 2 * nItems ≤ 2 ^ (k + fuel)) :
    ∃ k', k ≤ k' ∧ minimumDictSizeLoop fuel (2 ^ k) nItems = 2 ^ k' ∧ 2 * nItems ≤ 2 ^ k' := by
  induction fuel generalizing k with
  | zero => exact ⟨k, le_refl _, rfl, h⟩
  | succ fuel ih =>
    simp only [minimumDictSizeLoop]
    split
    · obtain ⟨k', hk', heq, hle⟩ := ih (k + 1)
        (by rw [show k + 1 + fuel = k + (fuel + 1) by omega]; exact h)
      exact ⟨k', by omega, heq, hle⟩
    · exact ⟨k, le_refl _, rfl, by omega⟩

theorem minimumDictSize_spec (h : 2 * nItems ≤ 2 ^ 68) :
    ∃ k, 4 ≤ k ∧ minimumDictSize initialSize nItems = 2 ^ k ∧ 2 * nItems ≤ 2 ^ k :=
  minimumDictSizeLoop_spec 64 4 h

/-- The invariant of a dictionary between two operations: at most half of the buckets hold an
item. -/
structure Wf (f : DictKeyFuncs K) (d : Dict K V) : Prop extends Core f d where
  half : 2 * d.nItems ≤ d.size

theorem dictResize_cases {f : DictFuncs K} (alloc : Bool) (hsize : size = 2 ^ k) :
    (dictResize f alloc d size = some (false, d) ∧ callocBuckets alloc size = false) ∨
      (k ≤ 60 ∧ dictResize f alloc d size =
        (d.buckets.foldlM (reinsert f) (d.emptied size)).map fun d' => (true, d')) := by
  have hpow : ¬(size &&& (size - 1) ≠ 0) := by rw [hsize, Nat.and_two_pow_sub_one_eq_mod]; simp
  unfold dictResize
  rw [if_neg hpow]
  split
  · next halloc =>
    refine .inr ⟨?_, rfl⟩
    simp only [callocBuckets, Bool.and_eq_true, decide_eq_true_eq, hsize] at halloc
    by_contra hgt
    have : 2 ^ 61 ≤ 2 ^ k := Nat.pow_le_pow_right (by omega) (by omega)
    omega
  · next halloc => exact .inl ⟨rfl, by simpa using halloc⟩

theorem Wf.dictResize (h : Wf f d) (alloc : Bool) (hsize : size = 2 ^ k)
    (hk4 : 4 ≤ k) (hhalf : 2 * d.nItems ≤ size) :
    Dict.dictResize f alloc d size = some (false, d) ∨
      ∃ d', Dict.dictResize f alloc d size = some (true, d') ∧ Resized f d d' ∧
        d'.NoTombstone ∧ d'.size = size := by
  obtain ⟨hfail, _⟩ | ⟨hk, hloop⟩ := dictResize_cases (f := f) (d := d) alloc hsize
  · exact .inl hfail
  obtain ⟨hcore, hno, hlive⟩ := core_emptied (f := f) (d := d) hk4 hk hsize
  have hitems : (d.emptied size).items d.buckets = d.live := rfl
  obtain ⟨d', hd', hcore', hno', hsize', he', ht', hlive'⟩ :=
    reinsert_loop d.buckets (d.emptied size) hcore hno
      (by
        rw [hitems, ← h.nItems_eq]
        simpa [emptied, Dict.size] using hhalf)
      (by rw [hitems, hlive, append_nil]; exact h.distinct)
  rw [hitems, hlive, append_nil] at hlive'
  refine .inr ⟨d', by rw [hloop, hd']; rfl, ⟨hcore', he', ht', hlive'⟩, hno', ?_⟩
  rw [hsize']
  simp [emptied, Dict.size]

theorem Resized.nItems_eq (h : Resized f d d') (hd : Core f d) : d'.nItems = d.nItems := by
  rw [h.core.nItems_eq, hd.nItems_eq]; exact h.live_perm.length_eq

theorem targetSize_room {delta : Nat} (hk4 : 4 ≤ k) (hk : k ≤ 60) (hsize : d.size = 2 ^ k)
    (hbusy : d.nItems ≤ d.nBusy) (hhalf : 2 * d.nItems ≤ d.size) (hdelta : delta ≤ 1) :
    ∃ k', 4 ≤ k' ∧ d.targetSize delta = 2 ^ k' ∧ 2 * (d.nItems + delta) ≤ 2 ^ k' := by
  have hbound : 2 * (d.nItems + delta) ≤ 2 ^ 68 := by
    have : 2 ^ k ≤ 2 ^ 60 := Nat.pow_le_pow_right (by omega) hk
    omega
  unfold targetSize
  split
  · exact minimumDictSize_spec hbound
  · exact ⟨k, hk4, hsize, by omega⟩

theorem Wf.maybeResize (h : Wf f d) (alloc : Bool) {delta : Nat} (hdelta : delta ≤ 1) :
    (d.size ≠ d.targetSize delta ∧ Dict.maybeResize f alloc d delta = some (false, d)) ∨
      ∃ d', Dict.maybeResize f alloc d delta = some (true, d') ∧ Resized f d d' ∧
        2 * (d.nItems + delta) ≤ d'.size ∧ (d.size ≠ d.targetSize delta → d'.NoTombstone) ∧
        (d.size = d.targetSize delta → d' = d) := by
  obtain ⟨k, hk4, hk, hsize⟩ := h.size_eq
  obtain ⟨k', hk', htarget, hle⟩ := targetSize_room hk4 hk hsize h.nItems_le h.half hdelta
  unfold Dict.maybeResize
  by_cases heq : d.size = d.targetSize delta
  · exact .inr ⟨d, by rw [if_pos heq], ⟨h.toCore, rfl, rfl, List.Perm.refl _⟩, by omega,
      fun hne => absurd heq hne, fun _ => rfl⟩
  rw [if_neg heq]
  obtain hfail | ⟨d', hd', hres, hno, hsize'⟩ := h.dictResize alloc htarget hk' (by omega)
  · exact .inl ⟨heq, hfail⟩
  · exact .inr ⟨d', hd', hres, by omega, fun _ => hno, fun h => absurd h heq⟩

end Dict
end S2OPC
