import S2OPC.Common.Dict

/-!
# S2OPC.Common.DictInv

What the buckets of a dictionary mean. In the invariant `Core` every item is reachable on the probes of
its key, no two items have equal keys, and the counters count.
-/

set_option linter.unusedSectionVars false

namespace S2OPC
namespace Dict

open AssocMap Option

variable {K V : Type} [DecidableEq K] [Inhabited V]

def items (d : Dict K V) (bs : List (DictBucket K V)) : List (K × V) :=
  (bs.filter fun b => !d.isFree b).map fun b => (b.key, b.value)

def live (d : Dict K V) : List (K × V) := d.items d.buckets

/-- The bucket `idx` is met on the probes of `hash` with no empty bucket before it. -/
def Reaches (d : Dict K V) (hash : UInt64) (idx : Nat) : Prop :=
  ∃ i < d.size, d.probe hash i = idx ∧ ∀ j < i, (d.bucketAt (d.probe hash j)).key ≠ d.emptyKey

structure Core (f : DictKeyFuncs K) (d : Dict K V) : Prop where
  size_eq : ∃ k, 4 ≤ k ∧ k ≤ 60 ∧ d.size = 2 ^ k
  nItems_eq : d.nItems = d.live.length
  nItems_le : d.nItems ≤ d.nBusy
  reach : ∀ idx < d.size, d.isFree (d.bucketAt idx) = false →
    d.Reaches (f.hashFunc (d.bucketAt idx).key) idx
  distinct : Distinct f.toKeyEq d.live

section Store

variable {d : Dict K V} {idx : Nat} {b : DictBucket K V}

@[simp] theorem size_store : (d.store idx b).size = d.size := by simp [size, store]

@[simp] theorem emptyKey_store : (d.store idx b).emptyKey = d.emptyKey := rfl

@[simp] theorem probe_store (hash : UInt64) (i : Nat) :
    (d.store idx b).probe hash i = d.probe hash i := by simp [probe, sizemask]

theorem bucketAt_store (hidx : idx < d.size) (i : Nat) :
    (d.store idx b).bucketAt i = if i = idx then b else d.bucketAt i := by
  unfold size at hidx
  by_cases hi : i = idx
  · subst hi; simp [bucketAt, store, hidx]
  · simp [bucketAt, store, hi, List.getElem?_set_ne (Ne.symm hi)]

theorem items_perm {bs bs' : List (DictBucket K V)} (h : bs.Perm bs') :
    (d.items bs).Perm (d.items bs') :=
  (h.filter _).map _

theorem items_cons (bs : List (DictBucket K V)) :
    d.items (b :: bs) =
      if d.isFree b then d.items bs else (b.key, b.value) :: d.items bs := by
  cases h : d.isFree b <;> simp [items, h]

def others (d : Dict K V) (idx : Nat) : List (K × V) := d.items (d.buckets.eraseIdx idx)

theorem live_perm (hidx : idx < d.size) :
    d.live.Perm (if d.isFree (d.bucketAt idx) then d.others idx
      else ((d.bucketAt idx).key, (d.bucketAt idx).value) :: d.others idx) := by
  have hget : d.bucketAt idx = d.buckets[idx] := by unfold size at hidx; simp [bucketAt, hidx]
  have h := items_perm (d := d) (List.getElem_cons_eraseIdx_perm hidx).symm
  rw [items_cons, ← hget] at h
  exact h

theorem live_store_perm (hidx : idx < d.size) :
    (d.store idx b).live.Perm (if d.isFree b then d.others idx
      else (b.key, b.value) :: d.others idx) := by
  have h := items_perm (d := d) (List.set_perm_cons_eraseIdx hidx b)
  rw [items_cons] at h
  exact h

theorem Reaches.store {hash : UInt64} {i : Nat} (h : d.Reaches hash i) (hidx : idx < d.size)
    (hb : b.key ≠ d.emptyKey) : (d.store idx b).Reaches hash i := by
  obtain ⟨n, hn, hp, hbefore⟩ := h
  refine ⟨n, by simpa using hn, by simpa using hp, ?_⟩
  intro j hj; rw [probe_store, bucketAt_store hidx, emptyKey_store]
  split
  · exact hb
  · exact hbefore j hj

theorem reach_store {f : DictKeyFuncs K} (hidx : idx < d.size) (hb : b.key ≠ d.emptyKey)
    (hreach : ∀ i < d.size, d.isFree (d.bucketAt i) = false →
      d.Reaches (f.hashFunc (d.bucketAt i).key) i)
    (hnew : d.isFree b = false → d.Reaches (f.hashFunc b.key) idx) :
    ∀ i < (d.store idx b).size, d.isFree ((d.store idx b).bucketAt i) = false →
      (d.store idx b).Reaches (f.hashFunc ((d.store idx b).bucketAt i).key) i := by
  intro i hi hfree; rw [size_store] at hi
  rw [bucketAt_store hidx] at hfree ⊢
  split at hfree
  · rename_i heq; subst heq; rw [if_pos rfl]; exact (hnew hfree).store hidx hb
  · rename_i hne; rw [if_neg hne]; exact (hreach i hi hfree).store hidx hb

end Store

section Lookup

variable {f : DictKeyFuncs K} {d : Dict K V}

theorem mem_live {p : K × V} :
    p ∈ d.live ↔ ∃ idx < d.size, d.isFree (d.bucketAt idx) = false ∧
      p = ((d.bucketAt idx).key, (d.bucketAt idx).value) := by
  simp only [live, items, List.mem_map, List.mem_filter]
  constructor
  · rintro ⟨b, ⟨hb, hfree⟩, rfl⟩; obtain ⟨idx, hidx, rfl⟩ := List.mem_iff_getElem.mp hb
    refine ⟨idx, hidx, ?_⟩
    simp [bucketAt, hidx] at hfree ⊢
    exact hfree
  · rintro ⟨idx, hidx, hfree, rfl⟩; unfold size at hidx
    refine ⟨d.bucketAt idx, ⟨?_, by simp [hfree]⟩, rfl⟩
    simp [bucketAt, hidx]

theorem isFree_eq_false {b : DictBucket K V} :
    d.isFree b = false ↔ b.key ≠ d.emptyKey ∧ b.key ≠ d.tombstoneKey := by
  simp [isFree]

theorem lt_size_of_not_isFree {idx : Nat} (hfree : d.isFree (d.bucketAt idx) = false) :
    idx < d.size := by
  by_contra hge
  have hnone : d.buckets[idx]? = none := List.getElem?_eq_none (Nat.not_lt.mp hge)
  simp [bucketAt, isFree, hnone] at hfree

theorem getInternal_eq_some {f : DictFuncs K} {key : K} {idx : Nat} :
    getInternal f d key = some idx ↔ ∃ i < d.size, d.probe (f.hashFunc key) i = idx ∧
      d.isFree (d.bucketAt idx) = false ∧ f.eqv key (d.bucketAt idx).key = true ∧
      ∀ j < i, (d.bucketAt (d.probe (f.hashFunc key) j)).key ≠ d.emptyKey ∧
        (d.isFree (d.bucketAt (d.probe (f.hashFunc key) j)) = false →
          f.eqv key (d.bucketAt (d.probe (f.hashFunc key) j)).key = false) := by
  unfold getInternal
  rw [join_eq_some_iff, Scan.findSome?_range_eq_some]
  constructor
  · rintro ⟨i, hi, hfi, hbefore⟩; simp only at hfi
    split_ifs at hfi with he ht hk
    · simp at hfi
    obtain rfl := Option.some.inj (Option.some.inj hfi)
    refine ⟨i, hi, rfl, isFree_eq_false.mpr ⟨he, ht⟩, hk, ?_⟩
    intro j hj; have hfj := hbefore j hj
    simp only at hfj
    split_ifs at hfj with he' ht' hk'
    · refine ⟨he', fun hfree => ?_⟩; exact absurd ht' (isFree_eq_false.mp hfree).2
    · exact ⟨he', fun _ => by simpa using hk'⟩
  · rintro ⟨i, hi, rfl, hfree, hk, hbefore⟩; obtain ⟨he, ht⟩ := isFree_eq_false.mp hfree
    refine ⟨i, hi, by simp [he, ht, hk], ?_⟩
    intro j hj; obtain ⟨he', hk'⟩ := hbefore j hj
    by_cases ht' : (d.bucketAt (d.probe (f.hashFunc key) j)).key = d.tombstoneKey
    · rw [if_neg he', if_pos ht']
    · simp [he', ht', hk' (isFree_eq_false.mpr ⟨he', ht'⟩)]

theorem Distinct.idx_eq {i j : Nat} (h : Distinct f.toKeyEq d.live) (hi : i < d.size)
    (hj : j < d.size) (hfi : d.isFree (d.bucketAt i) = false)
    (hfj : d.isFree (d.bucketAt j) = false)
    (hk : f.eqv (d.bucketAt i).key (d.bucketAt j).key = true) : i = j := by
  by_contra hne
  -- Bucket `j` is among the buckets other than `i`.
  have hmem : ((d.bucketAt j).key, (d.bucketAt j).value) ∈ d.others i := by
    refine List.mem_map.mpr ⟨d.bucketAt j, List.mem_filter.mpr ⟨?_, by simp [hfj]⟩, rfl⟩
    unfold size at hi hj
    refine List.mem_eraseIdx_iff_getElem.mpr ⟨j, hj, Ne.symm hne, ?_⟩
    simp [bucketAt, hj]
  have hp := h.perm (live_perm hi)
  rw [hfi] at hp
  have := (List.pairwise_cons.mp hp).1 _ hmem
  rw [hk] at this
  cases this

theorem Core.getInternal_of_live (h : Core f d) {key : K} {idx : Nat} (hidx : idx < d.size)
    (hfree : d.isFree (d.bucketAt idx) = false) (hk : f.eqv key (d.bucketAt idx).key = true) :
    getInternal f d key = some idx := by
  obtain ⟨k, _, _, hsize⟩ := h.size_eq
  obtain ⟨i, hi, hp, hbefore⟩ := h.reach idx hidx hfree
  rw [← f.hash_eq _ _ hk] at hp hbefore
  -- The first probe that meets the bucket is the one the search stops at.
  have hex : ∃ i, i < d.size ∧ d.probe (f.hashFunc key) i = idx := ⟨i, hi, hp⟩
  obtain ⟨hn, hpn⟩ := Nat.find_spec hex
  refine getInternal_eq_some.mpr ⟨Nat.find hex, hn, hpn, hfree, hk, ?_⟩
  intro j hj; have hji : j < i := lt_of_lt_of_le hj (Nat.find_min' hex ⟨hi, hp⟩)
  refine ⟨hbefore j hji, fun hfj => ?_⟩
  by_contra hkj
  rw [Bool.not_eq_false] at hkj
  have hlt := probe_lt hsize (f.hashFunc key) j
  have heq : d.probe (f.hashFunc key) j = idx := by
    refine Distinct.idx_eq h.distinct hlt hidx hfj hfree ?_
    rw [KeyEq.congr (f.symm _ _ hkj)]
    exact hk
  exact Nat.find_min hex hj ⟨by omega, heq⟩

theorem Core.getInternal_eq_none (h : Core f d) {key : K} :
    getInternal f d key = none ↔ ∀ p ∈ d.live, f.eqv key p.1 = false := by
  obtain ⟨k, _, _, hsize⟩ := h.size_eq
  constructor
  · intro hnone p hp; obtain ⟨idx, hidx, hfree, rfl⟩ := mem_live.mp hp
    by_contra hk
    rw [Bool.not_eq_false] at hk
    rw [h.getInternal_of_live hidx hfree hk] at hnone
    cases hnone
  · intro hall
    cases hg : getInternal f d key with
    | none => rfl
    | some idx =>
      obtain ⟨i, _, rfl, hfree, hk, _⟩ := getInternal_eq_some.mp hg
      have := hall _ (mem_live.mpr ⟨_, probe_lt hsize _ i, hfree, rfl⟩)
      cases hk.symm.trans this

theorem Core.get_eq_lookup (h : Core f d) {key : K} (he : key ≠ d.emptyKey)
    (ht : key ≠ d.tombstoneKey) : get f d key = some (lookup f.toKeyEq d.live key) := by
  obtain ⟨k, _, _, hsize⟩ := h.size_eq
  simp only [get, he, ht, ne_eq, not_false_eq_true, and_self, if_true, some.injEq]
  cases hg : getInternal f d key with
  | none =>
    have hall := h.getInternal_eq_none.mp hg
    simpa [lookup, List.find?_eq_none] using hall
  | some idx =>
    obtain ⟨i, _, rfl, hfree, hk, _⟩ := getInternal_eq_some.mp hg
    refine ((lookup_eq_some_iff h.distinct).mpr ⟨_, ?_, hk⟩).symm
    exact mem_live.mpr ⟨_, probe_lt hsize _ i, hfree, rfl⟩

end Lookup

/-! ## Key functions that agree

A dictionary does not tell apart key functions that give the same hashes and compare a key with the
stored ones in the same way. -/

section Congruence

variable {f g : DictFuncs K} {d : Dict K V} {key : K}

theorem getInternal_congr (hhash : f.hashFunc key = g.hashFunc key)
    (heqv : ∀ idx, d.isFree (d.bucketAt idx) = false →
      f.eqv key (d.bucketAt idx).key = g.eqv key (d.bucketAt idx).key) :
    getInternal f d key = getInternal g d key := by
  unfold getInternal
  rw [hhash]
  congr 2
  funext i
  simp only
  split_ifs with he ht hf hg hg
  · rfl
  · rfl
  · rfl
  · rw [heqv _ (isFree_eq_false.mpr ⟨he, ht⟩)] at hf; exact absurd hf hg
  · rw [heqv _ (isFree_eq_false.mpr ⟨he, ht⟩)] at hf; exact absurd hg hf
  · rfl

theorem get_congr (hhash : f.hashFunc key = g.hashFunc key)
    (heqv : ∀ idx, d.isFree (d.bucketAt idx) = false →
      f.eqv key (d.bucketAt idx).key = g.eqv key (d.bucketAt idx).key) :
    get f d key = get g d key := by
  unfold get; rw [getInternal_congr hhash heqv]

theorem maybeResize_congr (hhash : f.hashFunc = g.hashFunc) (alloc : Bool) (delta : Nat) :
    maybeResize f alloc d delta = maybeResize g alloc d delta := by
  have hreinsert : (reinsert f : Dict K V → _) = reinsert g := by
    funext d b
    simp [reinsert, insertItem, hhash]
  unfold maybeResize dictResize
  rw [hreinsert]

theorem insert_congr (hhash : f.hashFunc = g.hashFunc) (heqv : ∀ k, f.eqv key k = g.eqv key k)
    (alloc : Bool) (value : V) : insert f alloc d key value = insert g alloc d key value := by
  unfold insert insertItem
  rw [maybeResize_congr hhash]
  simp [hhash, heqv]

end Congruence

end Dict
end S2OPC
