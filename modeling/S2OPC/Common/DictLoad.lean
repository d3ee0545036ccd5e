import S2OPC.Common.DictRun
import S2OPC.Lib.Fallible

/-!
# S2OPC.Common.DictLoad

How full the table of a dictionary gets in a run, for any key functions. A round of probes does not
visit all buckets, nor does an empty one always remain. An insertion finds a bucket all the same: the
items take at most half of the table and a round visits at least half of it.
-/

set_option linter.unusedSectionVars false

namespace S2OPC
namespace Dict

open List

variable {K V : Type} [DecidableEq K] [Inhabited V] {f : DictFuncs K} {d : Dict K V}
  {emptyKey tombstoneKey key : K} {k idx : Nat} {b : DictBucket K V}

def start (emptyKey tombstoneKey : K) : Dict K V := { create emptyKey with tombstoneKey }

def apply (f : DictFuncs K) (d : Dict K V) : Op K V → Option (Dict K V)
  | .insert alloc key value => (insert f alloc d key value).map Prod.snd
  | .remove alloc key => remove f alloc d key

/-- What the assertions ask of a caller: no reserved key, and no removal without a tombstone key. -/
def Op.Allowed (emptyKey tombstoneKey : K) (op : Op K V) : Prop :=
  op.key ≠ emptyKey ∧ op.key ≠ tombstoneKey ∧
    ∀ alloc key, op = .remove alloc key → emptyKey ≠ tombstoneKey

def visited (d : Dict K V) (hash : UInt64) : Finset Nat := (Finset.range d.size).image (d.probe hash)

def nonEmpty (d : Dict K V) : Nat := (d.buckets.filter fun b => b.key != d.emptyKey).length

structure Counted (emptyKey tombstoneKey : K) (d : Dict K V) : Prop where
  size_eq : ∃ k, 4 ≤ k ∧ k ≤ 60 ∧ d.size = 2 ^ k
  nItems_eq : d.nItems = d.live.length
  nItems_le : d.nItems ≤ d.nBusy
  emptyKey_eq : d.emptyKey = emptyKey
  tombstoneKey_eq : d.tombstoneKey = tombstoneKey

theorem half_le_card_visited (hsize : d.size = 2 ^ k) (hk : k ≤ 63) (hash : UInt64) :
    d.size / 2 ≤ (d.visited hash).card := by
  have hinj : Set.InjOn (fun j => d.probe hash (2 * j)) (Finset.range (d.size / 2)) := by
    intro i hi j hj h
    exact probe_injOn hsize hk hash i (by simpa using hi) j (by simpa using hj) h
  have hsub : (Finset.range (d.size / 2)).image (fun j => d.probe hash (2 * j)) ⊆ d.visited hash := by
    intro x hx
    obtain ⟨j, hj, rfl⟩ := Finset.mem_image.1 hx
    exact Finset.mem_image_of_mem _ (by simp at hj ⊢; omega)
  simpa [Finset.card_image_of_injOn hinj] using Finset.card_le_card hsub

theorem live_store_length (hidx : idx < d.size) :
    (d.store idx b).live.length + (if d.isFree (d.bucketAt idx) then 0 else 1) =
      d.live.length + (if d.isFree b then 0 else 1) := by
  have hold := (live_perm hidx).length_eq
  have hnew := (live_store_perm (b := b) hidx).length_eq
  split at hold <;> split at hnew <;> simp_all

theorem Counted.insertItem (h : Counted emptyKey tombstoneKey d) (he : key ≠ emptyKey)
    (ht : key ≠ tombstoneKey) (hroom : 2 * (d.nItems + 1) ≤ d.size) (hash : UInt64) (value : V)
    (overwrite : Bool) :
    ∃ d', Dict.insertItem f d hash key value overwrite = some d' ∧
      Counted emptyKey tombstoneKey d' ∧ d'.size = d.size ∧ d'.nItems ≤ d.nItems + 1 := by
  obtain ⟨⟨k, hk4, hk, hsize⟩, hitems, hbusy, rfl, rfl⟩ := h
  obtain ⟨d', hd'⟩ := insertItem_isSome (f := f) hsize (by omega) (by omega) hash key value overwrite
  refine ⟨d', hd', ?_⟩
  obtain ⟨i, -, -, hcase⟩ := insertItem_eq_some.1 hd'
  have hlen := live_store_length (b := ⟨key, value⟩) (probe_lt hsize hash i)
  rw [show d.isFree (⟨key, value⟩ : DictBucket K V) = false from isFree_eq_false.2 ⟨he, ht⟩] at hlen
  have hstore : (d.store (d.probe hash i) ⟨key, value⟩).size = d.size := size_store
  obtain ⟨hfree, rfl⟩ | ⟨hfree, -, -, rfl⟩ := hcase <;> rw [hfree] at hlen
  · refine ⟨⟨⟨k, hk4, hk, hstore.trans hsize⟩, ?_, Nat.succ_le_succ hbusy, rfl, rfl⟩, hstore, le_rfl⟩
    exact (congrArg (· + 1) hitems).trans hlen.symm
  · refine ⟨⟨⟨k, hk4, hk, hstore.trans hsize⟩, ?_, hbusy, rfl, rfl⟩, hstore, Nat.le_succ _⟩
    exact hitems.trans (Nat.succ.inj hlen).symm

theorem Counted.reinsert (h : Counted emptyKey tombstoneKey d) (bs : List (DictBucket K V))
    (hroom : 2 * (d.nItems + (d.items bs).length) ≤ d.size) :
    ∃ d', bs.foldlM (Dict.reinsert f) d = some d' ∧ Counted emptyKey tombstoneKey d' ∧
      d'.size = d.size ∧ d'.nItems ≤ d.nItems + (d.items bs).length := by
  induction bs generalizing d with
  | nil => exact ⟨d, rfl, h, rfl, Nat.le_add_right _ _⟩
  | cons b bs ih =>
    rw [foldlM_cons]
    rw [items_cons] at hroom ⊢
    cases hfree : d.isFree b with
    | true =>
      simp only [hfree, if_true, Dict.reinsert] at hroom ⊢
      exact ih h hroom
    | false =>
      simp only [hfree, Bool.false_eq_true, if_false, length_cons, Dict.reinsert] at hroom ⊢
      obtain ⟨he, ht⟩ := isFree_eq_false.1 hfree
      rw [h.emptyKey_eq] at he
      rw [h.tombstoneKey_eq] at ht
      obtain ⟨d₁, hd₁, h₁, hsize₁, hn₁⟩ := h.insertItem (f := f) he ht (by omega)
        (f.hashFunc b.key) b.value false
      have hitems : d₁.items bs = d.items bs := by
        simp [items, isFree, h.emptyKey_eq, h.tombstoneKey_eq, h₁.emptyKey_eq, h₁.tombstoneKey_eq]
      obtain ⟨d', hd', h', hsize', hn'⟩ := ih h₁ (by rw [hitems, hsize₁]; omega)
      rw [hitems] at hn'
      exact ⟨d', by rw [hd₁]; exact hd', h', hsize'.trans hsize₁, by omega⟩

theorem Counted.maybeResize (h : Counted emptyKey tombstoneKey d) (hhalf : 2 * d.nItems ≤ d.size)
    (alloc : Bool) {delta : Nat} (hdelta : delta ≤ 1) :
    (Dict.maybeResize f alloc d delta = some (false, d) ∧
        callocBuckets alloc (d.targetSize delta) = false) ∨
      ∃ d', Dict.maybeResize f alloc d delta = some (true, d') ∧
        Counted emptyKey tombstoneKey d' ∧ 2 * (d'.nItems + delta) ≤ d'.size := by
  obtain ⟨k, hk4, hk, hsize⟩ := h.size_eq
  obtain ⟨k', hk', htarget, hle⟩ := targetSize_room hk4 hk hsize h.nItems_le hhalf hdelta
  unfold Dict.maybeResize
  by_cases heq : d.size = d.targetSize delta
  · exact .inr ⟨d, by rw [if_pos heq], h, by omega⟩
  rw [if_neg heq]
  obtain hfail | ⟨hk60, hloop⟩ := dictResize_cases (f := f) (d := d) alloc htarget
  · exact .inl hfail
  have hempty : Counted emptyKey tombstoneKey (d.emptied (d.targetSize delta)) :=
    ⟨⟨k', hk', hk60, by simp [size, emptied, htarget]⟩, by simp [live, items, emptied, isFree],
      le_rfl, h.emptyKey_eq, h.tombstoneKey_eq⟩
  have hitems : (d.emptied (d.targetSize delta)).items d.buckets = d.live := rfl
  have hsize₀ : (d.emptied (d.targetSize delta)).size = d.targetSize delta := by simp [size, emptied]
  have hn₀ : (d.emptied (d.targetSize delta)).nItems = 0 := rfl
  obtain ⟨d', hd', h', hsize', hn'⟩ := hempty.reinsert (f := f) d.buckets
    (by rw [hitems, ← h.nItems_eq]; omega)
  rw [hitems, ← h.nItems_eq] at hn'
  exact .inr ⟨d', by rw [hloop, hd']; rfl, h', by omega⟩

theorem Counted.insert (h : Counted emptyKey tombstoneKey d) (hhalf : 2 * d.nItems ≤ d.size)
    (alloc : Bool) (he : key ≠ emptyKey) (ht : key ≠ tombstoneKey) (value : V) :
    (Dict.insert f alloc d key value = some (false, d) ∧
        callocBuckets alloc (d.targetSize 1) = false) ∨
      ∃ d', Dict.insert f alloc d key value = some (true, d') ∧
        Counted emptyKey tombstoneKey d' ∧ 2 * d'.nItems ≤ d'.size := by
  unfold Dict.insert
  rw [if_pos ⟨h.emptyKey_eq ▸ he, h.tombstoneKey_eq ▸ ht⟩]
  obtain ⟨hfail, halloc⟩ | ⟨d₁, hd₁, h₁, hroom⟩ := h.maybeResize (f := f) hhalf alloc le_rfl
  · rw [hfail]; exact .inl ⟨rfl, halloc⟩
  obtain ⟨d', hd', h', hsize', hn'⟩ := h₁.insertItem (f := f) he ht hroom (f.hashFunc key) value true
  rw [hd₁]
  exact .inr ⟨d', by simp [hd'], h', by omega⟩

theorem Counted.remove (h : Counted emptyKey tombstoneKey d) (hhalf : 2 * d.nItems ≤ d.size)
    (alloc : Bool) (he : key ≠ emptyKey) (ht : key ≠ tombstoneKey) (hne : emptyKey ≠ tombstoneKey) :
    ∃ d', Dict.remove f alloc d key = some d' ∧
      Counted emptyKey tombstoneKey d' ∧ 2 * d'.nItems ≤ d'.size := by
  obtain ⟨⟨k, hk4, hk, hsize⟩, hitems, hbusy, rfl, rfl⟩ := h
  unfold Dict.remove
  rw [if_pos ⟨hne, he, ht⟩]
  cases hget : getInternal f d key with
  | none => exact ⟨d, rfl, ⟨⟨k, hk4, hk, hsize⟩, hitems, hbusy, rfl, rfl⟩, hhalf⟩
  | some idx =>
    obtain ⟨i, -, rfl, hfree, -⟩ := getInternal_eq_some.1 hget
    have hlen := live_store_length (d := d) (b := ⟨d.tombstoneKey, default⟩)
      (probe_lt hsize (f.hashFunc key) i)
    rw [hfree, show d.isFree (⟨d.tombstoneKey, default⟩ : DictBucket K V) = true by simp [isFree]] at hlen
    have hstore : (d.store (d.probe (f.hashFunc key) i) ⟨d.tombstoneKey, default⟩).size = d.size :=
      size_store
    have h₁ : Counted d.emptyKey d.tombstoneKey (d.bury (d.probe (f.hashFunc key) i)) := by
      refine ⟨⟨k, hk4, hk, hstore.trans hsize⟩, ?_, (Nat.sub_le _ _).trans hbusy, rfl, rfl⟩
      exact (congrArg (· - 1) hitems).trans (Nat.sub_eq_of_eq_add hlen.symm)
    have hhalf₁ : 2 * (d.nItems - 1) ≤ (d.bury (d.probe (f.hashFunc key) i)).size :=
      le_trans (by omega) hstore.ge
    obtain ⟨hfail, -⟩ | ⟨d', hd', h', hroom⟩ := h₁.maybeResize (f := f) hhalf₁ alloc (Nat.zero_le 1)
    · exact ⟨_, by simp [hfail], h₁, hhalf₁⟩
    · exact ⟨d', by simp [hd'], h', hroom⟩

theorem apply_counted (h : Counted emptyKey tombstoneKey d ∧ 2 * d.nItems ≤ d.size) {op : Op K V}
    (hop : op.Allowed emptyKey tombstoneKey) :
    ∃ d', apply f d op = some d' ∧ Counted emptyKey tombstoneKey d' ∧ 2 * d'.nItems ≤ d'.size := by
  obtain ⟨he, ht, hremove⟩ := hop
  cases op with
  | insert alloc key value =>
    simp only [Op.key] at he ht
    obtain ⟨hfail, -⟩ | ⟨d', hd', h'⟩ := h.1.insert (f := f) h.2 alloc he ht value
    · exact ⟨d, by simp [apply, hfail], h⟩
    · exact ⟨d', by simp [apply, hd'], h'⟩
  | remove alloc key => exact h.1.remove h.2 alloc he ht (hremove _ _ rfl)

/-- In every run the items take at most half of a table whose size is a power of two, of which a
round of probes visits at least half. So an insertion fails for lack of memory only, and a lookup
comes to an end. -/
theorem run_finds_bucket (f : DictFuncs K) (emptyKey tombstoneKey : K) (ops : List (Op K V))
    (hops : ∀ op ∈ ops, op.Allowed emptyKey tombstoneKey) :
    ∃ d, ops.foldlM (apply f) (start emptyKey tombstoneKey) = some d ∧
      (∃ k, d.size = 2 ^ k) ∧ 2 * d.live.length ≤ d.size ∧
      (∀ hash, d.size / 2 ≤ (d.visited hash).card) ∧
      ∀ key, key ≠ emptyKey → key ≠ tombstoneKey → (∃ found, get f d key = some found) ∧
        ∀ alloc value, ∃ ok d', insert f alloc d key value = some (ok, d') ∧
          (ok = false → callocBuckets alloc (d.targetSize 1) = false) := by
  have hstart : Counted emptyKey tombstoneKey (start (V := V) emptyKey tombstoneKey) :=
    ⟨⟨4, le_rfl, by omega, rfl⟩, by simp [start, create, live, items, isFree], le_rfl, rfl, rfl⟩
  obtain ⟨d, hrun, h, hhalf⟩ := Fallible.Each.foldlM_some
    (fun d op _ h hop => apply_counted (f := f) h hop) ⟨hstart, Nat.zero_le _⟩
    (Fallible.each_of_forall (fun _ => hops) _)
  obtain ⟨k, -, hk, hsize⟩ := h.size_eq
  refine ⟨d, hrun, ⟨k, hsize⟩, h.nItems_eq ▸ hhalf,
    fun hash => half_le_card_visited hsize (by omega) hash, fun key he ht => ⟨?_, fun alloc value => ?_⟩⟩
  · exact ⟨_, if_pos ⟨h.emptyKey_eq ▸ he, h.tombstoneKey_eq ▸ ht⟩⟩
  · obtain ⟨hfail, halloc⟩ | ⟨d', hd', -⟩ := h.insert (f := f) hhalf alloc he ht value
    · exact ⟨_, _, hfail, fun _ => halloc⟩
    · exact ⟨_, _, hd', by simp⟩

def plainKeys : DictFuncs Nat where
  eqv a b := a == b
  hashFunc key := UInt64.ofNat key

theorem two_items_find_bucket :
    ∃ d : Dict Nat Nat, [.insert true 2 20, .remove true 2, .insert true 3 30].foldlM
        (apply plainKeys) (start 0 1) = some d ∧
      (∃ k, d.size = 2 ^ k) ∧ 2 * d.live.length ≤ d.size ∧
      (∀ hash, d.size / 2 ≤ (d.visited hash).card) ∧
      ∀ key, key ≠ 0 → key ≠ 1 → (∃ found, get plainKeys d key = some found) ∧
        ∀ alloc value, ∃ ok d', insert plainKeys alloc d key value = some (ok, d') ∧
          (ok = false → callocBuckets alloc (d.targetSize 1) = false) :=
  run_finds_bucket plainKeys 0 1 _ (by simp [Op.Allowed, Op.key])

/-- Sixteen keys are inserted and removed one after the other. Tombstones fill the table, and the
first two probes of a round look at the same bucket. -/
theorem tombstones_fill_table :
    ∃ d : Dict Nat Nat, ((List.range 16).flatMap fun i =>
        [.insert true (i + 2) 0, .remove true (i + 2)]).foldlM (apply plainKeys) (start 0 1) = some d ∧
      d.nonEmpty = d.size ∧ d.probe 0 0 = d.probe 0 1 :=
  ⟨_, rfl, by decide +kernel, by decide +kernel⟩

end Dict
end S2OPC
