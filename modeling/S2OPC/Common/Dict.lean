import S2OPC.Lib.AssocMap
import S2OPC.Lib.Scan

/-!
# S2OPC.Common.Dict

The dictionary of `sopc_dict.c`: open addressing with quadratic probing, a key reserved for empty
buckets and another one, the tombstone, for removed items.

The reserved keys are compared as pointers (`DecidableEq K`), the others by `equal_func`. An operation
answers `none` when an assertion fails.
-/

namespace S2OPC

open AssocMap

structure DictFuncs (K : Type) where
  eqv : K → K → Bool
  hashFunc : K → UInt64

structure DictKeyFuncs (K : Type) extends KeyEq K, DictFuncs K where
  hash_eq : ∀ a b, eqv a b = true → hashFunc a = hashFunc b

instance (K : Type) : Coe (DictKeyFuncs K) (DictFuncs K) := ⟨DictKeyFuncs.toDictFuncs⟩

structure DictBucket (K V : Type) where
  key : K
  value : V
deriving DecidableEq, Repr

/-- `struct _SOPC_Dict`. The fields `size` and `sizemask` are read off the buckets. -/
structure Dict (K V : Type) where
  buckets : List (DictBucket K V)
  nItems : Nat
  nBusy : Nat
  emptyKey : K
  tombstoneKey : K
deriving DecidableEq, Repr

namespace Dict

def initialSize : Nat := 16

/-- The double `0.4` is `3602879701896397 / 2 ^ 53`; its product with a power of two is exact. -/
def shrinkLimit (size : Nat) : Nat := 3602879701896397 * size / 2 ^ 53

def hashI (hash : UInt64) (i : Nat) : Nat :=
  (hash.toNat + i / 2 + (i * i % 2 ^ 64) / 2) % 2 ^ 64

def callocBuckets (alloc : Bool) (size : Nat) : Bool := alloc && decide (size * 16 < 2 ^ 64)

section Model

variable {K V : Type} [DecidableEq K] [Inhabited V]

def size (d : Dict K V) : Nat := d.buckets.length

def sizemask (d : Dict K V) : Nat := d.size - 1

def bucketAt (d : Dict K V) (idx : Nat) : DictBucket K V :=
  d.buckets.getD idx ⟨d.emptyKey, default⟩

def isFree (d : Dict K V) (b : DictBucket K V) : Bool :=
  b.key == d.emptyKey || b.key == d.tombstoneKey

def store (d : Dict K V) (idx : Nat) (b : DictBucket K V) : Dict K V :=
  { d with buckets := d.buckets.set idx b }

def storeNew (d : Dict K V) (idx : Nat) (b : DictBucket K V) : Dict K V :=
  { d.store idx b with nItems := d.nItems + 1, nBusy := d.nBusy + 1 }

def bury (d : Dict K V) (idx : Nat) : Dict K V :=
  { d.store idx ⟨d.tombstoneKey, default⟩ with nItems := d.nItems - 1 }

def probe (d : Dict K V) (hash : UInt64) (i : Nat) : Nat := hashI hash i &&& d.sizemask

variable (f : DictFuncs K)

def insertItem (d : Dict K V) (hash : UInt64) (key : K) (value : V) (overwrite : Bool) :
    Option (Dict K V) :=
  (List.range d.size).findSome? fun i =>
    let idx := d.probe hash i
    let b := d.bucketAt idx
    if d.isFree b then some (d.storeNew idx ⟨key, value⟩)
    else if overwrite && f.eqv key b.key then some (d.store idx ⟨key, value⟩)
    else none

def reinsert (d : Dict K V) (b : DictBucket K V) : Option (Dict K V) :=
  if d.isFree b then some d else insertItem f d (f.hashFunc b.key) b.key b.value false

def emptied (d : Dict K V) (size : Nat) : Dict K V :=
  { d with buckets := List.replicate size ⟨d.emptyKey, default⟩, nItems := 0, nBusy := 0 }

def dictResize (alloc : Bool) (d : Dict K V) (size : Nat) : Option (Bool × Dict K V) :=
  if size &&& (size - 1) ≠ 0 then none
  else if callocBuckets alloc size then
    (d.buckets.foldlM (reinsert f) (d.emptied size)).map fun d' => (true, d')
  else some (false, d)

def minimumDictSizeLoop : Nat → Nat → Nat → Nat
  | 0, size, _ => size
  | fuel + 1, size, nItems =>
    if size < 2 * nItems then minimumDictSizeLoop fuel (size * 2) nItems else size

def minimumDictSize (startSize nItems : Nat) : Nat := minimumDictSizeLoop 64 startSize nItems

def targetSize (d : Dict K V) (delta : Nat) : Nat :=
  if (0 < delta ∧ d.size / 2 < d.nBusy + delta) ∨ (delta = 0 ∧ d.nItems < shrinkLimit d.size) then
    minimumDictSize initialSize (d.nItems + delta)
  else d.size

def maybeResize (alloc : Bool) (d : Dict K V) (delta : Nat) : Option (Bool × Dict K V) :=
  if d.size = d.targetSize delta then some (true, d)
  else dictResize f alloc d (d.targetSize delta)

def create (emptyKey : K) : Dict K V where
  buckets := List.replicate initialSize ⟨emptyKey, default⟩
  nItems := 0
  nBusy := 0
  emptyKey := emptyKey
  tombstoneKey := emptyKey

def setTombstoneKey (d : Dict K V) (tombstoneKey : K) : Option (Dict K V) :=
  if d.emptyKey ≠ tombstoneKey ∧ d.nBusy = 0 then some { d with tombstoneKey := tombstoneKey }
  else none

def insert (alloc : Bool) (d : Dict K V) (key : K) (value : V) : Option (Bool × Dict K V) :=
  if key ≠ d.emptyKey ∧ key ≠ d.tombstoneKey then
    match maybeResize f alloc d 1 with
    | some (true, d') =>
      (insertItem f d' (f.hashFunc key) key value true).map fun d'' => (true, d'')
    | r => r
  else none

/-- The index of the bucket of a key; the assertions on the key are those of the callers. -/
def getInternal (d : Dict K V) (key : K) : Option Nat :=
  ((List.range d.size).findSome? fun i =>
    let idx := d.probe (f.hashFunc key) i
    let bucketKey := (d.bucketAt idx).key
    if bucketKey = d.emptyKey then some none
    else if bucketKey = d.tombstoneKey then none
    else if f.eqv key bucketKey then some (some idx)
    else none).join

def get (d : Dict K V) (key : K) : Option (Option V) :=
  if key ≠ d.emptyKey ∧ key ≠ d.tombstoneKey then
    some ((getInternal f d key).map fun idx => (d.bucketAt idx).value)
  else none

def remove (alloc : Bool) (d : Dict K V) (key : K) : Option (Dict K V) :=
  if d.emptyKey ≠ d.tombstoneKey ∧ key ≠ d.emptyKey ∧ key ≠ d.tombstoneKey then
    match getInternal f d key with
    | none => some d
    | some idx => (maybeResize f alloc (d.bury idx) 0).map Prod.snd
  else none

def forEach (d : Dict K V) : List (K × V) :=
  (d.buckets.filter fun b => b.key != d.emptyKey).map fun b => (b.key, b.value)

end Model

section Probes

variable {K V : Type} {d : Dict K V} {k : Nat}

theorem hashI_two_mul (hash : UInt64) (j : Nat) :
    hashI hash (2 * j) % 2 ^ 63 = (hash.toNat + j * (2 * j + 1)) % 2 ^ 63 := by
  have hsq : 2 * j * (2 * j) % 2 ^ 64 / 2 = 2 * (j * j) % 2 ^ 63 := by
    have : 2 * j * (2 * j) = 2 * (2 * (j * j)) := by ring
    omega
  unfold hashI
  rw [hsq, Nat.mod_mod_of_dvd _ (by norm_num), Nat.mul_div_cancel_left _ (by omega),
    Nat.add_mod, Nat.mod_mod, ← Nat.add_mod]
  ring_nf

theorem probe_lt (hsize : d.size = 2 ^ k) (hash : UInt64) (i : Nat) : d.probe hash i < d.size := by
  unfold probe sizemask
  rw [hsize, Nat.and_two_pow_sub_one_eq_mod]
  exact Nat.mod_lt _ (Nat.two_pow_pos k)

theorem probe_two_mul (hsize : d.size = 2 ^ k) (hk : k ≤ 63) (hash : UInt64) (j : Nat) :
    d.probe hash (2 * j) = (hash.toNat + j * (2 * j + 1)) % 2 ^ k := by
  have hdvd : 2 ^ k ∣ 2 ^ 63 := pow_dvd_pow 2 hk
  unfold probe sizemask
  rw [hsize, Nat.and_two_pow_sub_one_eq_mod, ← Nat.mod_mod_of_dvd _ hdvd, hashI_two_mul,
    Nat.mod_mod_of_dvd _ hdvd]

theorem probe_injOn (hsize : d.size = 2 ^ k) (hk : k ≤ 63) (hash : UInt64) :
    ∀ i < d.size / 2, ∀ j < d.size / 2, d.probe hash (2 * i) = d.probe hash (2 * j) → i = j := by
  intro i hi j hj h
  rw [probe_two_mul hsize hk, probe_two_mul hsize hk] at h
  -- The difference of the two ranks' offsets is `(i - j) * (2 * (i + j) + 1)`, with an odd factor.
  have hdvd : (2 : Int) ^ k ∣ ((i : Int) - j) * (2 * (i + j) + 1) := by
    have := Nat.modEq_iff_dvd.mp (Nat.ModEq.symm h)
    push_cast at this
    have heq : (hash.toNat : Int) + i * (2 * i + 1) - (hash.toNat + j * (2 * j + 1)) =
        (i - j) * (2 * (i + j) + 1) := by ring
    rwa [heq] at this
  have hcop : IsCoprime ((2 : Int) ^ k) (2 * (i + j) + 1) := by
    refine IsCoprime.pow_left ?_
    exact ⟨-(i + j), 1, by ring⟩
  have hij : (2 : Int) ^ k ∣ (i : Int) - j := hcop.dvd_of_dvd_mul_right hdvd
  have habs : |(i : Int) - j| < 2 ^ k := by
    have hi' : (i : Int) < 2 ^ k := by exact_mod_cast (by omega : i < 2 ^ k)
    have hj' : (j : Int) < 2 ^ k := by exact_mod_cast (by omega : j < 2 ^ k)
    rw [abs_lt]; constructor <;> omega
  have := Int.eq_zero_of_abs_lt_dvd hij habs
  omega

end Probes

end Dict
end S2OPC
