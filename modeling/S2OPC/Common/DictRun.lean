import S2OPC.Common.DictRefine

/-!
# S2OPC.Common.DictRun

The dictionary as a finite map, over whole sequences of operations.

An insertion writes the first free bucket it meets: a tombstone in front of the item of the key then
makes a second item of the same key. `insertSafe` excludes this.
-/

set_option linter.unusedSectionVars false

namespace S2OPC
namespace Dict

open AssocMap List

variable {K V : Type} [DecidableEq K] [Inhabited V] {f : DictKeyFuncs K} {d d' : Dict K V}

/-- The insertion makes no second item of a stored key: the table is rebuilt first, or the key is
not stored, or no tombstone comes before its item. -/
def insertSafe (f : DictKeyFuncs K) (d : Dict K V) (key : K) : Bool :=
  d.size != d.targetSize 1 || (getInternal f d key).isNone || !tombstoneFirst f d key

theorem erase_perm {m m' : List (K × V)} (h : m.Perm m') (k : K) :
    (AssocMap.erase f.toKeyEq m k).Perm (AssocMap.erase f.toKeyEq m' k) :=
  h.filter _

theorem Core.insertItem (h : Core f d) {key : K} (he : key ≠ d.emptyKey)
    (ht : key ≠ d.tombstoneKey) (hhalf : 2 * (d.nItems + 1) ≤ d.size)
    (hsafe : getInternal f d key = none ∨ tombstoneFirst f d key = false) (value : V) :
    ∃ d', Dict.insertItem f d (f.hashFunc key) key value true = some d' ∧ Wf f d' ∧
      d'.emptyKey = d.emptyKey ∧ d'.tombstoneKey = d.tombstoneKey ∧
      d'.live.Perm (AssocMap.insert f.toKeyEq d.live key value) := by
  cases hget : getInternal f d key with
  | none =>
    have hnew := h.getInternal_eq_none.mp hget
    obtain ⟨i, _, _, hins, hcore, hlive⟩ := h.insertItem_new he ht hhalf hnew value true
    refine ⟨_, hins, ⟨hcore, ?_⟩, rfl, rfl, ?_⟩
    · exact (size_store (d := d)).symm ▸ hhalf
    · unfold AssocMap.insert; rw [erase_eq_self hnew]; exact hlive
  | some idx =>
    have htomb : tombstoneFirst f d key = false := by
      rcases hsafe with hnone | htomb
      · rw [hget] at hnone; cases hnone
      · exact htomb
    obtain ⟨hins, hcore, hlive⟩ := h.insertItem_stored he ht hget htomb value
    refine ⟨_, hins, ⟨hcore, ?_⟩, rfl, rfl, hlive⟩
    rw [size_store]
    show 2 * d.nItems ≤ d.size
    omega

theorem Wf.insert (h : Wf f d) (alloc : Bool) {key : K} (he : key ≠ d.emptyKey)
    (ht : key ≠ d.tombstoneKey) (hsafe : insertSafe f d key = true) (value : V) :
    Dict.insert f alloc d key value = some (false, d) ∨
      ∃ d', Dict.insert f alloc d key value = some (true, d') ∧ Wf f d' ∧
        d'.emptyKey = d.emptyKey ∧ d'.tombstoneKey = d.tombstoneKey ∧
        d'.live.Perm (AssocMap.insert f.toKeyEq d.live key value) := by
  unfold Dict.insert
  rw [if_pos ⟨he, ht⟩]
  obtain ⟨_, hfail⟩ | ⟨d₁, hd₁, hres, hroom, hno, hsame⟩ := h.maybeResize alloc (le_refl 1)
  · rw [hfail]; exact .inl rfl
  have hsafe₁ : getInternal f d₁ key = none ∨ tombstoneFirst f d₁ key = false := by
    by_cases heq : d.size = d.targetSize 1
    · obtain rfl := hsame heq; simpa [insertSafe, heq] using hsafe
    · obtain ⟨k, _, _, hsize⟩ := hres.core.size_eq
      exact .inr ((hno heq).tombstoneFirst hsize key)
  obtain ⟨d', hd', hwf, he', ht', hlive⟩ := hres.core.insertItem
    (hres.emptyKey_eq ▸ he) (hres.tombstoneKey_eq ▸ ht)
    (by rw [hres.nItems_eq h.toCore]; exact hroom) hsafe₁ value
  rw [hd₁]
  refine .inr ⟨d', by simp [hd'], hwf, he'.trans hres.emptyKey_eq,
    ht'.trans hres.tombstoneKey_eq, hlive.trans ?_⟩
  exact (erase_perm hres.live_perm key).cons _

theorem Wf.bury (h : Wf f d) (hne : d.emptyKey ≠ d.tombstoneKey) {key : K} {idx : Nat}
    (hget : getInternal f d key = some idx) :
    Wf f (d.bury idx) ∧ (d.bury idx).live.Perm (AssocMap.erase f.toKeyEq d.live key) := by
  obtain ⟨k, hk4, hk, hsize⟩ := h.size_eq
  obtain ⟨i, hi, rfl, hfree, hkey, _⟩ := getInternal_eq_some.mp hget
  have hlt := probe_lt hsize (f.hashFunc key) i
  have htomb : d.isFree (⟨d.tombstoneKey, default⟩ : DictBucket K V) = true := by simp [isFree]
  have hold := live_perm hlt
  have hnew := live_store_perm (b := ⟨d.tombstoneKey, default⟩) hlt
  rw [hfree] at hold
  rw [htomb] at hnew
  have hlive := hnew.trans (erase_perm_of_mem h.distinct hold hkey).symm
  refine ⟨⟨⟨⟨k, hk4, hk, size_store.trans hsize⟩, ?_, ?_, ?_, ?_⟩, ?_⟩, hlive⟩
  · have h₁ := hold.length_eq
    have h₂ := hnew.length_eq
    have h₃ := h.nItems_eq
    show d.nItems - 1 = (d.store _ _).live.length
    rw [h₂, h₃, h₁]
    simp
  · have := h.nItems_le; show d.nItems - 1 ≤ d.nBusy; omega
  · refine reach_store hlt (Ne.symm hne) h.reach fun hfalse => ?_
    rw [htomb] at hfalse
    cases hfalse
  · exact (h.distinct.erase key).perm hlive.symm
  · have := h.half; show 2 * (d.nItems - 1) ≤ (d.store _ _).size; rw [size_store]; omega

theorem Wf.remove (h : Wf f d) (hne : d.emptyKey ≠ d.tombstoneKey) (alloc : Bool) {key : K}
    (he : key ≠ d.emptyKey) (ht : key ≠ d.tombstoneKey) :
    ∃ d', Dict.remove f alloc d key = some d' ∧ Wf f d' ∧
      d'.emptyKey = d.emptyKey ∧ d'.tombstoneKey = d.tombstoneKey ∧
      d'.live.Perm (AssocMap.erase f.toKeyEq d.live key) := by
  unfold Dict.remove
  rw [if_pos ⟨hne, he, ht⟩]
  cases hget : getInternal f d key with
  | none => refine ⟨d, rfl, h, rfl, rfl, ?_⟩; rw [erase_eq_self (h.getInternal_eq_none.mp hget)]
  | some idx =>
    obtain ⟨hwf, hlive⟩ := h.bury hne hget
    obtain ⟨_, hfail⟩ | ⟨d₁, hd₁, hres, hroom, _, _⟩ := hwf.maybeResize alloc (Nat.zero_le 1)
    · exact ⟨_, by simp [hfail], hwf, rfl, rfl, hlive⟩
    · refine ⟨d₁, by simp [hd₁], ⟨hres.core, ?_⟩, hres.emptyKey_eq, hres.tombstoneKey_eq,
        hres.live_perm.trans hlive⟩
      rw [hres.nItems_eq hwf.toCore]
      exact hroom

inductive Op (K V : Type) where
  | insert (alloc : Bool) (key : K) (value : V)
  | remove (alloc : Bool) (key : K)

def Op.key : Op K V → K
  | .insert _ key _ => key
  | .remove _ key => key

inductive Event (K V : Type) where
  | inserted (key : K) (value : V)
  | removed (key : K)

/-- The value of the last insertion of the key that no removal followed, events being listed from
the last one. -/
def lastValue (f : DictKeyFuncs K) : List (Event K V) → K → Option V
  | [], _ => none
  | .inserted k v :: past, key => if f.eqv key k then some v else lastValue f past key
  | .removed k :: past, key => if f.eqv key k then none else lastValue f past key

def step (f : DictKeyFuncs K) (s : Dict K V × List (Event K V)) :
    Op K V → Option (Dict K V × List (Event K V))
  | .insert alloc key value =>
    (Dict.insert f alloc s.1 key value).map fun r =>
      (r.2, if r.1 then .inserted key value :: s.2 else s.2)
  | .remove alloc key =>
    (Dict.remove f alloc s.1 key).map fun d' => (d', .removed key :: s.2)

def runFrom (f : DictKeyFuncs K) (s : Dict K V × List (Event K V)) (ops : List (Op K V)) :
    Option (Dict K V × List (Event K V)) :=
  ops.foldlM (step f) s

def run (f : DictKeyFuncs K) (emptyKey tombstoneKey : K) (ops : List (Op K V)) :
    Option (Dict K V × List (Event K V)) :=
  (setTombstoneKey (create emptyKey) tombstoneKey).bind fun d => runFrom f (d, []) ops

def opSafe (f : DictKeyFuncs K) (d : Dict K V) : Op K V → Bool
  | .insert _ key _ => insertSafe f d key
  | .remove _ _ => true

def safeFrom (f : DictKeyFuncs K) (s : Dict K V × List (Event K V)) : List (Op K V) → Bool
  | [] => true
  | op :: ops =>
    opSafe f s.1 op && match step f s op with
      | some s' => safeFrom f s' ops
      | none => true

def safeRun (f : DictKeyFuncs K) (emptyKey tombstoneKey : K) (ops : List (Op K V)) : Bool :=
  match setTombstoneKey (create emptyKey) tombstoneKey with
  | some d => safeFrom f (d, []) ops
  | none => true

def visits (d : Dict K V) : List (K × V) :=
  (forEach d).filter fun p => p.1 != d.tombstoneKey

structure Refines (f : DictKeyFuncs K) (d : Dict K V) (events : List (Event K V)) : Prop where
  get_eq : ∀ key, key ≠ d.emptyKey → key ≠ d.tombstoneKey →
    get f d key = some (lastValue f events key)
  visits_distinct : Distinct f.toKeyEq d.visits
  visits_iff : ∀ key value, lastValue f events key = some value ↔
    ∃ key', (key', value) ∈ d.visits ∧ f.eqv key key' = true
  nItems_eq : d.nItems = d.visits.length

theorem visits_eq_live : d.visits = d.live := by
  unfold visits forEach live items
  rw [filter_map, filter_filter]
  congr 2
  simp [isFree, Bool.and_comm, bne]

def eventMap (f : DictKeyFuncs K) : List (Event K V) → List (K × V)
  | [] => []
  | .inserted k v :: past => AssocMap.insert f.toKeyEq (eventMap f past) k v
  | .removed k :: past => AssocMap.erase f.toKeyEq (eventMap f past) k

theorem lookup_eventMap (events : List (Event K V)) (key : K) :
    lookup f.toKeyEq (eventMap f events) key = lastValue f events key := by
  induction events with
  | nil => rfl
  | cons event past ih =>
    cases event with
    | inserted k v => simp [eventMap, lastValue, lookup_insert, ih]
    | removed k => simp [eventMap, lastValue, lookup_erase, ih]

structure Inv (f : DictKeyFuncs K) (emptyKey tombstoneKey : K)
    (s : Dict K V × List (Event K V)) : Prop where
  wf : Wf f s.1
  keys_ne : s.1.emptyKey ≠ s.1.tombstoneKey
  emptyKey_eq : s.1.emptyKey = emptyKey
  tombstoneKey_eq : s.1.tombstoneKey = tombstoneKey
  live_perm : s.1.live.Perm (eventMap f s.2)

variable {emptyKey tombstoneKey : K}

variable {s : Dict K V × List (Event K V)}

theorem Inv.refines (h : Inv f emptyKey tombstoneKey s) :
    Refines f s.1 s.2 := by
  have hcore := h.wf.toCore
  have hlookup : ∀ key, lookup f.toKeyEq s.1.live key = lastValue f s.2 key := by
    intro key; rw [← lookup_eventMap, hcore.distinct.lookup_perm h.live_perm]
  refine ⟨fun key he ht => ?_, ?_, fun key value => ?_, ?_⟩
  · rw [hcore.get_eq_lookup he ht, hlookup]
  · rw [visits_eq_live]; exact hcore.distinct
  · rw [visits_eq_live, ← hlookup, lookup_eq_some_iff hcore.distinct]
  · rw [visits_eq_live]; exact hcore.nItems_eq

theorem Inv.step {op : Op K V}
    (h : Inv f emptyKey tombstoneKey s) (he : op.key ≠ emptyKey) (ht : op.key ≠ tombstoneKey)
    (hsafe : opSafe f s.1 op = true) :
    ∃ s', Dict.step f s op = some s' ∧ Inv f emptyKey tombstoneKey s' := by
  rw [← h.emptyKey_eq] at he
  rw [← h.tombstoneKey_eq] at ht
  cases op with
  | insert alloc key value =>
    simp only [Op.key] at he ht
    obtain hfail | ⟨d', hd', hwf, he', ht', hlive⟩ := h.wf.insert alloc he ht hsafe value
    · exact ⟨s, by simp [Dict.step, hfail], h⟩
    · refine ⟨(d', .inserted key value :: s.2), by simp [Dict.step, hd'],
        ⟨hwf, by rw [he', ht']; exact h.keys_ne, he'.trans h.emptyKey_eq,
          ht'.trans h.tombstoneKey_eq, hlive.trans ?_⟩⟩
      exact (erase_perm h.live_perm key).cons _
  | remove alloc key =>
    simp only [Op.key] at he ht
    obtain ⟨d', hd', hwf, he', ht', hlive⟩ := h.wf.remove h.keys_ne alloc he ht
    refine ⟨(d', .removed key :: s.2), by simp [Dict.step, hd'],
      ⟨hwf, by rw [he', ht']; exact h.keys_ne, he'.trans h.emptyKey_eq,
          ht'.trans h.tombstoneKey_eq, hlive.trans ?_⟩⟩
    exact erase_perm h.live_perm key

theorem Inv.runFrom {ops : List (Op K V)}
    (h : Inv f emptyKey tombstoneKey s)
    (hkeys : ∀ op ∈ ops, op.key ≠ emptyKey ∧ op.key ≠ tombstoneKey)
    (hsafe : safeFrom f s ops = true) :
    ∃ s', Dict.runFrom f s ops = some s' ∧ Inv f emptyKey tombstoneKey s' := by
  induction ops generalizing s with
  | nil => exact ⟨s, rfl, h⟩
  | cons op ops ih =>
    simp only [safeFrom, Bool.and_eq_true] at hsafe
    obtain ⟨he, ht⟩ := hkeys op mem_cons_self
    obtain ⟨s₁, hs₁, h₁⟩ := h.step he ht hsafe.1
    rw [hs₁] at hsafe
    obtain ⟨s', hs', h'⟩ := ih h₁ (fun op' hop' => hkeys op' (mem_cons_of_mem _ hop')) hsafe.2
    refine ⟨s', ?_, h'⟩
    unfold Dict.runFrom at hs' ⊢
    rw [foldlM_cons, hs₁]
    exact hs'

theorem inv_start (hne : emptyKey ≠ tombstoneKey) :
    ∃ d : Dict K V, setTombstoneKey (create emptyKey) tombstoneKey = some d ∧
      Inv f emptyKey tombstoneKey (d, []) := by
  refine ⟨{ create emptyKey with tombstoneKey := tombstoneKey },
    by simp [setTombstoneKey, create, hne], ⟨?_, ?_⟩, hne, rfl, rfl, ?_⟩
  · have hsize : initialSize = 2 ^ 4 := rfl
    exact (core_emptied (f := f) (d := { create (V := V) emptyKey with tombstoneKey := tombstoneKey })
      (le_refl 4) (by omega) hsize).1
  · simp [create, Dict.size]
  · simp [create, live, items, isFree, eventMap]

/-- In every run whose insertions are all safe, no assertion fails and the dictionary is the
finite map of the operations made. -/
theorem run_refines (f : DictKeyFuncs K) (emptyKey tombstoneKey : K)
    (hne : emptyKey ≠ tombstoneKey) (ops : List (Op K V))
    (hkeys : ∀ op ∈ ops, op.key ≠ emptyKey ∧ op.key ≠ tombstoneKey)
    (hsafe : safeRun f emptyKey tombstoneKey ops = true) :
    ∃ s, run f emptyKey tombstoneKey ops = some s ∧ Refines f s.1 s.2 := by
  obtain ⟨d, hd, hinv⟩ := inv_start (V := V) (f := f) hne
  unfold safeRun at hsafe
  rw [hd] at hsafe
  obtain ⟨s, hs, h⟩ := hinv.runFrom hkeys hsafe
  exact ⟨s, by simp [run, hd, hs], h.refines⟩

def collidingKeys : DictKeyFuncs Nat where
  eqv a b := a == b
  refl := by simp
  symm a b h := by rw [beq_iff_eq] at h ⊢; exact h.symm
  trans a b c h₁ h₂ := by rw [beq_iff_eq] at h₁ h₂ ⊢; exact h₁.trans h₂
  hashFunc _ := 0
  hash_eq _ _ _ := rfl

theorem run_refines_colliding :
    safeRun collidingKeys 0 1 [.insert true 2 20, .insert true 3 30, .remove true 2,
        .insert true 4 40, .insert true 4 41] = true ∧
      ∃ s, run collidingKeys 0 1 [.insert true 2 20, .insert true 3 30, .remove true 2,
        .insert true 4 40, .insert true 4 41] = some s ∧ Refines collidingKeys s.1 s.2 :=
  ⟨rfl, run_refines collidingKeys 0 1 (by decide) _ (by decide) (rfl)⟩

/-- The removed key 2 leaves a tombstone in front of the item of key 3, whose second insertion
makes a second item; removing key 3 removes only one of the two. -/
theorem run_not_refines :
    ¬ ∀ ops : List (Op Nat Nat), (∀ op ∈ ops, op.key ≠ 0 ∧ op.key ≠ 1) →
      ∃ s, run collidingKeys 0 1 ops = some s ∧ Refines collidingKeys s.1 s.2 := by
  intro h
  obtain ⟨s, hs, href⟩ := h [.insert true 2 20, .insert true 3 30, .remove true 2,
    .insert true 3 31, .remove true 3] (by decide)
  have hget : (run collidingKeys 0 1 [.insert true 2 20, .insert true 3 30, .remove true 2,
      .insert true 3 31, .remove true 3]).map (fun s => (s.1.emptyKey, s.1.tombstoneKey,
        get collidingKeys s.1 3, lastValue collidingKeys s.2 3)) =
      some (0, 1, some (some 30), none) := rfl
  rw [hs] at hget
  simp only [Option.map_some, Option.some.injEq, Prod.mk.injEq] at hget
  obtain ⟨he, ht, hget, hlast⟩ := hget
  have := href.get_eq 3 (by omega) (by omega)
  rw [hget, hlast] at this
  cases this

end Dict
end S2OPC
