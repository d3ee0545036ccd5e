import Mathlib

/-!
# S2OPC.Lib.AssocMap

Finite maps as association lists whose keys are compared by a Boolean equivalence, so that two
different keys may name the same entry. A map is `Distinct` when no two of its entries have
equivalent keys; `lookup` then only depends on the entries and not on their order.
-/

namespace S2OPC
namespace AssocMap

open List

structure KeyEq (K : Type) where
  eqv : K → K → Bool
  refl : ∀ a, eqv a a = true
  symm : ∀ a b, eqv a b = true → eqv b a = true
  trans : ∀ a b c, eqv a b = true → eqv b c = true → eqv a c = true

variable {K V : Type} (e : KeyEq K)

def lookup (m : List (K × V)) (k : K) : Option V :=
  (m.find? fun p => e.eqv k p.1).map Prod.snd

def erase (m : List (K × V)) (k : K) : List (K × V) :=
  m.filter fun p => !e.eqv k p.1

def insert (m : List (K × V)) (k : K) (v : V) : List (K × V) :=
  (k, v) :: erase e m k

def Distinct (m : List (K × V)) : Prop :=
  m.Pairwise fun p q => e.eqv p.1 q.1 = false

variable {e}

theorem KeyEq.comm (a b : K) : e.eqv a b = e.eqv b a := by
  cases h : e.eqv a b with
  | true => exact (e.symm a b h).symm
  | false =>
    cases h' : e.eqv b a with
    | true => rw [e.symm b a h'] at h; cases h
    | false => rfl

theorem KeyEq.congr {a b : K} (h : e.eqv a b = true) (c : K) : e.eqv a c = e.eqv b c := by
  cases hb : e.eqv b c with
  | true => exact e.trans a b c h hb
  | false =>
    cases ha : e.eqv a c with
    | true => rw [e.trans b a c (e.symm a b h) ha] at hb; cases hb
    | false => rfl

variable {m : List (K × V)}

theorem Distinct.perm {m' : List (K × V)} (h : Distinct e m) (hp : m.Perm m') : Distinct e m' := by
  refine (hp.pairwise_iff ?_).mp h; intro p q hpq; rw [KeyEq.comm]; exact hpq

theorem Distinct.erase (h : Distinct e m) (k : K) : Distinct e (AssocMap.erase e m k) :=
  List.Pairwise.filter _ h

theorem Distinct.insert (h : Distinct e m) (k : K) (v : V) :
    Distinct e (AssocMap.insert e m k v) := by
  refine pairwise_cons.mpr ⟨?_, h.erase k⟩
  simp [AssocMap.erase]

theorem lookup_eq_some_iff (h : Distinct e m) {k : K} {v : V} :
    lookup e m k = some v ↔ ∃ k', (k', v) ∈ m ∧ e.eqv k k' = true := by
  induction m with
  | nil => simp [lookup]
  | cons p m ih =>
    obtain ⟨hp, hm⟩ := pairwise_cons.mp h
    cases hk : e.eqv k p.1 with
    | true =>
      simp only [lookup, find?_cons, hk, Option.map_some, Option.some.injEq, mem_cons]
      constructor
      · rintro rfl; exact ⟨p.1, .inl rfl, hk⟩
      · rintro ⟨k', hmem | hmem, hk'⟩
        · rw [← hmem]
        · have := hp _ hmem; rw [← KeyEq.congr hk] at this; simp [this] at hk'
    | false =>
      have : lookup e (p :: m) k = lookup e m k := by simp [lookup, hk]
      rw [this, ih hm]
      constructor
      · rintro ⟨k', hmem, hk'⟩; exact ⟨k', mem_cons_of_mem _ hmem, hk'⟩
      · rintro ⟨k', hmem, hk'⟩
        rcases mem_cons.mp hmem with rfl | hmem
        · rw [hk] at hk'; cases hk'
        · exact ⟨k', hmem, hk'⟩

theorem Distinct.lookup_perm {m' : List (K × V)} (h : Distinct e m) (hp : m.Perm m') (k : K) :
    lookup e m k = lookup e m' k := by
  refine Option.ext fun v => ?_
  rw [lookup_eq_some_iff h, lookup_eq_some_iff (h.perm hp)]
  simp [hp.mem_iff]

theorem lookup_erase {k k' : K} :
    lookup e (erase e m k) k' = if e.eqv k' k then none else lookup e m k' := by
  induction m with
  | nil => simp [lookup, erase]
  | cons p m ih =>
    cases hk : e.eqv k p.1 with
    | true =>
      have herase : erase e (p :: m) k = erase e m k := by simp [erase, hk]
      rw [herase, ih]
      cases hk' : e.eqv k' k with
      | true => simp
      | false =>
        have : e.eqv k' p.1 = false := by rw [KeyEq.comm, ← KeyEq.congr hk, KeyEq.comm]; exact hk'
        simp [lookup, this]
    | false =>
      have herase : erase e (p :: m) k = p :: erase e m k := by simp [erase, hk]
      rw [herase]
      cases hp : e.eqv k' p.1 with
      | true =>
        have : e.eqv k' k = false := by rw [KeyEq.congr hp, KeyEq.comm]; exact hk
        simp [lookup, hp, this]
      | false => simp only [lookup, find?_cons, hp] at ih ⊢; exact ih

theorem lookup_insert {k k' : K} {v : V} :
    lookup e (insert e m k v) k' = if e.eqv k' k then some v else lookup e m k' := by
  cases hk : e.eqv k' k with
  | true => simp [lookup, insert, hk]
  | false =>
    have : lookup e (insert e m k v) k' = lookup e (erase e m k) k' := by simp [lookup, insert, hk]
    rw [this, lookup_erase]
    simp [hk]

theorem erase_eq_self {k : K} (h : ∀ p ∈ m, e.eqv k p.1 = false) : erase e m k = m := by
  refine filter_eq_self.mpr ?_; intro p hp; simp [h p hp]

theorem erase_perm_of_mem {rest : List (K × V)} {p : K × V} {k : K} (hd : Distinct e m)
    (hp : m.Perm (p :: rest)) (hk : e.eqv k p.1 = true) : (erase e m k).Perm rest := by
  have hd' := pairwise_cons.mp (hd.perm hp)
  have hrest : erase e rest k = rest := by
    refine erase_eq_self ?_
    intro q hq; rw [KeyEq.congr hk]
    exact hd'.1 q hq
  have : (erase e m k).Perm (erase e (p :: rest) k) := hp.filter _
  refine this.trans ?_
  have hcons : erase e (p :: rest) k = erase e rest k := by simp [erase, hk]
  rw [hcons, hrest]

end AssocMap
end S2OPC
