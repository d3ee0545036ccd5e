import Mathlib
import S2OPC.Common.Buffer

/-!
# S2OPC.Common.CaFilter

`SOPC_KeyManager_CertificateList_RemoveUnmatchedCRL`: the authorities without exactly one CRL are
taken out of a list of certificates. The loop turns for ever at a certificate that is no authority, so
it is run with a bound on its turns.
-/

namespace S2OPC
namespace CaFilter

open List

structure Certificate where
  caIsTrue : Bool
  subjectRaw : List UInt8
  deriving DecidableEq

def crlFound (subject : List UInt8) : List (List UInt8) → Nat → Nat
  | [], found => found
  | issuer :: crls, found =>
    if issuer = subject ∧ (found = 0 ∨ found < 2 ^ 31 - 1) then crlFound subject crls (found + 1)
    else crlFound subject crls found

def removeLoop (crls : List (List UInt8)) :
    Nat → List Certificate → List Certificate → Bool → Option (Except Status (List Certificate) × Bool)
  | 0, _, _, _ => none
  | _ + 1, before, [], listMatch => some (.ok before, listMatch)
  | turns + 1, before, crt :: next, listMatch =>
    if crt.caIsTrue = false then removeLoop crls turns before (crt :: next) listMatch
    else if crlFound crt.subjectRaw crls 0 = 1 then
      removeLoop crls turns (before ++ [crt]) next listMatch
    else if before = [] ∧ next = [] then some (.error .nok, false)
    else removeLoop crls turns before next false

/-- `SOPC_KeyManager_CertificateList_RemoveUnmatchedCRL`; a null pointer is an empty list, and
`pbMatch` is what the caller's variable holds. -/
def removeUnmatchedCRL (turns : Nat) (pCert : List Certificate) (pCRL : List (List UInt8))
    (pbMatch : Bool) : Option (Except Status (List Certificate) × Bool) :=
  if pCRL = [] ∨ pCert = [] then some (.error .invalidParameters, pbMatch)
  else removeLoop pCRL turns [] pCert true

/-- A certificate stays: it is no authority, or its subject has issued exactly one CRL. -/
def kept (crls : List (List UInt8)) (crt : Certificate) : Bool :=
  !crt.caIsTrue || crls.count crt.subjectRaw == 1

structure Filtered (certs : List Certificate) (crls : List (List UInt8))
    (r : Except Status (List Certificate) × Bool) : Prop where
  ok : ∀ l, r.1 = .ok l → l = certs.filter (kept crls) ∧ (r.2 = true ↔ l = certs)
  error : (∃ e, r.1 = .error e) ↔ certs.filter (kept crls) = []

theorem crlFound_eq (subject : List UInt8) (crls : List (List UInt8)) {found : Nat}
    (h : found ≤ 2 ^ 31 - 1) :
    crlFound subject crls found = min (found + crls.count subject) (2 ^ 31 - 1) := by
  induction crls generalizing found with
  | nil => simp [crlFound]; omega
  | cons issuer crls ih =>
    rw [crlFound, count_cons]
    split
    · next hi => rw [ih (by omega)]; simp [hi]; omega
    · by_cases issuer = subject <;> simp_all; omega

variable {crls : List (List UInt8)} {before rest : List Certificate} {m : Bool}

theorem kept_authority {crt : Certificate} (h : crt.caIsTrue = true) :
    kept crls crt = true ↔ crlFound crt.subjectRaw crls 0 = 1 := by
  rw [crlFound_eq _ _ (by omega)]; simp [kept, h]; omega

theorem removeLoop_authorities
    (hca : ∀ crt ∈ rest, crt.caIsTrue = true) (hne : before ++ rest ≠ []) :
    removeLoop crls (rest.length + 1) before rest m =
      some (if before ++ rest.filter (kept crls) = [] then (.error .nok, false)
        else (.ok (before ++ rest.filter (kept crls)), m && rest.all (kept crls))) := by
  induction rest generalizing before m with
  | nil => simp_all [removeLoop]
  | cons crt next ih =>
    obtain ⟨hc, hn⟩ := forall_mem_cons.1 hca
    simp only [length_cons, removeLoop, hc, ← kept_authority hc, Bool.true_eq_false, if_false]
    by_cases hk : kept crls crt = true
    · rw [if_pos hk, ih hn (by simp)]; simp [hk]
    · rw [if_neg hk]
      split
      · next h => simp [h, hk]
      · next h => rw [ih hn (by simpa using h)]; simp [hk]

theorem removeLoop_diverges
    (h : ∃ crt ∈ rest, crt.caIsTrue = false) (turns : Nat) :
    removeLoop crls turns before rest m = none := by
  induction turns generalizing before rest m with
  | zero => rfl
  | succ turns ih =>
    cases rest with
    | nil => simp at h
    | cons crt next =>
      rw [removeLoop]
      split
      · exact ih h
      · next hc =>
        have hn : ∃ crt ∈ next, crt.caIsTrue = false := by simpa [hc] using h
        have hne : ¬(before = [] ∧ next = []) := by rintro ⟨-, rfl⟩; simp at hn
        rw [if_neg hne, ih hn, ih hn, ite_self]

theorem filtered_authorities {certs : List Certificate} {b : Bool}
    (hne : certs ≠ []) (hca : ∀ crt ∈ certs, crt.caIsTrue = true) :
    ∃ turns r, removeUnmatchedCRL turns certs crls b = some r ∧ Filtered certs crls r := by
  by_cases hc : crls = []
  · subst hc
    refine ⟨0, (.error .invalidParameters, b), rfl, by simp, ?_⟩
    simpa [kept] using hca
  · refine ⟨_, _, (if_neg (by simp [hc, hne])).trans (removeLoop_authorities hca hne), ?_⟩
    by_cases hf : certs.filter (kept crls) = [] <;> constructor <;> simp [hf]

/-- The filter ends with the certificates that stay, exactly when all of them are authorities. -/
theorem removeUnmatchedCRL_filters_iff {certs : List Certificate} (crls : List (List UInt8)) (b : Bool)
    (hne : certs ≠ []) :
    (∃ turns r, removeUnmatchedCRL turns certs crls b = some r ∧ Filtered certs crls r) ↔
      ∀ crt ∈ certs, crt.caIsTrue = true := by
  refine ⟨?_, filtered_authorities hne⟩
  rintro ⟨turns, r, hr, hf⟩
  by_contra hca
  have hca : ∃ crt ∈ certs, crt.caIsTrue = false := by simpa using hca
  rw [removeUnmatchedCRL] at hr
  split at hr
  · cases hr
    obtain ⟨crt, hm, hc⟩ := hca
    have := hf.error.1 ⟨_, rfl⟩
    simp only [filter_eq_nil_iff] at this
    exact this crt hm (by simp [kept, hc])
  · rw [removeLoop_diverges hca] at hr; cases hr

theorem removeUnmatchedCRL_two_authorities :
    ∃ turns r, removeUnmatchedCRL turns [⟨true, [1]⟩, ⟨true, [2]⟩] [[2]] false = some r ∧
      Filtered [⟨true, [1]⟩, ⟨true, [2]⟩] [[2]] r :=
  (removeUnmatchedCRL_filters_iff [[2]] false (by decide)).2 (by decide)

/-- An issued certificate among the authorities, each of which has its CRL. -/
theorem removeUnmatchedCRL_diverges :
    ¬∃ turns r, removeUnmatchedCRL turns [⟨true, [1]⟩, ⟨false, [2]⟩] [[1]] false = some r := by
  rintro ⟨turns, r, hr⟩
  rw [removeUnmatchedCRL, if_neg (by decide), removeLoop_diverges (by decide)] at hr
  cases hr

end CaFilter
end S2OPC
