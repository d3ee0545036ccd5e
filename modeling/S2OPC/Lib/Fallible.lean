import Mathlib

/-!
# S2OPC.Lib.Fallible

Computations in `Except` and runs of a fallible step: what each step keeps, a run keeps. For steps
that are only known to be well behaved under a condition on the state and the input, `Each` says
that a run meets it at every step. For steps that put something out, `trace` keeps the history of
the run, and an invariant may speak of it. An `Outcome` may be at fault besides being rejected.
-/

namespace S2OPC
namespace Fallible

open List Option

variable {ε σ ι ω α β : Type}

theorem bind_eq_ok {x : Except ε α} {f : α → Except ε β} {b : β} :
    (x >>= f) = .ok b ↔ ∃ a, x = .ok a ∧ f a = .ok b := by
  cases x with
  | error e =>
    constructor
    · intro h; cases h
    · rintro ⟨a, ha, -⟩; cases ha
  | ok a =>
    constructor
    · intro h; exact ⟨a, rfl, h⟩
    · rintro ⟨a', ha, h⟩; cases ha; exact h

variable {P : σ → Prop} {inputs : List ι} {s : σ} {C : σ → ι → Prop} {step : σ → ι → Option (σ × ω)}

theorem foldlM_invariant {step : σ → ι → Except ε σ}
    (hstep : ∀ s i s', P s → step s i = .ok s' → P s') {s' : σ} (hs : P s)
    (hrun : inputs.foldlM step s = .ok s') : P s' := by
  induction inputs generalizing s with
  | nil => cases hrun; exact hs
  | cons i inputs ih =>
    rw [foldlM_cons, bind_eq_ok] at hrun
    obtain ⟨t, ht, hrest⟩ := hrun
    exact ih (hstep s i t hs ht) hrest

/-- The condition holds of the state and the input at each step of the run. -/
def Each (step : σ → ι → Option σ) (C : σ → ι → Prop) : σ → List ι → Prop
  | _, [] => True
  | s, i :: inputs => C s i ∧ ∀ s', step s i = some s' → Each step C s' inputs

instance Each.decidable {step : σ → ι → Option σ} {C : σ → ι → Prop} [∀ s i, Decidable (C s i)] :
    ∀ s inputs, Decidable (Each step C s inputs)
  | _, [] => .isTrue trivial
  | s, i :: inputs =>
    have := fun s' => @Each.decidable step C _ s' inputs
    inferInstanceAs (Decidable (C s i ∧ ∀ s' ∈ step s i, Each step C s' inputs))

theorem each_of_forall {step : σ → ι → Option σ} (h : ∀ s, ∀ i ∈ inputs, C s i) (s : σ) :
    Each step C s inputs := by
  induction inputs generalizing s with
  | nil => trivial
  | cons i inputs ih =>
    exact ⟨h s i mem_cons_self, fun s' _ => ih (fun s j hj => h s j (mem_cons_of_mem i hj)) s'⟩

theorem Each.foldlM_some {step : σ → ι → Option σ}
    (hstep : ∀ s, ∀ i ∈ inputs, P s → C s i → ∃ s', step s i = some s' ∧ P s')
    (hs : P s) (heach : Each step C s inputs) : ∃ s', inputs.foldlM step s = some s' ∧ P s' := by
  induction inputs generalizing s with
  | nil => exact ⟨s, rfl, hs⟩
  | cons i inputs ih =>
    obtain ⟨t, ht, hpt⟩ := hstep s i mem_cons_self hs heach.1
    obtain ⟨s', hs', hps'⟩ := ih (fun s j hj => hstep s j (mem_cons_of_mem i hj)) hpt (heach.2 t ht)
    refine ⟨s', ?_, hps'⟩
    rw [foldlM_cons, ht]
    exact hs'

/-- The run of a step that puts something out: the last state, and the inputs with what was put out
for each, oldest first. -/
def trace (step : σ → ι → Option (σ × ω)) : σ → List ι → Option (σ × List (ι × ω))
  | s, [] => some (s, [])
  | s, i :: inputs =>
    (step s i).bind fun (t, out) => (trace step t inputs).map fun (s', rest) => (s', (i, out) :: rest)

theorem trace_inputs {s s' history} (hrun : trace step s inputs = some (s', history)) :
    history.map Prod.fst = inputs := by
  induction inputs generalizing s history with
  | nil => cases hrun; rfl
  | cons i inputs ih =>
    simp only [trace, bind_eq_some_iff, map_eq_some_iff, Prod.exists] at hrun
    obtain ⟨t, out, -, s₂, rest, hrest, heq⟩ := hrun
    cases heq; rw [map_cons, ih hrest]

theorem trace_invariant {P : List (ι × ω) → σ → Prop}
    (hstep : ∀ past s i s' out, P past s → step s i = some (s', out) → P (past ++ [(i, out)]) s')
    {past s s' history} (hs : P past s)
    (hrun : trace step s inputs = some (s', history)) : P (past ++ history) s' := by
  induction inputs generalizing past s history with
  | nil => cases hrun; simpa using hs
  | cons i inputs ih =>
    simp only [trace, bind_eq_some_iff, map_eq_some_iff, Prod.exists] at hrun
    obtain ⟨t, out, hone, s₂, rest, hrest, heq⟩ := hrun
    cases heq; have ht := ih (hstep past s i t out hs hone) hrest
    simpa using ht

/-- Related states, and the same output. -/
def SameOut {τ : Type} (R : σ → τ → Prop) (x : σ × α) (y : τ × α) : Prop := R x.1 y.1 ∧ x.2 = y.2

theorem trace_rel {τ : Type} {step' : τ → ι → Option (τ × ω)} {R : σ → τ → Prop}
    (hstep : ∀ s t i, R s t → Rel (SameOut R) (step s i) (step' t i)) {s t} (h : R s t) :
    Rel (SameOut R) (trace step s inputs) (trace step' t inputs) := by
  induction inputs generalizing s t with
  | nil => exact .some ⟨h, rfl⟩
  | cons i inputs ih =>
    rw [trace, trace]
    have hone := hstep s t i h
    generalize step s i = x, step' t i = y at hone ⊢
    cases hone with
    | none => exact .none
    | @some x y hxy =>
      obtain ⟨s₁, out⟩ := x
      obtain ⟨t₁, _⟩ := y
      obtain ⟨hR, rfl⟩ := hxy
      have hrest := ih hR
      dsimp only [bind_some]
      generalize trace step s₁ inputs = x', trace step' t₁ inputs = y' at hrest ⊢
      cases hrest with
      | none => exact .none
      | some hrest => exact .some ⟨hrest.1, congrArg (cons (i, out)) hrest.2⟩

theorem Each.trace_invariant
    (hstep : ∀ s i s' out, P s → C s i → step s i = some (s', out) → P s')
    {s s' history} (hs : P s)
    (heach : Each (fun s i => (step s i).map Prod.fst) C s inputs)
    (hrun : trace step s inputs = some (s', history)) : P s' := by
  induction inputs generalizing s history with
  | nil => cases hrun; exact hs
  | cons i inputs ih =>
    simp only [trace, bind_eq_some_iff, map_eq_some_iff, Prod.exists] at hrun
    obtain ⟨t, out, hone, s₂, rest, hrest, heq⟩ := hrun
    cases heq; refine ih (hstep s i t out hs heach.1 hone) (heach.2 t ?_) hrest
    simp [hone]

/-- The outcome of a computation that may refuse its input, and may be at fault. -/
inductive Outcome (φ ε α : Type) where
  | fault (f : φ)
  | reject (e : ε)
  | ok (a : α)
  deriving DecidableEq

namespace Outcome

variable {φ : Type}

def bind (x : Outcome φ ε α) (f : α → Outcome φ ε β) : Outcome φ ε β :=
  match x with
  | .fault e => .fault e
  | .reject e => .reject e
  | .ok a => f a

def ofExcept : Except ε α → Outcome φ ε α
  | .error e => .reject e
  | .ok a => .ok a

def Defined (x : Outcome φ ε α) : Prop := ∀ f, x ≠ .fault f

theorem defined_ok (a : α) : (ok a : Outcome φ ε α).Defined := fun _ h => nomatch h

theorem defined_reject (e : ε) : (reject e : Outcome φ ε α).Defined := fun _ h => nomatch h

theorem not_defined_fault (f : φ) : ¬ (fault f : Outcome φ ε α).Defined := fun h => h f rfl

theorem defined_ofExcept (x : Except ε α) : (ofExcept x : Outcome φ ε α).Defined := by
  cases x with
  | error e => exact defined_reject e
  | ok a => exact defined_ok a

theorem defined_bind_iff {x : Outcome φ ε α} {f : α → Outcome φ ε β} :
    (x.bind f).Defined ↔ x.Defined ∧ ∀ a, x = .ok a → (f a).Defined := by
  cases x with
  | fault e => exact iff_of_false (not_defined_fault e) fun h => not_defined_fault e h.1
  | reject e => exact iff_of_true (defined_reject e) ⟨defined_reject e, fun a h => nomatch h⟩
  | ok a =>
    constructor
    · intro h; refine ⟨defined_ok a, ?_⟩; rintro _ ⟨⟩; exact h
    · intro h; exact h.2 a rfl

end Outcome

end Fallible
end S2OPC
