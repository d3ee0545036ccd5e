import Mathlib

/-!
# S2OPC.Client.SynchronousResults

`SOPC_ClientHelper_Read`, `SOPC_ClientHelper_Write` and `SOPC_ClientHelper_CallMethod` wait for the
response to their request: its callback copies the results into the context, and its status is what
the helper returns. There is no result where a callback leaves the arrays.
-/

namespace S2OPC
namespace SynchronousResults

variable {R : Type}

structure Response (R : Type) where
  serviceResult : UInt32
  results : List R

/-- `ReadContext`, `WriteContext` and `CallMethodContext`; the status is 0 for `SOPC_STATUS_OK` and 1
for `SOPC_STATUS_NOK`. -/
structure Context (R : Type) where
  nbElements : Nat
  status : UInt32
  values : List R

/-- The loops of the callbacks: so many results are copied to the elements of the same index. -/
def moveResults : Nat → List R → List R → Option (List R)
  | 0, values, _ => some values
  | n + 1, _ :: values, result :: results => (moveResults n values results).map (result :: ·)
  | _ + 1, _, _ => none

def genericCallbackHelperRead (status : UInt32) (results : List R) (ctx : Context R) :
    Option (Context R) := do
  let status := if ctx.nbElements = results.length then status else 1
  let values ← if status = 0 then moveResults results.length ctx.values results else some ctx.values
  -- the status of `Mutex_Unlock` is kept in the context
  return { ctx with values, status := 0 }

def genericCallbackHelperWrite (status : UInt32) (results : List R) (ctx : Context R) :
    Option (Context R) := do
  let status := if ctx.nbElements = results.length then status else 1
  let values ← if status = 0 then moveResults results.length ctx.values results else some ctx.values
  return { ctx with values, status }

def genericCallbackHelperCallMethod (status : UInt32) (results : List R) (ctx : Context R) :
    Option (Context R) := do
  let status := if status = 0 ∧ ctx.nbElements < results.length then 1 else status
  let values ← if status = 0 then moveResults ctx.nbElements ctx.values results else some ctx.values
  return { ctx with values, status }

/-- A helper whose request is sent and answered, with what its output elements hold before and
after. -/
def clientHelper (callback : UInt32 → List R → Context R → Option (Context R)) (values : List R)
    (response : Response R) : Option (Int × List R) :=
  (callback 0 response.results ⟨values.length, 1, values⟩).map fun ctx =>
    (if ctx.status = 0 then 0 else -100, ctx.values)

def clientHelperRead (values : List R) : Response R → Option (Int × List R) :=
  clientHelper genericCallbackHelperRead values

def clientHelperWrite (values : List R) : Response R → Option (Int × List R) :=
  clientHelper genericCallbackHelperWrite values

def clientHelperCallMethod (values : List R) : Response R → Option (Int × List R) :=
  clientHelper genericCallbackHelperCallMethod values

def isGood (status : UInt32) : Prop := status &&& 0xC0000000 = 0

def Complete (n : Nat) (response : Response R) : Prop :=
  isGood response.serviceResult ∧ response.results.length = n

/-- A helper returns 0, with the results, exactly for a complete response. -/
def Answers (n : Nat) (response : Response R) (r : Option (Int × List R)) : Prop :=
  ∃ ret values, r = some (ret, values) ∧ (ret = 0 ↔ Complete n response) ∧
    (ret = 0 → values = response.results)

theorem moveResults_eq_some {n : Nat} {values results : List R} (hv : n ≤ values.length)
    (hr : n ≤ results.length) :
    moveResults n values results = some (results.take n ++ values.drop n) := by
  induction n generalizing values results with
  | zero => simp [moveResults]
  | succ n ih =>
    cases values with
    | nil => simp at hv
    | cons v values =>
      cases results with
      | nil => simp at hr
      | cons r results => simp at hv hr; simp [moveResults, ih hv hr]

theorem moveResults_eq_none {n : Nat} {values results : List R} (h : results.length < n) :
    moveResults n values results = none := by
  induction n generalizing values results with
  | zero => simp at h
  | succ n ih => cases values <;> cases results <;> simp at h <;> simp [moveResults]; exact ih h

variable (values : List R) (response : Response R)

theorem moveResults_all (h : response.results.length = values.length) :
    moveResults values.length values response.results = some response.results := by
  rw [moveResults_eq_some le_rfl h.ge, ← h]; simp [h]

theorem clientHelperRead_eq : clientHelperRead values response =
    some (0, if response.results.length = values.length then response.results else values) := by
  by_cases h : response.results.length = values.length
  · simp [clientHelperRead, clientHelper, genericCallbackHelperRead, h, moveResults_all values response h]
  · simp [clientHelperRead, clientHelper, genericCallbackHelperRead, h, Ne.symm h]

theorem clientHelperWrite_eq : clientHelperWrite values response =
    some (if response.results.length = values.length then (0, response.results) else (-100, values)) := by
  by_cases h : response.results.length = values.length
  · simp [clientHelperWrite, clientHelper, genericCallbackHelperWrite, h, moveResults_all values response h]
  · simp [clientHelperWrite, clientHelper, genericCallbackHelperWrite, h, Ne.symm h]

theorem clientHelperCallMethod_eq : clientHelperCallMethod values response =
    if response.results.length < values.length then none
    else some (if response.results.length = values.length then (0, response.results) else (-100, values)) := by
  simp only [clientHelperCallMethod, clientHelper, genericCallbackHelperCallMethod]
  rcases Nat.lt_trichotomy response.results.length values.length with h | h | h
  · simp [h, h.not_gt, moveResults_eq_none h]
  · simp [h, moveResults_all values response h]
  · simp [h, h.not_gt, h.ne']

end SynchronousResults
end S2OPC
