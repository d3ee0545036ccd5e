import S2OPC.Lib.Tally
import S2OPC.Services.RequestHandles

/-!
# S2OPC.Services.PendingRequests

The sessions of the request handles and the number of handles of each session
(`session_request_handle_bs.c`). A handle that `request_handle_bs.c` frees may still be recorded here:
its old session keeps counting it when it is given out again.
-/

namespace S2OPC
namespace PendingRequests

open Function

/-- `client_requests` and `session_pending_requests_nb`, which is a `uint32_t`. Place `i` is the handle
`i + 1` of the source, where 0 is `c_client_request_handle_indet`. -/
structure RequestTable (max : Nat) where
  requests : Fin max → Option Nat
  pending : Nat → Nat

variable {max : Nat}

def RequestTable.initial (max : Nat) : RequestTable max := ⟨fun _ => none, fun _ => 0⟩

def RequestTable.add (t : RequestTable max) (s : Nat) (handle : Fin max) : RequestTable max where
  requests := update t.requests handle (some s)
  pending := update t.pending s ((t.pending s + 1) % 2 ^ 32)

def RequestTable.drop (t : RequestTable max) (s : Nat) (handle : Fin max) : RequestTable max where
  requests := update t.requests handle none
  pending := update t.pending s (t.pending s - 1)

def RequestTable.getAndRemove (t : RequestTable max) (handle : Fin max) :
    Option (RequestTable max × Option Nat) :=
  match t.requests handle with
  | none => some (t, none)
  | some s => if 0 < t.pending s then some (t.drop s handle, some s) else none

/-- The body of the loop of `client_remove_all_request_handles`, with its condition: nothing more is
removed once the number is 0. -/
def RequestTable.release (s : Nat) (t : RequestTable max) (handle : Fin max) : RequestTable max :=
  if 0 < t.pending s ∧ t.requests handle = some s then t.drop s handle else t

def RequestTable.removeAll (t : RequestTable max) (s : Nat) : RequestTable max :=
  (List.finRange max).foldl (release s) t

inductive Op (max : Nat) where
  | add (s : Nat) (handle : Fin max)
  | getAndRemove (handle : Fin max)
  | removeAll (s : Nat)

def RequestTable.step (t : RequestTable max) : Op max → Option (RequestTable max)
  | .add s handle => some (t.add s handle)
  | .getAndRemove handle => (t.getAndRemove handle).map Prod.fst
  | .removeAll s => some (t.removeAll s)

def RequestTable.recorded (t : RequestTable max) (s : Nat) : Nat := tally (· == some s) t.requests

def Unrecorded (t : RequestTable max) : Op max → Prop
  | .add _ handle => t.requests handle = none
  | _ => True

def RequestTable.Counted (t : RequestTable max) : Prop := ∀ s, t.pending s = t.recorded s

variable {t : RequestTable max} {s : Nat} {handle : Fin max}

theorem RequestTable.Counted.add (h : t.Counted) (hmax : max < 2 ^ 32)
    (hnone : t.requests handle = none) : (t.add s handle).Counted := by
  intro k
  have hcount := tally_update (· == some k) t.requests handle (some s)
  have hle : tally (· == some k) (t.add s handle).requests ≤ max := by
    simpa using tally_le_card (p := (· == some k)) (f := (t.add s handle).requests)
  have hk : t.pending k = tally (· == some k) t.requests := h k
  simp only [hnone, RequestTable.add] at hcount hle
  by_cases hks : k = s
  · subst hks; simp only [RequestTable.add, recorded, update_self]
    simp at hcount; omega
  · have hsk : (s == k) = false := by simpa using Ne.symm hks
    simp only [RequestTable.add, recorded, update_of_ne hks]
    simp [hsk] at hcount; omega

theorem RequestTable.Counted.pos (h : t.Counted) (hs : t.requests handle = some s) :
    0 < t.pending s := by
  rw [h s]; exact tally_pos (i := handle) (by simp [hs])

theorem RequestTable.Counted.drop (h : t.Counted) (hs : t.requests handle = some s) :
    (t.drop s handle).Counted := by
  intro k
  have hcount := tally_update (· == some k) t.requests handle none
  have hk : t.pending k = tally (· == some k) t.requests := h k
  simp only [hs] at hcount
  by_cases hks : k = s
  · subst hks; simp only [RequestTable.drop, recorded, update_self]
    simp at hcount; omega
  · have hsk : (s == k) = false := by simpa using Ne.symm hks
    simp only [RequestTable.drop, recorded, update_of_ne hks]
    simp [hsk] at hcount; omega

theorem RequestTable.Counted.release (handles : List (Fin max)) {t : RequestTable max}
    (h : t.Counted) :
    (handles.foldl (RequestTable.release s) t).Counted ∧ ∀ handle,
      (handles.foldl (RequestTable.release s) t).requests handle = some s →
        t.requests handle = some s ∧ handle ∉ handles := by
  induction handles generalizing t with
  | nil => exact ⟨h, fun _ hs => ⟨hs, List.not_mem_nil⟩⟩
  | cons first handles ih =>
    rw [List.foldl_cons, RequestTable.release]
    split
    · rename_i hfirst; obtain ⟨hcounted, hleft⟩ := ih (h.drop hfirst.2)
      refine ⟨hcounted, fun handle hs => ?_⟩
      obtain ⟨hold, hmem⟩ := hleft handle hs
      have hne : handle ≠ first := by rintro rfl; simp [RequestTable.drop] at hold
      exact ⟨by simpa [RequestTable.drop, hne] using hold, by simp [hne, hmem]⟩
    · rename_i hfirst; obtain ⟨hcounted, hleft⟩ := ih h
      refine ⟨hcounted, fun handle hs => ?_⟩
      obtain ⟨hold, hmem⟩ := hleft handle hs
      have hne : handle ≠ first := by rintro rfl; exact hfirst ⟨h.pos hold, hold⟩
      exact ⟨hold, by simp [hne, hmem]⟩

theorem RequestTable.Counted.step (h : t.Counted) (hmax : max < 2 ^ 32) {op : Op max}
    (hop : Unrecorded t op) : ∃ t', t.step op = some t' ∧ t'.Counted := by
  cases op with
  | add s handle => exact ⟨_, rfl, h.add hmax hop⟩
  | removeAll s => exact ⟨_, rfl, (Counted.release _ h).1⟩
  | getAndRemove handle =>
    cases hs : t.requests handle with
    | none => exact ⟨t, by simp [RequestTable.step, getAndRemove, hs], h⟩
    | some s =>
      exact ⟨t.drop s handle, by simp [RequestTable.step, getAndRemove, hs, h.pos hs], h.drop hs⟩

/-- After any sequence of operations that records no handle over another: no assertion failed, the
numbers are those of the handles recorded, and the removal of all handles of a session leaves none. -/
theorem pending_counts (hmax : max < 2 ^ 32) (ops : List (Op max))
    (h : Fallible.Each RequestTable.step Unrecorded (.initial max) ops) :
    ∃ t, ops.foldlM RequestTable.step (.initial max) = some t ∧
      (∀ s, t.pending s = t.recorded s) ∧ ∀ s, (t.removeAll s).recorded s = 0 := by
  have hinitial : (RequestTable.initial max).Counted := by
    intro s; simp [RequestTable.initial, RequestTable.recorded, tally]
  obtain ⟨t, hrun, ht⟩ := Fallible.Each.foldlM_some
    (fun t op _ ht hop => RequestTable.Counted.step ht hmax hop) hinitial h
  refine ⟨t, hrun, ht, fun s => ?_⟩
  have hleft := (RequestTable.Counted.release (s := s) (List.finRange max) ht).2
  simp only [RequestTable.recorded, tally, Finset.sum_eq_zero_iff, Finset.mem_univ, true_imp_iff]
  intro handle
  by_contra hne
  have hs : (t.removeAll s).requests handle = some s := by simpa using hne
  exact (hleft handle hs).2 (List.mem_finRange handle)

theorem one_request_pending : ∃ t : RequestTable 4,
    [Op.add 2 0, .add 2 1, .getAndRemove 0].foldlM RequestTable.step (.initial 4) = some t ∧
      (∀ s, t.pending s = t.recorded s) ∧ ∀ s, (t.removeAll s).recorded s = 0 :=
  pending_counts (by decide) _
    ⟨rfl, fun t₁ h₁ => by
      cases h₁; exact ⟨rfl, fun t₂ h₂ => by cases h₂; exact ⟨trivial, fun _ _ => trivial⟩⟩⟩

open ClientServices Client

def createUndecoded : List Event :=
  [.channelConnected 7 1, .activateNewSession 7 true, .createSession allGood 2 7,
    .response 1 1 ⟨some (.response .createSession), some (1, true), false, true⟩]

/-- The handle of the request is free, and recorded. Session 1 uses the other handles and is given
the first one again; session 2 then counts a handle, and none is recorded for it. -/
theorem overwritten_handle_counted :
    (initial.run smallLimits createUndecoded).handles.contexts 1 = none ∧
    (initial.run smallLimits createUndecoded).sessions.requests 1 = some 2 ∧
    ∃ t : RequestTable 4,
      [Op.add 2 0, .add 1 1, .getAndRemove 1, .add 1 2, .getAndRemove 2, .add 1 3, .getAndRemove 3,
        .add 1 0].foldlM RequestTable.step (.initial 4) = some t ∧
        t.pending 2 = 1 ∧ t.recorded 2 = 0 :=
  ⟨by decide, by decide, _, rfl, by decide, by decide⟩

end PendingRequests
end S2OPC
