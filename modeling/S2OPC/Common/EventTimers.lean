import S2OPC.Lib.SortedList

/-!
# S2OPC.Common.EventTimers

The timers of `sopc_event_timer_manager.c`, in the order of end times.

An evaluation removes the expired one-shot timers, changes the end times of the periodic ones in place,
and only then takes these out and inserts them again, one after the other.
-/

namespace S2OPC
namespace EventTimers

open List Function SortedList

variable {E : Type}

def maxTimers : Nat := 255

def timerResolutionMs : Nat := 50

def maxTime : Nat := 2 ^ 64 - 1

structure EventTimer (E : Type) where
  id : Nat
  event : E
  endTime : Nat
  isPeriodicTimer : Bool
  periodMs : Nat
  deriving DecidableEq

structure State (E : Type) where
  usedTimerIds : Nat → Bool
  latestTimerId : Nat
  timers : List (EventTimer E)

def State.initial (latest : Nat) : State E := ⟨fun _ => false, latest, []⟩

def addMilliseconds (timeRef ms : Nat) : Nat :=
  if maxTime - timeRef > ms then timeRef + ms else maxTime

def sortedInsert (memory : Bool) (timer : EventTimer E) (timers : List (EventTimer E)) :
    Option (List (EventTimer E)) :=
  if timers.length < maxTimers ∧ memory = true then
    some (insertBy EventTimer.endTime timer timers)
  else none

def removeFromId (timerId : Nat) (timers : List (EventTimer E)) : List (EventTimer E) :=
  remove EventTimer.id timerId timers

def nextId (idx : Nat) : Nat := if idx < maxTimers then idx + 1 else 1

/-- The loop of `SOPC_Internal_GetFreshTimerId_WithoutLock`: the identifier, 0 if there is none, and
the latest one. -/
def freshLoop (used : Nat → Bool) : Nat → Nat → Nat → Nat × Nat
  | 0, _, latest => (0, latest)
  | turns + 1, idx, latest =>
    if idx = latest then (0, latest)
    else if used idx = false then (idx, idx)
    else
      let latest := if ¬ idx < maxTimers ∧ latest = 0 then 1 else latest
      freshLoop used turns (nextId idx) latest

/-- Each of the 255 identifiers is looked at once at most. -/
def getFreshTimerId (s : State E) : Nat × State E :=
  if s.timers.length < maxTimers then
    let (result, latest) := freshLoop s.usedTimerIds (maxTimers + 1) (nextId s.latestTimerId)
      s.latestTimerId
    if result = 0 then (0, { s with latestTimerId := latest })
    else (result, { s with latestTimerId := latest,
                           usedTimerIds := Function.update s.usedTimerIds result true })
  else (0, s)

structure Creation (E : Type) where
  now : Nat
  -- The event handler is not `NULL`.
  handler : Bool
  event : E
  msDelay : Nat
  isPeriodic : Bool
  -- There is memory for the timer, and for its element of the list.
  timerMemory : Bool
  elementMemory : Bool

def create (c : Creation E) (s : State E) : Nat × State E :=
  if c.handler = false ∨ c.msDelay = 0 then (0, s)
  else if c.isPeriodic = true ∧ c.msDelay < 2 * timerResolutionMs then (0, s)
  else if c.timerMemory = false then (0, s)
  else
    let (result, s) := getFreshTimerId s
    if result = 0 then (0, s)
    else
      match sortedInsert c.elementMemory
          ⟨result, c.event, addMilliseconds c.now c.msDelay, c.isPeriodic, c.msDelay⟩ s.timers with
      -- the identifier stays marked
      | none => (0, s)
      | some timers => (result, { s with timers := timers })

def cancelWithoutLock (timerId : Nat) (s : State E) : State E :=
  if s.usedTimerIds timerId then
    { s with timers := removeFromId timerId s.timers,
             usedTimerIds := Function.update s.usedTimerIds timerId false }
  else s

def cancel (timerId : Nat) (s : State E) : Option (State E) :=
  if timerId = 0 then some s
  else if maxTimers < timerId then none
  else some (cancelWithoutLock timerId s)

def modifyPeriodic (timerId msPeriod : Nat) (s : State E) : State E :=
  if timerId = 0 ∨ msPeriod = 0 then s
  else
    match s.timers.find? fun timer => timer.id = timerId with
    | none => s
    | some timer =>
      if timer.isPeriodicTimer = true ∧ ¬ msPeriod < 2 * timerResolutionMs then
        { s with timers := s.timers.replaceF fun t =>
            if t.id = timerId then some { t with periodMs := msPeriod } else none }
      else s

structure Memory where
  append : Nat → Bool
  insert : Nat → Bool

/-- The loop over the events that were missed: how many are posted, and the end time it leaves. -/
def missed (now periodMs : Nat) : Nat → Nat → Nat × Nat
  | 0, endTime => (0, endTime)
  | loopLimit + 1, endTime =>
    if endTime ≤ now then
      let (n, endTime) := missed now periodMs loopLimit (addMilliseconds endTime periodMs)
      (n + 1, endTime)
    else (0, endTime)

def rearm (now : Nat) (timer : EventTimer E) : Nat × EventTimer E :=
  let (n, endTime) := missed now timer.periodMs timerResolutionMs
    (addMilliseconds timer.endTime timer.periodMs)
  (n + 1, { timer with endTime := endTime })

/-- The walk along the list: the part behind the iterator, the identifiers in use, the timers to
restart, and the events posted, each with the timer it is posted for. -/
structure Walk (E : Type) where
  visited : List (EventTimer E)
  usedTimerIds : Nat → Bool
  toRestart : List (EventTimer E)
  posted : List (Nat × E)

def Walk.cancelVisited (w : Walk E) (timer : EventTimer E) : Walk E :=
  if w.usedTimerIds timer.id then
    { w with visited := removeFromId timer.id (w.visited ++ [timer]),
             usedTimerIds := Function.update w.usedTimerIds timer.id false }
  else { w with visited := w.visited ++ [timer] }

/-- The first loop of `SOPC_EventTimer_CyclicTimersEvaluation`, with the part of the list that it did
not visit. -/
def walk (memory : Memory) (now : Nat) :
    List (EventTimer E) → Walk E → Option (Walk E × List (EventTimer E))
  | [], w => some (w, [])
  | timer :: rest, w =>
    if timer.endTime ≤ now then
      if timer.isPeriodicTimer then
        -- "A periodic timer cannot have a period of 0 ms"
        if timer.periodMs = 0 then none
        else
          let (n, timer') := rearm now timer
          let appended := memory.append timer.id = true ∧ w.toRestart.length < maxTimers
          walk memory now rest
            { w with visited := w.visited ++ [timer'],
                     toRestart := if appended then w.toRestart ++ [timer'] else w.toRestart,
                     posted := w.posted ++ List.replicate n (timer.id, timer.event) }
      else
        walk memory now rest
          (Walk.cancelVisited { w with posted := w.posted ++ [(timer.id, timer.event)] } timer)
    else some (w, timer :: rest)

section Restart

variable [DecidableEq E]

def restartPeriodicTimer (memory : Memory) (timer : EventTimer E) (s : State E) : Option (State E) :=
  if s.usedTimerIds timer.id then
    if s.timers.find? (fun t => t.id = timer.id) = some timer then
      let timers := removeFromId timer.id s.timers
      match sortedInsert (memory.insert timer.id) timer timers with
      | some timers => some { s with timers := timers }
      | none => some { s with timers := timers,
                              usedTimerIds := Function.update s.usedTimerIds timer.id false }
    else none
  else some s

def restartAll (memory : Memory) : List (EventTimer E) → State E → Option (State E)
  | [], s => some s
  | timer :: rest, s =>
    match restartPeriodicTimer memory timer s with
    | none => none
    | some s => restartAll memory rest s

def evaluate (memory : Memory) (now : Nat) (s : State E) : Option (List (Nat × E) × State E) :=
  match walk memory now s.timers ⟨[], s.usedTimerIds, [], []⟩ with
  | none => none
  | some (w, rest) =>
    match restartAll memory w.toRestart
        { s with timers := w.visited ++ rest, usedTimerIds := w.usedTimerIds } with
    | none => none
    | some s => some (w.posted, s)

end Restart

def EventTimer.deadline (timer : EventTimer E) (k : Nat) : Nat :=
  min (timer.endTime + k * timer.periodMs) maxTime

/-- How often an expired timer fires: a periodic one for its end time, and for those of the next 50
that are over as well. -/
def EventTimer.firings (now : Nat) (timer : EventTimer E) : Nat :=
  if timer.isPeriodicTimer then
    1 + (List.range timerResolutionMs).countP fun k => timer.deadline (k + 1) ≤ now
  else 1

def EventTimer.next (now : Nat) (timer : EventTimer E) : EventTimer E :=
  { timer with endTime := timer.deadline (timer.firings now) }

theorem addMilliseconds_eq (timeRef ms : Nat) :
    addMilliseconds timeRef ms = min (timeRef + ms) maxTime := by
  unfold addMilliseconds maxTime
  split_ifs <;> omega

theorem missed_eq (now periodMs : Nat) (loopLimit endTime : Nat) :
    missed now periodMs loopLimit (min endTime maxTime) =
      ((List.range loopLimit).countP fun k => min (endTime + k * periodMs) maxTime ≤ now,
        min (endTime + ((List.range loopLimit).countP fun k =>
          min (endTime + k * periodMs) maxTime ≤ now) * periodMs) maxTime) := by
  induction loopLimit generalizing endTime with
  | zero => simp [missed]
  | succ n ih =>
    unfold missed
    split_ifs with h
    · have hadd : addMilliseconds (min endTime maxTime) periodMs =
          min (endTime + periodMs) maxTime := by
        rw [addMilliseconds_eq]
        omega
      have hcount : ((List.range (n + 1)).countP fun k => min (endTime + k * periodMs) maxTime ≤ now) =
          ((List.range n).countP fun k => min (endTime + periodMs + k * periodMs) maxTime ≤ now) + 1 := by
        rw [range_succ_eq_map, countP_cons, countP_map]
        simp only [Nat.zero_mul, Nat.add_zero, h, decide_true, if_true, Nat.add_right_cancel_iff]
        refine countP_congr fun k _ => ?_
        simp only [comp_apply, Nat.succ_eq_add_one, Nat.add_mul, Nat.one_mul,
          Nat.add_assoc, Nat.add_comm periodMs]
      rw [hadd, ih, hcount]
      simp only [Nat.add_mul, Nat.one_mul, Nat.add_assoc, Nat.add_comm periodMs]
    · have hcount : ((List.range (n + 1)).countP fun k =>
          decide (min (endTime + k * periodMs) maxTime ≤ now)) = 0 := by
        rw [countP_eq_zero]
        simp only [decide_eq_true_eq]
        omega
      rw [hcount, Nat.zero_mul, Nat.add_zero]

variable {now : Nat} {timer t : EventTimer E} {s : State E}

theorem rearm_eq (h : timer.isPeriodicTimer = true) :
    rearm now timer = (timer.firings now, timer.next now) := by
  unfold rearm EventTimer.next EventTimer.firings EventTimer.deadline
  rw [addMilliseconds_eq, missed_eq, if_pos h]
  simp only [Nat.add_mul, Nat.one_mul, Nat.add_assoc, Nat.add_comm]

@[simp] theorem EventTimer.next_id (now : Nat) (timer : EventTimer E) :
    (timer.next now).id = timer.id := rfl

structure State.Consistent (s : State E) : Prop where
  nodup : (s.timers.map EventTimer.id).Nodup
  used_iff : ∀ i, s.usedTimerIds i = true ↔ i ∈ s.timers.map EventTimer.id
  id_mem : ∀ timer ∈ s.timers, 1 ≤ timer.id ∧ timer.id ≤ maxTimers
  period_pos : ∀ timer ∈ s.timers, timer.isPeriodicTimer = true → 0 < timer.periodMs

structure State.Good (s : State E) : Prop extends s.Consistent where
  sorted : SortedList.Sorted EventTimer.endTime s.timers

theorem State.Consistent.length_le (h : s.Consistent) : s.timers.length ≤ maxTimers := by
  have hsub : (s.timers.map EventTimer.id).toFinset ⊆ Finset.Icc 1 maxTimers := by
    intro i hi; obtain ⟨timer, htimer, rfl⟩ := mem_map.mp (mem_toFinset.mp hi)
    exact Finset.mem_Icc.mpr (h.id_mem timer htimer)
  have hcard := Finset.card_le_card hsub
  rwa [toFinset_card_of_nodup h.nodup, length_map, Nat.card_Icc, Nat.add_sub_cancel] at hcard

theorem State.good_initial (latest : Nat) : (State.initial latest : State E).Good :=
  ⟨⟨nodup_nil, by simp [State.initial], by simp [State.initial], by simp [State.initial]⟩,
    List.Pairwise.nil⟩

theorem State.Consistent.perm (h : s.Consistent) {timers : List (EventTimer E)}
    (hperm : timers.Perm s.timers) : ({ s with timers := timers } : State E).Consistent where
  nodup := (hperm.map _).nodup_iff.mpr h.nodup
  used_iff i := (h.used_iff i).trans (hperm.map _).mem_iff.symm
  id_mem timer htimer := h.id_mem timer (hperm.mem_iff.mp htimer)
  period_pos timer htimer := h.period_pos timer (hperm.mem_iff.mp htimer)

theorem nextId_mem (idx : Nat) : 1 ≤ nextId idx ∧ nextId idx ≤ maxTimers := by
  unfold nextId maxTimers
  split_ifs <;> omega

theorem freshLoop_fresh {used : Nat → Bool} {turns idx latest : Nat}
    (hidx : 1 ≤ idx ∧ idx ≤ maxTimers) (h : (freshLoop used turns idx latest).1 ≠ 0) :
    used (freshLoop used turns idx latest).1 = false ∧
      1 ≤ (freshLoop used turns idx latest).1 ∧ (freshLoop used turns idx latest).1 ≤ maxTimers := by
  fun_induction freshLoop used turns idx latest with
  | case1 idx latest => exact absurd rfl h
  | case2 turns latest => exact absurd rfl h
  | case3 turns idx latest hlatest hfree => exact ⟨hfree, hidx⟩
  | case4 turns idx latest hlatest hused latest' ih => exact ih (nextId_mem idx) h

theorem getFreshTimerId_fresh (h : (getFreshTimerId s).1 ≠ 0) :
    s.timers.length < maxTimers ∧ s.usedTimerIds (getFreshTimerId s).1 = false ∧
      (1 ≤ (getFreshTimerId s).1 ∧ (getFreshTimerId s).1 ≤ maxTimers) ∧
      (getFreshTimerId s).2.timers = s.timers ∧
      (getFreshTimerId s).2.usedTimerIds =
        Function.update s.usedTimerIds (getFreshTimerId s).1 true := by
  unfold getFreshTimerId at h ⊢
  by_cases hlength : s.timers.length < maxTimers
  · rw [if_pos hlength] at h ⊢
    dsimp only at h ⊢
    by_cases hresult : (freshLoop s.usedTimerIds (maxTimers + 1) (nextId s.latestTimerId)
        s.latestTimerId).1 = 0
    · rw [if_pos hresult] at h; exact absurd rfl h
    · rw [if_neg hresult]
      obtain ⟨hfree, hmem⟩ := freshLoop_fresh (nextId_mem s.latestTimerId) hresult
      exact ⟨hlength, hfree, hmem, rfl, rfl⟩
  · rw [if_neg hlength] at h; exact absurd rfl h

theorem getFreshTimerId_zero (h : (getFreshTimerId s).1 = 0) :
    (getFreshTimerId s).2.timers = s.timers ∧
      (getFreshTimerId s).2.usedTimerIds = s.usedTimerIds := by
  unfold getFreshTimerId at h ⊢
  by_cases hlength : s.timers.length < maxTimers
  · rw [if_pos hlength] at h ⊢
    dsimp only at h ⊢
    split_ifs at h ⊢ with hresult
    · exact ⟨rfl, rfl⟩
    · exact absurd h hresult
  · rw [if_neg hlength]; exact ⟨rfl, rfl⟩

theorem good_create {c : Creation E} (h : s.Good) (hc : c.elementMemory = true) :
    (create c s).2.Good := by
  unfold create
  split
  · exact h
  rename_i hnull
  split
  · exact h
  split
  · exact h
  dsimp only
  by_cases hzero : (getFreshTimerId s).1 = 0
  · rw [if_pos hzero]
    obtain ⟨htimers, hused⟩ := getFreshTimerId_zero hzero
    exact ⟨⟨htimers ▸ h.nodup, htimers ▸ hused ▸ h.used_iff, htimers ▸ h.id_mem,
      htimers ▸ h.period_pos⟩, htimers ▸ h.sorted⟩
  · rw [if_neg hzero]
    obtain ⟨hlength, hfree, hid, htimers, hused⟩ := getFreshTimerId_fresh hzero
    rw [htimers, sortedInsert, if_pos ⟨hlength, hc⟩]
    generalize hnew : (⟨(getFreshTimerId s).1, c.event, addMilliseconds c.now c.msDelay,
      c.isPeriodic, c.msDelay⟩ : EventTimer E) = timer
    have hperm := perm_insertBy EventTimer.endTime timer s.timers
    have hidnew : timer.id = (getFreshTimerId s).1 := by rw [← hnew]
    have hnotin : timer.id ∉ s.timers.map EventTimer.id := by rw [← h.used_iff, hidnew, hfree]; simp
    have hcons : (⟨(getFreshTimerId s).2.usedTimerIds, (getFreshTimerId s).2.latestTimerId,
        timer :: s.timers⟩ : State E).Consistent := by
      refine ⟨nodup_cons.mpr ⟨hnotin, h.nodup⟩, fun i => ?_, ?_, ?_⟩
      · dsimp only
        rw [hused, ← hidnew, map_cons, mem_cons]
        by_cases hi : i = timer.id
        · simp [hi]
        · rw [update_of_ne hi]; simp [hi, h.used_iff]
      · exact forall_mem_cons.mpr ⟨hidnew ▸ hid, h.id_mem⟩
      · refine forall_mem_cons.mpr ⟨fun hperiodic => ?_, h.period_pos⟩
        rw [← hnew]
        simp only [not_or] at hnull
        exact Nat.pos_of_ne_zero hnull.2
    exact ⟨hcons.perm hperm, h.sorted.insertBy⟩

theorem State.Consistent.mem_remove_iff (h : s.Consistent) (htimer : timer ∈ s.timers) :
    t ∈ removeFromId timer.id s.timers ↔ t ∈ s.timers ∧ t.id ≠ timer.id := by
  have hperm := perm_remove EventTimer.id h.nodup htimer
  have hnodup := (hperm.map EventTimer.id).nodup_iff.mp h.nodup
  rw [map_cons, nodup_cons] at hnodup
  rw [hperm.mem_iff, mem_cons]
  constructor
  · intro ht; exact ⟨.inr ht, fun he => hnodup.1 (mem_map.mpr ⟨t, ht, he⟩)⟩
  · rintro ⟨rfl | ht, hne⟩
    · exact absurd rfl hne
    · exact ht

variable {timerId : Nat} {α : Type} {w : Walk E} {l due : List (EventTimer E)}

theorem good_cancelWithoutLock (h : s.Good) :
    (cancelWithoutLock timerId s).Good := by
  unfold cancelWithoutLock
  split_ifs with hused
  · obtain ⟨timer, htimer, rfl⟩ := mem_map.mp ((h.used_iff timerId).mp hused)
    have hsub : (removeFromId timer.id s.timers).Sublist s.timers := eraseP_sublist
    refine ⟨⟨h.nodup.sublist (hsub.map _), fun i => ?_, fun t ht => h.id_mem t (hsub.subset ht),
      fun t ht => h.period_pos t (hsub.subset ht)⟩, h.sorted.sublist hsub⟩
    simp only [mem_map, h.mem_remove_iff htimer]
    by_cases hi : i = timer.id
    · subst hi; simp
    · rw [update_of_ne hi, h.used_iff, mem_map]
      constructor
      · rintro ⟨t, ht, rfl⟩; exact ⟨t, ⟨ht, hi⟩, rfl⟩
      · rintro ⟨t, ⟨ht, -⟩, rfl⟩; exact ⟨t, ht, rfl⟩
  · exact h

theorem map_replaceF {β : Type} {f : α → Option α} {g : α → β}
    (h : ∀ a b, f a = some b → g b = g a) (l : List α) : (l.replaceF f).map g = l.map g := by
  induction l with
  | nil => rfl
  | cons a l ih =>
    rw [replaceF_cons]
    cases hf : f a with
    | none => simp [ih]
    | some b => simp [h a b hf]

theorem mem_replaceF {f : α → Option α} {l : List α} {b : α} (hb : b ∈ l.replaceF f) :
    b ∈ l ∨ ∃ a ∈ l, f a = some b := by
  induction l with
  | nil => cases hb
  | cons a l ih =>
    rw [replaceF_cons] at hb
    cases hf : f a with
    | none =>
      rw [hf] at hb
      obtain rfl | hb := mem_cons.mp hb
      · exact .inl (by simp)
      · obtain hb | ⟨a', ha', hfa⟩ := ih hb
        · exact .inl (mem_cons_of_mem a hb)
        · exact .inr ⟨a', mem_cons_of_mem a ha', hfa⟩
    | some c =>
      rw [hf] at hb
      obtain rfl | hb := mem_cons.mp hb
      · exact .inr ⟨a, by simp, hf⟩
      · exact .inl (mem_cons_of_mem a hb)

theorem good_modifyPeriodic {msPeriod : Nat} (h : s.Good) :
    (modifyPeriodic timerId msPeriod s).Good := by
  unfold modifyPeriodic
  by_cases hzero : timerId = 0 ∨ msPeriod = 0
  · rwa [if_pos hzero]
  rw [if_neg hzero]
  cases s.timers.find? fun timer => timer.id = timerId with
  | none => exact h
  | some timer =>
    dsimp only
    split_ifs
    · have hkeep : ∀ a b : EventTimer E,
          (if a.id = timerId then some { a with periodMs := msPeriod } else none) = some b →
          a = { b with periodMs := a.periodMs } ∧ b.periodMs = msPeriod := by
        intro a b hab; split_ifs at hab
        cases hab; exact ⟨rfl, rfl⟩
      have hid := map_replaceF (g := EventTimer.id) (fun a b hab => by rw [(hkeep a b hab).1]) s.timers
      have htime := map_replaceF (g := EventTimer.endTime) (fun a b hab => by rw [(hkeep a b hab).1])
      refine ⟨⟨hid ▸ h.nodup, fun i => hid ▸ h.used_iff i, fun t ht => ?_, fun t ht => ?_⟩, ?_⟩
      · have ht' : t.id ∈ s.timers.map EventTimer.id := hid ▸ mem_map_of_mem ht
        obtain ⟨u, hu, he⟩ := mem_map.mp ht'
        exact he ▸ h.id_mem u hu
      · obtain ht | ⟨a, -, hab⟩ := mem_replaceF ht
        · exact h.period_pos t ht
        · rw [(hkeep a t hab).2]; omega
      · have hsorted := pairwise_map.mpr h.sorted
        rw [← htime] at hsorted
        exact pairwise_map.mp hsorted
    · exact h

def isDue (now : Nat) (timer : EventTimer E) : Bool := timer.endTime ≤ now

def rearmed (now : Nat) (due : List (EventTimer E)) : List (EventTimer E) :=
  (due.filter EventTimer.isPeriodicTimer).map (EventTimer.next now)

def postedFor (now : Nat) (due : List (EventTimer E)) : List (Nat × E) :=
  due.flatMap fun timer => List.replicate (timer.firings now) (timer.id, timer.event)

def stillUsed (used : Nat → Bool) (due : List (EventTimer E)) (i : Nat) : Bool :=
  used i && !due.any fun timer => timer.id == i && !timer.isPeriodicTimer

theorem stillUsed_nil (used : Nat → Bool) : stillUsed used ([] : List (EventTimer E)) = used := by
  funext i; simp [stillUsed]

theorem cancelVisited_eq (hnew : timer.id ∉ w.visited.map EventTimer.id)
    (hused : w.usedTimerIds timer.id = true) :
    w.cancelVisited timer =
      { w with usedTimerIds := Function.update w.usedTimerIds timer.id false } := by
  have hremove : removeFromId timer.id (w.visited ++ [timer]) = w.visited := by
    have hnot : ∀ t ∈ w.visited, ¬ decide (t.id = timer.id) = true := by
      intro t ht he; exact hnew (mem_map.mpr ⟨t, ht, of_decide_eq_true he⟩)
    unfold removeFromId remove
    rw [eraseP_append_right _ hnot]
    simp
  rw [Walk.cancelVisited, if_pos hused, hremove]

structure Walk.Ahead (w : Walk E) (l : List (EventTimer E)) : Prop where
  nodup : ((w.visited ++ l).map EventTimer.id).Nodup
  used : ∀ timer ∈ l, w.usedTimerIds timer.id = true
  period_pos : ∀ timer ∈ l, timer.isPeriodicTimer = true → 0 < timer.periodMs
  length_le : w.toRestart.length + l.length ≤ maxTimers

theorem Walk.Ahead.fresh (h : w.Ahead (timer :: l)) :
    timer.id ∉ w.visited.map EventTimer.id := by
  intro hmem; have hnodup := h.nodup
  rw [map_append, nodup_append] at hnodup
  exact hnodup.2.2 _ hmem _ (by simp) rfl

theorem walk_eq {memory : Memory} (hmem : ∀ i, memory.append i = true) (now : Nat)
    (l : List (EventTimer E)) (h : w.Ahead l) :
    walk memory now l w =
      some (⟨w.visited ++ rearmed now (l.takeWhile (isDue now)),
        stillUsed w.usedTimerIds (l.takeWhile (isDue now)),
        w.toRestart ++ rearmed now (l.takeWhile (isDue now)),
        w.posted ++ postedFor now (l.takeWhile (isDue now))⟩, l.dropWhile (isDue now)) := by
  induction l generalizing w with
  | nil => simp [walk, rearmed, postedFor, stillUsed_nil]
  | cons timer l ih =>
    have hnodup := h.nodup
    have hlength := h.length_le
    rw [length_cons] at hlength
    unfold walk
    by_cases hdue : timer.endTime ≤ now
    · rw [if_pos hdue]
      have hisDue : isDue now timer = true := decide_eq_true hdue
      rw [takeWhile_cons_of_pos hisDue, dropWhile_cons_of_pos hisDue]
      cases hperiodic : timer.isPeriodicTimer with
      | true =>
        have hpos := h.period_pos timer (by simp) hperiodic
        rw [if_pos rfl, if_neg (Nat.ne_of_gt hpos), rearm_eq hperiodic]
        dsimp only
        rw [if_pos ⟨hmem timer.id, by omega⟩]
        have hnext : (⟨w.visited ++ [timer.next now], w.usedTimerIds,
            w.toRestart ++ [timer.next now],
            w.posted ++ List.replicate (timer.firings now) (timer.id, timer.event)⟩ :
            Walk E).Ahead l := by
          refine ⟨?_, fun t ht => h.used t (mem_cons_of_mem timer ht),
            fun t ht => h.period_pos t (mem_cons_of_mem timer ht), ?_⟩
          · simpa using hnodup
          · simp only [length_append, length_singleton]; omega
        have hused : stillUsed w.usedTimerIds (timer :: l.takeWhile (isDue now)) =
            stillUsed w.usedTimerIds (l.takeWhile (isDue now)) := by
          funext i
          simp [stillUsed, hperiodic]
        rw [ih hnext, hused]
        simp [rearmed, postedFor, hperiodic]
      | false =>
        have hcancel := cancelVisited_eq (w := { w with posted := w.posted ++ [(timer.id, timer.event)] })
          h.fresh (h.used timer (by simp))
        rw [if_neg (by simp), hcancel]
        have hne : ∀ t ∈ l, t.id ≠ timer.id := by
          intro t ht he; rw [map_append, map_cons, nodup_append] at hnodup
          exact (nodup_cons.mp hnodup.2.1).1 (mem_map.mpr ⟨t, ht, he⟩)
        have hnext : (⟨w.visited, Function.update w.usedTimerIds timer.id false, w.toRestart,
            w.posted ++ [(timer.id, timer.event)]⟩ : Walk E).Ahead l := by
          refine ⟨?_, fun t ht => ?_, fun t ht => h.period_pos t (mem_cons_of_mem timer ht), ?_⟩
          · refine hnodup.sublist (List.Sublist.map _ ?_)
            exact List.Sublist.append_left (sublist_cons_self timer l) w.visited
          · dsimp only
            rw [update_of_ne (hne t ht)]
            exact h.used t (mem_cons_of_mem timer ht)
          · dsimp only; omega
        rw [ih hnext]
        have hused : stillUsed (Function.update w.usedTimerIds timer.id false)
            (l.takeWhile (isDue now)) =
            stillUsed w.usedTimerIds (timer :: l.takeWhile (isDue now)) := by
          funext i
          unfold stillUsed
          by_cases hi : i = timer.id
          · simp [hi, hperiodic]
          · rw [update_of_ne hi, any_cons, beq_false_of_ne (Ne.symm hi), Bool.false_and,
              Bool.false_or]
        rw [hused]
        simp [rearmed, postedFor, EventTimer.firings, hperiodic]
    · rw [if_neg hdue]
      have hisDue : ¬ isDue now timer = true := by simpa [isDue] using hdue
      rw [takeWhile_cons_of_neg hisDue, dropWhile_cons_of_neg hisDue]
      simp [rearmed, postedFor, stillUsed_nil]

def walked (now : Nat) (s : State E) : State E :=
  { s with timers := rearmed now (s.timers.takeWhile (isDue now)) ++ s.timers.dropWhile (isDue now),
           usedTimerIds := stillUsed s.usedTimerIds (s.timers.takeWhile (isDue now)) }

theorem map_id_rearmed (now : Nat) (due : List (EventTimer E)) :
    (rearmed now due).map EventTimer.id =
      (due.filter EventTimer.isPeriodicTimer).map EventTimer.id := by
  unfold rearmed
  rw [map_map]
  rfl

theorem mem_rearmed : t ∈ rearmed now due ↔
    ∃ timer ∈ due, timer.isPeriodicTimer = true ∧ timer.next now = t := by
  simp [rearmed, and_assoc]

theorem State.Consistent.eq_of_id (h : s.Consistent) {u : EventTimer E} (ht : t ∈ s.timers)
    (hu : u ∈ s.timers) (hid : t.id = u.id) : t = u :=
  inj_on_of_nodup_map h.nodup ht hu hid

theorem consistent_walked (h : s.Consistent) : (walked now s).Consistent := by
  have hsplit : s.timers.takeWhile (isDue now) ++ s.timers.dropWhile (isDue now) = s.timers :=
    takeWhile_append_dropWhile
  have hdue : ∀ t ∈ s.timers.takeWhile (isDue now), t ∈ s.timers := fun t ht =>
    hsplit ▸ mem_append_left _ ht
  have hrest : ∀ t ∈ s.timers.dropWhile (isDue now), t ∈ s.timers := fun t ht =>
    hsplit ▸ mem_append_right _ ht
  have hids : (walked now s).timers.map EventTimer.id =
      ((s.timers.takeWhile (isDue now)).filter EventTimer.isPeriodicTimer ++
        s.timers.dropWhile (isDue now)).map EventTimer.id := by
    unfold walked
    rw [map_append, map_id_rearmed, map_append]
  have hdisjoint : ∀ u ∈ s.timers.takeWhile (isDue now), ∀ t ∈ s.timers.dropWhile (isDue now),
      u.id ≠ t.id := by
    have hnodup := h.nodup
    rw [← hsplit, map_append, nodup_append] at hnodup
    exact fun u hu t ht => hnodup.2.2 _ (mem_map_of_mem hu) _ (mem_map_of_mem ht)
  refine ⟨?_, fun i => ?_, fun t ht => ?_, fun t ht => ?_⟩
  · rw [hids]
    have hnodup := h.nodup
    rw [← hsplit] at hnodup
    exact hnodup.sublist ((filter_sublist.append_right _).map _)
  · rw [hids, mem_map]
    unfold walked stillUsed
    simp only [Bool.and_eq_true, Bool.not_eq_true', any_eq_false, not_and,
      beq_iff_eq, Bool.not_eq_false, h.used_iff, mem_map, mem_append, mem_filter]
    constructor
    · rintro ⟨⟨t, ht, rfl⟩, hone⟩; rw [← hsplit, mem_append] at ht
      exact ⟨t, ht.imp_left fun ht => ⟨ht, hone t ht rfl⟩, rfl⟩
    rintro ⟨t, ht | ht, rfl⟩
    · refine ⟨⟨t, hdue t ht.1, rfl⟩, fun u hu hid => ?_⟩
      rw [h.eq_of_id (hdue u hu) (hdue t ht.1) hid]
      exact ht.2
    · exact ⟨⟨t, hrest t ht, rfl⟩, fun u hu hid => absurd hid (hdisjoint u hu t ht)⟩
  · obtain ht | ht := mem_append.mp ht
    · obtain ⟨timer, htimer, -, rfl⟩ := mem_rearmed.mp ht; exact h.id_mem timer (hdue timer htimer)
    · exact h.id_mem t (hrest t ht)
  · obtain ht | ht := mem_append.mp ht
    · obtain ⟨timer, htimer, -, rfl⟩ := mem_rearmed.mp ht
      exact h.period_pos timer (hdue timer htimer)
    · exact h.period_pos t (hrest t ht)

def evaluated (now : Nat) (s : State E) : State E :=
  { walked now s with
    timers := reinsertAll EventTimer.endTime EventTimer.id
      (rearmed now (s.timers.takeWhile (isDue now))) (walked now s).timers }

theorem perm_evaluated (h : s.Consistent) : (evaluated now s).timers.Perm (walked now s).timers :=
  perm_reinsertAll EventTimer.endTime EventTimer.id (consistent_walked h).nodup
    fun _ ht => mem_append_left _ ht

theorem consistent_evaluated (h : s.Consistent) : (evaluated now s).Consistent :=
  (consistent_walked h).perm (perm_evaluated h)

/-- No periodic timer that expired is held up, on its way to its new place, by one that is restarted
later: it has a smaller end time than none of them, or than the timers that did not expire. -/
def Undisturbed (now : Nat) (s : State E) : Prop :=
  ((s.timers.filter (isDue now)).filter EventTimer.isPeriodicTimer).Pairwise fun p q =>
    (p.next now).endTime < (q.next now).endTime →
      ∀ t ∈ s.timers, now < t.endTime → (p.next now).endTime ≤ t.endTime

theorem State.Good.takeWhile_eq (h : s.Good) (now : Nat) :
    s.timers.takeWhile (isDue now) = s.timers.filter (isDue now) ∧
      s.timers.dropWhile (isDue now) = s.timers.filter fun t => now < t.endTime :=
  h.sorted.takeWhile_eq now

theorem good_evaluated (h : s.Good) (hu : Undisturbed now s) : (evaluated now s).Good := by
  refine ⟨consistent_evaluated h.toConsistent, ?_⟩
  refine sorted_reinsertAll _ _ (consistent_walked h.toConsistent).nodup ?_ ?_
  · exact h.sorted.sublist (dropWhile_sublist _)
  rw [(h.takeWhile_eq now).1, (h.takeWhile_eq now).2]
  unfold SortedList.Unhindered rearmed
  rw [pairwise_map]
  refine hu.imp ?_
  intro p q hpq hlt t ht; obtain ⟨ht, hnow⟩ := mem_filter.mp ht
  exact hpq hlt t ht (of_decide_eq_true hnow)

theorem mem_evaluated (h : s.Good) :
    t ∈ (evaluated now s).timers ↔ (t ∈ s.timers ∧ now < t.endTime) ∨
      ∃ timer ∈ s.timers, timer.endTime ≤ now ∧ timer.isPeriodicTimer = true ∧
        timer.next now = t := by
  rw [(perm_evaluated h.toConsistent).mem_iff]
  unfold walked
  rw [mem_append, mem_rearmed, (h.takeWhile_eq now).1, (h.takeWhile_eq now).2, or_comm]
  simp only [mem_filter, decide_eq_true_eq, isDue, and_assoc]

def Memory.AtHand (memory : Memory) : Prop := ∀ i, memory.append i = true ∧ memory.insert i = true

theorem find?_id (hnodup : (l.map EventTimer.id).Nodup) (h : timer ∈ l) :
    l.find? (fun t => t.id = timer.id) = some timer := by
  induction l with
  | nil => cases h
  | cons t l ih =>
    rw [map_cons, nodup_cons] at hnodup
    obtain rfl | h := mem_cons.mp h
    · simp
    · have hne : ¬ t.id = timer.id := fun he => hnodup.1 (he ▸ mem_map_of_mem h)
      rw [find?_cons_of_neg (by simpa using hne)]
      exact ih hnodup.2 h

section Evaluation

variable [DecidableEq E] {memory : Memory} {now : Nat}

theorem restartPeriodicTimer_eq (hmem : memory.AtHand) (h : s.Consistent)
    (htimer : timer ∈ s.timers) :
    restartPeriodicTimer memory timer s =
      some { s with timers := reinsert EventTimer.endTime EventTimer.id timer s.timers } := by
  have hused : s.usedTimerIds timer.id = true := (h.used_iff timer.id).mpr (mem_map_of_mem htimer)
  have hlength := (perm_remove EventTimer.id h.nodup htimer).length_eq
  have hle := h.length_le
  rw [length_cons] at hlength
  have hfits : (removeFromId timer.id s.timers).length < maxTimers := by unfold removeFromId; omega
  rw [restartPeriodicTimer, if_pos hused, if_pos (find?_id h.nodup htimer)]
  dsimp only
  rw [sortedInsert, if_pos ⟨hfits, (hmem timer.id).2⟩]
  rfl

theorem restartAll_eq (hmem : memory.AtHand) (xs : List (EventTimer E)) {s : State E}
    (h : s.Consistent) (hxs : ∀ timer ∈ xs, timer ∈ s.timers) : restartAll memory xs s =
      some { s with timers := reinsertAll EventTimer.endTime EventTimer.id xs s.timers } := by
  induction xs generalizing s with
  | nil => rfl
  | cons timer xs ih =>
    have htimer := hxs timer (by simp)
    have hperm := perm_reinsert EventTimer.endTime EventTimer.id h.nodup htimer
    rw [restartAll, restartPeriodicTimer_eq hmem h htimer]
    dsimp only
    rw [ih (h.perm hperm) fun t ht => hperm.mem_iff.mpr (hxs t (mem_cons_of_mem timer ht))]
    rfl

theorem evaluate_eq (hmem : memory.AtHand) (h : s.Consistent) :
    evaluate memory now s =
      some (postedFor now (s.timers.takeWhile (isDue now)), evaluated now s) := by
  have hahead : (⟨[], s.usedTimerIds, [], []⟩ : Walk E).Ahead s.timers :=
    ⟨h.nodup, fun t ht => (h.used_iff t.id).mpr (mem_map_of_mem ht), h.period_pos,
      by simpa using h.length_le⟩
  have hrestart : restartAll memory (rearmed now (s.timers.takeWhile (isDue now))) (walked now s) =
      some (evaluated now s) :=
    restartAll_eq hmem _ (consistent_walked h) fun t ht => mem_append_left _ ht
  unfold walked at hrestart
  unfold evaluate
  rw [walk_eq (fun i => (hmem i).1) now s.timers hahead]
  dsimp only [nil_append]
  rw [hrestart]

end Evaluation

structure Fires (now : Nat) (s : State E) (posted : List (Nat × E)) (s' : State E) : Prop where
  due : ∀ timer ∈ s.timers, timer.endTime ≤ now → posted.filter (fun p => p.1 = timer.id) =
    List.replicate (timer.firings now) (timer.id, timer.event)
  not_due : ∀ timer ∈ s.timers, now < timer.endTime → posted.filter (fun p => p.1 = timer.id) = []
  only : ∀ p ∈ posted, ∃ timer ∈ s.timers, p = (timer.id, timer.event)
  left : ∀ timer, timer ∈ s'.timers ↔ (timer ∈ s.timers ∧ now < timer.endTime) ∨
    ∃ t ∈ s.timers, t.endTime ≤ now ∧ t.isPeriodicTimer = true ∧ t.next now = timer

theorem filter_postedFor (hnodup : (due.map EventTimer.id).Nodup)
    (i : Nat) :
    (postedFor now due).filter (fun p => p.1 = i) =
      (due.find? fun t => t.id = i).elim [] fun t => List.replicate (t.firings now) (t.id, t.event) := by
  induction due with
  | nil => rfl
  | cons t due ih =>
    rw [map_cons, nodup_cons] at hnodup
    have hcons : postedFor now (t :: due) =
        List.replicate (t.firings now) (t.id, t.event) ++ postedFor now due := rfl
    rw [hcons, filter_append, ih hnodup.2, filter_replicate]
    by_cases hi : t.id = i
    · have hnone : due.find? (fun t => t.id = i) = none := by
        rw [find?_eq_none]
        intro u hu he
        exact hnodup.1 (mem_map.mpr ⟨u, hu, (of_decide_eq_true he).trans hi.symm⟩)
      rw [hnone, find?_cons_of_pos (by simpa using hi), if_pos (by simpa using hi)]
      simp
    · rw [find?_cons_of_neg (by simpa using hi), if_neg (by simpa using hi), nil_append]

theorem fires_evaluated (h : s.Good) :
    Fires now s (postedFor now (s.timers.takeWhile (isDue now))) (evaluated now s) := by
  rw [(h.takeWhile_eq now).1]
  have hnodup : ((s.timers.filter (isDue now)).map EventTimer.id).Nodup :=
    h.nodup.sublist (filter_sublist.map _)
  refine ⟨fun timer htimer hdue => ?_, fun timer htimer hdue => ?_, fun p hp => ?_,
    fun timer => mem_evaluated h⟩
  · have hmem : timer ∈ s.timers.filter (isDue now) :=
      mem_filter.mpr ⟨htimer, decide_eq_true hdue⟩
    rw [filter_postedFor hnodup, find?_id hnodup hmem]
    rfl
  · have hnone : (s.timers.filter (isDue now)).find? (fun t => t.id = timer.id) = none := by
      rw [find?_eq_none]
      intro t ht he; obtain ⟨ht, htdue⟩ := mem_filter.mp ht
      rw [h.eq_of_id ht htimer (of_decide_eq_true he)] at htdue
      exact absurd (of_decide_eq_true htdue) (Nat.not_le.mpr hdue)
    rw [filter_postedFor hnodup, hnone]
    rfl
  · obtain ⟨timer, htimer, hp⟩ := mem_flatMap.mp hp
    exact ⟨timer, (mem_filter.mp htimer).1, eq_of_mem_replicate hp⟩

section Runs

inductive Op (E : Type) where
  | create (c : Creation E)
  | cancel (timerId : Nat)
  | modifyPeriodic (timerId msPeriod : Nat)
  | evaluate (memory : Memory) (now : Nat)

variable [DecidableEq E]

def step : Op E → State E → Option (List (Nat × E) × State E)
  | .create c, s => some ([], (create c s).2)
  | .cancel timerId, s => (cancel timerId s).map ([], ·)
  | .modifyPeriodic timerId msPeriod, s => some ([], modifyPeriodic timerId msPeriod s)
  | .evaluate memory now, s => evaluate memory now s

def Orderly (s : State E) : Op E → Prop
  | .create c => c.elementMemory = true
  | .cancel timerId => timerId ≤ maxTimers
  | .modifyPeriodic _ _ => True
  | .evaluate memory now => memory.AtHand ∧ Undisturbed now s

inductive Reached : State E → Prop
  | initial (latest : Nat) : Reached (State.initial latest)
  | step {s s' : State E} {op : Op E} {posted : List (Nat × E)} (h : Reached s) (hop : Orderly s op)
      (hstep : step op s = some (posted, s')) : Reached s'

theorem Reached.create (h : Reached s) {c : Creation E} (hc : c.elementMemory = true) :
    Reached (create c s).2 :=
  h.step (show Orderly s (.create c) from hc) rfl

theorem good_step {s' : State E} {op : Op E} {posted : List (Nat × E)} (h : s.Good)
    (hop : Orderly s op) (hstep : step op s = some (posted, s')) : s'.Good := by
  cases op with
  | create c => cases hstep; exact good_create h hop
  | cancel timerId =>
    have hle : ¬ maxTimers < timerId := Nat.not_lt.mpr hop
    simp only [step, cancel] at hstep
    by_cases hzero : timerId = 0
    · rw [if_pos hzero] at hstep; cases hstep; exact h
    · rw [if_neg hzero, if_neg hle] at hstep; cases hstep; exact good_cancelWithoutLock h
  | modifyPeriodic timerId msPeriod => cases hstep; exact good_modifyPeriodic h
  | evaluate memory now =>
    have heq : evaluate memory now s = _ := evaluate_eq hop.1 h.toConsistent
    simp only [step, heq] at hstep
    cases hstep; exact good_evaluated h hop.2

theorem Reached.good (h : Reached s) : s.Good := by
  induction h with
  | initial latest => exact State.good_initial latest
  | step _ hop hstep ih => exact good_step ih hop hstep

/-- In every state of an orderly run the list is in order, its identifiers are distinct and those in
use, and an evaluation fires the timers that expired and no other. -/
theorem timers_fire {s : State E} (h : Reached s) :
    SortedList.Sorted EventTimer.endTime s.timers ∧ (s.timers.map EventTimer.id).Nodup ∧
      (∀ i, s.usedTimerIds i = true ↔ i ∈ s.timers.map EventTimer.id) ∧
      ∀ (memory : Memory) (now : Nat), memory.AtHand → ∃ posted s',
        evaluate memory now s = some (posted, s') ∧ Fires now s posted s' :=
  ⟨h.good.sorted, h.good.nodup, h.good.used_iff, fun _ _ hmem =>
    ⟨_, _, evaluate_eq hmem h.good.toConsistent, fires_evaluated h.good⟩⟩

end Runs

theorem timers_fire_two_timers : ∃ s : State Unit, Reached s ∧ s.timers.length = 2 ∧
    ∃ posted s', evaluate ⟨fun _ => true, fun _ => true⟩ 100 s = some (posted, s') ∧
      Fires 100 s posted s' := by
  have h₁ : Reached (create ⟨0, true, (), 100, true, true, true⟩ (State.initial 0)).2 :=
    (Reached.initial 0).create rfl
  have h₂ : Reached (create ⟨40, true, (), 10, false, true, true⟩
      (create ⟨0, true, (), 100, true, true, true⟩ (State.initial 0)).2).2 :=
    h₁.create rfl
  exact ⟨_, h₂, rfl, (timers_fire h₂).2.2.2 _ 100 fun _ => ⟨rfl, rfl⟩⟩

/-- A periodic timer that is a period late fires twice. And of two periodic timers that expire
together, with the next end times 2990 and 4000, the first one stops before the second one, so that it
ends up before a timer with the end time 2500, which is then not fired at 2500. -/
theorem late_fires_twice_order_lost :
    (∃ s, evaluate ⟨fun _ => true, fun _ => true⟩ 200
      (create ⟨0, true, (), 100, true, true, true⟩ (State.initial 0)).2 =
        some ([(1, ()), (1, ())], s)) ∧
    ∃ posted s s', evaluate ⟨fun _ => true, fun _ => true⟩ 2000
      (create ⟨1500, true, (), 1000, false, true, true⟩
        (create ⟨990, true, (), 1000, true, true, true⟩
          (create ⟨0, true, (), 2000, true, true, true⟩ (State.initial 0)).2).2).2 =
        some (posted, s) ∧
      s.timers.map EventTimer.endTime = [2990, 2500, 4000] ∧
      evaluate ⟨fun _ => true, fun _ => true⟩ 2500 s = some ([], s') :=
  ⟨⟨_, rfl⟩, _, _, _, rfl, rfl, rfl⟩

end EventTimers
end S2OPC
