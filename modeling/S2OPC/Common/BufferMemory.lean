import S2OPC.Common.Buffer
import S2OPC.Lib.Fallible

/-!
# S2OPC.Common.BufferMemory

The buffers of `sopc_buffer.c` as they lie in memory: plain records, found by pointers that can be
`NULL` or the same. Every access to the bytes of a buffer is noted. `Stands` connects a record to the
`Buffer` it stands for.
-/

namespace S2OPC

open Function Option

structure RawBuffer where
  data : Option (List UInt8)
  position : UInt32
  length : UInt32
  initialSize : UInt32
  currentSize : UInt32
  maximumSize : UInt32

structure Realloc where
  call : Option (List UInt8) → Nat → Option (List UInt8)
  keeps : ∀ {d d' : List UInt8} {newSize : Nat}, d.length ≤ newSize → call (some d) newSize = some d' →
    d <+: d' ∧ d'.length = newSize

namespace RawBuffer

open Function

structure Inv (b : RawBuffer) : Prop where
  position_le : b.position ≤ b.length
  length_le : b.length ≤ b.currentSize
  size_le : b.currentSize ≤ b.maximumSize
  -- What is allocated.
  allocated : ∀ d ∈ b.data, d.length = b.currentSize.toNat

/-- What a call returns, the bytes of the buffer that it accesses (from where, and how many), and the
buffer after it. -/
structure Call (α : Type) where
  result : Except Status α
  accesses : List (Nat × Nat)
  buffer : RawBuffer

def fail {α : Type} (e : Status) (b : RawBuffer) : Option (Call α) := some ⟨.error e, [], b⟩

def store (data : Option (List UInt8)) (start : Nat) (bs : List UInt8) : Option (List UInt8) :=
  data.bind fun d => if start + bs.length ≤ d.length then some (Codec.splice d start bs) else none

def load (data : Option (List UInt8)) (start count : Nat) : Option (List UInt8) :=
  data.bind fun d => if start + count ≤ d.length then some ((d.drop start).take count) else none

def resetAfterPosition (position : UInt32) (b : RawBuffer) : Option (Call Unit) :=
  if b.data.isSome ∧ position ≤ b.length then
    let count := (b.currentSize - position).toNat
    (store b.data position.toNat (List.replicate count 0)).map fun d =>
      ⟨.ok (), [(position.toNat, count)],
        { b with data := some d, position := position, length := position }⟩
  else fail .invalidParameters b

def setPosition (position : UInt32) (b : RawBuffer) : Option (Call Unit) :=
  if b.data.isSome ∧ b.length ≥ position then
    some ⟨.ok (), [], { b with position := position }⟩
  else fail .invalidParameters b

def setDataLength (length : UInt32) (b : RawBuffer) : Option (Call Unit) :=
  if b.data.isSome ∧ b.currentSize ≥ length ∧ b.position ≤ length then
    if b.length > length then
      let count := (b.length - length).toNat
      (store b.data length.toNat (List.replicate count 0)).map fun d =>
        ⟨.ok (), [(length.toNat, count)], { b with data := some d, length := length }⟩
    else some ⟨.ok (), [], { b with length := length }⟩
  else fail .invalidParameters b

def newSize (b : RawBuffer) (totalNbBytes : UInt32) (exactResize : Bool) : Option UInt32 :=
  if exactResize then some totalNbBytes
  else if b.initialSize = 0 then none
  else
    let requiredSteps :=
      if totalNbBytes % b.initialSize ≠ 0 then totalNbBytes / b.initialSize + 1
      else totalNbBytes / b.initialSize
    some (if requiredSteps > b.maximumSize / b.initialSize then b.maximumSize
      else requiredSteps * b.initialSize)

def checkSizeAndResize (r : Realloc) (totalNbBytes : UInt32) (exactResize : Bool) (b : RawBuffer) :
    Option (Bool × RawBuffer) :=
  if totalNbBytes ≤ b.currentSize then some (true, b)
  else if totalNbBytes ≤ b.maximumSize then
    (newSize b totalNbBytes exactResize).map fun size =>
      match r.call b.data size.toNat with
      | some newData => (true, { b with data := some newData, currentSize := size })
      | none => (false, b)
  else some (false, b)

def writeAt (bs : List UInt8) (count : UInt32) (b : RawBuffer) : Option (Call Unit) :=
  (store b.data b.position.toNat bs).map fun d =>
    let position := b.position + count
    ⟨.ok (), [(b.position.toNat, bs.length)],
      { b with
        data := some d
        position := position
        length := if position > b.length then position else b.length }⟩

def write (r : Realloc) (dataSrc : Option (Nat → UInt8)) (count : UInt32) (b : RawBuffer) :
    Option (Call Unit) :=
  match dataSrc with
  | none => fail .invalidParameters b
  | some src =>
    if b.data.isNone then fail .invalidParameters b
    else
      (checkSizeAndResize r (b.position + count) false b).bind fun p =>
        if p.1 then writeAt ((List.range count.toNat).map src) count p.2
        else fail .outOfMemory p.2

def read (toDest : Bool) (count : UInt32) (b : RawBuffer) : Option (Call (List UInt8)) :=
  if b.data.isNone then fail .invalidParameters b
  else if b.position + count ≤ b.length then
    if toDest then
      (load b.data b.position.toNat count.toNat).map fun bs =>
        ⟨.ok bs, [(b.position.toNat, count.toNat)], { b with position := b.position + count }⟩
    else some ⟨.ok [], [], { b with position := b.position + count }⟩
  else fail .outOfMemory b

def andThen (c : Option (Call Unit)) (f : RawBuffer → Option (Call Unit)) : Option (Call Unit) :=
  c.bind fun c =>
    match c.result with
    | .ok () => (f c.buffer).map fun c' => { c' with accesses := c.accesses ++ c'.accesses }
    | .error _ => some c

structure Kept {α : Type} (b : RawBuffer) (c : Call α) : Prop where
  inv : c.buffer.Inv
  failed : c.result.isOk = false → c.buffer = b

variable {b : RawBuffer} {total count : UInt32}

variable {α : Type} {accesses : List (Nat × Nat)} {size a c : UInt32} {r : Realloc}

theorem kept_error (hb : b.Inv) (e : Status) : Kept b (⟨.error e, [], b⟩ : Call α) :=
  ⟨hb, fun _ => rfl⟩

theorem kept_ok {b' : RawBuffer} {x : α} (h : b'.Inv) :
    Kept b ⟨.ok x, accesses, b'⟩ :=
  ⟨h, fun hf => Bool.noConfusion hf⟩

theorem Inv.exists_store (hb : b.Inv) (hd : b.data.isSome) (start : Nat) (bs : List UInt8)
    (h : start + bs.length ≤ b.currentSize.toNat) :
    ∃ d, store b.data start bs = some d ∧ d.length = b.currentSize.toNat := by
  obtain ⟨d, hd⟩ := isSome_iff_exists.mp hd
  have hlen := hb.allocated d hd
  refine ⟨Codec.splice d start bs, ?_, ?_⟩
  · rw [store, hd, bind_some, if_pos (by omega)]
  · rw [Codec.length_splice (by omega)]; omega

theorem Inv.exists_load (hb : b.Inv) (hd : b.data.isSome) (start count : Nat)
    (h : start + count ≤ b.currentSize.toNat) :
    ∃ bs, load b.data start count = some bs ∧ bs.length = count := by
  obtain ⟨d, hd⟩ := isSome_iff_exists.mp hd
  have hlen := hb.allocated d hd
  refine ⟨(d.drop start).take count, ?_, ?_⟩
  · rw [load, hd, bind_some, if_pos (by omega)]
  · simp; omega

theorem Inv.access_eq_none {f : List UInt8 → α} {stop : Nat} (hb : b.Inv)
    (h : b.currentSize.toNat < stop) :
    (b.data.bind fun d => if stop ≤ d.length then some (f d) else none) = none := by
  cases hd : b.data with
  | none => rfl
  | some d => have hlen := hb.allocated d hd; rw [bind_some, if_neg (by omega)]

theorem isSome_of_bind {β : Type} {data : Option α} {f : α → Option β} {y : β}
    (h : data.bind f = some y) : data.isSome := by
  obtain ⟨x, rfl, -⟩ := bind_eq_some_iff.mp h; rfl

variable {exactResize : Bool}

theorem Inv.allocated_some {d : List UInt8} (h : d.length = b.currentSize.toNat) :
    ∀ d' ∈ some d, d'.length = b.currentSize.toNat := by
  intro d' hd'; cases hd'; exact h

theorem Inv.setPosition (hb : b.Inv) (position : UInt32) :
    ∃ c, setPosition position b = some c ∧ Kept b c := by
  unfold RawBuffer.setPosition
  split
  · rename_i h; exact ⟨_, rfl, kept_ok { hb with position_le := h.2 }⟩
  · exact ⟨_, rfl, kept_error hb _⟩

theorem Inv.resetAfterPosition (hb : b.Inv) (position : UInt32) :
    ∃ c, resetAfterPosition position b = some c ∧ Kept b c := by
  unfold RawBuffer.resetAfterPosition
  split
  · rename_i h; have hle : position ≤ b.currentSize := UInt32.le_trans h.2 hb.length_le
    have hsub := UInt32.toNat_sub_of_le _ _ hle
    obtain ⟨d, hstore, hlen⟩ := hb.exists_store h.1 position.toNat
      (List.replicate (b.currentSize - position).toNat 0) (by
        rw [UInt32.le_iff_toNat_le] at hle
        rw [List.length_replicate, hsub]
        omega)
    dsimp only
    rw [hstore]
    exact ⟨_, rfl, kept_ok ⟨UInt32.le_refl _, hle, hb.size_le, Inv.allocated_some hlen⟩⟩
  · exact ⟨_, rfl, kept_error hb _⟩

theorem Inv.setDataLength (hb : b.Inv) (length : UInt32) :
    ∃ c, setDataLength length b = some c ∧ Kept b c := by
  unfold RawBuffer.setDataLength
  split
  · rename_i h; obtain ⟨hd, hle, hpos⟩ := h
    split
    · rename_i hlt; have hlen : length ≤ b.length := UInt32.le_of_lt hlt
      have hsub := UInt32.toNat_sub_of_le _ _ hlen
      obtain ⟨d, hstore, hlen⟩ := hb.exists_store hd length.toNat
        (List.replicate (b.length - length).toNat 0) (by
          have := hb.length_le
          rw [UInt32.le_iff_toNat_le] at hlen this
          rw [List.length_replicate, hsub]
          omega)
      dsimp only
      rw [hstore]
      exact ⟨_, rfl, kept_ok ⟨hpos, hle, hb.size_le, Inv.allocated_some hlen⟩⟩
    · exact ⟨_, rfl, kept_ok ⟨hpos, hle, hb.size_le, hb.allocated⟩⟩
  · exact ⟨_, rfl, kept_error hb _⟩

theorem Inv.setDataLength_ok (hb : b.Inv) (hd : b.data.isSome) {length : UInt32}
    (hle : length ≤ b.currentSize) (hpos : b.position ≤ length) :
    ∃ c, RawBuffer.setDataLength length b = some c ∧ c.result = .ok () ∧ c.buffer.Inv ∧
      c.buffer.position = b.position ∧ c.buffer.length = length ∧ c.buffer.data.isSome := by
  obtain ⟨c, hc, hkept⟩ := hb.setDataLength length
  refine ⟨c, hc, ?_⟩
  unfold RawBuffer.setDataLength at hc
  rw [if_pos ⟨hd, hle, hpos⟩] at hc
  split at hc
  · obtain ⟨d, hstore, rfl⟩ := map_eq_some_iff.mp hc; exact ⟨rfl, hkept.inv, rfl, rfl, rfl⟩
  · cases hc; exact ⟨rfl, hkept.inv, rfl, rfl, hd⟩

theorem andThen_ok {f : RawBuffer → Option (Call Unit)} :
    andThen (some ⟨.ok (), accesses, b⟩) f =
      (f b).map fun c => { c with accesses := accesses ++ c.accesses } :=
  rfl

theorem newSize_eq_none_iff :
    newSize b total exactResize = none ↔ exactResize = false ∧ b.initialSize = 0 := by
  unfold newSize
  cases exactResize with
  | true => simp
  | false =>
    by_cases h0 : b.initialSize = 0
    · simp [h0]
    · simp [h0]

theorem newSize_toNat (h : newSize b total false = some size) :
    size.toNat = Buffer.resized b.initialSize.toNat b.maximumSize.toNat total.toNat := by
  unfold newSize at h
  obtain ⟨h0, h⟩ := ite_none_left_eq_some.mp h
  cases h
  have hpos : 0 < b.initialSize.toNat := by
    rw [← UInt32.toNat_inj] at h0
    exact Nat.pos_of_ne_zero h0
  have hsteps : (if total % b.initialSize ≠ 0 then total / b.initialSize + 1
      else total / b.initialSize).toNat =
      if total.toNat % b.initialSize.toNat ≠ 0 then total.toNat / b.initialSize.toNat + 1
      else total.toNat / b.initialSize.toNat := by
    have hmod : total % b.initialSize = 0 ↔ total.toNat % b.initialSize.toNat = 0 := by
      rw [← UInt32.toNat_inj, UInt32.toNat_mod]
      rfl
    by_cases hm : total.toNat % b.initialSize.toNat = 0
    · rw [if_neg (not_not.mpr (hmod.mpr hm)), if_neg (not_not.mpr hm), UInt32.toNat_div]
    rw [if_pos (fun h => hm (hmod.mp h)), if_pos hm, UInt32.toNat_add, UInt32.toNat_div]
    -- a step of one byte has no remainder
    have hlt := total.toNat_lt
    have hdiv := Nat.div_add_mod total.toNat b.initialSize.toNat
    have hle : total.toNat / b.initialSize.toNat ≤
        b.initialSize.toNat * (total.toNat / b.initialSize.toNat) := Nat.le_mul_of_pos_left _ hpos
    rw [Nat.mod_eq_of_lt]
    · rfl
    · rw [UInt32.toNat_one]; omega
  unfold Buffer.resized
  rw [← hsteps]
  generalize (if total % b.initialSize ≠ 0 then total / b.initialSize + 1
      else total / b.initialSize) = steps
  by_cases hgt : steps > b.maximumSize / b.initialSize
  · rw [if_pos hgt, if_pos]; rwa [gt_iff_lt, UInt32.lt_iff_toNat_lt, UInt32.toNat_div] at hgt
  rw [if_neg hgt]
  rw [gt_iff_lt, UInt32.lt_iff_toNat_lt, UInt32.toNat_div] at hgt
  rw [if_neg hgt, UInt32.toNat_mul, Nat.mod_eq_of_lt]
  calc steps.toNat * b.initialSize.toNat
      ≤ b.maximumSize.toNat / b.initialSize.toNat * b.initialSize.toNat :=
        Nat.mul_le_mul_right _ (Nat.le_of_not_gt hgt)
    _ ≤ b.maximumSize.toNat := Nat.div_mul_le_self _ _
    _ < 2 ^ 32 := b.maximumSize.toNat_lt

theorem newSize_bounds (htotal : total ≤ b.maximumSize)
    (h : newSize b total exactResize = some size) : total ≤ size ∧ size ≤ b.maximumSize := by
  cases exactResize with
  | true => cases h; exact ⟨UInt32.le_refl _, htotal⟩
  | false =>
    have hsize := newSize_toNat h
    rw [UInt32.le_iff_toNat_le] at htotal ⊢
    rw [UInt32.le_iff_toNat_le, hsize]
    exact ⟨Buffer.le_resized htotal, Buffer.resized_le⟩

structure Grown (b b' : RawBuffer) : Prop where
  inv : b'.Inv
  position_eq : b'.position = b.position
  length_eq : b'.length = b.length
  isSome : b'.data.isSome

theorem Inv.checkSizeAndResize (hb : b.Inv) (hd : b.data.isSome) (r : Realloc) (total : UInt32)
    (exactResize : Bool)
    (hsafe : exactResize = false → b.initialSize = 0 → total ≤ b.currentSize ∨ b.maximumSize < total) :
    ∃ p, checkSizeAndResize r total exactResize b = some p ∧ Grown b p.2 ∧
      (p.1 = true → total ≤ p.2.currentSize) ∧ (p.1 = false → p.2 = b) := by
  have hsame : Grown b b := ⟨hb, rfl, rfl, hd⟩
  unfold RawBuffer.checkSizeAndResize
  by_cases hle : total ≤ b.currentSize
  · rw [if_pos hle]; exact ⟨_, rfl, hsame, fun _ => hle, fun _ => rfl⟩
  rw [if_neg hle]
  by_cases hmax : total ≤ b.maximumSize
  · rw [if_pos hmax]
    cases hsize : newSize b total exactResize with
    | none =>
      obtain ⟨hexact, h0⟩ := newSize_eq_none_iff.mp hsize
      exact absurd hmax ((hsafe hexact h0).elim (absurd · hle) UInt32.not_le.mpr)
    | some size =>
      obtain ⟨htotal, hbound⟩ := newSize_bounds hmax hsize
      obtain ⟨d, hd⟩ := isSome_iff_exists.mp hd
      have hgrow : b.currentSize ≤ size :=
        UInt32.le_of_lt (UInt32.lt_of_lt_of_le (UInt32.not_le.mp hle) htotal)
      rw [map_some, hd]
      cases hr : r.call (some d) size.toNat with
      | none => exact ⟨_, rfl, hsame, fun h => Bool.noConfusion h, fun _ => rfl⟩
      | some d' =>
        have hlen : d.length ≤ size.toNat := by
          rw [hb.allocated d hd]
          exact UInt32.le_iff_toNat_le.mp hgrow
        refine ⟨_, rfl, ⟨⟨hb.position_le, UInt32.le_trans hb.length_le hgrow, hbound, ?_⟩,
          rfl, rfl, rfl⟩, fun _ => htotal, fun h => Bool.noConfusion h⟩
        intro d₁ hd₁; cases hd₁
        exact (r.keeps hlen hr).2
  · rw [if_neg hmax]; exact ⟨_, rfl, hsame, fun h => Bool.noConfusion h, fun _ => rfl⟩

theorem checkSizeAndResize_of_le (h : total ≤ b.currentSize) :
    checkSizeAndResize r total exactResize b = some (true, b) :=
  if_pos h

theorem checkSizeAndResize_eq_none (hlt : b.currentSize < total)
    (hle : total ≤ b.maximumSize) (h0 : b.initialSize = 0) :
    checkSizeAndResize r total false b = none := by
  unfold RawBuffer.checkSizeAndResize
  rw [if_neg (UInt32.not_le.mpr hlt), if_pos hle, newSize_eq_none_iff.mpr ⟨rfl, h0⟩, map_none]

structure MovedBy {α : Type} (b : RawBuffer) (count : UInt32) (c : Call α) : Prop where
  position : c.buffer.position.toNat = b.position.toNat + count.toNat
  accesses : ∀ x ∈ c.accesses, x = (b.position.toNat, count.toNat)
  allocated : b.position.toNat + count.toNat ≤ c.buffer.currentSize.toNat

theorem toNat_add_lt_of_wrap (h : 2 ^ 32 ≤ a.toNat + c.toNat) :
    (a + c).toNat < a.toNat := by
  have hc := c.toNat_lt
  rw [UInt32.toNat_add]
  omega

theorem toNat_add_of_lt (h : a.toNat + c.toNat < 2 ^ 32) :
    (a + c).toNat = a.toNat + c.toNat := by
  rw [UInt32.toNat_add, Nat.mod_eq_of_lt h]

theorem Inv.position_le_size (hb : b.Inv) : b.position.toNat ≤ b.currentSize.toNat :=
  Nat.le_trans (UInt32.le_iff_toNat_le.mp hb.position_le) (UInt32.le_iff_toNat_le.mp hb.length_le)

theorem Inv.writeAt (hb : b.Inv) (hd : b.data.isSome) (bs : List UInt8)
    (hlen : bs.length = count.toNat) (h : b.position.toNat + count.toNat ≤ b.currentSize.toNat) :
    ∃ c, writeAt bs count b = some c ∧ c.result = .ok () ∧ c.buffer.Inv ∧ MovedBy b count c := by
  obtain ⟨d, hstore, hsize⟩ := hb.exists_store hd b.position.toNat bs (by omega)
  have hadd : (b.position + count).toNat = b.position.toNat + count.toNat :=
    toNat_add_of_lt (Nat.lt_of_le_of_lt h b.currentSize.toNat_lt)
  have hle : b.position + count ≤ b.currentSize := by rw [UInt32.le_iff_toNat_le, hadd]; exact h
  unfold RawBuffer.writeAt
  rw [hstore]
  refine ⟨_, rfl, rfl, ⟨?_, ?_, hb.size_le, Inv.allocated_some hsize⟩, hadd, ?_, h⟩
  · dsimp only
    split
    · exact UInt32.le_refl _
    · rename_i hgt; exact UInt32.not_lt.mp hgt
  · dsimp only
    split
    · exact hle
    · exact hb.length_le
  · intro x hx; rw [List.mem_singleton.mp hx, hlen]

/-- A write can only be made if the end of its bytes is a `uint32_t`. -/
def WriteSafe (b : RawBuffer) (count : UInt32) : Prop :=
  b.position.toNat + count.toNat < 2 ^ 32 ∧
    (b.initialSize = 0 → b.position.toNat + count.toNat ≤ b.currentSize.toNat ∨
      b.maximumSize.toNat < b.position.toNat + count.toNat)

theorem Inv.write (hb : b.Inv) (r : Realloc) (dataSrc : Option (Nat → UInt8))
    (hsafe : dataSrc.isSome → b.data.isSome → WriteSafe b count) :
    ∃ c, write r dataSrc count b = some c ∧ Kept b c ∧ (c.result.isOk = true → MovedBy b count c) := by
  cases dataSrc with
  | none => exact ⟨_, rfl, kept_error hb _, fun h => Bool.noConfusion h⟩
  | some src =>
    unfold RawBuffer.write
    dsimp only
    split
    · exact ⟨_, rfl, kept_error hb _, fun h => Bool.noConfusion h⟩
    rename_i hd
    have hd : b.data.isSome := isSome_iff_ne_none.mpr fun h => hd (by rw [h]; rfl)
    obtain ⟨hlt, hzero⟩ := hsafe rfl hd
    have hadd := toNat_add_of_lt hlt
    obtain ⟨p, hp, hgrown, htrue, hfalse⟩ := hb.checkSizeAndResize hd r
      (b.position + count) false (fun _ h0 => by
        rw [UInt32.le_iff_toNat_le, UInt32.lt_iff_toNat_lt, hadd]
        exact hzero h0)
    rw [hp, bind_some]
    split
    · rename_i hfits; have hroom := UInt32.le_iff_toNat_le.mp (htrue hfits)
      rw [hadd] at hroom
      obtain ⟨c, hc, hok, hinv, hmoved⟩ := hgrown.inv.writeAt hgrown.isSome
        ((List.range count.toNat).map src) (by rw [List.length_map, List.length_range])
        (by rw [hgrown.position_eq]; exact hroom)
      refine ⟨c, hc, ⟨hinv, fun hf => ?_⟩, fun _ => ?_⟩
      · rw [hok] at hf; cases hf
      · have hpos := hgrown.position_eq
        exact ⟨by rw [hmoved.position, hpos], fun x hx => by rw [hmoved.accesses x hx, hpos],
          by rw [← hpos]; exact hmoved.allocated⟩
    · rename_i hfits; rw [hfalse (Bool.eq_false_iff.mpr hfits)]; exact ⟨_, rfl, kept_error hb _, fun h => Bool.noConfusion h⟩

theorem Inv.write_eq_none (hb : b.Inv) (r : Realloc) {src : Nat → UInt8} (hd : b.data.isSome)
    (hsafe : ¬ WriteSafe b count) : RawBuffer.write r (some src) count b = none := by
  have hnone : ¬ b.data.isNone = true := by
    rw [isNone_iff_eq_none]
    exact isSome_iff_ne_none.mp hd
  unfold RawBuffer.write
  dsimp only
  rw [if_neg hnone]
  by_cases hlt : b.position.toNat + count.toNat < 2 ^ 32
  · -- the division by zero
    have hadd := toNat_add_of_lt hlt
    have hzero : b.initialSize = 0 ∧ b.currentSize.toNat < b.position.toNat + count.toNat ∧
        b.position.toNat + count.toNat ≤ b.maximumSize.toNat := by
      rwa [WriteSafe, and_iff_right hlt, Classical.not_imp, not_or, Nat.not_le, Nat.not_lt] at hsafe
    rw [checkSizeAndResize_eq_none (UInt32.lt_iff_toNat_lt.mpr (by omega))
      (UInt32.le_iff_toNat_le.mpr (by omega)) hzero.1]
    rfl
  · have hwrap := toNat_add_lt_of_wrap (Nat.le_of_not_lt hlt)
    have hsize := hb.position_le_size
    have hmax := b.currentSize.toNat_lt
    rw [checkSizeAndResize_of_le (UInt32.le_iff_toNat_le.mpr (by omega)), bind_some, if_pos rfl,
      RawBuffer.writeAt, store, hb.access_eq_none (by simp; omega)]
    rfl

theorem Inv.read (hb : b.Inv) (toDest : Bool)
    (hsafe : b.data.isSome → b.position.toNat + count.toNat < 2 ^ 32) :
    ∃ c, read toDest count b = some c ∧ Kept b c ∧ (c.result.isOk = true → MovedBy b count c) := by
  unfold RawBuffer.read
  split
  · exact ⟨_, rfl, kept_error hb _, fun h => Bool.noConfusion h⟩
  rename_i hd
  have hd : b.data.isSome := isSome_iff_ne_none.mpr fun h => hd (by rw [h]; rfl)
  have hadd := toNat_add_of_lt (hsafe hd)
  split
  · rename_i hle
    have hinv : Inv { b with position := b.position + count } := { hb with position_le := hle }
    have hroom : b.position.toNat + count.toNat ≤ b.currentSize.toNat := by
      rw [← hadd]
      exact hinv.position_le_size
    split
    · obtain ⟨bs, hload, -⟩ := hb.exists_load hd _ _ hroom
      rw [hload]
      refine ⟨_, rfl, kept_ok hinv, fun _ => ⟨hadd, fun x hx => List.mem_singleton.mp hx, hroom⟩⟩
    · exact ⟨_, rfl, kept_ok hinv, fun _ => ⟨hadd, by simp, hroom⟩⟩
  · exact ⟨_, rfl, kept_error hb _, fun h => Bool.noConfusion h⟩

theorem Inv.read_wrap (hb : b.Inv) (toDest : Bool) (hd : b.data.isSome)
    (hwrap : 2 ^ 32 ≤ b.position.toNat + count.toNat) :
    RawBuffer.read toDest count b = none ∨
      ∃ c, RawBuffer.read toDest count b = some c ∧ c.result.isOk = true ∧ ¬ MovedBy b count c := by
  have hnone : ¬ b.data.isNone = true := by
    rw [isNone_iff_eq_none]
    exact isSome_iff_ne_none.mp hd
  have hback := toNat_add_lt_of_wrap hwrap
  have hle : b.position + count ≤ b.length := by
    have := hb.position_le
    rw [UInt32.le_iff_toNat_le] at this ⊢
    omega
  unfold RawBuffer.read
  rw [if_neg hnone, if_pos hle]
  cases toDest with
  | true =>
    have hmax := b.currentSize.toNat_lt
    rw [if_pos rfl, load, hb.access_eq_none (by omega)]
    exact .inl rfl
  | false =>
    refine .inr ⟨_, rfl, rfl, fun hmoved => ?_⟩
    have hpos := hmoved.position
    dsimp only at hpos
    omega

end RawBuffer

open RawBuffer

inductive BufferOp (A : Type) where
  | write (buffer : Option A) (dataSrc : Option (Nat → UInt8)) (count : UInt32)
  | read (toDest : Bool) (buffer : Option A) (count : UInt32)
  | setPosition (buffer : Option A) (position : UInt32)
  | setDataLength (buffer : Option A) (length : UInt32)
  | resetAfterPosition (buffer : Option A) (position : UInt32)
  | copyWithLength (dest src : Option A) (limitedLength : UInt32)
  | readFrom (buffer src : Option A) (n : UInt32)

namespace BufferOp

variable {A : Type} [DecidableEq A]

structure Outcome (A : Type) where
  failed : Bool
  accesses : List (A × Nat × Nat)
  heap : A → RawBuffer

def failure (heap : A → RawBuffer) : Option (Outcome A) := some ⟨true, [], heap⟩

def onBuffer {α : Type} (heap : A → RawBuffer) (buffer : Option A)
    (call : RawBuffer → Option (Call α)) : Option (Outcome A) :=
  match buffer with
  | none => failure heap
  | some a => (call (heap a)).map fun c =>
    ⟨!c.result.isOk, c.accesses.map (a, ·), update heap a c.buffer⟩

def copyInto (heap : A → RawBuffer) (dest src : A) (limitedLength : UInt32) : Option (Outcome A) :=
  -- `memcpy` between the same bytes
  if dest = src ∧ limitedLength ≠ 0 then none
  else
    (load (heap src).data 0 limitedLength.toNat).bind fun bs =>
      (store (heap dest).data 0 bs).bind fun d =>
        let b := { heap dest with data := some d }
        (andThen (andThen (RawBuffer.setPosition 0 b) (RawBuffer.setDataLength limitedLength))
          fun b => RawBuffer.setPosition (update heap dest b src).position b).map fun c =>
            ⟨!c.result.isOk,
              (src, 0, limitedLength.toNat) :: (dest, 0, limitedLength.toNat) ::
                c.accesses.map (dest, ·),
              update heap dest c.buffer⟩

def runCopyWithLength (r : Realloc) (heap : A → RawBuffer) (dest src : A) (limitedLength : UInt32) :
    Option (Outcome A) :=
  if (heap dest).data.isSome ∧ (heap src).data.isSome ∧ (heap src).length ≥ limitedLength ∧
      (heap src).position ≤ limitedLength then
    (checkSizeAndResize r limitedLength true (heap dest)).bind fun p =>
      if p.1 then copyInto (update heap dest p.2) dest src limitedLength
      else failure (update heap dest p.2)
  else failure heap

def runReadFrom (heap : A → RawBuffer) (buffer src : A) (n : UInt32) : Option (Outcome A) :=
  if (heap buffer).currentSize - (heap buffer).length < n then failure heap
  else
    let available := (heap src).length - (heap src).position
    let n := if available < n then available else n
    let start := (heap src).position.toNat
    let room := (heap buffer).length.toNat
    -- `memcpy` between overlapping bytes
    if buffer = src ∧ start < room + n.toNat ∧ room < start + n.toNat then none
    else
      (load (heap src).data start n.toNat).bind fun bs =>
        (store (heap buffer).data room bs).map fun d =>
          let heap := update heap buffer
            { heap buffer with data := some d, length := (heap buffer).length + n }
          ⟨false, [(src, start, n.toNat), (buffer, room, n.toNat)],
            update heap src { heap src with position := (heap src).position + n }⟩

def run (r : Realloc) (heap : A → RawBuffer) : BufferOp A → Option (Outcome A)
  | .write buffer dataSrc count => onBuffer heap buffer (RawBuffer.write r dataSrc count)
  | .read toDest buffer count => onBuffer heap buffer (RawBuffer.read toDest count)
  | .setPosition buffer position => onBuffer heap buffer (RawBuffer.setPosition position)
  | .setDataLength buffer length => onBuffer heap buffer (RawBuffer.setDataLength length)
  | .resetAfterPosition buffer position =>
    onBuffer heap buffer (RawBuffer.resetAfterPosition position)
  | .copyWithLength (some dest) (some src) limitedLength =>
    runCopyWithLength r heap dest src limitedLength
  | .copyWithLength _ _ _ => failure heap
  | .readFrom (some buffer) (some src) n => runReadFrom heap buffer src n
  | .readFrom _ _ _ => failure heap

structure Moved (heap : A → RawBuffer) (a : A) (count : UInt32) (o : Outcome A) : Prop where
  position : (o.heap a).position.toNat = (heap a).position.toNat + count.toNat
  accesses : ∀ x ∈ o.accesses, x = (a, (heap a).position.toNat, count.toNat)
  allocated : (heap a).position.toNat + count.toNat ≤ (o.heap a).currentSize.toNat

def Moves (heap : A → RawBuffer) (o : Outcome A) : BufferOp A → Prop
  | .write (some a) _ count => Moved heap a count o
  | .read _ (some a) count => Moved heap a count o
  | _ => True

structure Right (r : Realloc) (heap : A → RawBuffer) (op : BufferOp A) (o : Outcome A) : Prop where
  run_eq : op.run r heap = some o
  inv : ∀ a, (o.heap a).Inv
  failed : o.failed = true → o.heap = heap
  moves : o.failed = false → op.Moves heap o

/-- The end of the bytes that are read or written is a `uint32_t`, sizes are multiples of a size that
is not zero, and bytes are not copied to themselves or without a pointer. -/
def Safe (heap : A → RawBuffer) : BufferOp A → Prop
  | .write (some a) (some _) count => (heap a).data.isSome → WriteSafe (heap a) count
  | .read _ (some a) count =>
    (heap a).data.isSome → (heap a).position.toNat + count.toNat < 2 ^ 32
  | .copyWithLength (some dest) (some src) limitedLength => dest = src → (heap src).data.isSome →
    limitedLength ≤ (heap src).length → (heap src).position ≤ limitedLength → limitedLength = 0
  | .readFrom (some buffer) (some src) n => n ≤ (heap buffer).currentSize - (heap buffer).length →
    (heap buffer).data.isSome ∧ (heap src).data.isSome
  | _ => True

variable {heap : A → RawBuffer}

variable {a dest src : A} {α : Type} {count : UInt32}

theorem update_inv (hinv : ∀ a, (heap a).Inv) {b : RawBuffer} (hb : b.Inv) (x : A) :
    (update heap a b x).Inv := by
  by_cases hx : x = a
  · rw [hx, update_self]; exact hb
  · rw [update_of_ne hx]; exact hinv x

variable {op : BufferOp A}

variable {r : Realloc} {n : UInt32}

theorem right_failure (hinv : ∀ a, (heap a).Inv) (h : op.run r heap = failure heap) :
    ∃ o, Right r heap op o :=
  ⟨_, h, hinv, fun _ => rfl, fun hf => Bool.noConfusion hf⟩

theorem right_onBuffer {buffer : Option A} {call : RawBuffer → Option (Call α)}
    (hinv : ∀ a, (heap a).Inv) (hop : op.run r heap = onBuffer heap buffer call)
    (hcall : ∀ a ∈ buffer, ∃ c, call (heap a) = some c ∧ Kept (heap a) c ∧
      (c.result.isOk = true → op.Moves heap
        ⟨!c.result.isOk, c.accesses.map (a, ·), update heap a c.buffer⟩)) :
    ∃ o, Right r heap op o := by
  cases buffer with
  | none => exact right_failure hinv hop
  | some a =>
    obtain ⟨c, hc, hkept, hmoves⟩ := hcall a rfl
    refine ⟨⟨!c.result.isOk, c.accesses.map (a, ·), update heap a c.buffer⟩, ?_, ?_, ?_, ?_⟩
    · rw [hop, onBuffer, hc, map_some]
    · exact update_inv hinv hkept.inv
    · intro hf; rw [Bool.not_eq_true'] at hf
      rw [hkept.failed hf, update_eq_self]
    · intro hok; rw [Bool.not_eq_false'] at hok; exact hmoves hok

theorem moved_of_movedBy {c : Call α}
    (h : MovedBy (heap a) count c) :
    Moved heap a count ⟨!c.result.isOk, c.accesses.map (a, ·), update heap a c.buffer⟩ := by
  refine ⟨?_, ?_, ?_⟩
  · dsimp only; rw [update_self]; exact h.position
  · intro x hx; obtain ⟨y, hy, rfl⟩ := List.mem_map.mp hx; rw [h.accesses y hy]
  · dsimp only; rw [update_self]; exact h.allocated

theorem movedBy_of_moved {c : Call α}
    (h : Moved heap a count ⟨!c.result.isOk, c.accesses.map (a, ·), update heap a c.buffer⟩) :
    MovedBy (heap a) count c := by
  obtain ⟨hpos, hacc, halloc⟩ := h
  dsimp only at hpos hacc halloc
  rw [update_self] at hpos halloc
  refine ⟨hpos, fun x hx => ?_, halloc⟩
  exact (Prod.mk.inj (hacc _ (List.mem_map_of_mem hx))).2

theorem exists_copyInto (hinv : ∀ a, (heap a).Inv) (hne : dest = src → n = 0)
    (hd : (heap dest).data.isSome) (hs : (heap src).data.isSome)
    (hsize : n ≤ (heap dest).currentSize) (hlen : n ≤ (heap src).length)
    (hpos : (heap src).position ≤ n) :
    ∃ o, copyInto heap dest src n = some o ∧ o.failed = false ∧ ∀ a, (o.heap a).Inv := by
  have hload : 0 + n.toNat ≤ (heap src).currentSize.toNat := by
    rw [Nat.zero_add]
    exact UInt32.le_iff_toNat_le.mp (UInt32.le_trans hlen (hinv src).length_le)
  obtain ⟨bs, hbs, hbslen⟩ := (hinv src).exists_load hs 0 n.toNat hload
  obtain ⟨d, hstore, hdlen⟩ := (hinv dest).exists_store hd 0 bs (by
    rw [hbslen, Nat.zero_add]
    exact UInt32.le_iff_toNat_le.mp hsize)
  -- the position is set to 0 first, so the length can be set
  have hinv₀ : Inv { heap dest with data := some d, position := 0 } :=
    ⟨UInt32.zero_le, (hinv dest).length_le, (hinv dest).size_le, Inv.allocated_some hdlen⟩
  obtain ⟨c, hc, hok, hcinv, hcpos, hclen, hcdata⟩ :=
    hinv₀.setDataLength_ok rfl hsize UInt32.zero_le
  have hsrc : (update heap dest c.buffer src).position ≤ n := by
    by_cases heq : src = dest
    · rw [heq, update_self, hcpos]; exact UInt32.zero_le
    · rw [update_of_ne heq]; exact hpos
  have hlast : RawBuffer.setPosition (update heap dest c.buffer src).position c.buffer =
      some ⟨.ok (), [], { c.buffer with
        position := (update heap dest c.buffer src).position }⟩ :=
    if_pos ⟨hcdata, by rw [hclen]; exact hsrc⟩
  have hfirst : RawBuffer.setPosition 0 { heap dest with data := some d } =
      some ⟨.ok (), [], { heap dest with data := some d, position := 0 }⟩ :=
    if_pos ⟨rfl, UInt32.zero_le⟩
  unfold copyInto
  rw [if_neg (fun h => h.2 (hne h.1)), hbs, bind_some, hstore, bind_some]
  dsimp only
  rw [hfirst, andThen_ok, hc, map_some, andThen, bind_some]
  rw [hok]
  rw [hlast]
  refine ⟨_, rfl, rfl, update_inv hinv ?_⟩
  exact { hcinv with position_le := by dsimp only; rw [hclen]; exact hsrc }

theorem right_copyWithLength (hinv : ∀ a, (heap a).Inv) (r : Realloc)
    (hsafe : Safe heap (.copyWithLength (some dest) (some src) n)) :
    ∃ o, Right r heap (.copyWithLength (some dest) (some src) n) o := by
  by_cases hcond : (heap dest).data.isSome ∧ (heap src).data.isSome ∧ (heap src).length ≥ n ∧
      (heap src).position ≤ n
  · obtain ⟨hd, hs, hlen, hpos⟩ := hcond
    obtain ⟨p, hp, hgrown, htrue, hfalse⟩ :=
      (hinv dest).checkSizeAndResize hd r n true fun h => Bool.noConfusion h
    have hrun : run r heap (.copyWithLength (some dest) (some src) n) =
        if p.1 then copyInto (update heap dest p.2) dest src n
        else failure (update heap dest p.2) := by
      rw [run, runCopyWithLength, if_pos ⟨hd, hs, hlen, hpos⟩, hp, bind_some]
    cases hfits : p.1 with
    | false =>
      rw [hfits, if_neg Bool.false_ne_true, hfalse hfits, update_eq_self] at hrun
      exact right_failure hinv hrun
    | true =>
      -- the source is as before, also if it is the destination
      have hsrc : (update heap dest p.2 src).data.isSome ∧
          (update heap dest p.2 src).length = (heap src).length ∧
          (update heap dest p.2 src).position = (heap src).position := by
        by_cases heq : src = dest
        · rw [heq, update_self]
          exact ⟨hgrown.isSome, hgrown.length_eq, hgrown.position_eq⟩
        · rw [update_of_ne heq]; exact ⟨hs, rfl, rfl⟩
      obtain ⟨o, ho, hok, hoinv⟩ := exists_copyInto (update_inv hinv hgrown.inv)
        (fun heq => hsafe heq hs hlen hpos) (by rw [update_self]; exact hgrown.isSome)
        hsrc.1 (by rw [update_self]; exact htrue hfits) (by rw [hsrc.2.1]; exact hlen)
        (by rw [hsrc.2.2]; exact hpos)
      rw [hfits, if_pos rfl, ho] at hrun
      exact ⟨o, hrun, hoinv, fun hf => absurd (hok.symm.trans hf) Bool.false_ne_true, fun _ => trivial⟩
  · exact right_failure hinv (if_neg hcond)

theorem toNat_available {length position : UInt32} (h : position ≤ length) :
    (if length - position < n then length - position else n).toNat =
      min (length.toNat - position.toNat) n.toNat := by
  have hsub := UInt32.toNat_sub_of_le _ _ h
  split
  · rename_i hlt; rw [UInt32.lt_iff_toNat_lt, hsub] at hlt; omega
  · rename_i hlt; rw [UInt32.lt_iff_toNat_lt, hsub] at hlt; omega

theorem right_readFrom (hinv : ∀ a, (heap a).Inv) (r : Realloc) {buffer : A}
    (hsafe : Safe heap (.readFrom (some buffer) (some src) n)) :
    ∃ o, Right r heap (.readFrom (some buffer) (some src) n) o := by
  by_cases hfull : (heap buffer).currentSize - (heap buffer).length < n
  · exact right_failure hinv (if_pos hfull)
  obtain ⟨hd, hs⟩ := hsafe (UInt32.not_lt.mp hfull)
  have hb := hinv buffer
  have hsinv := hinv src
  have hspos := UInt32.le_iff_toNat_le.mp hsinv.position_le
  have hslen := UInt32.le_iff_toNat_le.mp hsinv.length_le
  have hblen := UInt32.le_iff_toNat_le.mp hb.length_le
  have hmax := (heap buffer).currentSize.toNat_lt
  have hsmax := (heap src).length.toNat_lt
  have hroom : n.toNat ≤ (heap buffer).currentSize.toNat - (heap buffer).length.toNat := by
    rw [← UInt32.toNat_sub_of_le _ _ hb.length_le]
    exact UInt32.le_iff_toNat_le.mp (UInt32.not_lt.mp hfull)
  have hrun : run r heap (.readFrom (some buffer) (some src) n) = runReadFrom heap buffer src n := rfl
  rw [runReadFrom, if_neg hfull] at hrun
  dsimp only at hrun
  have havail := toNat_available (n := n) hsinv.position_le
  generalize (if (heap src).length - (heap src).position < n then
    (heap src).length - (heap src).position else n) = k at hrun havail
  obtain ⟨bs, hload, hbs⟩ := hsinv.exists_load hs (heap src).position.toNat k.toNat (by omega)
  obtain ⟨d, hstore, hdlen⟩ := hb.exists_store hd (heap buffer).length.toNat bs (by omega)
  rw [if_neg (by rintro ⟨rfl, -, h⟩; omega), hload, bind_some, hstore, map_some] at hrun
  -- the destination first; it can be the source
  have hblen' : ((heap buffer).length + k).toNat = (heap buffer).length.toNat + k.toNat :=
    toNat_add_of_lt (by omega)
  have hgrown : Inv { heap buffer with data := some d, length := (heap buffer).length + k } := by
    refine ⟨?_, ?_, hb.size_le, Inv.allocated_some hdlen⟩
    · refine UInt32.le_trans hb.position_le (UInt32.le_iff_toNat_le.mpr ?_); dsimp only; omega
    · refine UInt32.le_iff_toNat_le.mpr ?_; dsimp only; omega
  refine ⟨_, hrun, ?_, fun hf => Bool.noConfusion hf, fun _ => trivial⟩
  have hmid := update_inv hinv (a := buffer) hgrown
  refine update_inv hmid { hmid src with position_le := ?_ }
  dsimp only
  rw [UInt32.le_iff_toNat_le]
  by_cases heq : src = buffer
  · subst heq; rw [update_self]; dsimp only; rw [toNat_add_of_lt (by omega)]; omega
  · rw [update_of_ne heq, toNat_add_of_lt (by omega)]; omega

theorem right_of_safe (hinv : ∀ a, (heap a).Inv) (r : Realloc) (hsafe : op.Safe heap) :
    ∃ o, Right r heap op o := by
  cases op with
  | write buffer dataSrc count =>
    refine right_onBuffer hinv rfl ?_
    rintro a rfl
    have hwrite : dataSrc.isSome → (heap a).data.isSome → WriteSafe (heap a) count := by
      cases dataSrc with
      | none => intro h; cases h
      | some src => exact fun _ => hsafe
    obtain ⟨c, hc, hkept, hmoved⟩ := (hinv a).write r dataSrc hwrite
    exact ⟨c, hc, hkept, fun hok => moved_of_movedBy (hmoved hok)⟩
  | read toDest buffer count =>
    refine right_onBuffer hinv rfl ?_
    rintro a rfl
    obtain ⟨c, hc, hkept, hmoved⟩ := (hinv a).read toDest hsafe
    exact ⟨c, hc, hkept, fun hok => moved_of_movedBy (hmoved hok)⟩
  | setPosition buffer position =>
    refine right_onBuffer hinv rfl fun a _ => ?_
    obtain ⟨c, hc, hkept⟩ := (hinv a).setPosition position
    exact ⟨c, hc, hkept, fun _ => trivial⟩
  | setDataLength buffer length =>
    refine right_onBuffer hinv rfl fun a _ => ?_
    obtain ⟨c, hc, hkept⟩ := (hinv a).setDataLength length
    exact ⟨c, hc, hkept, fun _ => trivial⟩
  | resetAfterPosition buffer position =>
    refine right_onBuffer hinv rfl fun a _ => ?_
    obtain ⟨c, hc, hkept⟩ := (hinv a).resetAfterPosition position
    exact ⟨c, hc, hkept, fun _ => trivial⟩
  | copyWithLength dest src limitedLength =>
    cases dest with
    | none => exact right_failure hinv rfl
    | some dest =>
      cases src with
      | none => exact right_failure hinv rfl
      | some src => exact right_copyWithLength hinv r hsafe
  | readFrom buffer src n =>
    cases buffer with
    | none => exact right_failure hinv rfl
    | some buffer =>
      cases src with
      | none => exact right_failure hinv rfl
      | some src => exact right_readFrom hinv r hsafe

theorem safe_of_right (hinv : ∀ a, (heap a).Inv) {o : Outcome A} (h : Right r heap op o) :
    op.Safe heap := by
  have hrun := h.run_eq
  cases op with
  | write buffer dataSrc count =>
    cases buffer with
    | none => trivial
    | some a =>
      cases dataSrc with
      | none => trivial
      | some src =>
        intro hd; by_contra hsafe
        rw [run, onBuffer, (hinv a).write_eq_none r hd hsafe] at hrun
        cases hrun
  | read toDest buffer count =>
    cases buffer with
    | none => trivial
    | some a =>
      intro hd; by_contra hwrap
      obtain hnone | ⟨c, hc, hok, hnot⟩ := (hinv a).read_wrap toDest hd (Nat.le_of_not_lt hwrap)
      · rw [run, onBuffer, hnone] at hrun; cases hrun
      · rw [run, onBuffer, hc, map_some] at hrun
        cases hrun; exact hnot (movedBy_of_moved (h.moves (by dsimp only; rw [hok]; rfl)))
  | setPosition buffer position => trivial
  | setDataLength buffer length => trivial
  | resetAfterPosition buffer position => trivial
  | copyWithLength dest src n =>
    cases dest with
    | none => trivial
    | some dest =>
      cases src with
      | none => trivial
      | some src =>
        rintro rfl hs hlen hpos; by_contra hn
        have hfits : n ≤ (heap dest).currentSize := UInt32.le_trans hlen (hinv dest).length_le
        rw [run, runCopyWithLength, if_pos ⟨hs, hs, hlen, hpos⟩, checkSizeAndResize_of_le hfits,
          bind_some, if_pos rfl, copyInto, if_pos ⟨rfl, hn⟩] at hrun
        cases hrun
  | readFrom buffer src n =>
    cases buffer with
    | none => trivial
    | some buffer =>
      cases src with
      | none => trivial
      | some src =>
        intro hroom; rw [run, runReadFrom, if_neg (UInt32.not_lt.mpr hroom)] at hrun
        obtain ⟨-, hrun⟩ := ite_none_left_eq_some.mp hrun
        obtain ⟨bs, hload, hrun⟩ := bind_eq_some_iff.mp hrun
        obtain ⟨d, hstore, -⟩ := map_eq_some_iff.mp hrun
        exact ⟨isSome_of_bind hstore, isSome_of_bind hload⟩

/-- On buffers that keep the invariant, a call is right exactly if it is safe. -/
theorem right_iff_safe (r : Realloc) (heap : A → RawBuffer) (hinv : ∀ a, (heap a).Inv)
    (op : BufferOp A) : (∃ o, Right r heap op o) ↔ op.Safe heap :=
  ⟨fun ⟨_, h⟩ => safe_of_right hinv h, right_of_safe hinv r⟩

def twoBytes : Unit → RawBuffer := fun _ => ⟨some [1, 2], 1, 2, 2, 2, 2⟩

theorem twoBytes_inv : ∀ a, (twoBytes a).Inv :=
  fun _ => ⟨(by decide : (1 : UInt32) ≤ 2), UInt32.le_refl 2, UInt32.le_refl 2,
    Inv.allocated_some rfl⟩

def noMemory : Realloc := ⟨fun _ _ => none, fun _ h => absurd h (some_ne_none _).symm⟩

/-- 2³² - 1 bytes after the first: a write goes beyond the buffer, and a read without a destination
goes back to the start. -/
theorem wrapped_count_passes :
    (∀ a, (twoBytes a).Inv) ∧
      run noMemory twoBytes (.write (some ()) (some fun _ => 0) 0xFFFFFFFF) = none ∧
      run noMemory twoBytes (.read true (some ()) 0xFFFFFFFF) = none ∧
      (run noMemory twoBytes (.read false (some ()) 0xFFFFFFFF)).map
        (fun o => (o.failed, (o.heap ()).position)) = some (false, 0) := by
  refine ⟨twoBytes_inv, ?_, rfl, rfl⟩
  rw [run, onBuffer, (twoBytes_inv ()).write_eq_none noMemory rfl (fun h => absurd h.1 (by decide))]
  rfl

theorem right_iff_safe_twoBytes :
    (∀ a, (twoBytes a).Inv) ∧ ((∃ o, Right noMemory twoBytes (.read true (some ()) 1) o) ↔
      Safe twoBytes (.read true (some ()) 1)) :=
  ⟨twoBytes_inv, right_iff_safe noMemory twoBytes twoBytes_inv _⟩

end BufferOp

namespace RawBuffer

open Fallible

structure Stands (b : RawBuffer) (b' : Buffer) : Prop where
  data : b.data = some b'.data
  position : b.position.toNat = b'.position
  length : b.length.toNat = b'.length
  initialSize : b.initialSize.toNat = b'.initialSize
  maximumSize : b.maximumSize.toNat = b'.maximumSize
  currentSize : b.currentSize.toNat = b'.data.length
  -- the size by which the buffer grows
  grows : b.initialSize ≠ 0

variable {b : RawBuffer} {b' : Buffer}

theorem Inv.stands (hb : b.Inv) {d : List UInt8} (hd : b.data = some d) (h0 : b.initialSize ≠ 0) :
    ∃ b', Stands b b' := by
  have hlen := hb.allocated d hd
  refine ⟨⟨d, b.position.toNat, b.length.toNat, b.initialSize.toNat, b.maximumSize.toNat,
    UInt32.le_iff_toNat_le.mp hb.position_le, ?_, ?_, b.maximumSize.toNat_lt⟩,
    hd, rfl, rfl, rfl, rfl, hlen.symm, h0⟩
  · rw [hlen]; exact UInt32.le_iff_toNat_le.mp hb.length_le
  · rw [hlen]; exact UInt32.le_iff_toNat_le.mp hb.size_le

theorem Stands.setPosition (h : Stands b b') (p : UInt32) :
    (∃ c b₁, RawBuffer.setPosition p b = some c ∧ c.result = .ok () ∧ Stands c.buffer b₁ ∧
        Buffer.setPosition p.toNat b' = .ok () b₁) ∨
      RawBuffer.setPosition p b = fail .invalidParameters b ∧
        Buffer.setPosition p.toNat b' = .error .invalidParameters b' := by
  have hcond : b.data.isSome ∧ b.length ≥ p ↔ p.toNat ≤ b'.length := by
    rw [h.data, ge_iff_le, UInt32.le_iff_toNat_le, h.length]
    exact and_iff_right rfl
  unfold RawBuffer.setPosition Buffer.setPosition
  by_cases hp : p.toNat ≤ b'.length
  · rw [if_pos (hcond.mpr hp), dif_pos hp]
    refine .inl ⟨_, _, rfl, rfl, ?_, rfl⟩
    exact ⟨h.data, rfl, h.length, h.initialSize, h.maximumSize, h.currentSize, h.grows⟩
  · rw [if_neg (fun hc => hp (hcond.mp hc)), dif_neg hp]; exact .inr ⟨rfl, rfl⟩

theorem Stands.read (h : Stands b b') (count : UInt32) :
    (∃ c bs b₁, RawBuffer.read true count b = some c ∧ c.result = .ok bs.val ∧ Stands c.buffer b₁ ∧
        Buffer.read count.toNat b' = .ok bs b₁) ∨
      (RawBuffer.read true count b = fail .outOfMemory b ∧
        Buffer.read count.toNat b' = .error .outOfMemory b') ∨
      RawBuffer.read true count b = none ∧ Buffer.read count.toNat b' = .error .outOfBounds b' := by
  have hle : b.position + count ≤ b.length ↔ (b'.position + count.toNat) % 2 ^ 32 ≤ b'.length := by
    rw [UInt32.le_iff_toNat_le, UInt32.toNat_add, h.position, h.length]
  unfold RawBuffer.read Buffer.read
  rw [h.data, if_neg (by exact Bool.false_ne_true)]
  by_cases hc : (b'.position + count.toNat) % 2 ^ 32 ≤ b'.length
  · rw [if_pos (hle.mpr hc), if_pos rfl, if_pos hc, h.position]
    have hlen := b'.length_le
    have hmax := b'.maximumSize_lt
    have hsize := b'.size_le
    by_cases hin : b'.position + count.toNat ≤ b'.length
    · have hload : load (some b'.data) b'.position count.toNat =
          some ((b'.data.drop b'.position).take count.toNat) := by
        rw [load, bind_some, if_pos (by omega)]
      rw [hload, dif_pos hin]
      refine .inl ⟨_, _, _, rfl, rfl, ?_, rfl⟩
      refine ⟨rfl, ?_, h.length, h.initialSize, h.maximumSize, h.currentSize, h.grows⟩
      rw [toNat_add_of_lt (by rw [h.position]; omega), h.position]
    · have hcount := count.toNat_lt
      rw [load, bind_some, if_neg (by omega), dif_neg hin]
      exact .inr (.inr ⟨rfl, rfl⟩)
  · rw [if_neg (fun hc' => hc (hle.mp hc')), if_neg hc]; exact .inr (.inl ⟨rfl, rfl⟩)

def zeroed : Realloc where
  call data newSize := data.map fun d => d ++ List.replicate (newSize - d.length) 0
  keeps := by
    intro d d' newSize hle h; cases h
    refine ⟨List.prefix_append _ _, ?_⟩
    simp; omega

theorem Stands.checkSizeAndResize (h : Stands b b') (total : UInt32) :
    (∃ b₁ b₁', RawBuffer.checkSizeAndResize zeroed total false b = some (true, b₁) ∧ Stands b₁ b₁' ∧
        Buffer.checkSizeAndResize b' total.toNat = some b₁') ∨
      RawBuffer.checkSizeAndResize zeroed total false b = some (false, b) ∧
        Buffer.checkSizeAndResize b' total.toNat = none := by
  have hsize : total ≤ b.currentSize ↔ total.toNat ≤ b'.data.length := by
    rw [UInt32.le_iff_toNat_le, h.currentSize]
  have hmaximum : total ≤ b.maximumSize ↔ total.toNat ≤ b'.maximumSize := by
    rw [UInt32.le_iff_toNat_le, h.maximumSize]
  unfold RawBuffer.checkSizeAndResize Buffer.checkSizeAndResize
  by_cases hle : total.toNat ≤ b'.data.length
  · rw [if_pos (hsize.mpr hle), if_pos hle]; exact .inl ⟨_, _, rfl, h, rfl⟩
  rw [if_neg (fun hc => hle (hsize.mp hc)), if_neg hle]
  by_cases hmax : total.toNat ≤ b'.maximumSize
  · rw [if_pos (hmaximum.mpr hmax), if_pos hmax]
    cases hnew : newSize b total false with
    | none => exact absurd (newSize_eq_none_iff.mp hnew).2 h.grows
    | some size =>
      have hnat := newSize_toNat hnew
      rw [h.initialSize, h.maximumSize] at hnat
      have hcall : zeroed.call b.data size.toNat =
          some (b'.data ++ List.replicate (size.toNat - b'.data.length) 0) := by
        rw [h.data]
        rfl
      rw [map_some, hcall]
      refine .inl ⟨_, _, rfl, ?_, rfl⟩
      refine ⟨?_, h.position, h.length, h.initialSize, h.maximumSize, ?_, h.grows⟩
      · rw [hnat]
      · have hge := Buffer.le_resized (i := b'.initialSize) hmax; simp [hnat]; omega
  · rw [if_neg (fun hc => hmax (hmaximum.mp hc)), if_neg hmax]; exact .inr ⟨rfl, rfl⟩

theorem Stands.write (h : Stands b b') (src : Nat → UInt8) (count : UInt32)
    {bs : List UInt8} (hbs : bs = (List.range count.toNat).map src) :
    (∃ c b₁, RawBuffer.write zeroed (some src) count b = some c ∧ c.result = .ok () ∧
        Stands c.buffer b₁ ∧ Buffer.write (some bs) b' = .ok () b₁) ∨
      (RawBuffer.write zeroed (some src) count b = fail .outOfMemory b ∧
        Buffer.write (some bs) b' = .error .outOfMemory b') ∨
      RawBuffer.write zeroed (some src) count b = none ∧
        ∃ b₁, Buffer.write (some bs) b' = .error .outOfBounds b₁ := by
  have hlen : bs.length = count.toNat := by rw [hbs, List.length_map, List.length_range]
  have htotal : (b.position + count).toNat = (b'.position + bs.length) % 2 ^ 32 := by
    rw [UInt32.toNat_add, h.position, hlen]
  have hsome : ¬ b.data.isNone = true := by rw [h.data]; exact Bool.false_ne_true
  unfold RawBuffer.write Buffer.write
  dsimp only
  rw [if_neg hsome, ← htotal, ← hbs]
  obtain ⟨b₁, b₁', hraw, hstands, hbuf⟩ | ⟨hraw, hbuf⟩ := h.checkSizeAndResize (b.position + count)
  · rw [hraw, hbuf, bind_some, if_pos rfl, writeAt, hstands.data]
    dsimp only
    by_cases hin : b₁'.position + bs.length ≤ b₁'.data.length
    · have hstore : store (some b₁'.data) b₁.position.toNat bs =
          some (Codec.splice b₁'.data b₁'.position bs) := by
        rw [store, bind_some, hstands.position, if_pos hin]
      have hmax := b₁'.maximumSize_lt
      have hsize := b₁'.size_le
      have hadd : (b₁.position + count).toNat = b₁'.position + bs.length := by
        rw [toNat_add_of_lt (by rw [hstands.position]; omega), hstands.position, hlen]
      rw [hstore, dif_pos hin]
      refine .inl ⟨_, _, rfl, rfl, ?_, rfl⟩
      refine ⟨rfl, hadd, ?_, hstands.initialSize, hstands.maximumSize, ?_, hstands.grows⟩
      · dsimp only [Buffer.store]
        split
        · rename_i hgt; rw [gt_iff_lt, UInt32.lt_iff_toNat_lt, hadd, hstands.length] at hgt
          omega
        · rename_i hgt; rw [gt_iff_lt, UInt32.lt_iff_toNat_lt, hadd, hstands.length] at hgt
          rw [hstands.length]
          omega
      · have hle := b₁'.length_le
        have hpos := b₁'.position_le
        dsimp only [Buffer.store]
        rw [Codec.length_splice (by omega), hstands.currentSize]
        omega
    · rw [store, bind_some, hstands.position, if_neg hin, dif_neg hin]
      exact .inr (.inr ⟨rfl, _, rfl⟩)
  · rw [hraw, hbuf]; exact .inr (.inl ⟨rfl, rfl⟩)

/-- What the encoders and decoders do with a buffer. -/
inductive StreamOp where
  | write (src : Nat → UInt8) (count : UInt32)
  | read (count : UInt32)
  | setPosition (position : UInt32)

def apply (b : RawBuffer) : StreamOp → Option (RawBuffer × Except Status (List UInt8))
  | .write src count =>
    (write zeroed (some src) count b).map fun c => (c.buffer, c.result.map fun _ => [])
  | .read count => (read true count b).map fun c => (c.buffer, c.result)
  | .setPosition p => (setPosition p b).map fun c => (c.buffer, c.result.map fun _ => [])

/-- Beyond the data, the access has no result. -/
def answer {α : Type} (f : α → List UInt8) :
    EStateM.Result Status Buffer α → Option (Buffer × Except Status (List UInt8))
  | .ok a b => some (b, .ok (f a))
  | .error .outOfBounds _ => none
  | .error e b => some (b, .error e)

def applyBuffer (b : Buffer) : StreamOp → Option (Buffer × Except Status (List UInt8))
  | .write src count =>
    answer (fun _ => []) (Buffer.write (some ((List.range count.toNat).map src)) b)
  | .read count => answer Subtype.val (Buffer.read count.toNat b)
  | .setPosition p => answer (fun _ => []) (Buffer.setPosition p.toNat b)

theorem Stands.apply (h : Stands b b') (op : StreamOp) :
    Rel (SameOut Stands) (b.apply op) (applyBuffer b' op) := by
  cases op with
  | write src count =>
    obtain ⟨c, b₁, hraw, hc, hb₁, hbuf⟩ | ⟨hraw, hbuf⟩ | ⟨hraw, b₁, hbuf⟩ := h.write src count rfl
    · rw [RawBuffer.apply, hraw, applyBuffer, hbuf, map_some, hc]; exact .some ⟨hb₁, rfl⟩
    · rw [RawBuffer.apply, hraw, applyBuffer, hbuf]; exact .some ⟨h, rfl⟩
    · rw [RawBuffer.apply, hraw, applyBuffer, hbuf]; exact .none
  | read count =>
    obtain ⟨c, bs, b₁, hraw, hc, hb₁, hbuf⟩ | ⟨hraw, hbuf⟩ | ⟨hraw, hbuf⟩ := h.read count
    · rw [RawBuffer.apply, hraw, applyBuffer, hbuf, map_some, hc]; exact .some ⟨hb₁, rfl⟩
    · rw [RawBuffer.apply, hraw, applyBuffer, hbuf]; exact .some ⟨h, rfl⟩
    · rw [RawBuffer.apply, hraw, applyBuffer, hbuf]; exact .none
  | setPosition p =>
    obtain ⟨c, b₁, hraw, hc, hb₁, hbuf⟩ | ⟨hraw, hbuf⟩ := h.setPosition p
    · rw [RawBuffer.apply, hraw, applyBuffer, hbuf, map_some, hc]; exact .some ⟨hb₁, rfl⟩
    · rw [RawBuffer.apply, hraw, applyBuffer, hbuf]; exact .some ⟨h, rfl⟩

theorem runs_as_buffer (hb : b.Inv) {d : List UInt8} (hd : b.data = some d)
    (h0 : b.initialSize ≠ 0) : ∃ b', Stands b b' ∧ ∀ ops,
      Rel (SameOut Stands) (trace RawBuffer.apply b ops)
        (trace applyBuffer b' ops) := by
  obtain ⟨b', h⟩ := hb.stands hd h0
  exact ⟨b', h, fun ops => trace_rel (fun _ _ op h => h.apply op) h⟩

theorem twoBytes_runs_as_buffer : ∃ b', Stands (BufferOp.twoBytes ()) b' ∧ ∀ ops,
    Rel (SameOut Stands) (trace RawBuffer.apply (BufferOp.twoBytes ()) ops)
      (trace applyBuffer b' ops) :=
  runs_as_buffer (BufferOp.twoBytes_inv ()) rfl (by decide)

end RawBuffer
end S2OPC
