import S2OPC.Lib.Codec

/-!
# S2OPC.Common.Buffer

The byte buffer of `sopc_buffer.c`: allocated bytes, a data length within them and a position
within the data. Sizes are `uint32_t`, so the size test of a write or a read is made on a sum
modulo 2³²; where the wrapped sum passes the test and the copy would leave the data, the model
stops with `Status.outOfBounds`.
-/

namespace S2OPC

open List

/-- The failures of `SOPC_ReturnStatus`, and the access outside of an object (undefined in C). -/
inductive Status where
  | nok
  | invalidParameters
  | invalidState
  | encodingError
  | wouldBlock
  | timeout
  | outOfMemory
  | closed
  | notSupported
  | outOfBounds
  deriving DecidableEq, Repr

structure Buffer where
  data : List UInt8
  position : Nat
  length : Nat
  initialSize : Nat
  maximumSize : Nat
  position_le : position ≤ length
  length_le : length ≤ data.length
  size_le : data.length ≤ maximumSize
  maximumSize_lt : maximumSize < 2 ^ 32
  deriving DecidableEq

abbrev BufferM := EStateM Status Buffer

namespace Buffer

instance : Codec.Tape Buffer where
  bytes b := b.data.take b.length
  pos b := b.position
  pos_le b := by
    have := b.position_le
    have := b.length_le
    rw [length_take]
    omega

def createResizable (initialSize maximumSize : Nat) (h : initialSize ≤ maximumSize)
    (hmax : maximumSize < 2 ^ 32) : Buffer where
  data := List.replicate initialSize 0
  position := 0
  length := 0
  initialSize := initialSize
  maximumSize := maximumSize
  position_le := Nat.le_refl 0
  length_le := Nat.zero_le _
  size_le := by rw [length_replicate]; exact h
  maximumSize_lt := hmax

def create (size : Nat) (h : size < 2 ^ 32) : Buffer :=
  createResizable size size (Nat.le_refl size) h

/-- The size a buffer grows to in order to hold `totalNbBytes`: the first multiple of
`initial_size` that does, or `maximum_size`. -/
def resized (initialSize maximumSize totalNbBytes : Nat) : Nat :=
  let requiredSteps :=
    if totalNbBytes % initialSize ≠ 0 then totalNbBytes / initialSize + 1
    else totalNbBytes / initialSize
  if requiredSteps > maximumSize / initialSize then maximumSize
  else requiredSteps * initialSize

theorem resized_le {i m n : Nat} : resized i m n ≤ m := by
  simp only [resized]
  generalize (if n % i ≠ 0 then n / i + 1 else n / i) = k
  split
  · exact Nat.le_refl m
  · rename_i h
    exact Nat.le_trans (Nat.mul_le_mul_right i (Nat.le_of_not_gt h)) (Nat.div_mul_le_self m i)

theorem le_resized {i m n : Nat} (hn : n ≤ m) : n ≤ resized i m n := by
  have hdiv : n / i * i + n % i = n := Nat.div_add_mod' n i
  by_cases hmod : n % i = 0
  · simp only [resized, hmod, ne_eq, not_true_eq_false, if_false]
    split <;> omega
  simp only [resized, hmod, ne_eq, not_false_eq_true, if_true]
  split
  · exact hn
  rename_i hsteps
  have hi : i ≠ 0 := by rintro rfl; simp at hsteps
  have hlt : n % i < i := Nat.mod_lt _ (Nat.pos_of_ne_zero hi)
  rw [Nat.add_mul]
  omega

/-- `SOPC_Buffer_CheckSizeAndResize` without exact resize. The bytes gained are indeterminate in
C; they are beyond the data length and no operation reads them. -/
def checkSizeAndResize (b : Buffer) (totalNbBytes : Nat) : Option Buffer :=
  if totalNbBytes ≤ b.data.length then some b
  else if totalNbBytes ≤ b.maximumSize then
    some
      { b with
        data := b.data ++
          List.replicate (resized b.initialSize b.maximumSize totalNbBytes - b.data.length) 0
        length_le := by
          have := b.length_le
          rw [length_append]
          omega
        size_le := by
          have := b.size_le
          have := @resized_le b.initialSize b.maximumSize totalNbBytes
          simp; omega }
  else none

def store (b : Buffer) (bs : List UInt8) (h : b.position + bs.length ≤ b.data.length) : Buffer where
  data := Codec.splice b.data b.position bs
  position := b.position + bs.length
  length := max b.length (b.position + bs.length)
  initialSize := b.initialSize
  maximumSize := b.maximumSize
  position_le := Nat.le_max_right _ _
  length_le := by
    have := b.length_le
    have := b.position_le
    rw [Codec.length_splice (by omega)]
    omega
  size_le := by
    have := b.size_le
    have := b.length_le
    have := b.position_le
    rw [Codec.length_splice (by omega)]
    omega
  maximumSize_lt := b.maximumSize_lt

/-- `SOPC_Buffer_Write`; `none` is a `NULL` source. -/
def write (dataSrc : Option (List UInt8)) : BufferM Unit := fun b =>
  match dataSrc with
  | none => .error .invalidParameters b
  | some bs =>
    match b.checkSizeAndResize ((b.position + bs.length) % 2 ^ 32) with
    | none => .error .outOfMemory b
    | some b' =>
      if h : b'.position + bs.length ≤ b'.data.length then .ok () (b'.store bs h)
      else .error .outOfBounds b'

def read (count : Nat) : BufferM { bs : List UInt8 // bs.length = count } := fun b =>
  if (b.position + count) % 2 ^ 32 ≤ b.length then
    if h : b.position + count ≤ b.length then
      .ok
        ⟨(b.data.drop b.position).take count, by
          have := b.length_le
          simp; omega⟩
        { b with position := b.position + count, position_le := h }
    else .error .outOfBounds b
  else .error .outOfMemory b

def setPosition (position : Nat) : BufferM Unit := fun b =>
  if h : position ≤ b.length then .ok () { b with position := position, position_le := h }
  else .error .invalidParameters b

open Codec Tape

@[simp] theorem bytes_def (b : Buffer) : bytes b = b.data.take b.length := rfl

@[simp] theorem pos_def (b : Buffer) : pos b = b.position := rfl

variable {b : Buffer} {bs : List UInt8}

theorem checkSizeAndResize_some {b' : Buffer} {n : Nat} (h : b.checkSizeAndResize n = some b') :
    (∃ tail, b'.data = b.data ++ tail) ∧ b'.length = b.length ∧ b'.position = b.position := by
  unfold checkSizeAndResize at h
  split at h
  · cases h; exact ⟨⟨[], by simp⟩, rfl, rfl⟩
  · split at h
    · cases h; exact ⟨⟨_, rfl⟩, rfl, rfl⟩
    · cases h

theorem take_splice_max {α : Type} {d bs : List α} {p len : Nat} (hp : p ≤ len)
    (hlen : len ≤ d.length) :
    (splice d p bs).take (max len (p + bs.length)) = splice (d.take len) p bs := by
  have hpre : (d.take p).length = p := by simp; omega
  simp only [splice]
  rw [take_take, Nat.min_eq_left hp, take_append, hpre, take_append,
    take_of_length_le (l := d.take p) (by omega),
    take_of_length_le (l := bs) (by omega), drop_take]
  congr 3
  omega

theorem bytes_store (h : b.position + bs.length ≤ b.data.length) :
    bytes (b.store bs h) = splice (bytes b) b.position bs :=
  take_splice_max b.position_le b.length_le

theorem write_wrote {b' : Buffer} (h : write (some bs) b = .ok () b') : Wrote b b' bs := by
  unfold write at h
  cases hc : b.checkSizeAndResize ((b.position + bs.length) % 2 ^ 32) with
  | none => simp only [hc] at h; cases h
  | some r =>
    obtain ⟨⟨tail, hdata⟩, hlen, hpos⟩ := checkSizeAndResize_some hc
    simp only [hc] at h
    split at h
    · cases h
      have hbytes : bytes r = bytes b := by
        rw [bytes_def, bytes_def, hdata, hlen, take_append_of_le_length b.length_le]
      refine ⟨?_, by simp [store, hpos]⟩
      rw [bytes_store, hbytes, hpos, pos_def]
    · cases h

theorem writes_write (bs : List UInt8) : Writes (write (some bs)) (· = bs) := by
  intro b b' h; exact ⟨bs, rfl, write_wrote h⟩

theorem write_error {bs' : List UInt8} {b' : Buffer} {e : Status}
    (h : write (some bs) b = .error e b') (he : e ≠ .outOfBounds) (hlen : bs'.length = bs.length) :
    b' = b ∧ write (some bs') b = .error e b := by
  simp only [write, hlen] at h ⊢
  cases hc : b.checkSizeAndResize ((b.position + bs.length) % 2 ^ 32) with
  | none => simp only [hc] at h ⊢; cases h; exact ⟨rfl, rfl⟩
  | some r =>
    simp only [hc] at h
    split at h
    · cases h
    · cases h; exact absurd rfl he

theorem write_fits (h : b.position + bs.length ≤ b.data.length) :
    write (some bs) b = .ok () (b.store bs h) := by
  have hs := b.size_le
  have hm := b.maximumSize_lt
  have hc : b.checkSizeAndResize ((b.position + bs.length) % 2 ^ 32) = some b := by
    rw [Nat.mod_eq_of_lt (by omega), checkSizeAndResize, if_pos h]
  simp only [write, hc]
  exact dif_pos h

theorem write_append (bs : List UInt8) {pre room : List UInt8} (hdata : b.data = pre ++ room)
    (hpos : b.position = pre.length) (hroom : bs.length ≤ room.length) :
    ∃ b', write (some bs) b = .ok () b' ∧ b'.data = (pre ++ bs) ++ room.drop bs.length ∧
      b'.position = (pre ++ bs).length := by
  have h : b.position + bs.length ≤ b.data.length := by rw [hpos, hdata, length_append]; omega
  refine ⟨b.store bs h, write_fits h, ?_, ?_⟩
  · show splice b.data b.position bs = _
    rw [hpos, hdata, splice, take_left, ← drop_drop, drop_left, append_assoc]
  · show b.position + bs.length = _; rw [hpos, length_append]

theorem write_inside (h : b.position + bs.length ≤ b.length) :
    ∃ b', write (some bs) b = .ok () b' :=
  ⟨_, write_fits (Nat.le_trans h b.length_le)⟩

theorem setPosition_ok {p : Nat} (h : p ≤ b.length) :
    ∃ b', setPosition p b = .ok () b' ∧ bytes b' = bytes b ∧ b'.position = p ∧
      b'.length = b.length :=
  ⟨_, dif_pos h, rfl, rfl, rfl⟩

theorem length_bytes (b : Buffer) : (bytes b).length = b.length := by
  rw [bytes_def, length_take, Nat.min_eq_left b.length_le]

theorem reads_read (bs : List UInt8) : Reads (read bs.length) bs ⟨bs, rfl⟩ := by
  intro b rest hb
  have hlen : b.position + bs.length ≤ b.length := by
    have := congrArg List.length hb
    have hp := b.position_le
    simp only [bytes_def, pos_def, length_drop, length_take, length_append] at this
    omega
  have hlt : b.position + bs.length < 2 ^ 32 := by
    have := b.length_le
    have := b.size_le
    have := b.maximumSize_lt
    omega
  have hread : (b.data.drop b.position).take bs.length = bs := by
    have htake := congrArg (List.take bs.length) hb
    rwa [take_left, bytes_def, pos_def, drop_take, take_take, Nat.min_eq_left (by omega)] at htake
  unfold read
  rw [Nat.mod_eq_of_lt hlt, if_pos hlen, dif_pos hlen]
  simp [hread]

end Buffer
end S2OPC
