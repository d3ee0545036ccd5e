import S2OPC.Lib.Codec
import S2OPC.Lib.Framing

/-!
# S2OPC.Channels.Framing

The reception of TCP UA chunks: `SC_Chunks_TreatReceivedBuffer` of `sopc_chunks_mgr.c`.

The treatment of the content of a complete chunk is a parameter. The buffer of a chunk has the receive
buffer size and is not resized.
-/

namespace S2OPC
namespace Channels

open List

open Codec (leBytes ofLeBytes)

inductive MsgType where
  | hel
  | ack
  | err
  | opn
  | clo
  | msg
  deriving DecidableEq, Repr

inductive IsFinal where
  | intermediate
  | final
  | abort
  deriving DecidableEq, Repr

inductive ChunkStatus where
  | good
  | badTcpMessageTypeInvalid
  | badTcpMessageTooLarge
  | badTcpInternalError
  | badTcpSecureChannelUnknown
  | badSecureChannelTokenUnknown
  | badSecurityChecksFailed
  | badSecurityPolicyRejected
  | badCertificateInvalid
  | badCertificateUseNotAllowed
  | badEncodingError
  | badDecodingError
  | badInvalidState
  | badOutOfMemory
  | badRequestTooLarge
  | badResponseTooLarge
  deriving DecidableEq, Repr

structure TcpHeader where
  msgType : MsgType
  isFinal : IsFinal
  size : Nat
  deriving DecidableEq, Repr

def tcpUaHeaderLength : Nat := 8

/-- `fill_buffer`, for a buffer of some size: its bytes, those left in the source, and the number of
bytes that are still missing. -/
def fillBuffer (size : Nat) (data : List UInt8) (position : Nat) (src : List UInt8) (n : Nat) :
    Option (List UInt8 × List UInt8 × Nat) :=
  if n ≤ data.length - position then some (data, src, 0)
  else
    let missing := n - (data.length - position)
    if size - data.length < missing then none
    else
      let filled := data ++ src.take missing
      some (filled, src.drop missing, n - (filled.length - position))

def msgTypeOf (bytes : List UInt8) : Option MsgType :=
  if bytes = [72, 69, 76] then some .hel
  else if bytes = [65, 67, 75] then some .ack
  else if bytes = [69, 82, 82] then some .err
  else if bytes = [77, 83, 71] then some .msg
  else if bytes = [79, 80, 78] then some .opn
  else if bytes = [67, 76, 79] then some .clo
  else none

def isFinalOf (byte : UInt8) : Option IsFinal :=
  if byte = 67 then some .intermediate
  else if byte = 70 then some .final
  else if byte = 65 then some .abort
  else none

def decodeTcpMsgHeader (maximumSize : Nat) (data : List UInt8) : Except ChunkStatus TcpHeader :=
  match msgTypeOf (data.take 3), isFinalOf (data.getD 3 0) with
  | none, _ => .error .badTcpMessageTypeInvalid
  | some _, none => .error .badTcpMessageTypeInvalid
  | some msgType, some isFinal =>
    if msgType ≠ .msg ∧ isFinal ≠ .final then .error .badTcpMessageTypeInvalid
    else
      let size := ofLeBytes ((data.drop 4).take 4)
      if size ≤ tcpUaHeaderLength then .error .badEncodingError
      else if maximumSize < size then .error .badTcpMessageTooLarge
      else .ok ⟨msgType, isFinal, size⟩

structure ChunkInput where
  data : List UInt8
  header : Option TcpHeader

def fillPayload (size : Nat) (data : List UInt8) (header : TcpHeader) (src : List UInt8) :
    Except ChunkStatus (ChunkInput × List UInt8 × Bool) :=
  match fillBuffer size data tcpUaHeaderLength src (header.size - tcpUaHeaderLength) with
  | none => .error .badTcpInternalError
  | some (data, src, remaining) => .ok (⟨data, some header⟩, src, remaining == 0)

def decodeReceivedBuffer (size : Nat) (input : ChunkInput) (src : List UInt8) :
    Except ChunkStatus (ChunkInput × List UInt8 × Bool) :=
  match input.header with
  | some header => fillPayload size input.data header src
  | none =>
    match fillBuffer size input.data 0 src tcpUaHeaderLength with
    | none => .error .badTcpInternalError
    | some (data, src, remaining) =>
      if 0 < remaining then .ok (⟨data, none⟩, src, false)
      else (decodeTcpMsgHeader size data).bind fun header => fillPayload size data header src

structure Chunk where
  header : TcpHeader
  data : List UInt8
  deriving DecidableEq, Repr

inductive Received where
  | chunk (c : Chunk)
  | failure (status : ChunkStatus)
  deriving DecidableEq, Repr

/-- The treatment of the content of chunks: the context after it, and the error if the chunk is
refused; and what is left of a context when the input is cleared. -/
structure Treatment (σ : Type) where
  treat : σ → Chunk → σ × Option ChunkStatus
  clear : σ → σ

structure Receiver (σ : Type) where
  current : Option ChunkInput
  context : σ

variable {σ : Type}

def Receiver.input (size : Nat) (r : Receiver σ) : Option ChunkInput :=
  match r.current with
  | some input => some input
  | none => if size = 0 then none else some ⟨[], none⟩

def treatLoop (size : Nat) (T : Treatment σ) :
    Nat → Receiver σ → List UInt8 → Receiver σ × List Received
  | 0, r, _ => (r, [])
  | fuel + 1, r, src =>
    if src = [] then (r, [])
    else
      match r.input size with
      -- the rest of the received buffer is dropped
      | none => (r, [])
      | some input =>
        match decodeReceivedBuffer size input src with
        | .error e => (⟨none, T.clear r.context⟩, [.failure e])
        | .ok (input, _, false) => (⟨some input, r.context⟩, [])
        | .ok (input, rest, true) =>
          match input.header with
          | none => (⟨some input, r.context⟩, [])
          | some header =>
            match T.treat r.context ⟨header, input.data⟩ with
            | (context, some e) =>
              (⟨none, T.clear context⟩, [.chunk ⟨header, input.data⟩, .failure e])
            | (context, none) =>
              let out := treatLoop size T fuel ⟨none, context⟩ rest
              (out.1, .chunk ⟨header, input.data⟩ :: out.2)

def treatReceivedBuffer (size : Nat) (T : Treatment σ) (r : Receiver σ) (received : List UInt8) :
    Receiver σ × List Received :=
  treatLoop size T received.length r received

def receive (size : Nat) (T : Treatment σ) : Receiver σ → List (List UInt8) → List Received
  | _, [] => []
  | r, received :: rest =>
    (treatReceivedBuffer size T r received).2 ++
      receive size T (treatReceivedBuffer size T r received).1 rest

def upToFailure : List Received → List Received
  | [] => []
  | .chunk c :: rest => .chunk c :: upToFailure rest
  | .failure e :: _ => [.failure e]

open Framing

def cutChunk (size : Nat) (bytes : List UInt8) : Cut ChunkStatus Chunk :=
  if bytes = [] then .more
  -- a buffer smaller than a header cannot be filled
  else if size < tcpUaHeaderLength then .bad .badTcpInternalError
  else if bytes.length < tcpUaHeaderLength then .more
  else
    match decodeTcpMsgHeader size bytes with
    | .error e => .bad e
    | .ok header =>
      if bytes.length < header.size then .more
      else .piece header.size ⟨header, bytes.take header.size⟩

variable {size : Nat}

theorem decodeTcpMsgHeader_append {xs : List UInt8} (ys : List UInt8)
    (h : tcpUaHeaderLength ≤ xs.length) :
    decodeTcpMsgHeader size (xs ++ ys) = decodeTcpMsgHeader size xs := by
  have h3 : (xs ++ ys).take 3 = xs.take 3 := take_append_of_le_length (by
    unfold tcpUaHeaderLength at h; omega)
  have hget : (xs ++ ys).getD 3 0 = xs.getD 3 0 := by
    rw [getD_append _ _ _ _ (by unfold tcpUaHeaderLength at h; omega)]
  have h4 : ((xs ++ ys).drop 4).take 4 = (xs.drop 4).take 4 := by
    unfold tcpUaHeaderLength at h
    rw [drop_append_of_le_length (by omega), take_append_of_le_length]
    rw [length_drop]
    omega
  simp only [decodeTcpMsgHeader, h3, hget, h4]

variable {header : TcpHeader} {data src pending : List UInt8} {r : Receiver σ} {context : σ}

theorem decodeTcpMsgHeader_size {bytes : List UInt8}
    (h : decodeTcpMsgHeader size bytes = .ok header) :
    tcpUaHeaderLength < header.size ∧ header.size ≤ size := by
  unfold decodeTcpMsgHeader at h
  split at h
  · cases h
  · cases h
  split at h
  · cases h
  simp only at h
  split at h
  · cases h
  · split at h
    · cases h
    · cases h; rename_i hmin hmax; exact ⟨Nat.lt_of_not_le hmin, Nat.le_of_not_lt hmax⟩

section

variable {size : Nat} {bytes : List UInt8}

theorem cutChunk_short (hsize : tcpUaHeaderLength ≤ size) (hlen : bytes.length < tcpUaHeaderLength) :
    cutChunk size bytes = .more := by
  by_cases hne : bytes = []
  · rw [cutChunk, if_pos hne]
  · rw [cutChunk, if_neg hne, if_neg (Nat.not_lt.mpr hsize), if_pos hlen]

theorem ne_nil_of_header (hlen : tcpUaHeaderLength ≤ bytes.length) : bytes ≠ [] := by
  rintro rfl; exact absurd hlen (by decide)

theorem cutChunk_error {e : ChunkStatus} (hsize : tcpUaHeaderLength ≤ size)
    (hlen : tcpUaHeaderLength ≤ bytes.length) (h : decodeTcpMsgHeader size bytes = .error e) :
    cutChunk size bytes = .bad e := by
  unfold cutChunk
  rw [if_neg (ne_nil_of_header hlen), if_neg (Nat.not_lt.mpr hsize), if_neg (Nat.not_lt.mpr hlen)]
  simp [h]

theorem cutChunk_header {header : TcpHeader} (hsize : tcpUaHeaderLength ≤ size)
    (hlen : tcpUaHeaderLength ≤ bytes.length) (h : decodeTcpMsgHeader size bytes = .ok header) :
    cutChunk size bytes =
      if bytes.length < header.size then .more
      else .piece header.size ⟨header, bytes.take header.size⟩ := by
  unfold cutChunk
  rw [if_neg (ne_nil_of_header hlen), if_neg (Nat.not_lt.mpr hsize), if_neg (Nat.not_lt.mpr hlen)]
  simp [h]

theorem cutChunk_cases (bytes : List UInt8) (hsize : tcpUaHeaderLength ≤ size) :
    bytes.length < tcpUaHeaderLength ∧ cutChunk size bytes = .more ∨
    tcpUaHeaderLength ≤ bytes.length ∧
      ((∃ e, decodeTcpMsgHeader size bytes = .error e ∧ cutChunk size bytes = .bad e) ∨
        ∃ header, decodeTcpMsgHeader size bytes = .ok header ∧
          cutChunk size bytes =
            if bytes.length < header.size then .more
            else .piece header.size ⟨header, bytes.take header.size⟩) := by
  rcases Nat.lt_or_ge bytes.length tcpUaHeaderLength with hlen | hlen
  · exact .inl ⟨hlen, cutChunk_short hsize hlen⟩
  · refine .inr ⟨hlen, ?_⟩
    cases hdec : decodeTcpMsgHeader size bytes with
    | error e => exact .inl ⟨e, rfl, cutChunk_error hsize hlen hdec⟩
    | ok header => exact .inr ⟨header, rfl, cutChunk_header hsize hlen hdec⟩

theorem cutChunk_small (hsize : size < tcpUaHeaderLength) (hne : bytes ≠ []) :
    cutChunk size bytes = .bad .badTcpInternalError := by
  unfold cutChunk; rw [if_neg hne, if_pos hsize]

theorem cutChunk_piece {n : Nat} {c : Chunk} (h : cutChunk size bytes = .piece n c) :
    tcpUaHeaderLength ≤ size ∧ tcpUaHeaderLength ≤ bytes.length ∧
      decodeTcpMsgHeader size bytes = .ok c.header ∧ n = c.header.size ∧
      c.header.size ≤ bytes.length ∧ c.data = bytes.take c.header.size := by
  rcases Nat.lt_or_ge size tcpUaHeaderLength with hsize | hsize
  · by_cases hne : bytes = []
    · rw [cutChunk, if_pos hne] at h; cases h
    · rw [cutChunk_small hsize hne] at h; cases h
  · obtain ⟨-, hcut⟩ | ⟨hlen, ⟨e, -, hcut⟩ | ⟨header, hdec, hcut⟩⟩ := cutChunk_cases bytes hsize
    · rw [hcut] at h; cases h
    · rw [hcut] at h; cases h
    · rw [hcut] at h
      split at h
      · cases h
      · cases h; rename_i hfull; exact ⟨hsize, hlen, hdec, rfl, Nat.le_of_not_lt hfull, rfl⟩

theorem cutChunk_append (ys : List UInt8) (h : cutChunk size bytes ≠ .more) :
    cutChunk size (bytes ++ ys) = cutChunk size bytes := by
  have hne : bytes ≠ [] := by rintro rfl; exact h rfl
  rcases Nat.lt_or_ge size tcpUaHeaderLength with hsize | hsize
  · rw [cutChunk_small hsize hne, cutChunk_small hsize (by simp [hne])]
  obtain ⟨-, hcut⟩ | ⟨hlen, ⟨e, hdec, hcut⟩ | ⟨header, hdec, hcut⟩⟩ := cutChunk_cases bytes hsize
  · exact absurd hcut h
  · have hlen' : tcpUaHeaderLength ≤ (bytes ++ ys).length := by rw [length_append]; omega
    rw [hcut]
    exact cutChunk_error hsize hlen' ((decodeTcpMsgHeader_append ys hlen).trans hdec)
  · have hlen' : tcpUaHeaderLength ≤ (bytes ++ ys).length := by rw [length_append]; omega
    have hfull : header.size ≤ bytes.length := by
      by_contra hshort
      exact h (hcut.trans (if_pos (Nat.lt_of_not_le hshort)))
    rw [hcut, cutChunk_header hsize hlen' ((decodeTcpMsgHeader_append ys hlen).trans hdec),
      if_neg (by rw [length_append]; omega), if_neg (by omega),
      take_append_of_le_length hfull]

end

def framer (size : Nat) : Framer UInt8 ChunkStatus Chunk where
  cut := cutChunk size
  cut_nil := rfl
  piece_length := by
    intro bytes n c h; obtain ⟨-, -, hdec, rfl, hle, -⟩ := cutChunk_piece h
    have := (decodeTcpMsgHeader_size hdec).1
    exact ⟨by omega, hle⟩
  stable := fun ys h => cutChunk_append ys h

def Treatment.consume (T : Treatment σ) (context : σ) (c : Chunk) : Except ChunkStatus σ :=
  match T.treat context c with
  | (_, some e) => .error e
  | (context, none) => .ok context

theorem fillBuffer_eq {n position : Nat} (hpos : position ≤ data.length)
    (hdata : data.length ≤ position + n) (hsize : position + n ≤ size) :
    fillBuffer size data position src n =
      some ((data ++ src).take (position + n), (data ++ src).drop (position + n),
        position + n - (data ++ src).length) := by
  unfold fillBuffer
  by_cases hfull : n ≤ data.length - position
  · have hlen : data.length = position + n := by omega
    rw [if_pos hfull, ← hlen, take_left, drop_left, length_append]
    congr 3
    omega
  · have hmissing : n - (data.length - position) = position + n - data.length := by omega
    rw [if_neg (by omega), take_append, drop_append, take_of_length_le hdata,
      drop_of_length_le hdata, nil_append]
    simp; omega

def keptHeader (size : Nat) (bytes : List UInt8) : Option TcpHeader :=
  if bytes.length < tcpUaHeaderLength then none else (decodeTcpMsgHeader size bytes).toOption

def Receiver.Holds (size : Nat) (r : Receiver σ) (context : σ) (pending : List UInt8) : Prop :=
  r.context = context ∧ cutChunk size pending = .more ∧
    (r.current = none ∧ pending = [] ∨ r.current = some ⟨pending, keptHeader size pending⟩)

theorem fillPayload_eq
    (hmin : tcpUaHeaderLength < header.size) (hmax : header.size ≤ size)
    (hpos : tcpUaHeaderLength ≤ data.length) (hdata : data.length ≤ header.size) :
    fillPayload size data header src =
      .ok (⟨(data ++ src).take header.size, some header⟩, (data ++ src).drop header.size,
        decide (header.size ≤ (data ++ src).length)) := by
  have hsum : tcpUaHeaderLength + (header.size - tcpUaHeaderLength) = header.size := by omega
  have hfill : fillBuffer size data tcpUaHeaderLength src (header.size - tcpUaHeaderLength) =
      some ((data ++ src).take header.size, (data ++ src).drop header.size,
        header.size - (data ++ src).length) := by
    rw [fillBuffer_eq hpos (by omega) (by omega), hsum]
  have hdone : (header.size - (data ++ src).length == 0) =
      decide (header.size ≤ (data ++ src).length) := by
    by_cases h : header.size ≤ (data ++ src).length
    · rw [decide_eq_true h, beq_iff_eq]; omega
    · rw [decide_eq_false h, beq_eq_false_iff_ne]; omega
  unfold fillPayload
  rw [hfill]
  simp only [hdone]

def decodedFrom (size : Nat) (bytes : List UInt8) :
    Except ChunkStatus (ChunkInput × List UInt8 × Bool) :=
  match cutChunk size bytes with
  | .bad e => .error e
  | .more => .ok (⟨bytes, keptHeader size bytes⟩, [], false)
  | .piece n c => .ok (⟨c.data, some c.header⟩, bytes.drop n, true)

section

variable {size : Nat} {data src pending : List UInt8}

variable {header : TcpHeader}

theorem keptHeader_of_ok (hlen : tcpUaHeaderLength ≤ data.length)
    (h : decodeTcpMsgHeader size data = .ok header) : keptHeader size data = some header := by
  rw [keptHeader, if_neg (Nat.not_lt.mpr hlen), h]; rfl

theorem fillPayload_eq_decodedFrom (hsize : tcpUaHeaderLength ≤ size)
    (hlen : tcpUaHeaderLength ≤ data.length) (hdata : data.length ≤ header.size)
    (h : decodeTcpMsgHeader size data = .ok header) :
    fillPayload size data header src = decodedFrom size (data ++ src) := by
  obtain ⟨hmin, hmax⟩ := decodeTcpMsgHeader_size h
  have hlen' : tcpUaHeaderLength ≤ (data ++ src).length := by rw [length_append]; omega
  have h' : decodeTcpMsgHeader size (data ++ src) = .ok header :=
    (decodeTcpMsgHeader_append src hlen).trans h
  rw [fillPayload_eq hmin hmax hlen hdata, decodedFrom, cutChunk_header hsize hlen' h']
  by_cases hfull : (data ++ src).length < header.size
  · rw [if_pos hfull, take_of_length_le (Nat.le_of_lt hfull),
      drop_of_length_le (Nat.le_of_lt hfull), keptHeader_of_ok hlen' h',
      decide_eq_false (Nat.not_le.mpr hfull)]
  · rw [if_neg hfull, decide_eq_true (Nat.le_of_not_lt hfull)]

theorem decodeReceivedBuffer_start (hsize : tcpUaHeaderLength ≤ size)
    (hlen : data.length < tcpUaHeaderLength) :
    decodeReceivedBuffer size ⟨data, none⟩ src = decodedFrom size (data ++ src) := by
  have hfill : fillBuffer size data 0 src tcpUaHeaderLength =
      some ((data ++ src).take tcpUaHeaderLength, (data ++ src).drop tcpUaHeaderLength,
        tcpUaHeaderLength - (data ++ src).length) := by
    rw [fillBuffer_eq (Nat.zero_le _) (by omega) (by omega), Nat.zero_add]
  simp only [decodeReceivedBuffer, hfill]
  generalize hall : data ++ src = all
  rcases Nat.lt_or_ge all.length tcpUaHeaderLength with hshort | hlong
  · rw [if_pos (Nat.sub_pos_of_lt hshort), decodedFrom, cutChunk_short hsize hshort, keptHeader,
      if_pos hshort, take_of_length_le (Nat.le_of_lt hshort),
      drop_of_length_le (Nat.le_of_lt hshort)]
  · have htake : (all.take tcpUaHeaderLength).length = tcpUaHeaderLength := by
      rw [length_take, Nat.min_eq_left hlong]
    have hsame : decodeTcpMsgHeader size all =
        decodeTcpMsgHeader size (all.take tcpUaHeaderLength) := by
      conv_lhs => rw [← take_append_drop tcpUaHeaderLength all]
      exact decodeTcpMsgHeader_append _ (Nat.le_of_eq htake.symm)
    rw [if_neg (by omega), ← hsame]
    cases hdec : decodeTcpMsgHeader size all with
    | error e => rw [decodedFrom, cutChunk_error hsize hlong hdec]; rfl
    | ok header =>
      have hmin := (decodeTcpMsgHeader_size hdec).1
      conv_rhs => rw [← take_append_drop tcpUaHeaderLength all]
      exact fillPayload_eq_decodedFrom hsize (Nat.le_of_eq htake.symm) (by omega) (hsame ▸ hdec)

theorem decodeReceivedBuffer_eq (hsrc : src ≠ [])
    (hmore : cutChunk size pending = .more) :
    decodeReceivedBuffer size ⟨pending, keptHeader size pending⟩ src =
      decodedFrom size (pending ++ src) := by
  rcases Nat.lt_or_ge size tcpUaHeaderLength with hsmall | hsize
  · have hnil : pending = [] := by
      by_contra hne
      rw [cutChunk_small hsmall hne] at hmore
      cases hmore
    subst hnil
    have hfill : fillBuffer size [] 0 src tcpUaHeaderLength = none := if_pos hsmall
    have hnone : keptHeader size [] = none := rfl
    rw [decodedFrom, nil_append, cutChunk_small hsmall hsrc]
    simp [decodeReceivedBuffer, hnone, hfill]
  · obtain ⟨hlen, -⟩ | ⟨hlen, ⟨e, -, hcut⟩ | ⟨header, hdec, hcut⟩⟩ := cutChunk_cases pending hsize
    · rw [keptHeader, if_pos hlen]; exact decodeReceivedBuffer_start hsize hlen
    · rw [hcut] at hmore; cases hmore
    · have hshort : pending.length < header.size := by
        by_contra hfull
        rw [hcut, if_neg hfull] at hmore
        cases hmore
      rw [keptHeader_of_ok hlen hdec]
      exact fillPayload_eq_decodedFrom hsize hlen (Nat.le_of_lt hshort) hdec

theorem length_lt_of_piece {n : Nat} {c : Chunk} (hmore : cutChunk size pending = .more)
    (h : cutChunk size (pending ++ src) = .piece n c) : pending.length < n := by
  obtain ⟨hsize, -, hdec, rfl, -, -⟩ := cutChunk_piece h
  have hmin := (decodeTcpMsgHeader_size hdec).1
  rcases Nat.lt_or_ge pending.length tcpUaHeaderLength with hlen | hlen
  · omega
  rw [decodeTcpMsgHeader_append src hlen] at hdec
  rw [cutChunk_header hsize hlen hdec] at hmore
  by_contra hfull
  rw [if_neg (by omega)] at hmore
  cases hmore

end

def eventsOf (r : Framer.Parsed UInt8 ChunkStatus Chunk σ) : List Received :=
  r.1.map .chunk ++
    match r.2 with
    | .error e => [.failure e]
    | .ok _ => []

theorem Receiver.Holds.input
    (h : r.Holds size context pending) (hsize : 0 < size) :
    r.input size = some ⟨pending, keptHeader size pending⟩ := by
  unfold Receiver.input
  rcases h.2.2 with ⟨hnone, rfl⟩ | hsome
  · rw [hnone]; exact if_neg (Nat.ne_of_gt hsize)
  · rw [hsome]

theorem Receiver.Holds.parse_nil
    (h : r.Holds size context pending) (T : Treatment σ) :
    (framer size).parse T.consume context (pending ++ []) = ([], .ok (context, pending)) := by
  rw [append_nil]; exact Framer.parse_more h.2.1

/-- The loop cuts the bytes that are held and received as the stream is cut. -/
theorem treatLoop_refines (hsize : 0 < size) (T : Treatment σ) {fuel : Nat}
    (hr : r.Holds size context pending)
    (hsrc : src.length ≤ fuel) :
    (treatLoop size T fuel r src).2 =
        eventsOf ((framer size).parse T.consume context (pending ++ src)) ∧
      ∀ t rest, ((framer size).parse T.consume context (pending ++ src)).2 = .ok (t, rest) →
        (treatLoop size T fuel r src).1.Holds size t rest := by
  induction fuel generalizing r context pending src with
  | zero =>
    obtain rfl := length_eq_zero_iff.mp (Nat.le_zero.mp hsrc)
    rw [hr.parse_nil T]
    refine ⟨rfl, ?_⟩
    rintro t rest ⟨⟩; exact hr
  | succ fuel ih =>
    by_cases hne : src = []
    · subst hne; rw [hr.parse_nil T]; refine ⟨rfl, ?_⟩; rintro t rest ⟨⟩; exact hr
    have hinput := hr.input hsize
    have hdecode := decodeReceivedBuffer_eq hne hr.2.1
    obtain ⟨rfl, hpending, -⟩ := hr
    simp only [treatLoop, if_neg hne, hinput, hdecode, decodedFrom]
    cases hcut : cutChunk size (pending ++ src) with
    | bad e => rw [Framer.parse_bad hcut]; refine ⟨rfl, ?_⟩; rintro t rest ⟨⟩
    | more =>
      rw [Framer.parse_more hcut]
      refine ⟨rfl, ?_⟩
      rintro t rest ⟨⟩; exact ⟨rfl, hcut, .inr rfl⟩
    | piece n c =>
      simp only
      cases htreat : T.treat r.context ⟨c.header, c.data⟩ with
      | mk context' refused =>
        cases refused with
        | some e =>
          have hc : T.consume r.context c = .error e := by simp [Treatment.consume, htreat]
          rw [Framer.parse_refused hcut hc]
          refine ⟨rfl, ?_⟩
          rintro t rest ⟨⟩
        | none =>
          have hc : T.consume r.context c = .ok context' := by simp [Treatment.consume, htreat]
          have hlt := length_lt_of_piece hpending hcut
          have hfuel : ((pending ++ src).drop n).length ≤ fuel := by simp; omega
          have hstart : Receiver.Holds size ⟨none, context'⟩ context' [] :=
            ⟨rfl, rfl, .inl ⟨rfl, rfl⟩⟩
          obtain ⟨hout, hholds⟩ := ih hstart hfuel
          rw [Framer.parse_piece hcut hc]
          refine ⟨?_, hholds⟩
          simp [hout, eventsOf]

theorem upToFailure_chunks (cs : List Chunk) (rest : List Received) :
    upToFailure (cs.map .chunk ++ rest) = cs.map .chunk ++ upToFailure rest := by
  induction cs with
  | nil => rfl
  | cons c cs ih => rw [map_cons, cons_append, upToFailure, ih, cons_append]

theorem receive_refines (hsize : 0 < size) (T : Treatment σ) {segments : List (List UInt8)}
    (hr : r.Holds size context pending) :
    upToFailure (receive size T r segments) =
      eventsOf ((framer size).feedAll T.consume context pending segments) := by
  induction segments generalizing r context pending with
  | nil => rfl
  | cons segment segments ih =>
    obtain ⟨hout, hholds⟩ := treatLoop_refines hsize T hr (Nat.le_refl segment.length)
    simp only [receive, treatReceivedBuffer, hout, Framer.feedAll, Framer.andThen, eventsOf,
      append_assoc, upToFailure_chunks]
    cases hparse : ((framer size).parse T.consume context (pending ++ segment)).2 with
    | error e => rfl
    | ok s => obtain ⟨t, rest⟩ := s; have hnext := ih (hholds t rest hparse); simp [hnext, eventsOf]

theorem parse_chunks (size : Nat) (T : Treatment σ) (context : σ) (bytes : List UInt8) :
    ((framer size).parse T.consume context bytes).1.flatMap Chunk.data <+: bytes ∧
      ∀ c ∈ ((framer size).parse T.consume context bytes).1,
        c.data.length = c.header.size ∧ tcpUaHeaderLength < c.header.size ∧
          c.header.size ≤ size ∧ decodeTcpMsgHeader size c.data = .ok c.header := by
  refine Framer.parse_induction (framer size) T.consume (P := fun context bytes =>
    ((framer size).parse T.consume context bytes).1.flatMap Chunk.data <+: bytes ∧
      ∀ c ∈ ((framer size).parse T.consume context bytes).1,
        c.data.length = c.header.size ∧ tcpUaHeaderLength < c.header.size ∧
          c.header.size ≤ size ∧ decodeTcpMsgHeader size c.data = .ok c.header)
    (fun context bytes ih => ?_) context bytes
  cases hcut : (framer size).cut bytes with
  | more => rw [Framer.parse_more hcut]; exact ⟨ nil_prefix, fun c hc => nomatch hc⟩
  | bad e => rw [Framer.parse_bad hcut]; exact ⟨ nil_prefix, fun c hc => nomatch hc⟩
  | piece n c =>
    obtain ⟨-, hlen, hdec, rfl, hle, hdata⟩ := cutChunk_piece hcut
    obtain ⟨hmin, hmax⟩ := decodeTcpMsgHeader_size hdec
    have hlength : c.data.length = c.header.size := by rw [hdata, length_take, Nat.min_eq_left hle]
    have hheader : decodeTcpMsgHeader size c.data = .ok c.header := by
      rw [← hdec, ← decodeTcpMsgHeader_append (bytes.drop c.header.size) (by omega), hdata,
        take_append_drop]
    have hsplit : c.data ++ bytes.drop c.header.size = bytes := by rw [hdata, take_append_drop]
    cases hc : T.consume context c with
    | error e =>
      rw [Framer.parse_refused hcut hc]
      refine ⟨?_, fun d hd => ?_⟩
      · rw [flatMap_singleton]; exact ⟨_, hsplit⟩
      · rw [mem_singleton.mp hd]; exact ⟨hlength, hmin, hmax, hheader⟩
    | ok t =>
      obtain ⟨hpre, hall⟩ := ih _ c t hcut hc
      rw [Framer.parse_piece hcut hc]
      refine ⟨?_, fun d hd => ?_⟩
      · rw [flatMap_cons]
        conv_rhs => rw [← hsplit]
        exact (prefix_append_right_inj _).mpr hpre
      · rcases mem_cons.mp hd with rfl | hd
        · exact ⟨hlength, hmin, hmax, hheader⟩
        · exact hall d hd

theorem receive_without_buffer (T : Treatment σ) (context : σ) (segments : List (List UInt8)) :
    receive 0 T ⟨none, context⟩ segments = [] := by
  induction segments with
  | nil => rfl
  | cons segment segments ih =>
    have hnone : treatReceivedBuffer 0 T ⟨none, context⟩ segment = (⟨none, context⟩, []) := by
      cases segment with
      | nil => rfl
      | cons b bs => rfl
    rw [receive, hnone, nil_append]
    exact ih

def chunksOf (events : List Received) : List Chunk :=
  events.filterMap fun event =>
    match event with
    | .chunk c => some c
    | .failure _ => none

theorem chunksOf_eventsOf (r : Framer.Parsed UInt8 ChunkStatus Chunk σ) :
    chunksOf (eventsOf r) = r.1 := by
  rw [chunksOf, eventsOf, filterMap_append]
  cases h : r.2 <;> simp

def acceptAll : Treatment Unit := ⟨fun _ _ => ((), none), id⟩

end Channels
end S2OPC
