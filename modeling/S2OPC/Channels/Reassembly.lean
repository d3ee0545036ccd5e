import S2OPC.Channels.Framing

/-!
# S2OPC.Channels.Reassembly

The reassembly of messages: `SC_Chunks_CheckMultiChunkContext` and `SC_Chunks_TreatMsgMultiChunks`
of `sopc_chunks_mgr.c`. A chunk is its body here. The answer `none` stands for a failed assertion.
-/

namespace S2OPC
namespace Channels

open List

structure TcpProperties where
  receiveBufferSize : Nat
  receiveMaxMessageSize : Nat
  receiveMaxChunkCount : Nat
  sendBufferSize : Nat
  sendMaxMessageSize : Nat
  sendMaxChunkCount : Nat
  deriving DecidableEq, Repr

structure ChunkAllocs where
  list : Bool
  element : Bool
  merged : Bool
  deriving DecidableEq, Repr

def ChunkAllocs.all (allocs : ChunkAllocs) : Bool := allocs.list && allocs.element && allocs.merged

abbrev Intermediate := Option (List (List UInt8))

def Intermediate.bodies (inter : Intermediate) : List (List UInt8) := inter.getD []

def getNbIntermediateInputChunks (inter : Intermediate) : Nat := inter.bodies.length

def addIntermediateInputChunk (props : TcpProperties) (allocs : ChunkAllocs) (inter : Intermediate)
    (body : List UInt8) : Option Intermediate :=
  if inter = none ∧ allocs.list = false then none
  else if (inter.bodies.length < props.receiveMaxChunkCount ∨ props.receiveMaxChunkCount = 0) ∧
      allocs.element then
    some (some (inter.bodies ++ [body]))
  else none

def checkMultiChunkContext (props : TcpProperties) (inter : Intermediate) (isFinal : IsFinal) :
    Bool :=
  !decide (isFinal = .intermediate ∧ props.receiveMaxChunkCount ≠ 0 ∧
    props.receiveMaxChunkCount ≤ getNbIntermediateInputChunks inter + 1)

def totalSize (inter : Intermediate) (body : List UInt8) : Nat :=
  ((inter.bodies.map List.length).sum + body.length) % 2 ^ 32

def mergeChunks (size : Nat) : List UInt8 → List (List UInt8) → Option (List UInt8)
  | merged, [] => some merged
  | merged, body :: bodies =>
    match fillBuffer size merged 0 body size with
    | some (merged, [], _) => mergeChunks size merged bodies
    | _ => none

def mergeFinalChunk (allocs : ChunkAllocs) (size : Nat) (inter : Intermediate)
    (body : List UInt8) : Option (Except ChunkStatus (Intermediate × Option (List UInt8))) :=
  if getNbIntermediateInputChunks inter = 0 then some (.ok (inter, some body))
  else if size = 0 then none
  else if allocs.merged = false then some (.error .badOutOfMemory)
  else
    match mergeChunks size [] inter.bodies with
    | none => none
    | some merged =>
      match fillBuffer size merged 0 body size with
      | some (merged, [], 0) => some (.ok (some [], some merged))
      | _ => none

def treatMsgMultiChunks (props : TcpProperties) (allocs : ChunkAllocs) (inter : Intermediate)
    (isFinal : IsFinal) (body : List UInt8) :
    Option (Except ChunkStatus (Intermediate × Option (List UInt8))) :=
  match isFinal with
  | .intermediate =>
    if props.receiveMaxMessageSize < totalSize inter body then
      some (.error .badTcpMessageTooLarge)
    else
      match addIntermediateInputChunk props allocs inter body with
      | none => some (.error .badOutOfMemory)
      | some inter => some (.ok (inter, none))
  | .final =>
    if props.receiveMaxMessageSize < totalSize inter body then
      some (.error .badTcpMessageTooLarge)
    else mergeFinalChunk allocs (totalSize inter body) inter body
  -- the intermediate chunks are cleared before the merge, and the size is not computed
  | .abort => mergeFinalChunk allocs 0 none body

def treatBody (props : TcpProperties) (allocs : ChunkAllocs) (inter : Intermediate)
    (isFinal : IsFinal) (body : List UInt8) :
    Option (Except ChunkStatus (Intermediate × Option (List UInt8))) :=
  if checkMultiChunkContext props inter isFinal = false then some (.error .badTcpMessageTooLarge)
  else treatMsgMultiChunks props allocs inter isFinal body

structure LastChunk where
  allocs : ChunkAllocs
  aborted : Bool
  body : List UInt8

def LastChunk.isFinal (last : LastChunk) : IsFinal := if last.aborted then .abort else .final

/-- Intermediate chunks, and the last one: the message that is delivered, or the error that closes
the channel. -/
def receiveMessage (props : TcpProperties) :
    Intermediate → List (ChunkAllocs × List UInt8) → LastChunk →
      Option (Except ChunkStatus (List UInt8))
  | inter, [], last =>
    (treatBody props last.allocs inter last.isFinal last.body).map fun r =>
      r.map fun out => out.2.getD []
  | inter, (allocs, body) :: chunks, last =>
    match treatBody props allocs inter .intermediate body with
    | none => none
    | some (.error e) => some (.error e)
    | some (.ok (inter, _)) => receiveMessage props inter chunks last

def expectedMessage (bodies : List (List UInt8)) (last : LastChunk) : List UInt8 :=
  if last.aborted then last.body else bodies.flatten ++ last.body

def countedSize (bodies : List (List UInt8)) (last : LastChunk) : Nat :=
  bodies.flatten.length + if last.aborted then 0 else last.body.length

def Exceeds (props : TcpProperties) (bodies : List (List UInt8)) (last : LastChunk) : Prop :=
  props.receiveMaxChunkCount ≠ 0 ∧ props.receiveMaxChunkCount < bodies.length + 1 ∨
    props.receiveMaxMessageSize ≠ 0 ∧ props.receiveMaxMessageSize < countedSize bodies last

variable {size : Nat} {inter : Intermediate} {body : List UInt8} {allocs : List ChunkAllocs}

theorem fillBuffer_fits {data src : List UInt8} (h : (data ++ src).length ≤ size) :
    fillBuffer size data 0 src size = some (data ++ src, [], size - (data ++ src).length) := by
  have hdata : data.length ≤ 0 + size := by rw [length_append] at h; omega
  rw [fillBuffer_eq (Nat.zero_le _) hdata (by omega), Nat.zero_add, take_of_length_le h,
    drop_of_length_le h]

variable {bodies : List (List UInt8)} {props : TcpProperties} {last : LastChunk}

theorem mergeChunks_eq {merged : List UInt8}
    (h : (merged ++ bodies.flatten).length ≤ size) :
    mergeChunks size merged bodies = some (merged ++ bodies.flatten) := by
  induction bodies generalizing merged with
  | nil => rw [flatten_nil, append_nil]; rfl
  | cons body bodies ih =>
    rw [flatten_cons, ← append_assoc] at h ⊢
    have hfit : (merged ++ body).length ≤ size := by rw [length_append] at h; omega
    simp only [mergeChunks, fillBuffer_fits hfit]
    exact ih h

theorem totalSize_eq
    (h : inter.bodies.flatten.length + body.length < 2 ^ 32) :
    totalSize inter body = inter.bodies.flatten.length + body.length := by
  rw [totalSize, ← length_flatten, Nat.mod_eq_of_lt h]

theorem mergeFinalChunk_eq {allocs : ChunkAllocs}
    (hpos : inter.bodies ≠ [] → 0 < inter.bodies.flatten.length + body.length) :
    mergeFinalChunk allocs (inter.bodies.flatten.length + body.length) inter body =
        some (.error .badOutOfMemory) ∧ allocs.merged = false ∨
      ∃ inter', mergeFinalChunk allocs (inter.bodies.flatten.length + body.length) inter body =
        some (.ok (inter', some (inter.bodies.flatten ++ body))) := by
  by_cases hnil : inter.bodies = []
  · refine .inr ⟨inter, ?_⟩
    rw [mergeFinalChunk, getNbIntermediateInputChunks, hnil, if_pos length_nil]
    rfl
  · have hne : getNbIntermediateInputChunks inter ≠ 0 := by
      rw [getNbIntermediateInputChunks, ne_eq, length_eq_zero_iff]
      exact hnil
    have hsize := hpos hnil
    rw [mergeFinalChunk, if_neg hne, if_neg (by omega)]
    by_cases hmerged : allocs.merged = false
    · exact .inl ⟨if_pos hmerged, hmerged⟩
    refine .inr ⟨some [], ?_⟩
    have hlen : (inter.bodies.flatten ++ body).length =
        inter.bodies.flatten.length + body.length := length_append
    have hmerge : mergeChunks (inter.bodies.flatten.length + body.length) [] inter.bodies =
        some inter.bodies.flatten := by
      rw [mergeChunks_eq (by rw [nil_append]; omega), nil_append]
    have hfill : fillBuffer (inter.bodies.flatten.length + body.length) inter.bodies.flatten 0
        body (inter.bodies.flatten.length + body.length) =
          some (inter.bodies.flatten ++ body, [], 0) := by
      rw [fillBuffer_fits (by omega), hlen, Nat.sub_self]
    rw [if_neg hmerged]
    simp only [hmerge, hfill]

section

variable (props : TcpProperties) (allocs : ChunkAllocs) {inter : Intermediate} {body : List UInt8}

theorem treatBody_intermediate
    (hwrap : inter.bodies.flatten.length + body.length < 2 ^ 32) :
    treatBody props allocs inter .intermediate body = some (.error .badTcpMessageTooLarge) ∧
        (props.receiveMaxChunkCount ≠ 0 ∧
            props.receiveMaxChunkCount ≤ inter.bodies.length + 1 ∨
          props.receiveMaxMessageSize < inter.bodies.flatten.length + body.length) ∨
      treatBody props allocs inter .intermediate body = some (.error .badOutOfMemory) ∧
        allocs.all = false ∨
      treatBody props allocs inter .intermediate body =
          some (.ok (some (inter.bodies ++ [body]), none)) ∧
        (props.receiveMaxChunkCount ≠ 0 →
          inter.bodies.length + 1 < props.receiveMaxChunkCount) ∧
        inter.bodies.flatten.length + body.length ≤ props.receiveMaxMessageSize := by
  by_cases hcount : props.receiveMaxChunkCount ≠ 0 ∧
      props.receiveMaxChunkCount ≤ inter.bodies.length + 1
  · refine .inl ⟨?_, .inl hcount⟩
    rw [treatBody, if_pos]
    simpa [checkMultiChunkContext, getNbIntermediateInputChunks] using hcount
  have hcheck : checkMultiChunkContext props inter .intermediate = true := by
    simp [checkMultiChunkContext, getNbIntermediateInputChunks, hcount]
  have hbody : treatBody props allocs inter .intermediate body =
      treatMsgMultiChunks props allocs inter .intermediate body := by
    rw [treatBody, if_neg (by simp [hcheck])]
  rw [hbody, treatMsgMultiChunks, totalSize_eq hwrap]
  by_cases hsize : props.receiveMaxMessageSize < inter.bodies.flatten.length + body.length
  · exact .inl ⟨if_pos hsize, .inr hsize⟩
  rw [if_neg hsize]
  -- the list has room for the chunk, since its number was checked
  have hroom : inter.bodies.length < props.receiveMaxChunkCount ∨ props.receiveMaxChunkCount = 0 := by
    omega
  fun_cases addIntermediateInputChunk props allocs inter body with
  | case1 h => exact .inr (.inl ⟨rfl, by simp [ChunkAllocs.all, h]⟩)
  | case2 => exact .inr (.inr ⟨rfl, by omega, by omega⟩)
  | case3 _ h =>
    have helement : allocs.element = false := by simpa [hroom] using h
    exact .inr (.inl ⟨rfl, by simp [ChunkAllocs.all, helement]⟩)

theorem treatBody_abort : treatBody props allocs inter .abort body = some (.ok (none, some body)) :=
  rfl

theorem treatBody_final (hwrap : inter.bodies.flatten.length + body.length < 2 ^ 32)
    (hpos : inter.bodies ≠ [] → 0 < inter.bodies.flatten.length + body.length) :
    treatBody props allocs inter .final body = some (.error .badTcpMessageTooLarge) ∧
        props.receiveMaxMessageSize < inter.bodies.flatten.length + body.length ∨
      inter.bodies.flatten.length + body.length ≤ props.receiveMaxMessageSize ∧
        (treatBody props allocs inter .final body = some (.error .badOutOfMemory) ∧
            allocs.all = false ∨
          ∃ inter', treatBody props allocs inter .final body =
            some (.ok (inter', some (inter.bodies.flatten ++ body)))) := by
  have hbody : treatBody props allocs inter .final body =
      treatMsgMultiChunks props allocs inter .final body := rfl
  rw [hbody, treatMsgMultiChunks, totalSize_eq hwrap]
  by_cases hsize : props.receiveMaxMessageSize < inter.bodies.flatten.length + body.length
  · exact .inl ⟨if_pos hsize, hsize⟩
  refine .inr ⟨Nat.le_of_not_lt hsize, ?_⟩
  rw [if_neg hsize]
  rcases mergeFinalChunk_eq hpos with ⟨h, hmerged⟩ | h
  · refine .inl ⟨h, ?_⟩; rw [ChunkAllocs.all, hmerged, Bool.and_false]
  · exact .inr h

end

/-- The outcome of a message: it is delivered as expected within the limits, or refused because of
them or because memory is missing. -/
structure MessageOutcome (props : TcpProperties) (allocs : List ChunkAllocs)
    (bodies : List (List UInt8)) (last : LastChunk)
    (outcome : Option (Except ChunkStatus (List UInt8))) : Prop where
  defined : outcome ≠ none
  delivered : ∀ m, outcome = some (.ok m) →
    m = expectedMessage bodies last ∧ ¬ Exceeds props bodies last
  refused : ∀ e, outcome = some (.error e) →
    Exceeds props bodies last ∨ ∃ a ∈ allocs, a.all = false

structure Within (props : TcpProperties) (inter : Intermediate) : Prop where
  size : inter.bodies.flatten.length ≤ props.receiveMaxMessageSize
  count : props.receiveMaxChunkCount ≠ 0 → inter.bodies.length < props.receiveMaxChunkCount

theorem MessageOutcome.refuse {e : ChunkStatus}
    (h : Exceeds props bodies last ∨ ∃ a ∈ allocs, a.all = false) :
    MessageOutcome props allocs bodies last (some (.error e)) where
  defined := by simp
  delivered := by rintro m ⟨⟩
  refused := fun _ _ => h

theorem MessageOutcome.deliver {m : List UInt8}
    (hm : m = expectedMessage bodies last) (h : ¬ Exceeds props bodies last) :
    MessageOutcome props allocs bodies last (some (.ok m)) where
  defined := by simp
  delivered := by rintro _ ⟨⟩; exact ⟨hm, h⟩
  refused := by rintro e ⟨⟩

theorem receiveMessage_last (hlimit : props.receiveMaxMessageSize ≠ 0)
    (hwrap : last.body.length + props.receiveMaxMessageSize < 2 ^ 32)
    (hpos : last.aborted = false → inter.bodies ≠ [] →
      0 < inter.bodies.flatten.length + last.body.length) (hin : Within props inter) :
    MessageOutcome props [last.allocs] inter.bodies last (receiveMessage props inter [] last) := by
  have hsize := hin.size
  have hcount := hin.count
  cases haborted : last.aborted with
  | true =>
    have hlast : receiveMessage props inter [] last = some (.ok last.body) := by
      rw [receiveMessage, LastChunk.isFinal, haborted, if_pos rfl, treatBody_abort]
      rfl
    rw [hlast]
    refine MessageOutcome.deliver (by rw [expectedMessage, haborted, if_pos rfl]) ?_
    rintro (⟨hne, hlt⟩ | ⟨-, hlt⟩)
    · omega
    · rw [countedSize, haborted, if_pos rfl] at hlt; omega
  | false =>
    have hcounted : countedSize inter.bodies last =
        inter.bodies.flatten.length + last.body.length := by
      rw [countedSize, haborted, if_neg Bool.false_ne_true]
    rw [receiveMessage, LastChunk.isFinal, haborted, if_neg Bool.false_ne_true]
    rcases treatBody_final props last.allocs (by omega) (hpos haborted) with
      ⟨h, hlarge⟩ | ⟨hle, ⟨h, halloc⟩ | ⟨inter', h⟩⟩
    · rw [h]; exact MessageOutcome.refuse (.inl (.inr ⟨hlimit, by omega⟩))
    · rw [h]; exact MessageOutcome.refuse (.inr ⟨last.allocs, mem_singleton_self _, halloc⟩)
    rw [h]
    refine MessageOutcome.deliver ?_ ?_
    · rw [expectedMessage, haborted, if_neg Bool.false_ne_true]; rfl
    · rintro (⟨hne, hlt⟩ | ⟨-, hlt⟩)
      · omega
      · omega

theorem receiveMessage_spec (hlimit : props.receiveMaxMessageSize ≠ 0)
    (hlast : last.body.length + props.receiveMaxMessageSize < 2 ^ 32)
    {chunks : List (ChunkAllocs × List UInt8)} :
    ∀ {inter : Intermediate}, Within props inter →
      (∀ c ∈ chunks, c.2.length + props.receiveMaxMessageSize < 2 ^ 32) →
      (last.aborted = false → inter.bodies ++ chunks.map Prod.snd ≠ [] →
        0 < (inter.bodies ++ chunks.map Prod.snd).flatten.length + last.body.length) →
      MessageOutcome props (chunks.map Prod.fst ++ [last.allocs])
        (inter.bodies ++ chunks.map Prod.snd) last (receiveMessage props inter chunks last) := by
  induction chunks with
  | nil =>
    intro inter hin _ hpos; simp only [map_nil, append_nil, nil_append] at hpos ⊢
    exact receiveMessage_last hlimit hlast hpos hin
  | cons chunk chunks ih =>
    intro inter hin hwrap hpos; obtain ⟨allocs, body⟩ := chunk
    have hsize := hin.size
    have hbody := hwrap (allocs, body) mem_cons_self
    simp only at hbody
    have hflat : (inter.bodies ++ ((allocs, body) :: chunks).map Prod.snd).flatten.length =
        inter.bodies.flatten.length + body.length + (chunks.map Prod.snd).flatten.length := by
      rw [map_cons, flatten_append, flatten_cons, length_append, length_append, Nat.add_assoc]
    have hlength : (inter.bodies ++ ((allocs, body) :: chunks).map Prod.snd).length =
        inter.bodies.length + 1 + chunks.length := by
      simp; omega
    rcases treatBody_intermediate props allocs
      (show inter.bodies.flatten.length + body.length < 2 ^ 32 by omega) with ⟨h, hlarge⟩ | ⟨h, halloc⟩ | ⟨h, hcount, hle⟩
    · simp only [receiveMessage, h]
      refine MessageOutcome.refuse (.inl ?_)
      rcases hlarge with ⟨hne, hlarge⟩ | hlarge
      · exact .inl ⟨hne, by omega⟩
      · refine .inr ⟨hlimit, ?_⟩; rw [countedSize, hflat]; omega
    · simp only [receiveMessage, h]
      exact MessageOutcome.refuse (.inr ⟨allocs, mem_cons_self, halloc⟩)
    · have hbodies : Intermediate.bodies (some (inter.bodies ++ [body])) ++ chunks.map Prod.snd =
          inter.bodies ++ ((allocs, body) :: chunks).map Prod.snd := by
        exact append_assoc _ _ _
      have hnext : Within props (some (inter.bodies ++ [body])) := by
        refine ⟨?_, fun hne => ?_⟩
        · show (inter.bodies ++ [body]).flatten.length ≤ _
          rw [flatten_append, length_append, flatten_singleton]
          exact hle
        · show (inter.bodies ++ [body]).length < _; rw [length_append]; exact hcount hne
      have hrest := ih hnext (fun c hc => hwrap c (mem_cons_of_mem _ hc)) (by rwa [hbodies])
      rw [hbodies] at hrest
      simp only [receiveMessage, h]
      refine ⟨hrest.defined, hrest.delivered, fun e he => ?_⟩
      rcases hrest.refused e he with hex | ⟨a, ha, hall⟩
      · exact .inl hex
      · exact .inr ⟨a, mem_cons_of_mem _ ha, hall⟩

/-- A message of any chunks is delivered as expected or closes the channel, without a failed
assertion; it is refused exactly when a limit is exceeded or memory is missing. -/
theorem message_reassembled (props : TcpProperties) (chunks : List (ChunkAllocs × List UInt8))
    (last : LastChunk) (hlimit : props.receiveMaxMessageSize ≠ 0)
    (hwrap : ∀ body ∈ last.body :: chunks.map Prod.snd,
      body.length + props.receiveMaxMessageSize < 2 ^ 32)
    (hempty : last.aborted = false → chunks ≠ [] →
      (chunks.map Prod.snd).flatten ++ last.body ≠ []) :
    MessageOutcome props (chunks.map Prod.fst ++ [last.allocs]) (chunks.map Prod.snd) last
      (receiveMessage props none chunks last) := by
  have hin : Within props none := ⟨Nat.zero_le _, fun hne => Nat.pos_of_ne_zero hne⟩
  refine receiveMessage_spec hlimit (hwrap _ mem_cons_self) hin ?_ ?_
  · intro c hc; exact hwrap _ (mem_cons_of_mem _ (mem_map_of_mem hc))
  · intro haborted hne; have hbytes := hempty haborted (by simpa [Intermediate.bodies] using hne)
    rw [← length_append]
    exact length_pos_of_ne_nil hbytes

def memory : ChunkAllocs := ⟨true, true, true⟩

def smallLimits : TcpProperties := ⟨8192, 100, 3, 8192, 100, 3⟩

theorem three_chunks_reassembled :
    receiveMessage smallLimits none [(memory, [1, 2]), (memory, [])] ⟨memory, false, [3]⟩ =
        some (.ok [1, 2, 3]) ∧
      MessageOutcome smallLimits [memory, memory, memory] [[1, 2], []] ⟨memory, false, [3]⟩
        (receiveMessage smallLimits none [(memory, [1, 2]), (memory, [])] ⟨memory, false, [3]⟩) :=
  ⟨by decide,
    message_reassembled smallLimits [(memory, [1, 2]), (memory, [])] ⟨memory, false, [3]⟩
      (by decide) (by decide) (by decide)⟩

/-- An abort chunk is delivered without the chunks before it, and does not close the channel. Empty
bodies run into an assertion, and without a limit for the size a message is refused. -/
theorem abort_replaces_chunks :
    receiveMessage smallLimits none [(memory, [1])] ⟨memory, true, [2]⟩ = some (.ok [2]) ∧
      receiveMessage smallLimits none [(memory, [])] ⟨memory, false, []⟩ = none ∧
      receiveMessage { smallLimits with receiveMaxMessageSize := 0 } none [] ⟨memory, false, [1]⟩ =
        some (.error .badTcpMessageTooLarge) := by
  decide

end Channels
end S2OPC
