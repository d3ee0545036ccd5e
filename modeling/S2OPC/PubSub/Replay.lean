import S2OPC.Lib.Codec
import S2OPC.Lib.SerialNumber

/-!
# S2OPC.PubSub.Replay

The protection of a subscriber against replayed messages: `Decode_SecurityHeader` of
`sopc_network_layer.c`. The sequence number is stored as soon as it has been found newer, even if the
payload can then not be decrypted.
-/

namespace S2OPC
namespace PubSub

open Option

open Codec (ofLeBytes)
open SerialNumber (Newer advance not_newer_of_advance_lt)

inductive SecuredMode where
  | sign
  | signAndEncrypt

structure SecurityContext (K : Type) where
  mode : SecuredMode
  groupKeys : K
  sequenceNumber : BitVec 32

def SecurityContext.create {K : Type} (mode : SecuredMode) (groupKeys : K) : SecurityContext K :=
  ⟨mode, groupKeys, 0⟩

/-- `SOPC_PubSub_Security_Verify`, on the buffer and the position of the message in it, and
`SOPC_PubSub_Security_Decrypt`, on the nonce, the sequence number, and the payload with its
signature. -/
structure Provider (K : Type) where
  verify : K → List UInt8 → Nat → Bool
  decrypt : K → List UInt8 → BitVec 32 → List UInt8 → Option (List UInt8)

/-- A message for the group with security: the bytes of the buffer before the security header and from
there on. -/
structure SecuredMessage where
  front : List UInt8
  payloadPosition : Nat
  rest : List UInt8

inductive SecurityError where
  | readByteFailed | unsupportedSecurityFooterReset | readIntFailed | readSecurityConfFailed
  | readSecuritySignFailed | readSecurityNonceFailed | readSeqNumFailed | readSecurityDecryptFailed
  deriving DecidableEq

def readBytes (n : Nat) (e : SecurityError) (bytes : List UInt8) :
    Except SecurityError (List UInt8 × List UInt8) :=
  if n ≤ bytes.length then .ok (bytes.take n, bytes.drop n) else .error e

structure SecurityHeader where
  isEncrypted : Bool
  nonce : List UInt8
  sequenceNumber : BitVec 32
  payload : List UInt8

def defaultTokenId : Nat := 1

def checkReceivedSecurityMode : SecuredMode → Bool → Bool → Bool
  | .sign, isSigned, isEncrypted => isSigned && !isEncrypted
  | .signAndEncrypt, isSigned, isEncrypted => isSigned && isEncrypted

def nonceRead (isEncrypted : Bool) (rest : List UInt8) : Except SecurityError SecurityHeader :=
  (readBytes 1 .readByteFailed rest).bind fun (length, rest) =>
    if ofLeBytes length ≠ 8 then .error .readSecurityNonceFailed
    else
      (readBytes 4 .readByteFailed rest).bind fun (nonce, rest) =>
        (readBytes 4 .readSeqNumFailed rest).bind fun (number, rest) =>
          .ok ⟨isEncrypted, nonce, .ofNat 32 (ofLeBytes number), rest⟩

section Reception

variable {K : Type} (P : Provider K)

def securityHeaderRead (mode : SecuredMode) (keys : K) (m : SecuredMessage) :
    Except SecurityError SecurityHeader :=
  (readBytes 1 .readByteFailed m.rest).bind fun (flags, rest) =>
    let isSigned := (ofLeBytes flags).testBit 0
    let isEncrypted := (ofLeBytes flags).testBit 1
    if (ofLeBytes flags).testBit 2 ∨ (ofLeBytes flags).testBit 3 then
      .error .unsupportedSecurityFooterReset
    else
      (readBytes 4 .readIntFailed rest).bind fun (tokenId, rest) =>
        if ofLeBytes tokenId ≠ defaultTokenId ∨
            checkReceivedSecurityMode mode isSigned isEncrypted = false then
          .error .readSecurityConfFailed
        else if isSigned ∧ P.verify keys (m.front ++ m.rest) m.payloadPosition = false then
          .error .readSecuritySignFailed
        else nonceRead isEncrypted rest

/-- `Network_Layer_Is_Sequence_Number_Newer`, in 64-bit arithmetic. -/
def isSequenceNumberNewer (received processed : BitVec 32) : Bool :=
  (4294967295 + received.toNat - processed.toNat) % (4294967295 + 1) < 1073741824

def SecurityHeader.clearPayload (h : SecurityHeader) (keys : K) :
    Except SecurityError (List UInt8) :=
  if h.isEncrypted then
    (P.decrypt keys h.nonce h.sequenceNumber h.payload).elim (.error .readSecurityDecryptFailed) .ok
  else .ok h.payload

def receive (ctx : SecurityContext K) (m : SecuredMessage) :
    SecurityContext K × Except SecurityError (List UInt8) :=
  match securityHeaderRead P ctx.mode ctx.groupKeys m with
  | .error e => (ctx, .error e)
  | .ok h =>
    if isSequenceNumberNewer h.sequenceNumber ctx.sequenceNumber then
      ({ ctx with sequenceNumber := h.sequenceNumber }, h.clearPayload P ctx.groupKeys)
    else (ctx, .error .readSeqNumFailed)

/-- The number of a message that passes the signature and sequence number checks. -/
def accepted (ctx : SecurityContext K) (m : SecuredMessage) : Option (BitVec 32) :=
  match securityHeaderRead P ctx.mode ctx.groupKeys m with
  | .error _ => none
  | .ok h =>
    if isSequenceNumberNewer h.sequenceNumber ctx.sequenceNumber then some h.sequenceNumber else none

def run (ctx : SecurityContext K) (ms : List SecuredMessage) : SecurityContext K :=
  ms.foldl (fun c m => (receive P c m).1) ctx

def acceptedNumbers : SecurityContext K → List SecuredMessage → List (BitVec 32)
  | _, [] => []
  | ctx, m :: ms => (accepted P ctx m).toList ++ acceptedNumbers (receive P ctx m).1 ms

variable {P} {ctx : SecurityContext K} {m : SecuredMessage} {n : BitVec 32}

theorem isSequenceNumberNewer_iff (received processed : BitVec 32) :
    isSequenceNumberNewer received processed = true ↔ Newer (2 ^ 30) processed received := by
  simp only [isSequenceNumberNewer, Newer, SerialNumber.ahead, BitVec.toNat_sub, decide_eq_true_eq]
  omega

theorem accepted_eq_some_iff : accepted P ctx m = some n ↔
    ∃ h, securityHeaderRead P ctx.mode ctx.groupKeys m = .ok h ∧ h.sequenceNumber = n ∧
      Newer (2 ^ 30) ctx.sequenceNumber n := by
  unfold accepted
  cases securityHeaderRead P ctx.mode ctx.groupKeys m with
  | error e => simp
  | ok h =>
    simp only [ite_none_right_eq_some, isSequenceNumberNewer_iff, some.injEq,
      Except.ok.injEq, exists_eq_left']
    constructor
    · rintro ⟨hnewer, rfl⟩; exact ⟨rfl, hnewer⟩
    · rintro ⟨rfl, hnewer⟩; exact ⟨hnewer, rfl⟩

theorem receive_fst : (receive P ctx m).1 =
    { ctx with sequenceNumber := (accepted P ctx m).getD ctx.sequenceNumber } := by
  unfold receive accepted
  cases securityHeaderRead P ctx.mode ctx.groupKeys m with
  | error e => rfl
  | ok h =>
    dsimp only
    split_ifs <;> rfl

theorem accepted_of_not_verified
    (h : P.verify ctx.groupKeys (m.front ++ m.rest) m.payloadPosition = false) :
    accepted P ctx m = none := by
  rw [eq_none_iff_forall_ne_some]
  intro n hn; obtain ⟨header, hread, -⟩ := accepted_eq_some_iff.mp hn
  unfold securityHeaderRead at hread
  cases hflags : readBytes 1 .readByteFailed m.rest with
  | error e => simp [hflags, Except.bind] at hread
  | ok flags =>
    simp only [hflags, Except.bind, h, and_true] at hread
    split at hread
    · cases hread
    cases htoken : readBytes 4 .readIntFailed flags.2 with
    | error e => simp [htoken] at hread
    | ok tokenId =>
      simp only [htoken] at hread
      split at hread
      · cases hread
      have hsigned : (ofLeBytes flags.1).testBit 0 = true := by
        cases hm : ctx.mode <;> simp_all [checkReceivedSecurityMode]
      rw [if_pos hsigned] at hread
      cases hread

theorem run_cons (ms : List SecuredMessage) :
    run P ctx (m :: ms) = run P (receive P ctx m).1 ms := rfl

theorem run_eq (ms : List SecuredMessage) : run P ctx ms =
    { ctx with sequenceNumber := (acceptedNumbers P ctx ms).getLastD ctx.sequenceNumber } := by
  induction ms generalizing ctx with
  | nil => rfl
  | cons m ms ih =>
    rw [run_cons, ih, acceptedNumbers, receive_fst]
    cases accepted P ctx m with
    | none => rfl
    | some n => rw [toList_some, List.singleton_append, List.getLastD_cons, getD_some]

theorem isChain_acceptedNumbers (ms : List SecuredMessage) :
    List.IsChain (Newer (2 ^ 30)) (ctx.sequenceNumber :: acceptedNumbers P ctx ms) := by
  induction ms generalizing ctx with
  | nil => exact .singleton _
  | cons m ms ih =>
    have hrest := @ih (receive P ctx m).1
    rw [receive_fst] at hrest
    rw [acceptedNumbers, receive_fst]
    cases hm : accepted P ctx m with
    | none => simpa [hm] using hrest
    | some n =>
      obtain ⟨-, -, -, hnewer⟩ := accepted_eq_some_iff.mp hm
      rw [hm] at hrest
      exact .cons_cons hnewer hrest

theorem not_accepted_again (hm : accepted P ctx m = some n) (later : List SecuredMessage)
    (hlater : advance n (acceptedNumbers P (receive P ctx m).1 later) < 3 * 2 ^ 30) :
    accepted P (run P (receive P ctx m).1 later) m = none := by
  rw [eq_none_iff_forall_ne_some]
  intro n' hn'; obtain ⟨h, hread, hnumber, -⟩ := accepted_eq_some_iff.mp hm
  obtain ⟨h', hread', hnumber', hnewer⟩ := accepted_eq_some_iff.mp hn'
  have hfst : (receive P ctx m).1 = { ctx with sequenceNumber := n } := by
    rw [receive_fst, hm, getD_some]
  rw [run_eq, hfst] at hread' hnewer
  rw [hfst] at hlater
  obtain rfl : h = h' := Except.ok.inj (hread.symm.trans hread')
  rw [← hnumber', hnumber] at hnewer
  have hturn : advance n (acceptedNumbers P { ctx with sequenceNumber := n } later) + 2 ^ 30 <
      2 ^ 32 := by omega
  exact not_newer_of_advance_lt hturn hnewer

/-- From the creation of the context on, the numbers of the messages accepted are each newer than the
one before, a message without a valid signature leaves the stored number, and a message that was
accepted is not accepted again before the numbers have advanced by three quarters of their range. -/
theorem replay_protected (P : Provider K) (mode : SecuredMode) (keys : K)
    (ms : List SecuredMessage) :
    List.IsChain (Newer (2 ^ 30)) (acceptedNumbers P (.create mode keys) ms) ∧
      let ctx := run P (.create mode keys) ms
      ∀ m, (P.verify keys (m.front ++ m.rest) m.payloadPosition = false →
          (receive P ctx m).1.sequenceNumber = ctx.sequenceNumber) ∧
        ∀ n, accepted P ctx m = some n → ∀ later,
          advance n (acceptedNumbers P (receive P ctx m).1 later) < 3 * 2 ^ 30 →
          accepted P (run P (receive P ctx m).1 later) m = none := by
  refine ⟨(isChain_acceptedNumbers ms).tail, fun m => ⟨fun hverify => ?_, fun n hn later => ?_⟩⟩
  · have hkeys : (run P (.create mode keys) ms).groupKeys = keys := by rw [run_eq]; rfl
    rw [← hkeys] at hverify
    rw [receive_fst, accepted_of_not_verified hverify, getD_none]
  · exact not_accepted_again hn later

end Reception

end PubSub
end S2OPC
