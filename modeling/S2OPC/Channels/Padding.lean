import S2OPC.Channels.SendRun

/-!
# S2OPC.Channels.Padding

The padding of a chunk against its removal by the receiver. The receiver expects an extra padding size
where a flag of its connection says so. The flag is set for asymmetric messages and at once overwritten
for symmetric ones, so it is never set.
-/

namespace S2OPC
namespace Channels

open List

open BodySize (CryptoSizes RsaKey SecurityPolicy getSendingCryptoSizes)

theorem symmetric_noExtra {policy : SecurityPolicy} (sender receiver : RsaKey policy)
    (mode : SecurityMode) :
    (getSendingCryptoSizes sender receiver mode true).hasExtraPaddingSize = false := by
  cases mode with
  | none => rfl
  | sign => rfl
  | signAndEncrypt => rfl

variable {symmetric : CryptoSizes}

theorem SizesSet.noExtra (hsymmetric : symmetric.hasExtraPaddingSize = false) {s s' : OpnSender}
    (h : s.SizesSet symmetric s') (hs : s.hasExtraPaddingSize = false) :
    s'.hasExtraPaddingSize = false := by
  rw [h.flag]
  split
  · exact hsymmetric
  · exact hs

theorem opn_noExtra (hsymmetric : symmetric.hasExtraPaddingSize = false) {s : OpnSender}
    (hs : s.hasExtraPaddingSize = false) (a : OpnAttempt) :
    (treatSendBufferOPN a.headers symmetric a.crypto a.env s a.requestIdOrHandle
      a.body).1.hasExtraPaddingSize = false := by
  rcases treatSendBufferOPN_cases a.headers symmetric a.crypto a.env s a.requestIdOrHandle a.body with
    ⟨-, status, hr⟩ | ⟨-, s₁, hset, hr⟩
  · rw [hr]; exact hs
  have hs₁ := SizesSet.noExtra hsymmetric hset hs
  rcases hr with ⟨status, hr⟩ | ⟨security, z, size, -, -, -, hr⟩
  · rw [hr]; exact hs₁
  rw [hr]
  rcases sendOpn_cases a.crypto a.env s₁ a.requestIdOrHandle security
      (a.body ++ opnPadding a.crypto s.mode z a.body) size with
    ⟨status, hsend⟩ | ⟨sender, bytes, hsend, -⟩
  · rw [hsend]; exact hs₁
  · rw [hsend]; exact hs₁

theorem step_noExtra (hsymmetric : symmetric.hasExtraPaddingSize = false) {c : Channel}
    (hc : c.sender.hasExtraPaddingSize = false) (e : SendEvent) :
    (c.step symmetric e).1.sender.hasExtraPaddingSize = false := by
  unfold Channel.step
  cases c.phase with
  | closed => exact hc
  | closing => cases e <;> exact hc
  | opened =>
    cases e with
    | opn a =>
      have hopn := opn_noExtra hsymmetric hc a
      dsimp only
      unfold Channel.sendOpn
      rcases hr : treatSendBufferOPN a.headers symmetric a.crypto a.env c.sender a.requestIdOrHandle
        a.body with ⟨s, status | bytes⟩ <;>
      · rw [hr] at hopn; exact hopn
    | msg m =>
      unfold Channel.sendMsg
      dsimp only
      cases (treatSendMessageBuffer m.keys m.env m.abortEnv m.abortBody c.sender.toSender
        m.requestIdOrHandle .msg m.body).2.2 <;> exact hc
    | clo m =>
      dsimp only
      split <;> exact hc
    | _ => exact hc

theorem run_noExtra (hsymmetric : symmetric.hasExtraPaddingSize = false) (events : List SendEvent) :
    ∀ {c : Channel}, c.sender.hasExtraPaddingSize = false →
      (c.run symmetric events).1.sender.hasExtraPaddingSize = false := by
  induction events with
  | nil => exact fun hc => hc
  | cons e events ih => exact fun hc => ih (step_noExtra hsymmetric hc e)

theorem paddingSize_small {keys : SendKeys} (h : keys.plainBlockSize ≤ 256) (n : Nat) :
    getPaddingSize keys n < 256 := by
  by_cases hpos : 0 < keys.plainBlockSize
  · exact (paddingSize_lt hpos n).trans_le h
  · have hzero : keys.plainBlockSize = 0 := by omega
    simp [getPaddingSize, hzero]

theorem removePadding_noExtra {q : Secured} (hdec : q.toDecrypt = true)
    (hflag : q.conn.hasExtraPaddingSize = false) :
    removePadding q = (removePaddingBytes q.buffer 0).bind fun b => .ok { q with buffer := b } := by
  unfold removePadding
  rw [hdec, if_neg (by decide), hflag]
  rfl

theorem removePaddingBytes_length {b b' : ChunkBuffer} (h : removePaddingBytes b 0 = .ok b') :
    b'.data.length + lastByte b.data + 1 = b.data.length ∧ b'.position = b.position := by
  unfold removePaddingBytes ChunkBuffer.length ChunkBuffer.setDataLength at h
  dsimp only at h
  split at h
  · cases h
  split at h
  · cases h
  · rename_i b₁ hset; cases h
    split at hset
    · cases hset; refine ⟨?_, rfl⟩; rw [length_take]; omega
    · cases hset

section

variable {keys : SendKeys} {n : Nat} {q : Secured} {before body : List UInt8}
  (hdec : q.toDecrypt = true) (hflag : q.conn.hasExtraPaddingSize = false)
  (hdata : q.buffer.data = before ++ body ++ encodePadding keys n)
  (hpos : q.buffer.position = before.length)

include hdec hflag hdata hpos

theorem removePadding_small (h : keys.plainBlockSize ≤ 256) :
    ∃ q', removePadding q = .ok q' ∧ q'.buffer.remaining = body := by
  have hsize := paddingSize_small h n
  have hextra : isExtraPaddingSizePresent keys.plainBlockSize = false := by
    simpa [isExtraPaddingSizePresent] using h
  have hlow : (UInt8.ofNat (getPaddingSize keys n % 256)).toNat = getPaddingSize keys n % 256 := by
    rw [UInt8.toNat_ofNat']
    omega
  simp only [encodePadding, hextra, Bool.false_eq_true, if_false, append_nil] at hdata
  have hfront : q.buffer.position ≤ (before ++ body).length := by rw [hpos, length_append]; omega
  obtain ⟨b, hremove, hb, hbpos⟩ := @removePaddingBytes_sent q.buffer
    (getPaddingSize keys n) (before ++ body) 0 _ hlow hdata hfront (by omega)
  refine ⟨{ q with buffer := b }, ?_, ?_⟩
  · rw [removePadding_noExtra hdec hflag, hremove]; rfl
  · rw [ChunkBuffer.remaining, hb, hbpos, hpos, drop_left]

theorem removePadding_large (h : 256 < keys.plainBlockSize) {q' : Secured}
    (hremove : removePadding q = .ok q') : q'.buffer.remaining ≠ body := by
  have hextra : isExtraPaddingSizePresent keys.plainBlockSize = true := by
    simpa [isExtraPaddingSizePresent] using h
  set size := getPaddingSize keys n with hsize
  have hlength := length_encodePadding keys n
  have hlast : lastByte q.buffer.data ≤ size := by
    have hsplit : q.buffer.data = (before ++ body ++ (UInt8.ofNat (size % 256) ::
        List.replicate size (UInt8.ofNat (size % 256)))) ++ [UInt8.ofNat (size / 256)] := by
      simp [hdata, encodePadding, hextra, ← hsize]
    rw [hsplit, lastByte_append_singleton, UInt8.toNat_ofNat']
    omega
  rw [removePadding_noExtra hdec hflag] at hremove
  cases hr : removePaddingBytes q.buffer 0 with
  | fault f => rw [hr] at hremove; cases hremove
  | reject status => rw [hr] at hremove; cases hremove
  | ok b =>
    rw [hr] at hremove
    cases hremove; obtain ⟨hleft, hbpos⟩ := removePaddingBytes_length hr
    intro hbody; have hcount := congrArg List.length hbody
    simp only [ChunkBuffer.remaining, length_drop, hbpos, hpos] at hcount
    rw [hdata, length_append, length_append, hlength, ← hsize] at hleft
    simp only [paddingSizeFields, hextra, if_true] at hleft
    rw [hdata] at hlast
    omega

end

/-- The padding of a chunk is undone exactly for plain blocks of at most 256 bytes, whatever the
receiver sent before. -/
theorem padding_undone_iff {policy : SecurityPolicy} (sender receiver : RsaKey policy)
    (mode : SecurityMode) {c : Channel} (hfresh : c.sender.hasExtraPaddingSize = false)
    (events : List SendEvent) (keys : SendKeys) (n : Nat) {q : Secured} {before body : List UInt8}
    (hconn : q.conn.hasExtraPaddingSize =
      (c.run (getSendingCryptoSizes sender receiver mode true) events).1.sender.hasExtraPaddingSize)
    (hdec : q.toDecrypt = true)
    (hdata : q.buffer.data = before ++ body ++ encodePadding keys n)
    (hpos : q.buffer.position = before.length) :
    (∃ q', removePadding q = .ok q' ∧ q'.buffer.remaining = body) ↔ keys.plainBlockSize ≤ 256 := by
  have hflag : q.conn.hasExtraPaddingSize = false :=
    hconn.trans (run_noExtra (symmetric_noExtra sender receiver mode) events hfresh)
  constructor
  · rintro ⟨q', hremove, hbody⟩; by_contra hlarge
    exact removePadding_large hdec hflag hdata hpos (Nat.not_le.mp hlarge) hremove hbody
  · exact removePadding_small hdec hflag hdata hpos

def rsaKeys (keyLength : Nat) : SendKeys where
  plainBlockSize := keyLength - 42
  cipherBlockSize := keyLength
  signatureSize := keyLength
  encryptedLength := some
  sign := fun _ data => some data
  encrypt := fun _ data => some data

def freshServer : Channel where
  sender :=
    { isServer := true
      mode := .sign
      currentToken := ⟨0, 0⟩
      precedentToken := ⟨0, 0⟩
      serverNewSecuTokenActive := false
      lastSNsent := 0
      clientNextReqId := 0
      symmSecuMaxBodySize := 0
      sentRequests := []
      props := ⟨8192, 65536, 5, 8192, 65536, 5⟩
      asymmSecuMaxBodySize := 0
      hasExtraPaddingSize := false }
  phase := .opened

def firstOpn (keyLength : Nat) : Secured where
  conn :=
    { signConnection with
      connected := false
      currentToken := ⟨0, 0⟩
      serverNewSecuTokenActive := false
      lastSNreceived := 0 }
  header := ⟨.opn, .final, 4096⟩
  buffer := ⟨[1, 2, 3] ++ encodePadding (rsaKeys keyLength) 11, 0, Nat.zero_le _⟩
  symmetric := false
  isPrevCryptoData := false
  toDecrypt := true
  toCheckSignature := true
  sequenceHeader := true
  requestIdOrHandle := 1
  ignoreExpiredMessage := false

def rsa2048 : RsaKey .basic256Sha256 := ⟨2048, by decide, by decide⟩

theorem padding_undone_2048 :
    ∃ q', removePadding (firstOpn 256) = .ok q' ∧ q'.buffer.remaining = [1, 2, 3] :=
  (@padding_undone_iff _ rsa2048 rsa2048 .sign freshServer rfl [] (rsaKeys 256) 11
    (firstOpn 256) [] [1, 2, 3] rfl rfl rfl rfl).mpr (by decide)

/-- A key of 4096 bits: 415 bytes of padding are left behind the body. -/
theorem padding_left_4096 :
    ∃ q', removePadding (firstOpn 512) = .ok q' ∧
      q'.buffer.remaining = [1, 2, 3] ++ List.replicate 415 159 := by
  have hlast : lastByte (firstOpn 512).buffer.data = 1 := rfl
  have hlength : (firstOpn 512).buffer.length = 420 := by decide +kernel
  have hdata : (firstOpn 512).buffer.data =
      ([1, 2, 3] ++ List.replicate 415 159) ++ [159, 1] := by decide +kernel
  obtain ⟨b, hset, hb, hbpos⟩ := ChunkBuffer.setDataLength_of hdata (Nat.zero_le _)
  refine ⟨{ firstOpn 512 with buffer := b }, ?_, ?_⟩
  · rw [removePadding_noExtra rfl rfl, removePaddingBytes, hlast, hlength]
    rw [length_append, length_replicate] at hset
    have hcut : (firstOpn 512).buffer.setDataLength (420 - (0 + 1 + 1)) = some b := hset
    rw [hcut]
    rfl
  · rw [ChunkBuffer.remaining, hb, hbpos]; rfl

end Channels
end S2OPC
