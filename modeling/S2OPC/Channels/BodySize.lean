import S2OPC.Channels.Send
import S2OPC.Lib.Blocks

/-!
# S2OPC.Channels.BodySize

The maximum size of a body, `SC_Chunks_ComputeMaxBodySize`, in the `uint32_t` arithmetic of the
source, and the sizes of the chunk that is built from a body: padding, plain text, cipher text and
message.
-/

namespace S2OPC
namespace Channels
namespace BodySize

open Bool Blocks

inductive SecurityPolicy where
  | basic256
  | basic256Sha256
  | aes128Sha256RsaOaep
  | aes256Sha256RsaPss
  deriving DecidableEq, Repr

namespace SecurityPolicy

def keyMinBits : SecurityPolicy → Nat
  | basic256 => 1024
  | _ => 2048

def keyMaxBits : SecurityPolicy → Nat
  | basic256 => 2048
  | _ => 4096

def oaepHashLength : SecurityPolicy → Nat
  | aes256Sha256RsaPss => 32
  | _ => 20

def symmSignature : SecurityPolicy → Nat
  | basic256 => 20
  | _ => 32

end SecurityPolicy

structure RsaKey (policy : SecurityPolicy) where
  bits : Nat
  min_le : policy.keyMinBits ≤ bits
  le_max : bits ≤ policy.keyMaxBits

namespace RsaKey

variable {policy : SecurityPolicy}

def length (key : RsaKey policy) : Nat := (key.bits + 7) / 8

def plainText (key : RsaKey policy) : Nat := key.length - (2 * policy.oaepHashLength + 2)

theorem length_bounds (key : RsaKey policy) : 128 ≤ key.length ∧ key.length ≤ 512 := by
  have hmin := key.min_le
  have hmax := key.le_max
  unfold length
  cases policy <;> simp only [SecurityPolicy.keyMinBits, SecurityPolicy.keyMaxBits] at hmin hmax <;>
    omega

theorem plainText_bounds (key : RsaKey policy) : 0 < key.plainText ∧ key.plainText ≤ 512 := by
  obtain ⟨hmin, hmax⟩ := key.length_bounds
  unfold plainText
  cases policy <;> simp only [SecurityPolicy.oaepHashLength] <;> omega

end RsaKey

structure CryptoSizes where
  symmetric : Bool
  toEncrypt : Bool
  toSign : Bool
  signatureSize : UInt32
  cipherBlockSize : UInt32
  plainBlockSize : UInt32
  plain_pos : toEncrypt = true → 0 < plainBlockSize.toNat
  plain_small : toEncrypt = true → plainBlockSize.toNat ≤ 2 ^ 16
  plain_le : toEncrypt = true → plainBlockSize.toNat ≤ cipherBlockSize.toNat
  plain_eq : toEncrypt = true → symmetric = true → cipherBlockSize = plainBlockSize

variable {policy : SecurityPolicy}

theorem toNat_ofNat_length (key : RsaKey policy) :
    (UInt32.ofNat key.length).toNat = key.length := by
  have := key.length_bounds; exact UInt32.toNat_ofNat_of_lt (by rw [UInt32.size]; omega)

theorem toNat_ofNat_plainText (key : RsaKey policy) :
    (UInt32.ofNat key.plainText).toNat = key.plainText := by
  have := key.plainText_bounds; exact UInt32.toNat_ofNat_of_lt (by rw [UInt32.size]; omega)

def noSecurity (symmetric : Bool) : CryptoSizes where
  symmetric := symmetric
  toEncrypt := false
  toSign := false
  signatureSize := 0
  cipherBlockSize := 0
  plainBlockSize := 0
  plain_pos := fun h => absurd h false_ne_true
  plain_small := fun h => absurd h false_ne_true
  plain_le := fun h => absurd h false_ne_true
  plain_eq := fun h => absurd h false_ne_true

theorem asymmetric_pos (key : RsaKey policy) : 0 < (UInt32.ofNat key.plainText).toNat := by
  rw [toNat_ofNat_plainText]; exact key.plainText_bounds.1

theorem asymmetric_small (key : RsaKey policy) : (UInt32.ofNat key.plainText).toNat ≤ 2 ^ 16 := by
  have := key.plainText_bounds
  rw [toNat_ofNat_plainText]
  omega

theorem asymmetric_le (key : RsaKey policy) :
    (UInt32.ofNat key.plainText).toNat ≤ (UInt32.ofNat key.length).toNat := by
  rw [toNat_ofNat_plainText, toNat_ofNat_length]; exact Nat.sub_le _ _

def asymmetricSizes {policy : SecurityPolicy} (sender receiver : RsaKey policy) : CryptoSizes where
  symmetric := false
  toEncrypt := true
  toSign := true
  signatureSize := UInt32.ofNat sender.length
  cipherBlockSize := UInt32.ofNat receiver.length
  plainBlockSize := UInt32.ofNat receiver.plainText
  plain_pos := fun _ => asymmetric_pos receiver
  plain_small := fun _ => asymmetric_small receiver
  plain_le := fun _ => asymmetric_le receiver
  plain_eq := fun _ h => absurd h false_ne_true

theorem aesBlock_pos : 0 < (16 : UInt32).toNat := by decide

theorem aesBlock_small : (16 : UInt32).toNat ≤ 2 ^ 16 := by decide

def symmetricSizes (policy : SecurityPolicy) (encrypted : Bool) : CryptoSizes where
  symmetric := true
  toEncrypt := encrypted
  toSign := true
  signatureSize := UInt32.ofNat policy.symmSignature
  cipherBlockSize := 16
  plainBlockSize := 16
  plain_pos := fun _ => aesBlock_pos
  plain_small := fun _ => aesBlock_small
  plain_le := fun _ => Nat.le_refl _
  plain_eq := fun _ _ => rfl

def getSendingCryptoSizes {policy : SecurityPolicy} (sender receiver : RsaKey policy)
    (mode : SecurityMode) (isSymmetricAlgo : Bool) : CryptoSizes :=
  match mode, isSymmetricAlgo with
  | .none, _ => noSecurity isSymmetricAlgo
  | _, false => asymmetricSizes sender receiver
  | .sign, true => symmetricSizes policy false
  | .signAndEncrypt, true => symmetricSizes policy true

namespace CryptoSizes

variable (z : CryptoSizes)

/-- The block sizes, the fields for the size of the padding and the size of the signature, as they
are used in `SC_Chunks_ComputeMaxBodySize`. -/
def cipherBlock : UInt32 := if z.toEncrypt then z.cipherBlockSize else 1

def plainBlock : UInt32 := if z.toEncrypt then z.plainBlockSize else 1

def hasExtraPaddingSize : Bool := z.toEncrypt && decide (256 < z.plainBlockSize)

def paddingSizeFields : UInt32 :=
  if z.toEncrypt then (if 256 < z.plainBlockSize then 2 else 1) else 0

def signature : UInt32 := if z.toSign then z.signatureSize else 0

end CryptoSizes

/-- It has no answer where an assertion fails. -/
def computeMaxBodySize (nonEncryptedHeadersSize chunkSize : UInt32) (z : CryptoSizes) :
    Option UInt32 :=
  let result := z.plainBlock * ((chunkSize - nonEncryptedHeadersSize) / z.cipherBlock) - 8 -
    z.signature - z.paddingSizeFields
  if z.cipherBlock < z.plainBlock then none
  else if chunkSize < nonEncryptedHeadersSize + 8 + result + z.signature + z.paddingSizeFields then
    none
  else some result

def getPaddingSize (z : CryptoSizes) (bytesToEncrypt : UInt32) : UInt32 :=
  let missing := (bytesToEncrypt + z.signature + z.paddingSizeFields) % z.plainBlock
  let size := if missing = 0 then 0 else z.plainBlock - missing
  if size ≤ 65535 then size else 0

def paddingLength (z : CryptoSizes) (bodySize : UInt32) : UInt32 :=
  if z.toEncrypt then z.paddingSizeFields + getPaddingSize z (8 + bodySize) else 0

def plainLength (z : CryptoSizes) (bodySize : UInt32) : UInt32 :=
  8 + bodySize + paddingLength z bodySize + z.signature

def encryptedLength (z : CryptoSizes) (length : UInt32) : UInt32 :=
  if z.symmetric then length
  else
    (length / z.plainBlock + if 0 < length % z.plainBlock then 1 else 0) * z.cipherBlock

def messageLength (headersSize : UInt32) (z : CryptoSizes) (bodySize : UInt32) : UInt32 :=
  if z.toEncrypt then headersSize + encryptedLength z (plainLength z bodySize)
  else headersSize + plainLength z bodySize

def blockCount (plainBlock length : Nat) : Nat :=
  length / plainBlock + if 0 < length % plainBlock then 1 else 0

def room (headersSize chunkSize : UInt32) (z : CryptoSizes) : Nat :=
  z.plainBlock.toNat * ((chunkSize.toNat - headersSize.toNat) / z.cipherBlock.toNat)

def overhead (z : CryptoSizes) : Nat := 8 + z.signature.toNat + z.paddingSizeFields.toNat

def OverheadFits (headersSize chunkSize : UInt32) (z : CryptoSizes) : Prop :=
  headersSize.toNat ≤ chunkSize.toNat ∧ overhead z ≤ room headersSize chunkSize z

/-- No operation of `SC_Chunks_ComputeMaxBodySize` wraps around: the difference, the product, the
three subtractions, and the sum that is asserted. -/
structure MaxBodyExact (headersSize chunkSize : UInt32) (z : CryptoSizes) : Prop where
  headers : headersSize.toNat ≤ chunkSize.toNat
  product : room headersSize chunkSize z < 2 ^ 32
  subtractions : overhead z ≤ room headersSize chunkSize z
  sum : headersSize.toNat + 8 + (room headersSize chunkSize z - overhead z) + z.signature.toNat +
    z.paddingSizeFields.toNat < 2 ^ 32

/-- A body is safe: no operation on the sizes of its chunk wraps around, the plain text is made of
whole blocks, and the message is not larger than a chunk. -/
structure BodySafe (headersSize chunkSize : UInt32) (z : CryptoSizes) (bodySize : UInt32) : Prop
    where
  padded : 8 + bodySize.toNat + z.signature.toNat + z.paddingSizeFields.toNat < 2 ^ 32
  padding_small : missing z.plainBlock.toNat (overhead z + bodySize.toNat) ≤ 65535
  buffer : headersSize.toNat + 8 + bodySize.toNat + (paddingLength z bodySize).toNat < 2 ^ 32
  plain : 8 + bodySize.toNat + (paddingLength z bodySize).toNat + z.signature.toNat < 2 ^ 32
  cipher : z.symmetric = false →
    blockCount z.plainBlock.toNat (plainLength z bodySize).toNat * z.cipherBlock.toNat < 2 ^ 32
  message : headersSize.toNat + (encryptedLength z (plainLength z bodySize)).toNat < 2 ^ 32
  whole_blocks : z.plainBlock.toNat ∣ (plainLength z bodySize).toNat
  fits : (messageLength headersSize z bodySize).toNat ≤ chunkSize.toNat

def Safe (headersSize chunkSize : UInt32) (z : CryptoSizes) : Prop :=
  MaxBodyExact headersSize chunkSize z ∧
    ∃ max, computeMaxBodySize headersSize chunkSize z = some max ∧
      ∀ bodySize ≤ max, BodySafe headersSize chunkSize z bodySize

namespace CryptoSizes

variable (z : CryptoSizes)

theorem plainBlock_pos : 0 < z.plainBlock.toNat := by
  unfold plainBlock
  split
  · rename_i h; exact z.plain_pos h
  · decide

theorem plainBlock_small : z.plainBlock.toNat ≤ 2 ^ 16 := by
  unfold plainBlock
  split
  · rename_i h; exact z.plain_small h
  · decide

theorem plainBlock_le : z.plainBlock.toNat ≤ z.cipherBlock.toNat := by
  unfold plainBlock cipherBlock
  split
  · rename_i h; exact z.plain_le h
  · exact Nat.le_refl _

end CryptoSizes

section

variable {headersSize chunkSize : UInt32} {z : CryptoSizes}

theorem room_le : room headersSize chunkSize z ≤ chunkSize.toNat - headersSize.toNat :=
  calc room headersSize chunkSize z
      ≤ z.cipherBlock.toNat * ((chunkSize.toNat - headersSize.toNat) / z.cipherBlock.toNat) :=
        Nat.mul_le_mul_right _ z.plainBlock_le
    _ ≤ chunkSize.toNat - headersSize.toNat := Nat.mul_div_le _ _

theorem toNat_product (hle : headersSize.toNat ≤ chunkSize.toNat) :
    (z.plainBlock * ((chunkSize - headersSize) / z.cipherBlock)).toNat =
      room headersSize chunkSize z := by
  have hroom : room headersSize chunkSize z ≤ _ := room_le
  have := chunkSize.toNat_lt
  rw [UInt32.toNat_mul, UInt32.toNat_div,
    UInt32.toNat_sub_of_le _ _ (UInt32.le_iff_toNat_le.mpr hle)]
  exact Nat.mod_eq_of_lt (by unfold room at hroom; omega)

theorem computeMaxBodySize_eq (hle : headersSize.toNat ≤ chunkSize.toNat) :
    computeMaxBodySize headersSize chunkSize z =
      some (z.plainBlock * ((chunkSize - headersSize) / z.cipherBlock) - 8 - z.signature -
        z.paddingSizeFields) := by
  have hroom : room headersSize chunkSize z ≤ _ := room_le
  have hproduct := toNat_product (z := z) hle
  have hblocks : ¬ z.cipherBlock < z.plainBlock := by
    exact Nat.not_lt.mpr z.plainBlock_le
  set product := z.plainBlock * ((chunkSize - headersSize) / z.cipherBlock) with hp
  have hsum : headersSize + 8 + (product - 8 - z.signature - z.paddingSizeFields) + z.signature +
      z.paddingSizeFields = headersSize + product := by
    grind
  unfold computeMaxBodySize
  rw [if_neg hblocks, ← hp, hsum, if_neg]
  rw [UInt32.lt_iff_toNat_lt, UInt32.toNat_add, hproduct]
  omega

theorem OverheadFits.exact (h : OverheadFits headersSize chunkSize z) :
    MaxBodyExact headersSize chunkSize z := by
  obtain ⟨hle, hfits⟩ := h
  have hroom : room headersSize chunkSize z ≤ _ := room_le
  have hchunk := chunkSize.toNat_lt
  refine ⟨hle, by omega, hfits, ?_⟩
  unfold overhead at hfits ⊢
  omega

theorem computeMaxBodySize_exact (h : OverheadFits headersSize chunkSize z) :
    ∃ max, computeMaxBodySize headersSize chunkSize z = some max ∧
      max.toNat = room headersSize chunkSize z - overhead z := by
  obtain ⟨hle, hfits⟩ := h
  have h8 : (8 : UInt32).toNat = 8 := rfl
  have hproduct := toNat_product (z := z) hle
  refine ⟨_, computeMaxBodySize_eq hle, ?_⟩
  have hlt := (z.plainBlock * ((chunkSize - headersSize) / z.cipherBlock)).toNat_lt
  unfold overhead at hfits ⊢
  simp only [UInt32.toNat_sub, hproduct, h8] at hlt ⊢
  omega

section

variable {bodySize : UInt32} (hbody : overhead z + bodySize.toNat ≤ room headersSize chunkSize z)

include hbody

theorem padded_le : overhead z + bodySize.toNat +
    missing z.plainBlock.toNat (overhead z + bodySize.toNat) ≤
      room headersSize chunkSize z :=
  add_missing_le z.plainBlock_pos hbody

theorem toNat_getPaddingSize :
    (getPaddingSize z (8 + bodySize)).toNat =
      missing z.plainBlock.toNat (overhead z + bodySize.toNat) := by
  have hroom : room headersSize chunkSize z ≤ _ := room_le
  have hchunk := chunkSize.toNat_lt
  have h8 : (8 : UInt32).toNat = 8 := rfl
  have hlt := missing_lt z.plainBlock_pos (overhead z + bodySize.toNat)
  have hsmall := z.plainBlock_small
  have htotal : (8 + bodySize + z.signature + z.paddingSizeFields).toNat =
      overhead z + bodySize.toNat := by
    unfold overhead at hbody ⊢
    simp only [UInt32.toNat_add, h8]
    omega
  have hsize : (if (8 + bodySize + z.signature + z.paddingSizeFields) % z.plainBlock = 0 then 0
      else z.plainBlock - (8 + bodySize + z.signature + z.paddingSizeFields) %
        z.plainBlock).toNat = missing z.plainBlock.toNat (overhead z + bodySize.toNat) := by
    have hmod : ((8 + bodySize + z.signature + z.paddingSizeFields) % z.plainBlock).toNat =
        (overhead z + bodySize.toNat) % z.plainBlock.toNat := by
      rw [UInt32.toNat_mod, htotal]
    have hzero : (8 + bodySize + z.signature + z.paddingSizeFields) % z.plainBlock = 0 ↔
        (overhead z + bodySize.toNat) % z.plainBlock.toNat = 0 := by
      rw [← hmod, ← UInt32.toNat_inj]
      rfl
    unfold missing
    by_cases h : (overhead z + bodySize.toNat) % z.plainBlock.toNat = 0
    · rw [if_pos (hzero.mpr h), if_pos h]; rfl
    · rw [if_neg fun h' => h (hzero.mp h'), if_neg h, UInt32.toNat_sub_of_le, hmod]
      exact (Nat.mod_lt _ z.plainBlock_pos).le
  unfold getPaddingSize
  rw [if_pos, hsize]
  rw [UInt32.le_iff_toNat_le, hsize]
  have : (65535 : UInt32).toNat = 65535 := rfl
  omega

theorem toNat_paddingLength :
    (paddingLength z bodySize).toNat = z.paddingSizeFields.toNat +
      missing z.plainBlock.toNat (overhead z + bodySize.toNat) := by
  have hroom : room headersSize chunkSize z ≤ _ := room_le
  have hchunk := chunkSize.toNat_lt
  have hpadded := padded_le hbody
  have hfields : z.paddingSizeFields.toNat ≤ overhead z := by unfold overhead; omega
  unfold paddingLength
  split
  · rw [UInt32.toNat_add, toNat_getPaddingSize hbody]; omega
  rename_i h
  -- without encryption a block is a byte, and nothing is missing
  have hblock : z.plainBlock.toNat = 1 := by
    unfold CryptoSizes.plainBlock
    rw [if_neg h]
    rfl
  have hnone : z.paddingSizeFields.toNat = 0 := by
    unfold CryptoSizes.paddingSizeFields
    rw [if_neg h]
    rfl
  rw [hblock, hnone, missing, if_pos (Nat.mod_one _)]
  rfl

theorem toNat_plainLength :
    (plainLength z bodySize).toNat = overhead z + bodySize.toNat +
      missing z.plainBlock.toNat (overhead z + bodySize.toNat) := by
  have hroom : room headersSize chunkSize z ≤ _ := room_le
  have hchunk := chunkSize.toNat_lt
  have hpadded := padded_le hbody
  have hpadding := toNat_paddingLength hbody
  have h8 : (8 : UInt32).toNat = 8 := rfl
  unfold plainLength
  simp only [UInt32.toNat_add, hpadding, h8]
  unfold overhead at hpadded ⊢
  omega

theorem blockCount_plainLength :
    blockCount z.plainBlock.toNat (plainLength z bodySize).toNat =
        (plainLength z bodySize).toNat / z.plainBlock.toNat ∧
      blockCount z.plainBlock.toNat (plainLength z bodySize).toNat * z.cipherBlock.toNat ≤
        chunkSize.toNat - headersSize.toNat := by
  have hdvd : z.plainBlock.toNat ∣ (plainLength z bodySize).toNat := by
    rw [toNat_plainLength hbody]
    exact dvd_add_missing z.plainBlock_pos _
  have hcount : blockCount z.plainBlock.toNat (plainLength z bodySize).toNat =
      (plainLength z bodySize).toNat / z.plainBlock.toNat := by
    unfold blockCount
    rw [if_neg (by rw [Nat.mod_eq_zero_of_dvd hdvd]; decide), Nat.add_zero]
  refine ⟨hcount, ?_⟩
  rw [hcount]
  refine div_mul_le z.plainBlock_pos ?_
  rw [toNat_plainLength hbody]
  exact padded_le hbody

theorem toNat_encryptedLength :
    (encryptedLength z (plainLength z bodySize)).toNat ≤ chunkSize.toNat - headersSize.toNat := by
  obtain ⟨hcount, hcipher⟩ := blockCount_plainLength hbody
  have hchunk := chunkSize.toNat_lt
  unfold encryptedLength
  split
  · rw [toNat_plainLength hbody]; exact (padded_le hbody).trans room_le
  have hmod : ((plainLength z bodySize) % z.plainBlock).toNat = 0 := by
    rw [UInt32.toNat_mod, toNat_plainLength hbody]
    exact Nat.mod_eq_zero_of_dvd (dvd_add_missing z.plainBlock_pos _)
  rw [if_neg (by rw [UInt32.lt_iff_toNat_lt, hmod]; decide), UInt32.add_zero, UInt32.toNat_mul,
    UInt32.toNat_div, ← hcount]
  rw [Nat.mod_eq_of_lt (by omega)]
  exact hcipher

theorem bodySafe (hle : headersSize.toNat ≤ chunkSize.toNat) :
    BodySafe headersSize chunkSize z bodySize := by
  have hroom : room headersSize chunkSize z ≤ _ := room_le
  have hchunk := chunkSize.toNat_lt
  have hpadded := padded_le hbody
  have hpadding := toNat_paddingLength hbody
  have hplain := toNat_plainLength hbody
  have hencrypted := toNat_encryptedLength hbody
  have hlt := missing_lt z.plainBlock_pos (overhead z + bodySize.toNat)
  have hsmall := z.plainBlock_small
  have hdef : overhead z = 8 + z.signature.toNat + z.paddingSizeFields.toNat := rfl
  refine ⟨by omega, by omega, by omega, by omega, fun _ => ?_, by omega, ?_, ?_⟩
  · have := (blockCount_plainLength hbody).2; omega
  · rw [hplain]; exact dvd_add_missing z.plainBlock_pos _
  · unfold messageLength
    split
    · rw [UInt32.toNat_add, Nat.mod_eq_of_lt (by omega)]; omega
    · rw [UInt32.toNat_add, Nat.mod_eq_of_lt (by omega)]; omega

end

end

/-- For the sizes of any negotiated security, any headers and any chunk: the bodies of at most the
maximum size are safe exactly where the overhead fits into the chunk. -/
theorem max_body_size_safe_iff {policy : SecurityPolicy} (sender receiver : RsaKey policy)
    (mode : SecurityMode) (isSymmetricAlgo : Bool) (headersSize chunkSize : UInt32) :
    Safe headersSize chunkSize (getSendingCryptoSizes sender receiver mode isSymmetricAlgo) ↔
      OverheadFits headersSize chunkSize
        (getSendingCryptoSizes sender receiver mode isSymmetricAlgo) := by
  constructor
  · rintro ⟨hexact, -⟩; exact ⟨hexact.headers, hexact.subtractions⟩
  intro h; obtain ⟨max, hmax, hvalue⟩ := computeMaxBodySize_exact h
  refine ⟨h.exact, max, hmax, fun bodySize hle => ?_⟩
  rw [UInt32.le_iff_toNat_le, hvalue] at hle
  have := h.2
  exact bodySafe (by omega) h.1

def opnHeadersSize (policyLength certificateLength : Nat) : UInt32 :=
  UInt32.ofNat (12 + (4 + policyLength) + (4 + certificateLength) + (4 + 20))

def rsa2048 : RsaKey .basic256Sha256 := ⟨2048, Nat.le_refl 2048, Nat.le_add_right 2048 2048⟩

/-- A sender certificate of 7900 bytes in chunks of 8192 bytes leaves no block: the size wraps
around to almost `2 ^ 32`. -/
theorem large_certificate_wraps :
    computeMaxBodySize (opnHeadersSize 57 7900) 8192
        (getSendingCryptoSizes rsa2048 rsa2048 .signAndEncrypt false) = some 4294967031 ∧
      ¬ Safe (opnHeadersSize 57 7900) 8192
        (getSendingCryptoSizes rsa2048 rsa2048 .signAndEncrypt false) := by
  refine ⟨by decide, ?_⟩
  rintro ⟨hexact, -⟩
  have : ¬ overhead (getSendingCryptoSizes rsa2048 rsa2048 .signAndEncrypt false) ≤
      room (opnHeadersSize 57 7900) 8192
        (getSendingCryptoSizes rsa2048 rsa2048 .signAndEncrypt false) := by
    decide
  exact this hexact.subtractions

end BodySize
end Channels
end S2OPC
