import S2OPC.Common.Buffer

/-!
# S2OPC.Common.AsymmetricBlocks

Asymmetric encryption and decryption block by block: `AsymEncrypt_RSA_OAEP` and
`AsymDecrypt_RSA_OAEP` of `crypto_functions_lib.c`. The operation on one block is a parameter.

Decryption takes a whole block in each turn, whatever is left of the cipher text, and counts what is
left on 32 bits.
-/

namespace S2OPC
namespace AsymmetricBlocks

open List

/-- The operation on a block, with the sizes of `SOPC_CryptoProvider_AsymmetricGetLength_Msgs`. -/
structure BlockCipher where
  lenMsgPlain : Nat
  lenMsgCiph : Nat
  plain_pos : 0 < lenMsgPlain
  ciph_pos : 0 < lenMsgCiph
  ciph_lt : lenMsgCiph < 2 ^ 32
  encrypt : Nat → List UInt8 → Option (List UInt8)
  decrypt : List UInt8 → Option (List UInt8)
  length_encrypt : ∀ r p c, encrypt r p = some c → c.length = lenMsgCiph
  decrypt_encrypt : ∀ r p c, p.length ≤ lenMsgPlain → encrypt r p = some c → decrypt c = some p
  exists_encrypt : ∀ p, p.length ≤ lenMsgPlain → ∃ r c, encrypt r p = some c

theorem BlockCipher.plain_le_ciph (bc : BlockCipher) : bc.lenMsgPlain ≤ bc.lenMsgCiph := by
  have hblock : ∀ p : List.Vector UInt8 bc.lenMsgPlain, ∃ c : List.Vector UInt8 bc.lenMsgCiph,
      bc.decrypt c.toList = some p.toList := by
    intro p; obtain ⟨r, c, h⟩ := bc.exists_encrypt p.toList (by simp)
    exact ⟨⟨c, bc.length_encrypt r _ c h⟩, bc.decrypt_encrypt r _ c (by simp) h⟩
  choose f hf using hblock
  have hinj : Function.Injective f := by
    intro p q hpq; refine List.Vector.toList_injective (Option.some.inj ?_)
    rw [← hf p, ← hf q, hpq]
  have hcard := Fintype.card_le_of_injective f hinj
  rw [card_vector, card_vector] at hcard
  have htwo : 1 < Fintype.card UInt8 := Fintype.one_lt_card_iff.mpr ⟨0, 1, by decide⟩
  exact (Nat.pow_le_pow_iff_right htwo).mp hcard

variable (bc : BlockCipher)

def getLengthEncryption (lengthIn : Nat) : Nat :=
  if lengthIn = 0 then 0
  else
    let nMsgs := lengthIn / bc.lenMsgPlain + if lengthIn % bc.lenMsgPlain > 0 then 1 else 0
    nMsgs * bc.lenMsgCiph % 2 ^ 32

def getLengthDecryption (lengthIn : Nat) : Nat :=
  if lengthIn = 0 then 0
  else
    let nMsgs := lengthIn / bc.lenMsgCiph + if lengthIn % bc.lenMsgCiph > 0 then 1 else 0
    nMsgs * bc.lenMsgPlain % 2 ^ 32

def encryptLoop (random : Nat → Nat) :
    Nat → List UInt8 → List UInt8 → Option (Except Status (List UInt8))
  | 0, _, _ => none
  | turns + 1, pInput, pOutput =>
    if pInput.length = 0 then some (.ok pOutput)
    else
      let lenToCiph := if pInput.length > bc.lenMsgPlain then bc.lenMsgPlain else pInput.length
      match bc.encrypt (random turns) (pInput.take lenToCiph) with
      | none => some (.error .nok)
      | some block =>
        if pInput.length - lenToCiph = 0 then some (.ok (pOutput ++ block))
        else encryptLoop random turns (pInput.drop bc.lenMsgPlain) (pOutput ++ block)

def asymmetricEncrypt (keyAccepted : Bool) (random : Nat → Nat) (pInput : List UInt8)
    (lenOutput : Nat) : Option (Except Status (List UInt8)) :=
  if pInput.length = 0 ∨ lenOutput = 0 then some (.error .invalidParameters)
  else if lenOutput ≠ getLengthEncryption bc pInput.length then some (.error .invalidParameters)
  else if keyAccepted = false then some (.error .invalidParameters)
  else encryptLoop bc random pInput.length pInput []

/-- What a decryption has done: its status and output with its length, how many bytes of the input it
used, and whether its count of what is left of the input wrapped around. -/
structure Decrypted where
  status : Except Status Unit
  output : List UInt8
  lenWritten : Nat
  used : Nat
  wrapped : Bool

def Decrypted.start : Decrypted := ⟨.ok (), [], 0, 0, false⟩

def blockAt (memory : Nat → UInt8) (pos n : Nat) : List UInt8 :=
  (List.range n).map fun i => memory (pos + i)

def Decrypted.next (d : Decrypted) (block : List UInt8) (pos lenCipherText : Nat) : Decrypted :=
  { d with output := d.output ++ block,
           lenWritten := (d.lenWritten + block.length) % 2 ^ 32,
           used := pos + bc.lenMsgCiph,
           wrapped := d.wrapped || decide (lenCipherText < bc.lenMsgCiph) }

def decryptLoop (memory : Nat → UInt8) : Nat → Nat → Nat → Decrypted → Option Decrypted
  | 0, _, _, _ => none
  | turns + 1, pos, lenCipherText, d =>
    if lenCipherText = 0 then some d
    else
      match bc.decrypt (blockAt memory pos bc.lenMsgCiph) with
      | none => some { d with status := .error .nok, used := pos + bc.lenMsgCiph }
      | some block =>
        let d := d.next bc block pos lenCipherText
        -- on 32 bits
        let lenCipherText := (lenCipherText + 2 ^ 32 - bc.lenMsgCiph) % 2 ^ 32
        if lenCipherText = 0 then some d
        else decryptLoop memory turns (pos + bc.lenMsgCiph) lenCipherText d

def asymmetricDecrypt (keyAccepted : Bool) (turns : Nat) (memory : Nat → UInt8)
    (lenInput lenOutput : Nat) : Option Decrypted :=
  let invalid : Decrypted := { Decrypted.start with status := .error .invalidParameters }
  if lenInput = 0 ∨ lenOutput = 0 then some invalid
  else if lenOutput ≠ getLengthDecryption bc lenInput then some invalid
  else if keyAccepted = false then some invalid
  else decryptLoop bc memory turns 0 lenInput .start

/-- The blocks of a text: each piece has its cipher block, and all pieces but the last one are as long
as possible. -/
inductive Encrypted : List UInt8 → List (List UInt8) → Prop
  | last {p c : List UInt8} {r : Nat} (hpos : 0 < p.length) (hle : p.length ≤ bc.lenMsgPlain)
      (h : bc.encrypt r p = some c) : Encrypted p [c]
  | more {p text c : List UInt8} {blocks : List (List UInt8)} {r : Nat}
      (hlen : p.length = bc.lenMsgPlain) (h : bc.encrypt r p = some c)
      (htext : Encrypted text blocks) : Encrypted (p ++ text) (c :: blocks)

variable {bc}

variable {blocks : List (List UInt8)} {text : List UInt8} {memory : Nat → UInt8}

theorem Encrypted.length_pos (h : Encrypted bc text blocks) : 0 < text.length := by
  cases h with
  | last hpos => exact hpos
  | more hlen => have := bc.plain_pos; rw [length_append]; omega

theorem Encrypted.length_blocks (h : Encrypted bc text blocks) : blocks.length =
      text.length / bc.lenMsgPlain + if text.length % bc.lenMsgPlain > 0 then 1 else 0 := by
  have hpos := bc.plain_pos
  induction h with
  | @last p c r hp hle h =>
    obtain hlt | heq := Nat.lt_or_eq_of_le hle
    · rw [Nat.div_eq_of_lt hlt, Nat.mod_eq_of_lt hlt, if_pos hp]; rfl
    · rw [heq, Nat.div_self hpos, Nat.mod_self, if_neg (by omega)]; rfl
  | @more p text c blocks r hlen h _ ih =>
    simp [hlen, Nat.add_div_left _ hpos, Nat.add_mod_left, ih]; omega

theorem Encrypted.length_flatten (h : Encrypted bc text blocks) :
    blocks.flatten.length = blocks.length * bc.lenMsgCiph := by
  induction h with
  | last _ _ h => simp [bc.length_encrypt _ _ _ h]
  | more _ h _ ih =>
    rw [flatten_cons, length_append, bc.length_encrypt _ _ _ h, ih, length_cons]
    ring

theorem encryptLoop_eq (random : Nat → Nat) {turns : Nat} {pInput : List UInt8} (pOutput : List UInt8)
    (hpos : 0 < pInput.length) (hle : pInput.length ≤ turns) :
    (∃ r p, bc.encrypt r p = none ∧ p.length ≤ bc.lenMsgPlain ∧ p <:+: pInput ∧
      encryptLoop bc random turns pInput pOutput = some (.error .nok)) ∨
    ∃ blocks, Encrypted bc pInput blocks ∧
      encryptLoop bc random turns pInput pOutput = some (.ok (pOutput ++ blocks.flatten)) := by
  induction turns generalizing pInput pOutput with
  | zero => omega
  | succ turns ih =>
    have hplain := bc.plain_pos
    unfold encryptLoop
    rw [if_neg (Nat.ne_of_gt hpos)]
    dsimp only
    by_cases hlong : pInput.length > bc.lenMsgPlain
    · rw [if_pos hlong]
      have hlen : (pInput.take bc.lenMsgPlain).length = bc.lenMsgPlain := by rw [length_take]; omega
      cases hblock : bc.encrypt (random turns) (pInput.take bc.lenMsgPlain) with
      | none => exact .inl ⟨_, _, hblock, hlen.le, ( take_prefix _ _).isInfix, rfl⟩
      | some block =>
        dsimp only
        rw [if_neg (by omega)]
        have hrest : 0 < (pInput.drop bc.lenMsgPlain).length ∧
            (pInput.drop bc.lenMsgPlain).length ≤ turns := by
          rw [length_drop]
          omega
        obtain ⟨r, p, hr, hp, hinfix, hloop⟩ | ⟨blocks, hblocks, hloop⟩ :=
          ih (pOutput ++ block) hrest.1 hrest.2
        · exact .inl ⟨r, p, hr, hp, hinfix.trans (drop_suffix _ _).isInfix, hloop⟩
        · refine .inr ⟨block :: blocks, ?_, ?_⟩
          · have h := Encrypted.more hlen hblock hblocks; rwa [take_append_drop] at h
          · rw [hloop, flatten_cons, append_assoc]
    · rw [if_neg hlong, take_length, Nat.sub_self]
      cases hblock : bc.encrypt (random turns) pInput with
      | none => exact .inl ⟨_, _, hblock, by omega, infix_rfl, rfl⟩
      | some block => exact .inr ⟨[block], .last hpos (by omega) hblock, by simp⟩

theorem blockAt_append (memory : Nat → UInt8) (pos m n : Nat) :
    blockAt memory pos (m + n) = blockAt memory pos m ++ blockAt memory (pos + m) n := by
  unfold blockAt
  rw [range_add, map_append, map_map]
  simp [Function.comp_def, Nat.add_assoc]

theorem length_blockAt (memory : Nat → UInt8) (pos n : Nat) : (blockAt memory pos n).length = n := by
  simp [blockAt]

variable {turns lenInput lenOutput : Nat} {keyAccepted : Bool}

theorem decryptLoop_step {pos lenCipherText : Nat} {d : Decrypted} {block : List UInt8}
    (hblock : bc.decrypt (blockAt memory pos bc.lenMsgCiph) = some block)
    (hgt : bc.lenMsgCiph < lenCipherText) (hlt : lenCipherText < 2 ^ 32) :
    decryptLoop bc memory (turns + 1) pos lenCipherText d =
      decryptLoop bc memory turns (pos + bc.lenMsgCiph) (lenCipherText - bc.lenMsgCiph)
        { d with output := d.output ++ block,
                 lenWritten := (d.lenWritten + block.length) % 2 ^ 32,
                 used := pos + bc.lenMsgCiph } := by
  have hleft : (lenCipherText + 2 ^ 32 - bc.lenMsgCiph) % 2 ^ 32 = lenCipherText - bc.lenMsgCiph := by
    omega
  have hnext : d.next bc block pos lenCipherText =
      { d with output := d.output ++ block,
               lenWritten := (d.lenWritten + block.length) % 2 ^ 32,
               used := pos + bc.lenMsgCiph } := by
    simp [Decrypted.next, Nat.not_lt.mpr hgt.le]
  conv_lhs => unfold decryptLoop
  rw [if_neg (by omega), hblock]
  dsimp only
  rw [hleft, hnext, if_neg (by omega)]

theorem decryptLoop_encrypted (h : Encrypted bc text blocks) :
    ∀ {turns pos : Nat} {d : Decrypted}, blocks.length ≤ turns →
      blockAt memory pos blocks.flatten.length = blocks.flatten →
      blocks.length * bc.lenMsgCiph < 2 ^ 32 →
      decryptLoop bc memory turns pos (blocks.length * bc.lenMsgCiph) d =
        some { d with output := d.output ++ text,
                      lenWritten := (d.lenWritten + text.length) % 2 ^ 32,
                      used := pos + blocks.length * bc.lenMsgCiph } := by
  have hciph := bc.ciph_pos
  induction h with
  | @last p c r hpos hle h =>
    intro turns pos d hturns hmem hlt; obtain ⟨turns, rfl⟩ := Nat.exists_eq_add_of_le' hturns
    have hblock : blockAt memory pos bc.lenMsgCiph = c := by
      simpa [bc.length_encrypt _ _ _ h] using hmem
    rw [length_singleton, Nat.one_mul] at hlt ⊢
    unfold decryptLoop
    rw [if_neg (by omega), hblock, bc.decrypt_encrypt _ _ _ hle h]
    simp [Decrypted.next]
  | @more p text c blocks r hlen h htext ih =>
    intro turns pos d hturns hmem hlt; obtain ⟨turns, rfl⟩ := Nat.exists_eq_add_of_le' hturns
    have hc := bc.length_encrypt _ _ _ h
    have hpos : 0 < blocks.length := by cases htext <;> simp
    rw [flatten_cons, length_append, blockAt_append] at hmem
    obtain ⟨hblock, hrest⟩ := append_inj hmem (length_blockAt _ _ _)
    rw [hc] at hblock hrest
    have hdecrypt : bc.decrypt (blockAt memory pos bc.lenMsgCiph) = some p := by
      rw [hblock, bc.decrypt_encrypt _ _ _ hlen.le h]
    have hleft : (blocks.length + 1) * bc.lenMsgCiph - bc.lenMsgCiph =
        blocks.length * bc.lenMsgCiph := by
      rw [Nat.add_mul, Nat.one_mul, Nat.add_sub_cancel]
    have hmore : bc.lenMsgCiph ≤ blocks.length * bc.lenMsgCiph := Nat.le_mul_of_pos_left _ hpos
    rw [length_cons] at hlt ⊢
    rw [← Nat.add_assoc, decryptLoop_step hdecrypt (by omega) hlt, hleft,
      ih (by omega) hrest (by omega)]
    simp only [append_assoc, length_append, Nat.mod_add_mod, Nat.add_assoc, Nat.add_mul,
      Nat.one_mul, Nat.add_comm bc.lenMsgCiph]

/-- What an encryption gives is decrypted to the text, with a buffer of the length computed for it and
within the bytes that were encrypted. -/
structure ReadBack (bc : BlockCipher) (text cipher : List UInt8) : Prop where
  length : cipher.length = getLengthEncryption bc text.length
  fits : text.length ≤ getLengthDecryption bc cipher.length
  decrypted : ∀ memory, blockAt memory 0 cipher.length = cipher →
    ∃ turns, asymmetricDecrypt bc true turns memory cipher.length
        (getLengthDecryption bc cipher.length) =
      some ⟨.ok (), text, text.length, cipher.length, false⟩

theorem Encrypted.length_le (h : Encrypted bc text blocks) :
    text.length ≤ blocks.length * bc.lenMsgPlain := by
  induction h with
  | last _ hle => simpa using hle
  | more hlen _ _ ih => simp [Nat.add_mul]; omega

theorem getLengthDecryption_blocks {n : Nat} (hn : 0 < n) (hfits : n * bc.lenMsgCiph < 2 ^ 32) :
    getLengthDecryption bc (n * bc.lenMsgCiph) = n * bc.lenMsgPlain := by
  have hciph := bc.ciph_pos
  have hle : n * bc.lenMsgPlain ≤ n * bc.lenMsgCiph := Nat.mul_le_mul_left n bc.plain_le_ciph
  have hne : n * bc.lenMsgCiph ≠ 0 := Nat.ne_of_gt (Nat.mul_pos hn hciph)
  rw [getLengthDecryption, if_neg hne, Nat.mul_div_cancel n hciph, Nat.mul_mod_left]
  rw [if_neg (Nat.lt_irrefl 0), Nat.add_zero, Nat.mod_eq_of_lt (by omega)]

theorem asymmetricDecrypt_encrypted (h : Encrypted bc text blocks) (hlt : text.length < 2 ^ 32)
    (hfits : blocks.length * bc.lenMsgCiph < 2 ^ 32) : ReadBack bc text blocks.flatten := by
  have hblocks : 0 < blocks.length := by cases h <;> simp
  have hin : 0 < blocks.length * bc.lenMsgCiph := Nat.mul_pos hblocks bc.ciph_pos
  have hout : 0 < blocks.length * bc.lenMsgPlain := Nat.mul_pos hblocks bc.plain_pos
  refine ⟨?_, ?_, fun memory hmem => ⟨blocks.length, ?_⟩⟩
  · rw [h.length_flatten, getLengthEncryption, if_neg (Nat.ne_of_gt h.length_pos)]
    rw [← h.length_blocks, Nat.mod_eq_of_lt hfits]
  · rw [h.length_flatten, getLengthDecryption_blocks hblocks hfits]; exact h.length_le
  · unfold asymmetricDecrypt
    have hloop : decryptLoop bc memory blocks.length 0 (blocks.length * bc.lenMsgCiph) .start = _ :=
      decryptLoop_encrypted h le_rfl hmem hfits
    rw [h.length_flatten, getLengthDecryption_blocks hblocks hfits, if_neg (by omega),
      if_neg (by simp), if_neg (by simp), hloop]
    simp only [Decrypted.start, nil_append, Nat.zero_add, Nat.mod_eq_of_lt hlt]

/-- The decryption ends with an error, with bytes of the cipher text only and without a count that
wraps around. -/
def FailsInside (bc : BlockCipher) (keyAccepted : Bool) (memory : Nat → UInt8)
    (lenInput lenOutput : Nat) : Prop :=
  ∃ turns d status, asymmetricDecrypt bc keyAccepted turns memory lenInput lenOutput = some d ∧
    d.status = .error status ∧ d.used ≤ lenInput ∧ d.wrapped = false

theorem le_decryptLoop_used {turns pos lenCipherText : Nat} {d d' : Decrypted}
    (hpos : 0 < lenCipherText) (h : decryptLoop bc memory turns pos lenCipherText d = some d') :
    pos + bc.lenMsgCiph ≤ d'.used := by
  fun_induction decryptLoop bc memory turns pos lenCipherText d with
  | case1 => cases h
  | case2 => omega
  | case3 => cases h; exact le_rfl
  | case4 => rw [← Option.some.inj h]; exact le_rfl
  | case5 turns pos len d hne block hblock next left hend ih =>
    have hle := ih (Nat.pos_of_ne_zero hend) h
    omega

def SomeBlockFails (bc : BlockCipher) (memory : Nat → UInt8) (pos n : Nat) : Prop :=
  ∃ i < n, bc.decrypt (blockAt memory (pos + i * bc.lenMsgCiph) bc.lenMsgCiph) = none

theorem someBlockFails_succ {pos n : Nat} :
    SomeBlockFails bc memory pos (n + 1) ↔ bc.decrypt (blockAt memory pos bc.lenMsgCiph) = none ∨
      SomeBlockFails bc memory (pos + bc.lenMsgCiph) n := by
  have hstep : ∀ i, pos + (i + 1) * bc.lenMsgCiph = pos + bc.lenMsgCiph + i * bc.lenMsgCiph := by
    intro i; rw [Nat.add_mul, Nat.one_mul]
    omega
  constructor
  · rintro ⟨i, hi, h⟩
    cases i with
    | zero => exact .inl (by simpa using h)
    | succ i => exact .inr ⟨i, by omega, by rwa [← hstep]⟩
  · rintro (h | ⟨i, hi, h⟩)
    · exact ⟨0, by omega, by simpa using h⟩
    · exact ⟨i + 1, by omega, by rwa [hstep]⟩

theorem decryptLoop_failsInside_iff {rest : Nat} (hrest : 0 < rest) (hlt : rest < bc.lenMsgCiph)
    (memory : Nat → UInt8) (n pos : Nat) (d : Decrypted)
    (hfits : n * bc.lenMsgCiph + rest < 2 ^ 32) (hwrapped : d.wrapped = false)
    (hstatus : d.status = .ok ()) :
    (∃ turns d' status, decryptLoop bc memory turns pos (n * bc.lenMsgCiph + rest) d = some d' ∧
      d'.status = .error status ∧ d'.used ≤ pos + (n * bc.lenMsgCiph + rest) ∧ d'.wrapped = false) ↔
      SomeBlockFails bc memory pos n := by
  induction n generalizing pos d with
  | zero =>
    rw [Nat.zero_mul, Nat.zero_add]
    constructor
    · rintro ⟨turns, d', status, h, -, hused, -⟩
      have hle := le_decryptLoop_used hrest h; omega
    · rintro ⟨i, hi, -⟩; exact absurd hi (Nat.not_lt_zero i)
  | succ n ih =>
    have hlen : (n + 1) * bc.lenMsgCiph + rest = n * bc.lenMsgCiph + rest + bc.lenMsgCiph := by
      rw [Nat.add_mul, Nat.one_mul]
      omega
    rw [hlen] at hfits ⊢
    rw [someBlockFails_succ]
    cases hblock : bc.decrypt (blockAt memory pos bc.lenMsgCiph) with
    | none =>
      simp only [true_or, iff_true]
      refine ⟨1, { d with status := .error .nok, used := pos + bc.lenMsgCiph }, .nok, ?_, rfl, ?_,
        hwrapped⟩
      · unfold decryptLoop; rw [if_neg (by omega), hblock]
      · dsimp only; omega
    | some block =>
      simp only [reduceCtorEq, false_or]
      rw [← ih (pos + bc.lenMsgCiph)
        { d with output := d.output ++ block,
                 lenWritten := (d.lenWritten + block.length) % 2 ^ 32,
                 used := pos + bc.lenMsgCiph } (by omega) hwrapped hstatus]
      have hstep : ∀ turns, decryptLoop bc memory (turns + 1) pos
          (n * bc.lenMsgCiph + rest + bc.lenMsgCiph) d = _ := fun turns =>
        decryptLoop_step hblock (by omega) hfits
      rw [Nat.add_sub_cancel] at hstep
      have hpos : pos + bc.lenMsgCiph + (n * bc.lenMsgCiph + rest) =
          pos + (n * bc.lenMsgCiph + rest + bc.lenMsgCiph) := by omega
      rw [hpos]
      constructor
      · rintro ⟨turns, d', status, h, hd'⟩
        cases turns with
        | zero => cases h
        | succ turns => exact ⟨turns, d', status, (hstep turns).symm.trans h, hd'⟩
      · rintro ⟨turns, d', status, h, hd'⟩
        exact ⟨turns + 1, d', status, (hstep turns).trans h, hd'⟩

theorem asymmetricDecrypt_refused
    (h : lenOutput = 0 ∨ lenOutput ≠ getLengthDecryption bc lenInput ∨ keyAccepted = false) :
    asymmetricDecrypt bc keyAccepted turns memory lenInput lenOutput =
      some { Decrypted.start with status := .error .invalidParameters } := by
  unfold asymmetricDecrypt
  split_ifs with hzero hout hkey
  · rfl
  · rfl
  · rfl
  · exact absurd h (by simp [not_or.mp hzero, hout, hkey])

theorem asymmetricDecrypt_accepted (hpos : lenInput ≠ 0)
    (h : ¬ (lenOutput = 0 ∨ lenOutput ≠ getLengthDecryption bc lenInput ∨ keyAccepted = false)) :
    asymmetricDecrypt bc keyAccepted turns memory lenInput lenOutput =
      decryptLoop bc memory turns 0 lenInput .start := by
  simp only [not_or] at h
  unfold asymmetricDecrypt
  rw [if_neg (by simp [hpos, h.1]), if_neg h.2.1, if_neg h.2.2]

theorem failsInside_iff (hlt : lenInput < 2 ^ 32) (hmod : lenInput % bc.lenMsgCiph ≠ 0) :
    FailsInside bc keyAccepted memory lenInput lenOutput ↔
      (lenOutput = 0 ∨ lenOutput ≠ getLengthDecryption bc lenInput ∨ keyAccepted = false) ∨
        SomeBlockFails bc memory 0 (lenInput / bc.lenMsgCiph) := by
  unfold FailsInside
  by_cases hrefused : lenOutput = 0 ∨ lenOutput ≠ getLengthDecryption bc lenInput ∨
      keyAccepted = false
  · -- nothing is used
    simp only [asymmetricDecrypt_refused hrefused, hrefused, true_or, iff_true]
    exact ⟨0, _, _, rfl, rfl, Nat.zero_le _, rfl⟩
  · have hpos : lenInput ≠ 0 := by rintro rfl; exact hmod (Nat.zero_mod _)
    have hdiv : lenInput / bc.lenMsgCiph * bc.lenMsgCiph + lenInput % bc.lenMsgCiph = lenInput := by
      rw [Nat.mul_comm]
      exact Nat.div_add_mod _ _
    have hloop := decryptLoop_failsInside_iff (Nat.pos_of_ne_zero hmod)
      (Nat.mod_lt lenInput bc.ciph_pos) memory (lenInput / bc.lenMsgCiph) 0 .start
      (by rwa [hdiv]) rfl rfl
    rw [hdiv, Nat.zero_add] at hloop
    simp only [asymmetricDecrypt_accepted hpos hrefused, hrefused, false_or]
    exact hloop

/-- For every block cipher, an encryption of a text whose encrypted length is a `uint32_t` fails with
one of its blocks, or is decrypted to that text; and a cipher text not made of whole blocks is refused
properly exactly if it is refused before the first block, or one of its whole blocks is. -/
theorem asymmetric_blocks_iff (bc : BlockCipher) :
    (∀ (random : Nat → Nat) (text : List UInt8), text ≠ [] → text.length < 2 ^ 32 →
      (text.length / bc.lenMsgPlain + if text.length % bc.lenMsgPlain > 0 then 1 else 0) *
        bc.lenMsgCiph < 2 ^ 32 →
      (∃ r p, bc.encrypt r p = none ∧ p.length ≤ bc.lenMsgPlain ∧ p <:+: text ∧
        asymmetricEncrypt bc true random text (getLengthEncryption bc text.length) =
          some (.error .nok)) ∨
      ∃ cipher, asymmetricEncrypt bc true random text (getLengthEncryption bc text.length) =
        some (.ok cipher) ∧ ReadBack bc text cipher) ∧
    ∀ (keyAccepted : Bool) (memory : Nat → UInt8) (lenInput lenOutput : Nat), lenInput < 2 ^ 32 →
      lenInput % bc.lenMsgCiph ≠ 0 →
      (FailsInside bc keyAccepted memory lenInput lenOutput ↔
        (lenOutput = 0 ∨ lenOutput ≠ getLengthDecryption bc lenInput ∨ keyAccepted = false) ∨
          SomeBlockFails bc memory 0 (lenInput / bc.lenMsgCiph)) := by
  refine ⟨fun random text hne hlt hfits => ?_, fun _ _ _ _ hlt hmod => failsInside_iff hlt hmod⟩
  have hpos : 0 < text.length := length_pos_iff.mpr hne
  have hout : getLengthEncryption bc text.length ≠ 0 := by
    rw [getLengthEncryption, if_neg (Nat.ne_of_gt hpos)]
    rw [Nat.mod_eq_of_lt hfits]
    refine Nat.ne_of_gt (Nat.mul_pos ?_ bc.ciph_pos)
    have hdiv := Nat.div_add_mod text.length bc.lenMsgPlain
    split_ifs with hmod
    · exact Nat.succ_pos _
    · refine Nat.pos_of_ne_zero fun hzero => ?_
      have hdiv0 : text.length / bc.lenMsgPlain = 0 := by omega
      rw [hdiv0] at hdiv
      omega
  have hloop : asymmetricEncrypt bc true random text (getLengthEncryption bc text.length) =
      encryptLoop bc random text.length text [] := by
    unfold asymmetricEncrypt
    rw [if_neg (by omega), if_neg (by simp), if_neg (by simp)]
  rw [hloop]
  obtain hfails | ⟨blocks, hblocks, hencrypt⟩ := encryptLoop_eq random [] hpos le_rfl
  · exact .inl hfails
  · rw [← hblocks.length_blocks] at hfits
    exact .inr ⟨_, hencrypt, asymmetricDecrypt_encrypted hblocks hlt hfits⟩

def byteCipher : BlockCipher where
  lenMsgPlain := 1
  lenMsgCiph := 2
  plain_pos := by decide
  ciph_pos := by decide
  ciph_lt := by decide
  encrypt _ p := if p.length ≤ 1 then some [UInt8.ofNat p.length, p.headD 0] else none
  decrypt c := some (if c.headD 0 = 0 then [] else [c.getD 1 0])
  length_encrypt r p c h := by split_ifs at h; cases h; rfl
  decrypt_encrypt r p c hp h := by
    rw [if_pos hp] at h
    cases h
    cases p with
    | nil => rfl
    | cons a p =>
      cases p with
      | nil => rfl
      | cons b p => simp at hp
  exists_encrypt p hp := ⟨0, _, if_pos hp⟩

theorem asymmetric_blocks_iff_byteCipher :
    FailsInside byteCipher false (fun _ => 0) 3 2 ∧
      ∃ cipher, asymmetricEncrypt byteCipher true (fun _ => 0) [7, 9] 4 = some (.ok cipher) ∧
        ReadBack byteCipher [7, 9] cipher := by
  refine ⟨((asymmetric_blocks_iff byteCipher).2 false _ 3 2 (by decide) (by decide)).mpr
    (.inl (.inr (.inr rfl))), ?_⟩
  obtain ⟨r, p, hnone, hp, -⟩ | h :=
    (asymmetric_blocks_iff byteCipher).1 (fun _ => 0) [7, 9] (by simp) (by decide) (by decide)
  · exact absurd hnone (by simp [byteCipher, show p.length ≤ 1 from hp])
  · exact h

/-- A cipher text of one byte is decrypted with the byte behind it. -/
theorem one_byte_read_outside : ¬ FailsInside byteCipher true (fun _ => 0) 1 1 := by
  rw [failsInside_iff (by decide) (by decide)]
  rintro (h | ⟨i, hi, -⟩)
  · revert h
    decide
  · exact absurd hi (Nat.not_lt_zero i)

end AsymmetricBlocks
end S2OPC
