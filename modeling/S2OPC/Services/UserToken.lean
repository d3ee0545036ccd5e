import S2OPC.Common.EncoderLeaf

/-!
# S2OPC.Services.UserToken

The encrypted password of a user name identity token, `user_authentication_bs.c`. The server computes
the place of the nonce from the length it has received, in `uint32_t` arithmetic: a `Run` tells whether
it wrapped around.
-/

namespace S2OPC
namespace UserToken

open Codec Encoder List Option

inductive SecurityPolicy where
  | none
  | basic256
  | basic256Sha256
  | aes128Sha256RsaOaep
  | aes256Sha256RsaPss
  deriving DecidableEq

def nonceLength : SecurityPolicy → Nat
  | .none => 0
  | _ => 32

structure Cipher where
  encryptedLength : Nat → Nat
  encrypt : List UInt8 → List UInt8
  length_encrypt : ∀ x, (encrypt x).length = encryptedLength x.length
  decrypt : List UInt8 → Option (List UInt8)
  decrypt_encrypt : ∀ x, decrypt (encrypt x) = some x
  length_decrypt_le : ∀ c x, decrypt c = some x → x.length ≤ c.length

structure UserNameToken where
  userName : ByteString
  policyId : ByteString
  password : ByteString
  deriving DecidableEq

inductive Outcome (α : Type) where
  | accepted (a : α)
  | rejected
  | undefined
  deriving DecidableEq

/-- An outcome, and whether unsigned arithmetic wrapped around on the way. -/
structure Run (α : Type) where
  outcome : Outcome α
  wraps : Bool
  deriving DecidableEq

def decryptedBuffer (content : List UInt8) (h : content.length < 2 ^ 32) : Buffer where
  data := content
  position := 0
  length := content.length
  initialSize := content.length
  maximumSize := content.length
  position_le := Nat.zero_le _
  length_le := Nat.le_refl _
  size_le := Nat.le_refl _
  maximumSize_lt := h

/-- `internal_compare_user_decrypted_password_nonce`. That the announced length is not the length
of the content is logged only. `levels + 1` is `max_nested_struct`. -/
def comparePasswordNonce (levels lenNonce : Nat) (serverNonce content : List UInt8)
    (h : content.length < 2 ^ 32) : Run UInt32 :=
  if lenNonce ≠ serverNonce.length then ⟨.rejected, false⟩
  else
    match uint32Read (levels + 1) (decryptedBuffer content h) with
    | .error _ _ => ⟨.rejected, false⟩
    | .ok totalLength _ =>
      let pwdLength := totalLength - UInt32.ofNat lenNonce
      let offset := (4 + pwdLength).toNat
      let wraps := decide (totalLength.toNat < lenNonce ∨ 2 ^ 32 ≤ 4 + pwdLength.toNat)
      if content.length < offset + lenNonce then ⟨.undefined, wraps⟩
      else if (content.drop offset).take lenNonce = serverNonce then ⟨.accepted pwdLength, wraps⟩
      else ⟨.rejected, wraps⟩

theorem length_password_lt (content : List UInt8) (h : content.length < 2 ^ 31)
    (passwordLength : Nat) :
    ∀ l ∈ some ((content.drop 4).take passwordLength), l.length < 2 ^ 31 := by
  simp only [mem_def, some.injEq, forall_eq', length_take, length_drop]; omega

/-- The decrypted token: the password is what lies between the length and the nonce. -/
def decryptedToken (token : UserNameToken) (content : List UInt8) (h : content.length < 2 ^ 31)
    (passwordLength : Nat) : UserNameToken where
  userName := token.userName
  policyId := token.policyId
  password := ⟨some ((content.drop 4).take passwordLength),
    length_password_lt content h passwordLength⟩

def checkContent (levels : Nat) (policy : SecurityPolicy) (serverNonce : List UInt8)
    (token : UserNameToken) (content : List UInt8) (h : content.length < 2 ^ 31) :
    Run UserNameToken :=
  let r := comparePasswordNonce levels (nonceLength policy) serverNonce content (by omega)
  match r.outcome with
  | .rejected => ⟨.rejected, r.wraps⟩
  | .undefined => ⟨.undefined, r.wraps⟩
  | .accepted passwordLength =>
    if content.length < 4 + passwordLength.toNat then ⟨.undefined, r.wraps⟩
    else ⟨.accepted (decryptedToken token content h passwordLength.toNat), r.wraps⟩

def decryptUserToken (cipher : Cipher) (levels : Nat) (policy : SecurityPolicy)
    (serverNonce : List UInt8) (token : UserNameToken) : Run UserNameToken :=
  if policy = .none then ⟨.accepted token, false⟩
  else if token.password.length ≤ 0 then ⟨.rejected, false⟩
  else
    match h : cipher.decrypt token.password.toList with
    | none => ⟨.rejected, false⟩
    | some content =>
      checkContent levels policy serverNonce token content (by
        have := cipher.length_decrypt_le _ _ h
        have := token.password.length_toList_lt
        omega)

inductive ClearPassword where
  | unallocated
  | allocated (bytes : List UInt8) (h : bytes.length < 2 ^ 31)
  deriving DecidableEq

namespace ClearPassword

def data : ClearPassword → Option (List UInt8)
  | unallocated => none
  | allocated bytes _ => some bytes

def bytes (p : ClearPassword) : List UInt8 := p.data.getD []

theorem length_bytes_lt (p : ClearPassword) : p.bytes.length < 2 ^ 31 := by
  cases p with
  | unallocated => simp [bytes, data]
  | allocated bs h => exact h

end ClearPassword

structure ClearToken where
  userName : ByteString
  policyId : ByteString
  password : ClearPassword

def clearTextWrite (levels : Nat) (serverNonce : List UInt8) (password : ClearPassword)
    (lenNonce : Nat) : BufferM Unit := do
  uint32Write (UInt32.ofNat (password.bytes.length + lenNonce)) (levels + 1)
  Buffer.write password.data
  Buffer.write (some serverNonce)

theorem nonceLength_le (policy : SecurityPolicy) : nonceLength policy ≤ 32 := by
  cases policy <;> decide

/-- The string whose `Length` is the cast of the size of `bs` to `int32_t`; a negative length is
that of the null string. -/
def stringOfSize (bs : List UInt8) : ByteString :=
  if h : bs.length < 2 ^ 31 then
    ⟨some bs, by simpa only [mem_def, some.injEq, forall_eq'] using h⟩
  else .null

/-- The length of the encryption is computed in `uint32_t`: when it does not fit, the encryption is
written to a buffer that is too small. -/
def encryptUserToken (cipher : Cipher) (levels : Nat) (policy : SecurityPolicy)
    (serverNonce : List UInt8) (token : ClearToken) : Outcome UserNameToken :=
  if policy = .none then
    .accepted ⟨token.userName, token.policyId, stringOfSize token.password.bytes⟩
  else if serverNonce.length ≠ nonceLength policy then .rejected
  else
    let size := 4 + token.password.bytes.length + nonceLength policy
    have hsize : size < 2 ^ 32 := by
      have := token.password.length_bytes_lt
      have := nonceLength_le policy
      omega
    match clearTextWrite levels serverNonce token.password (nonceLength policy)
        (Buffer.create size hsize) with
    | .error _ _ => .rejected
    | .ok _ b =>
      if cipher.encryptedLength size % 2 ^ 32 = 0 then .rejected
      else if cipher.encryptedLength size ≥ 2 ^ 32 then .undefined
      else .accepted ⟨token.userName, token.policyId, stringOfSize (cipher.encrypt b.data)⟩

def lengthField (content : List UInt8) : Nat := ofLeBytes (content.take 4)

/-- The bytes where the nonce is looked for, given an announced length that fits. -/
def nonceField (serverNonce content : List UInt8) : List UInt8 :=
  (content.drop (4 + (lengthField content - serverNonce.length))).take serverNonce.length

theorem ofLeBytes_lt (bs : List UInt8) : ofLeBytes bs < 256 ^ bs.length := by
  induction bs with
  | nil => decide
  | cons b bs ih => have hb := b.toNat_lt; rw [ofLeBytes, length_cons, Nat.pow_succ]; omega

theorem lengthField_lt (content : List UInt8) : lengthField content < 2 ^ 32 := by
  have h := ofLeBytes_lt (content.take 4)
  have hle : 256 ^ (content.take 4).length ≤ 256 ^ 4 :=
    Nat.pow_le_pow_right (by decide) (length_take_le 4 content)
  exact Nat.lt_of_lt_of_le h hle

variable {content serverNonce : List UInt8}

theorem uint32Read_short (h : content.length < 2 ^ 32) (levels : Nat) (hlen : content.length < 4) :
    ∃ e b, uint32Read (levels + 1) (decryptedBuffer content h) = .error e b := by
  have hread : Buffer.read 4 (decryptedBuffer content h)
      = .error .outOfMemory (decryptedBuffer content h) := by
    unfold Buffer.read
    exact if_neg (by simp only [decryptedBuffer]; omega)
  cases hr : uint32Read (levels + 1) (decryptedBuffer content h) with
  | error e b => exact ⟨e, b, rfl⟩
  | ok v b =>
    obtain ⟨_, t, hword, _⟩ := bind_ok.mp hr
    obtain ⟨_, t', hbytes, _⟩ := bind_ok.mp hword
    rw [mapError_ok, hread] at hbytes
    cases hbytes

theorem uint32Read_long (h : content.length < 2 ^ 32) (levels : Nat) (hlen : 4 ≤ content.length) :
    ∃ b, uint32Read (levels + 1) (decryptedBuffer content h)
      = .ok (UInt32.ofNat (lengthField content)) b := by
  have hfour : (content.take 4).length = 4 := by simp [hlen]
  have hreads : Reads (uint32Read (levels + 1)) (content.take 4)
      (UInt32.ofNat (lengthField content)) := by
    have hbytes := (reads_read_of_length hfour).mapError (f := readError)
    exact Reads.finish (hbytes.finish rfl) rfl
  have htape : (Tape.bytes (decryptedBuffer content h)).drop
      (Tape.pos (decryptedBuffer content h)) = content.take 4 ++ content.drop 4 := by
    simp [decryptedBuffer]
  obtain ⟨b, hok, -⟩ := hreads htape
  exact ⟨b, hok⟩

theorem comparePasswordNonce_long (h : content.length < 2 ^ 31) (levels : Nat)
    (hfour : 4 ≤ serverNonce.length) (hlen : 4 ≤ content.length)
    (hle : serverNonce.length ≤ lengthField content) :
    comparePasswordNonce levels serverNonce.length serverNonce content (by omega) =
      if content.length < 4 + lengthField content then ⟨.undefined, false⟩
      else if nonceField serverNonce content = serverNonce then
        ⟨.accepted (UInt32.ofNat (lengthField content - serverNonce.length)), false⟩
      else ⟨.rejected, false⟩ := by
  obtain ⟨b, hread⟩ := uint32Read_long (by omega : content.length < 2 ^ 32) levels hlen
  have hL := lengthField_lt content
  have hpwd : UInt32.ofNat (lengthField content) - UInt32.ofNat serverNonce.length
      = UInt32.ofNat (lengthField content - serverNonce.length) := (UInt32.ofNat_sub hle).symm
  have hpwdNat : (UInt32.ofNat (lengthField content - serverNonce.length)).toNat
      = lengthField content - serverNonce.length := UInt32.toNat_ofNat_of_lt' (by
    show _ < 2 ^ 32
    omega)
  have hoff : (4 + UInt32.ofNat (lengthField content - serverNonce.length)).toNat
      = 4 + (lengthField content - serverNonce.length) := by
    rw [UInt32.toNat_add, hpwdNat]
    refine Nat.mod_eq_of_lt ?_
    show 4 + _ < _
    omega
  have hwraps : ¬ ((UInt32.ofNat (lengthField content)).toNat < serverNonce.length ∨
      2 ^ 32 ≤ 4 + (lengthField content - serverNonce.length)) := by
    rw [UInt32.toNat_ofNat_of_lt' hL]
    omega
  have hsum : 4 + (lengthField content - serverNonce.length) + serverNonce.length
      = 4 + lengthField content := by omega
  simp only [comparePasswordNonce, ne_eq, not_true_eq_false, if_false, hread, hpwd, hoff, hpwdNat,
    decide_eq_false hwraps, hsum, nonceField]
  rfl

section Content

variable {levels : Nat} {policy : SecurityPolicy} {serverNonce content : List UInt8}
  {token : UserNameToken} (hpolicy : policy ≠ .none)
  (hnonce : serverNonce.length = nonceLength policy) (h : content.length < 2 ^ 31)

include hpolicy in
theorem nonceLength_eq : nonceLength policy = 32 := by
  cases policy with
  | none => exact absurd rfl hpolicy
  | _ => rfl

include hnonce in
theorem checkContent_short (hlen : content.length < 4) :
    checkContent levels policy serverNonce token content h = ⟨.rejected, false⟩ := by
  obtain ⟨e, b, hread⟩ := uint32Read_short (by omega : content.length < 2 ^ 32) levels hlen
  simp [checkContent, comparePasswordNonce, hnonce, hread]

theorem checkContent_wraps_eq :
    (checkContent levels policy serverNonce token content h).wraps =
      (comparePasswordNonce levels (nonceLength policy) serverNonce content (by omega)).wraps := by
  unfold checkContent
  simp only
  split
  · rfl
  · rfl
  · split <;> rfl

include hnonce in
theorem checkContent_wraps (hlen : 4 ≤ content.length)
    (hlt : lengthField content < serverNonce.length) :
    (checkContent levels policy serverNonce token content h).wraps = true := by
  obtain ⟨b, hread⟩ := uint32Read_long (by omega : content.length < 2 ^ 32) levels hlen
  have hwraps : (UInt32.ofNat (lengthField content)).toNat < nonceLength policy := by
    rw [UInt32.toNat_ofNat_of_lt' (lengthField_lt content)]
    omega
  rw [checkContent_wraps_eq]
  simp only [comparePasswordNonce, hnonce, ne_eq, not_true_eq_false, if_false, hread,
    decide_eq_true (Or.inl hwraps)]
  split
  · rfl
  · split <;> rfl

include hpolicy hnonce in
theorem checkContent_long (hlen : 4 ≤ content.length)
    (hle : serverNonce.length ≤ lengthField content) :
    checkContent levels policy serverNonce token content h =
      if content.length < 4 + lengthField content then ⟨.undefined, false⟩
      else if nonceField serverNonce content = serverNonce then
        ⟨.accepted (decryptedToken token content h (lengthField content - serverNonce.length)),
          false⟩
      else ⟨.rejected, false⟩ := by
  have hL := lengthField_lt content
  have hpwd : (UInt32.ofNat (lengthField content - serverNonce.length)).toNat
      = lengthField content - serverNonce.length := UInt32.toNat_ofNat_of_lt' (by
    show _ < 2 ^ 32
    omega)
  have hfour : 4 ≤ serverNonce.length := by rw [hnonce, nonceLength_eq hpolicy]; decide
  have hcompare := comparePasswordNonce_long h levels hfour hlen hle
  simp only [checkContent, ← hnonce]
  rw [hcompare]
  by_cases hout : content.length < 4 + lengthField content
  · simp only [if_pos hout]
  · by_cases hfield : nonceField serverNonce content = serverNonce
    · simp only [if_neg hout, if_pos hfield, hpwd]; rw [if_neg (by omega)]
    · simp only [if_neg hout, if_neg hfield]

end Content

/-- The format of the content: a length field of four bytes, the password and the nonce, where the
length field tells the number of bytes that follow it. -/
def Announces (serverNonce content p : List UInt8) : Prop :=
  ∃ field : List UInt8, field.length = 4 ∧ content = field ++ (p ++ serverNonce) ∧
    ofLeBytes field = (p ++ serverNonce).length

theorem announces_iff {p : List UInt8} :
    Announces serverNonce content p ↔
      4 ≤ content.length ∧ 4 + lengthField content = content.length ∧
        serverNonce.length ≤ lengthField content ∧
        p = (content.drop 4).take (lengthField content - serverNonce.length) ∧
        nonceField serverNonce content = serverNonce := by
  constructor
  · rintro ⟨field, hfield, rfl, hL⟩
    have hdrop : (field ++ (p ++ serverNonce)).drop 4 = p ++ serverNonce := by
      rw [← hfield, drop_left]
    have hlength : lengthField (field ++ (p ++ serverNonce)) = p.length + serverNonce.length := by
      rw [lengthField, ← hfield, take_left, hL, length_append]
    refine ⟨by simp [hfield], ?_, by omega, ?_, ?_⟩
    · simp [hlength, hfield]
    · rw [hdrop, hlength, Nat.add_sub_cancel, take_left]
    · rw [nonceField, hlength, Nat.add_sub_cancel, ← drop_drop, hdrop, drop_left,
        take_length]
  · rintro ⟨hlen, htotal, hle, rfl, hnonce⟩
    have hrest : (content.drop 4).take (lengthField content - serverNonce.length) ++ serverNonce
        = content.drop 4 := by
      have hlast : (content.drop 4).drop (lengthField content - serverNonce.length)
          = serverNonce := by
        rw [nonceField, take_of_length_le, ← drop_drop] at hnonce
        · exact hnonce
        · rw [length_drop]; omega
      conv_rhs => rw [← take_append_drop (lengthField content - serverNonce.length)
        (content.drop 4), hlast]
    refine ⟨content.take 4, by simp [hlen], ?_, ?_⟩
    · rw [hrest, take_append_drop]
    · rw [hrest, length_drop, ← lengthField]; omega

/-- What the server should do with a content: without wrapping around nor leaving the content,
accept it exactly when it has the format, and then return the password it holds. -/
def DecryptsAsAnnounced (cipher : Cipher) (levels : Nat) (policy : SecurityPolicy)
    (serverNonce : List UInt8) (token : UserNameToken) (content : List UInt8) : Prop :=
  (decryptUserToken cipher levels policy serverNonce token).wraps = false ∧
  (decryptUserToken cipher levels policy serverNonce token).outcome ≠ .undefined ∧
  ∀ t, (decryptUserToken cipher levels policy serverNonce token).outcome = .accepted t ↔
    ∃ p, Announces serverNonce content p ∧ t.password.bytes = some p ∧
      t.userName = token.userName ∧ t.policyId = token.policyId

/-- The content is too short for a length field, or its length field announces at least the nonce
and no more than the bytes that follow, all of them unless the nonce is not found. -/
def WellAnnounced (serverNonce content : List UInt8) : Prop :=
  content.length < 4 ∨
    (serverNonce.length ≤ lengthField content ∧ 4 + lengthField content ≤ content.length ∧
      (4 + lengthField content = content.length ∨ nonceField serverNonce content ≠ serverNonce))

instance (serverNonce content : List UInt8) : Decidable (WellAnnounced serverNonce content) := by
  unfold WellAnnounced; infer_instance

section Decryption

variable {cipher : Cipher} {levels : Nat} {policy : SecurityPolicy} {serverNonce : List UInt8}
  {content : List UInt8} {token : UserNameToken} (hpolicy : policy ≠ .none)
  (hnonce : serverNonce.length = nonceLength policy)
  (hcontent : cipher.decrypt token.password.toList = some content)

include hcontent in
theorem length_content_lt : content.length < 2 ^ 31 := by
  have := cipher.length_decrypt_le _ _ hcontent
  have := token.password.length_toList_lt
  omega

include hpolicy hnonce in
/-- An empty password is not decrypted; its content would be too short anyway. -/
theorem decryptUserToken_eq :
    decryptUserToken cipher levels policy serverNonce token =
      checkContent levels policy serverNonce token content (length_content_lt hcontent) := by
  unfold decryptUserToken
  rw [if_neg hpolicy]
  split
  · rename_i hempty
    have hlen : content.length < 4 := by
      have hle := cipher.length_decrypt_le _ _ hcontent
      rw [ByteString.toList_of_length_nonpos hempty, length_nil] at hle
      omega
    rw [checkContent_short hnonce _ hlen]
  · split
    · rename_i hnone; rw [hcontent] at hnone; cases hnone
    · rename_i c hsome
      have hc : c = content := by rw [hcontent] at hsome; exact (Option.some.inj hsome).symm
      subst hc; rfl

theorem accepted_iff {h : content.length < 2 ^ 31} {t : UserNameToken}
    (hp : Announces serverNonce content
      ((content.drop 4).take (lengthField content - serverNonce.length))) :
    (.accepted (decryptedToken token content h (lengthField content - serverNonce.length)) :
        Outcome UserNameToken) = .accepted t ↔
      ∃ p, Announces serverNonce content p ∧ t.password.bytes = some p ∧
        t.userName = token.userName ∧ t.policyId = token.policyId := by
  constructor
  · intro heq; cases heq; exact ⟨_, hp, rfl, rfl, rfl⟩
  · rintro ⟨p, hp', hbytes, huser, hpolicyId⟩; obtain ⟨-, -, -, rfl, -⟩ := announces_iff.mp hp'
    obtain ⟨userName, policyId, ⟨bytes, hlt⟩⟩ := t
    cases huser; cases hpolicyId
    cases hbytes; rfl

include hpolicy hnonce hcontent in
/-- The announced length is only used, not checked: where it is wrong, the subtraction of the nonce
length wraps around, bytes beyond the content are compared, or bytes are left over. -/
theorem decryptUserToken_iff :
    DecryptsAsAnnounced cipher levels policy serverNonce token content ↔
      WellAnnounced serverNonce content := by
  unfold DecryptsAsAnnounced WellAnnounced
  rw [decryptUserToken_eq hpolicy hnonce hcontent]
  by_cases hlen : content.length < 4
  · simp only [checkContent_short hnonce _ hlen, hlen, true_or, iff_true, ne_eq, reduceCtorEq,
      not_false_eq_true, true_and, false_iff, not_exists]
    rintro t p ⟨hp, -⟩; have := (announces_iff.mp hp).1
    omega
  · by_cases hle : serverNonce.length ≤ lengthField content
    · rw [checkContent_long hpolicy hnonce _ (by omega) hle]
      by_cases hout : content.length < 4 + lengthField content
      · have hbeyond : ¬ 4 + lengthField content ≤ content.length := by omega
        simp [hlen, hout, hbeyond]
      have hinside : 4 + lengthField content ≤ content.length := by omega
      by_cases hfield : nonceField serverNonce content = serverNonce
      · rw [if_neg hout, if_pos hfield]
        simp only [true_and, ne_eq, reduceCtorEq, not_false_eq_true, hlen, hle, hfield,
          not_true_eq_false, or_false, false_or, hinside]
        constructor
        · intro h; obtain ⟨p, hp, -⟩ := (h _).mp rfl; exact (announces_iff.mp hp).2.1
        · intro htotal t
          exact accepted_iff (announces_iff.mpr ⟨by omega, htotal, hle, rfl, hfield⟩)
      · rw [if_neg hout, if_neg hfield]
        have hnot : ∀ p, ¬ Announces serverNonce content p := fun p hp =>
          hfield (announces_iff.mp hp).2.2.2.2
        simp [hle, hfield, hnot, hinside]
    · rw [checkContent_wraps hnonce _ (by omega) (by omega)]; simp [hlen, hle]

end Decryption

def clearText (serverNonce p : List UInt8) : List UInt8 :=
  leBytes 4 (p.length + serverNonce.length) ++ (p ++ serverNonce)

/-- The buffer has exactly the size of the clear text, so that it is full in the end. -/
theorem clearTextWrite_ok {p : List UInt8} (levels : Nat) (hp : p.length < 2 ^ 31)
    (hsize : 4 + p.length + serverNonce.length < 2 ^ 32) :
    ∃ b, clearTextWrite levels serverNonce (.allocated p hp) serverNonce.length
        (Buffer.create (4 + p.length + serverNonce.length) hsize) = .ok () b ∧
      b.data = clearText serverNonce p := by
  have hvalue : (UInt32.ofNat (p.length + serverNonce.length)).toNat
      = p.length + serverNonce.length := UInt32.toNat_ofNat_of_lt' (by
    show _ < 2 ^ 32
    omega)
  have hcreate : (Buffer.create (4 + p.length + serverNonce.length) hsize).data
      = [] ++ List.replicate (4 + p.length + serverNonce.length) 0 := rfl
  obtain ⟨b₁, hw₁, hdata₁, hpos₁⟩ := Buffer.write_append
    (leBytes 4 (p.length + serverNonce.length)) hcreate rfl (by simp; omega)
  rw [length_leBytes, drop_replicate] at hdata₁
  obtain ⟨b₂, hw₂, hdata₂, hpos₂⟩ := Buffer.write_append p hdata₁ hpos₁ (by simp; omega)
  rw [drop_replicate] at hdata₂
  obtain ⟨b₃, hw₃, hdata₃, -⟩ := Buffer.write_append serverNonce hdata₂ hpos₂ (by simp; omega)
  refine ⟨b₃, ?_, ?_⟩
  · have hlength : uint32Write (UInt32.ofNat (p.length + serverNonce.length)) (levels + 1)
        (Buffer.create (4 + p.length + serverNonce.length) hsize) = .ok () b₁ := by
      unfold uint32Write
      rw [hvalue]
      exact mapError_ok.mpr hw₁
    exact (bind_of_ok hlength _).trans ((bind_of_ok hw₂ _).trans hw₃)
  · rw [hdata₃, drop_of_length_le (by simp; omega), clearText]; simp

theorem clearTextWrite_unallocated (levels lenNonce : Nat) (b : Buffer) :
    ∃ e b', clearTextWrite levels serverNonce .unallocated lenNonce b = .error e b' := by
  cases hr : clearTextWrite levels serverNonce .unallocated lenNonce b with
  | error e b' => exact ⟨e, b', rfl⟩
  | ok _ b' =>
    obtain ⟨_, t, _, hrest⟩ := bind_ok.mp hr
    obtain ⟨_, t', hpassword, _⟩ := bind_ok.mp hrest
    cases hpassword

theorem announces_clearText {p : List UInt8} (hsize : p.length + serverNonce.length < 2 ^ 32) :
    Announces serverNonce (clearText serverNonce p) p := by
  refine ⟨leBytes 4 (p.length + serverNonce.length), length_leBytes _ _, rfl, ?_⟩
  rw [ofLeBytes_leBytes, length_append]
  exact Nat.mod_eq_of_lt hsize

theorem length_clearText {p : List UInt8} :
    (clearText serverNonce p).length = 4 + p.length + serverNonce.length := by
  simp [clearText, Nat.add_assoc]

def GivesBack (cipher : Cipher) (levels : Nat) (policy : SecurityPolicy)
    (serverNonce : List UInt8) (token : ClearToken) : Prop :=
  ∃ encrypted decrypted,
    encryptUserToken cipher levels policy serverNonce token = .accepted encrypted ∧
    decryptUserToken cipher levels policy serverNonce encrypted = ⟨.accepted decrypted, false⟩ ∧
    decrypted.password.toList = token.password.bytes

section Encryption

variable {cipher : Cipher} {levels : Nat} {policy : SecurityPolicy} {serverNonce : List UInt8}
  (hpolicy : policy ≠ .none) (hnonce : serverNonce.length = nonceLength policy)

include hpolicy hnonce in
theorem encryptUserToken_unallocated (userName policyId : ByteString) :
    encryptUserToken cipher levels policy serverNonce ⟨userName, policyId, .unallocated⟩
      = .rejected := by
  unfold encryptUserToken
  simp only [if_neg hpolicy, hnonce, ne_eq, not_true_eq_false, if_false]
  split
  · rfl
  · rename_i hw; obtain ⟨e, b', he⟩ := clearTextWrite_unallocated levels (nonceLength policy) _
    rw [he] at hw
    cases hw

include hpolicy hnonce in
theorem encryptUserToken_allocated (userName policyId : ByteString) {p : List UInt8}
    (hp : p.length < 2 ^ 31) :
    encryptUserToken cipher levels policy serverNonce ⟨userName, policyId, .allocated p hp⟩ =
      if cipher.encryptedLength (4 + p.length + serverNonce.length) % 2 ^ 32 = 0 then .rejected
      else if cipher.encryptedLength (4 + p.length + serverNonce.length) ≥ 2 ^ 32 then .undefined
      else .accepted
        ⟨userName, policyId, stringOfSize (cipher.encrypt (clearText serverNonce p))⟩ := by
  have hn := nonceLength_le policy
  obtain ⟨b, hw, hdata⟩ := clearTextWrite_ok levels hp
    (by omega : 4 + p.length + serverNonce.length < 2 ^ 32)
  unfold encryptUserToken
  simp only [if_neg hpolicy, ← hnonce, ne_eq, not_true_eq_false, if_false]
  have hbytes : (ClearPassword.allocated p hp).bytes = p := rfl
  simp [hbytes, hw, hdata]

include hpolicy in
theorem decryptUserToken_null (userName policyId : ByteString) :
    decryptUserToken cipher levels policy serverNonce ⟨userName, policyId, .null⟩
      = ⟨.rejected, false⟩ := by
  unfold decryptUserToken
  rw [if_neg hpolicy]
  exact if_pos (by simp [ByteString.null, ByteString.length])

include hpolicy hnonce in
theorem givesBack_of_short (userName policyId : ByteString) {p : List UInt8}
    (hp : p.length < 2 ^ 31)
    (hshort : cipher.encryptedLength (4 + p.length + serverNonce.length) < 2 ^ 31) :
    GivesBack cipher levels policy serverNonce ⟨userName, policyId, .allocated p hp⟩ := by
  have hn := nonceLength_le policy
  have hlength := cipher.length_encrypt (clearText serverNonce p)
  have hle := cipher.length_decrypt_le _ _ (cipher.decrypt_encrypt (clearText serverNonce p))
  rw [length_clearText] at hlength hle
  have hstring : (stringOfSize (cipher.encrypt (clearText serverNonce p))).toList
      = cipher.encrypt (clearText serverNonce p) := by
    rw [stringOfSize, dif_pos (by omega)]
    rfl
  have hcontent : cipher.decrypt (stringOfSize (cipher.encrypt (clearText serverNonce p))).toList
      = some (clearText serverNonce p) := by
    rw [hstring, cipher.decrypt_encrypt]
  let encrypted : UserNameToken :=
    ⟨userName, policyId, stringOfSize (cipher.encrypt (clearText serverNonce p))⟩
  have hannounces : Announces serverNonce (clearText serverNonce p) p :=
    announces_clearText (by omega)
  obtain ⟨hlen, htotal, hnonceLe, -, -⟩ := announces_iff.mp hannounces
  have hdecrypts : DecryptsAsAnnounced cipher levels policy serverNonce encrypted
      (clearText serverNonce p) :=
    (decryptUserToken_iff hpolicy hnonce hcontent).mpr
      (Or.inr ⟨hnonceLe, by omega, Or.inl htotal⟩)
  obtain ⟨hwraps, -, haccepted⟩ := hdecrypts
  let decrypted : UserNameToken := ⟨userName, policyId, ⟨some p, by
    simpa only [mem_def, some.injEq, forall_eq'] using hp⟩⟩
  have houtcome := (haccepted decrypted).mpr ⟨p, hannounces, rfl, rfl, rfl⟩
  refine ⟨encrypted, decrypted, ?_, ?_, rfl⟩
  · rw [encryptUserToken_allocated hpolicy hnonce, if_neg (by omega), if_neg (by omega)]
  · cases hrun : decryptUserToken cipher levels policy serverNonce encrypted with
    | mk outcome wraps => rw [hrun] at houtcome hwraps; cases houtcome; cases hwraps; rfl

include hpolicy hnonce in
theorem encryptUserToken_iff (token : ClearToken) :
    GivesBack cipher levels policy serverNonce token ↔
      token.password ≠ .unallocated ∧
        cipher.encryptedLength (4 + token.password.bytes.length + serverNonce.length) < 2 ^ 31 := by
  obtain ⟨userName, policyId, password⟩ := token
  cases password with
  | unallocated => simp [GivesBack, encryptUserToken_unallocated hpolicy hnonce]
  | allocated p hp =>
    have hbytes : (ClearPassword.allocated p hp).bytes = p := rfl
    have hlength := cipher.length_encrypt (clearText serverNonce p)
    rw [length_clearText] at hlength
    simp only [ne_eq, reduceCtorEq, not_false_eq_true, true_and, hbytes]
    constructor
    · rintro ⟨encrypted, decrypted, henc, hdec, -⟩; by_contra hlong
      rw [encryptUserToken_allocated hpolicy hnonce] at henc
      split at henc
      · cases henc
      · split at henc
        · cases henc
        · cases henc; rw [stringOfSize, dif_neg (by omega), decryptUserToken_null hpolicy] at hdec
          cases hdec
    · intro hshort; exact givesBack_of_short hpolicy hnonce userName policyId hp hshort

end Encryption

/-- The server follows the format exactly on the contents that are announced well, and the client's
token gives the password back exactly when the password has storage and its encryption is a
string. -/
theorem encrypted_password_iff (cipher : Cipher) (levels : Nat) (policy : SecurityPolicy)
    (serverNonce : List UInt8) (hpolicy : policy ≠ .none)
    (hnonce : serverNonce.length = nonceLength policy) :
    (∀ (token : UserNameToken) (content : List UInt8),
      cipher.decrypt token.password.toList = some content →
        (DecryptsAsAnnounced cipher levels policy serverNonce token content ↔
          WellAnnounced serverNonce content)) ∧
    ∀ token : ClearToken,
      GivesBack cipher levels policy serverNonce token ↔
        token.password ≠ .unallocated ∧
          cipher.encryptedLength (4 + token.password.bytes.length + serverNonce.length)
            < 2 ^ 31 :=
  ⟨fun _ _ hcontent => decryptUserToken_iff hpolicy hnonce hcontent,
    encryptUserToken_iff hpolicy hnonce⟩

def plainCipher : Cipher where
  encryptedLength := id
  encrypt := id
  length_encrypt _ := rfl
  decrypt := some
  decrypt_encrypt _ := rfl
  length_decrypt_le c x h := by cases h; exact Nat.le_refl _

def sampleNonce : List UInt8 := List.replicate 32 7

def sampleToken (content : List UInt8) (h : content.length < 2 ^ 31) : UserNameToken where
  userName := .null
  policyId := .null
  password := ⟨some content, by
    simpa only [mem_def, some.injEq, forall_eq'] using h⟩

theorem sample_password_accepted :
    DecryptsAsAnnounced plainCipher 100 .basic256Sha256 sampleNonce
      (sampleToken ([34, 0, 0, 0, 1, 2] ++ sampleNonce) (by decide))
      ([34, 0, 0, 0, 1, 2] ++ sampleNonce) ∧
    GivesBack plainCipher 100 .basic256Sha256 sampleNonce
      ⟨.null, .null, .allocated [1, 2] (by decide)⟩ := by
  have h := encrypted_password_iff plainCipher 100 .basic256Sha256 sampleNonce (by decide)
    (by decide)
  exact ⟨(h.1 _ _ rfl).mpr (by decide), (h.2 _).mpr ⟨by decide, by decide⟩⟩

/-- An announced length of 32 before 33 bytes is accepted, one of 0 wraps around, and the null
password is not encrypted. -/
theorem wrong_length_accepted_null_password_refused :
    ¬ DecryptsAsAnnounced plainCipher 100 .basic256Sha256 sampleNonce
      (sampleToken ([32, 0, 0, 0] ++ sampleNonce ++ [9]) (by decide))
      ([32, 0, 0, 0] ++ sampleNonce ++ [9]) ∧
    ¬ DecryptsAsAnnounced plainCipher 100 .basic256Sha256 sampleNonce
      (sampleToken ([0, 0, 0, 0] ++ sampleNonce) (by decide)) ([0, 0, 0, 0] ++ sampleNonce) ∧
    ¬ GivesBack plainCipher 100 .basic256Sha256 sampleNonce ⟨.null, .null, .unallocated⟩ := by
  have hpolicy : SecurityPolicy.basic256Sha256 ≠ .none := by decide
  have hnonce : sampleNonce.length = nonceLength .basic256Sha256 := by decide
  refine ⟨?_, ?_, ?_⟩
  · rw [decryptUserToken_iff hpolicy hnonce rfl]; decide
  · rw [decryptUserToken_iff hpolicy hnonce rfl]; decide
  · rw [encryptUserToken_iff hpolicy hnonce]; decide

end UserToken
end S2OPC
