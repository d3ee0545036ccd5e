import S2OPC.Services.UserToken

/-!
# S2OPC.Services.PasswordPolicy

Which security policy protects the password of a user name token: the check of the endpoint
configurations (`sopc_toolkit_config.c`), and the choice of a user token policy when a session is
activated (`user_authentication_bs.c`, `util_user.c`).

The check compares strings with `SOPC_String_Equal`. The choice compares as many characters as the given
URI has, so that a URI cut short is taken for the first policy it is the beginning of, which is None.
-/

namespace S2OPC
namespace PasswordPolicy

open List

open UserToken (SecurityPolicy)

def cText (s : String) : List UInt8 := s.toList.map fun c => UInt8.ofNat c.toNat

def noneUri : List UInt8 := cText "http://opcfoundation.org/UA/SecurityPolicy#None"

def basic256Uri : List UInt8 := cText "http://opcfoundation.org/UA/SecurityPolicy#Basic256"

def basic256Sha256Uri : List UInt8 := cText "http://opcfoundation.org/UA/SecurityPolicy#Basic256Sha256"

def aes128Sha256RsaOaepUri : List UInt8 :=
  cText "http://opcfoundation.org/UA/SecurityPolicy#Aes128_Sha256_RsaOaep"

def aes256Sha256RsaPssUri : List UInt8 :=
  cText "http://opcfoundation.org/UA/SecurityPolicy#Aes256_Sha256_RsaPss"

inductive SecurityMode where
  | invalid
  | none
  | sign
  | signAndEncrypt
  deriving DecidableEq

inductive TokenType where
  | anonymous
  | userName
  | certificate
  | issuedToken
  | other
  deriving DecidableEq

structure UserTokenPolicy where
  policyId : ByteString
  tokenType : TokenType
  securityPolicyUri : ByteString

structure SecurityConfig where
  securityPolicy : ByteString
  securityModes : UInt16
  userTokenPolicies : List UserTokenPolicy

structure EndpointConfig where
  secuConfigurations : List SecurityConfig

structure ChannelConfig where
  reqSecuPolicyUri : List UInt8
  msgSecurityMode : SecurityMode

def modeNoneMask : UInt16 := 1

def modeSignMask : UInt16 := 2

def modeSignAndEncryptMask : UInt16 := 4

def modeIncluded (mode : SecurityMode) (securityModes : UInt16) : Bool :=
  match mode with
  | .invalid => false
  | .none => securityModes &&& modeNoneMask != 0
  | .sign => securityModes &&& modeSignMask != 0
  | .signAndEncrypt => securityModes &&& modeSignAndEncryptMask != 0

theorem length_noneUri_lt : ∀ l ∈ some noneUri, l.length < 2 ^ 31 := by
  intro l hl; cases hl; decide

def noneString : ByteString := ⟨some noneUri, length_noneUri_lt⟩

def userCredentialsEncrypted (secu : SecurityConfig) (policy : UserTokenPolicy) : Bool :=
  if secu.securityModes &&& modeNoneMask ≠ 0 ∧ policy.securityPolicyUri.length ≤ 0 then false
  else if secu.securityModes &&& (modeSignMask ||| modeNoneMask) ≠ 0 ∧
      ByteString.stringEqual policy.securityPolicyUri noneString = true then false
  else true

def secuConfigChecked (secu : SecurityConfig) : Bool :=
  (secu.userTokenPolicies.all fun policy =>
    policy.tokenType == .anonymous || userCredentialsEncrypted secu policy) &&
  (ByteString.stringEqual secu.securityPolicy noneString ||
    secu.securityModes &&& modeNoneMask == 0)

/-- `SOPC_ToolkitServer_SecurityCheck`; a failure is remembered, and the loops go on. -/
def securityCheck (endpoints : List EndpointConfig) : Except Status Unit :=
  if endpoints.all fun endpoint => endpoint.secuConfigurations.all secuConfigChecked then .ok ()
  else .error .invalidParameters

structure ToolkitState where
  initDone : Bool
  serverConfigLocked : Bool
  addressSpaceConfigured : Bool

def serverConfigured (state : ToolkitState) (endpoints : List EndpointConfig) : Except Status Unit :=
  if state.initDone = true ∧ state.serverConfigLocked = false then
    if endpoints.length > 0 ∧ state.addressSpaceConfigured = true then securityCheck endpoints
    else .error .invalidParameters
  else .error .invalidState

def getRawCString (s : ByteString) : Option (List UInt8) :=
  if s.length > 0 then some s.cString else none

/-- `util_channel__SecurityPolicy_C_to_B`. Of the two strings, `strncmp` compares the length of the
first one. -/
def securityPolicyOfUri (uri : List UInt8) : Option SecurityPolicy :=
  if uri.isPrefixOf noneUri then some .none
  else if uri.isPrefixOf basic256Uri then some .basic256
  else if uri.isPrefixOf basic256Sha256Uri then some .basic256Sha256
  else if uri.isPrefixOf aes128Sha256RsaOaepUri then some .aes128Sha256RsaOaep
  else if uri.isPrefixOf aes256Sha256RsaPssUri then some .aes256Sha256RsaPss
  else none

def rsaOaep : List UInt8 := cText "http://www.w3.org/2001/04/xmlenc#rsa-oaep"

def rsaOaepSha2256 : List UInt8 := cText "http://opcfoundation.org/UA/security/rsa-oaep-sha2-256"

def checkEncryptionAlgorithm (secpol : SecurityPolicy) (encryptionAlgo : ByteString) : Option Bool :=
  match secpol with
  | .none => some (encryptionAlgo.length ≤ 0)
  | .basic256 => (getRawCString encryptionAlgo).map (rsaOaep == ·)
  | .basic256Sha256 => (getRawCString encryptionAlgo).map (rsaOaep == ·)
  | .aes128Sha256RsaOaep => (getRawCString encryptionAlgo).map (rsaOaep == ·)
  | .aes256Sha256RsaPss => (getRawCString encryptionAlgo).map (rsaOaepSha2256 == ·)

inductive Token where
  | anonymous
  | userName (policyId encryptionAlgorithm : ByteString)
  | x509 (policyId : ByteString)
  | issued (policyId encryptionAlgorithm : ByteString)
  | indeterminate

def effectivePolicy (channel : ChannelConfig) (policy : UserTokenPolicy) : Option SecurityPolicy :=
  if policy.securityPolicyUri.length ≤ 0 then securityPolicyOfUri channel.reqSecuPolicyUri
  else securityPolicyOfUri policy.securityPolicyUri.cString

/-- `util_check_user_token_policy_compliance` with the check of the encryption algorithm; `secpol` is
also written when the token does not comply. -/
def tokenPolicyCompliance (channel : ChannelConfig) (policy : UserTokenPolicy) (token : Token)
    (secpol : SecurityPolicy) : Option (Bool × SecurityPolicy) :=
  match effectivePolicy channel policy with
  | none => some (false, secpol)
  | some secpol =>
    match policy.tokenType, token with
    | .anonymous, .anonymous => some (true, secpol)
    | .userName, .userName policyId encryptionAlgo =>
      (checkEncryptionAlgorithm secpol encryptionAlgo).map fun b =>
        (b && ByteString.stringEqual policy.policyId policyId, secpol)
    | .certificate, .x509 policyId => some (ByteString.stringEqual policy.policyId policyId, secpol)
    | .issuedToken, .issued policyId encryptionAlgo =>
      (checkEncryptionAlgorithm secpol encryptionAlgo).map fun b =>
        (b && ByteString.stringEqual policy.policyId policyId, secpol)
    | _, _ => some (false, secpol)

def tokenPolicyLoop (channel : ChannelConfig) (token : Token) :
    List UserTokenPolicy → SecurityPolicy → Option (Bool × SecurityPolicy)
  | [], secpol => some (false, secpol)
  | policy :: rest, secpol =>
    match tokenPolicyCompliance channel policy token secpol with
    | none => none
    | some (true, secpol) => some (true, secpol)
    | some (false, secpol) => tokenPolicyLoop channel token rest secpol

def secuConfigLoop (channel : ChannelConfig) (token : Token) :
    List SecurityConfig → SecurityPolicy → Option (Bool × SecurityPolicy)
  | [], secpol => some (false, secpol)
  | secu :: rest, secpol =>
    match getRawCString secu.securityPolicy with
    | none => none
    | some uri =>
      if channel.reqSecuPolicyUri = uri ∧
          modeIncluded channel.msgSecurityMode secu.securityModes = true then
        match tokenPolicyLoop channel token secu.userTokenPolicies secpol with
        | none => none
        | some (true, secpol) => some (true, secpol)
        | some (false, secpol) => secuConfigLoop channel token rest secpol
      else secuConfigLoop channel token rest secpol

/-- Whether the token is supported, and the security policy chosen if it was looked for. -/
def isUserTokenSupported (channel : ChannelConfig) (endpoint : EndpointConfig) (token : Token) :
    Option (Bool × Option SecurityPolicy) :=
  match token with
  | .indeterminate => some (false, none)
  | token =>
    (secuConfigLoop channel token endpoint.secuConfigurations .basic256Sha256).map fun r =>
      (r.1, some r.2)

def SecurityConfig.matchesChannel (channel : ChannelConfig) (secu : SecurityConfig) : Bool :=
  channel.reqSecuPolicyUri == secu.securityPolicy.cString &&
    modeIncluded channel.msgSecurityMode secu.securityModes

def tried (channel : ChannelConfig) (secus : List SecurityConfig) : List UserTokenPolicy :=
  ((secus.takeWhile fun secu => 0 < secu.securityPolicy.length).filter
    (SecurityConfig.matchesChannel channel)).flatMap SecurityConfig.userTokenPolicies

def known (channel : ChannelConfig) (policy : UserTokenPolicy) : Option SecurityPolicy :=
  if policy.tokenType = .userName then effectivePolicy channel policy else none

section Choice

variable {channel : ChannelConfig} {token : Token}

variable {p : SecurityPolicy}

theorem tokenPolicyLoop_append (l l' : List UserTokenPolicy) (secpol : SecurityPolicy)
    : tokenPolicyLoop channel token (l ++ l') secpol = some (true, p) ↔
      tokenPolicyLoop channel token l secpol = some (true, p) ∨
        ∃ secpol', tokenPolicyLoop channel token l secpol = some (false, secpol') ∧
          tokenPolicyLoop channel token l' secpol' = some (true, p) := by
  induction l generalizing secpol with
  | nil => simp [tokenPolicyLoop]
  | cons policy l ih =>
    simp only [cons_append, tokenPolicyLoop]
    cases tokenPolicyCompliance channel policy token secpol with
    | none => simp
    | some r =>
      obtain ⟨_ | _, secpol'⟩ := r
      · exact ih secpol'
      · simp

theorem secuConfigLoop_iff (secus : List SecurityConfig) (secpol : SecurityPolicy)
    : secuConfigLoop channel token secus secpol = some (true, p) ↔
      tokenPolicyLoop channel token (tried channel secus) secpol = some (true, p) := by
  induction secus generalizing secpol with
  | nil => rfl
  | cons secu secus ih =>
    unfold secuConfigLoop getRawCString
    by_cases hpos : secu.securityPolicy.length > 0
    · rw [if_pos hpos]
      dsimp only
      by_cases hmatch : channel.reqSecuPolicyUri = secu.securityPolicy.cString ∧
          modeIncluded channel.msgSecurityMode secu.securityModes = true
      · have htried : tried channel (secu :: secus) =
            secu.userTokenPolicies ++ tried channel secus := by
          simp [tried, hpos, SecurityConfig.matchesChannel, hmatch]
        rw [if_pos hmatch, htried, tokenPolicyLoop_append]
        cases tokenPolicyLoop channel token secu.userTokenPolicies secpol with
        | none => simp
        | some r =>
          obtain ⟨_ | _, secpol'⟩ := r
          · simp [ih]
          · simp
      · have htried : tried channel (secu :: secus) = tried channel secus := by
          have hfalse : secu.matchesChannel channel = false := by
            simpa [SecurityConfig.matchesChannel] using hmatch
          simp [tried, hpos, hfalse]
        rw [if_neg hmatch, htried, ih]
    · have htried : tried channel (secu :: secus) = [] := by simp [tried, hpos]
      rw [if_neg hpos, htried]
      simp [tokenPolicyLoop]

end Choice

section UserName

variable {channel : ChannelConfig} {policyId encryptionAlgo : ByteString}

variable {policy : UserTokenPolicy} {p : SecurityPolicy} {l : List UserTokenPolicy}

theorem compliance_of_unknown (h : known channel policy = none)
    (secpol : SecurityPolicy) : ∃ secpol', tokenPolicyCompliance channel policy
      (.userName policyId encryptionAlgo) secpol = some (false, secpol') := by
  unfold tokenPolicyCompliance
  cases heff : effectivePolicy channel policy with
  | none => exact ⟨_, rfl⟩
  | some p =>
    unfold known at h
    cases htype : policy.tokenType with
    | userName => rw [if_pos htype, heff] at h; cases h
    | _ => exact ⟨_, rfl⟩

theorem compliance_of_known
    (h : known channel policy = some p) (secpol : SecurityPolicy) :
    tokenPolicyCompliance channel policy (.userName policyId encryptionAlgo) secpol =
      (checkEncryptionAlgorithm p encryptionAlgo).map fun b =>
        (b && ByteString.stringEqual policy.policyId policyId, p) := by
  unfold known at h
  by_cases htype : policy.tokenType = .userName
  · rw [if_pos htype] at h; unfold tokenPolicyCompliance; rw [h, htype]
  · rw [if_neg htype] at h; cases h

theorem checkEncryptionAlgorithm_empty (h : encryptionAlgo.length ≤ 0) :
    checkEncryptionAlgorithm p encryptionAlgo = if p = .none then some true else none := by
  cases p <;> simp [checkEncryptionAlgorithm, getRawCString, h]

theorem tokenPolicyLoop_encrypted (h : 0 < encryptionAlgo.length) (l : List UserTokenPolicy)
    (secpol : SecurityPolicy) :
    tokenPolicyLoop channel (.userName policyId encryptionAlgo) l secpol ≠ some (true, .none) := by
  induction l generalizing secpol with
  | nil => simp [tokenPolicyLoop]
  | cons policy l ih =>
    unfold tokenPolicyLoop
    cases hknown : known channel policy with
    | none => obtain ⟨secpol', hc⟩ := compliance_of_unknown hknown secpol; rw [hc]; exact ih secpol'
    | some p =>
      rw [compliance_of_known hknown]
      cases hcheck : checkEncryptionAlgorithm p encryptionAlgo with
      | none => simp
      | some b =>
        rw [Option.map_some]
        cases hb : (b && ByteString.stringEqual policy.policyId policyId) with
        | false => exact ih p
        | true =>
          simp only [ne_eq, Option.some.injEq, Prod.mk.injEq, true_and]
          rintro rfl; simp only [Bool.and_eq_true] at hb
          rw [hb.1] at hcheck
          simp [checkEncryptionAlgorithm] at hcheck
          omega

def firstKnown (channel : ChannelConfig) (l : List UserTokenPolicy) : Option UserTokenPolicy :=
  l.find? fun policy => (known channel policy).isSome

theorem firstKnown_of_accepted (h : encryptionAlgo.length ≤ 0)
    {secpol : SecurityPolicy}
    (hloop : tokenPolicyLoop channel (.userName policyId encryptionAlgo) l secpol =
      some (true, .none)) :
    ∃ policy, firstKnown channel l = some policy ∧ known channel policy = some .none := by
  induction l generalizing secpol with
  | nil => simp [tokenPolicyLoop] at hloop
  | cons policy l ih =>
    unfold tokenPolicyLoop at hloop
    unfold firstKnown
    cases hknown : known channel policy with
    | none =>
      obtain ⟨secpol', hc⟩ := compliance_of_unknown hknown secpol
      rw [hc] at hloop
      rw [find?_cons_of_neg (by simp [hknown])]
      exact ih hloop
    | some p =>
      rw [find?_cons_of_pos (by simp [hknown])]
      refine ⟨policy, rfl, ?_⟩
      rw [compliance_of_known hknown, checkEncryptionAlgorithm_empty h] at hloop
      by_cases hp : p = .none
      · rw [hknown, hp]
      · simp [hp] at hloop

theorem accepted_of_firstKnown
    (hfirst : firstKnown channel l = some policy) (hnone : known channel policy = some .none)
    (secpol : SecurityPolicy) : tokenPolicyLoop channel (.userName policy.policyId .null) l secpol =
      some (true, .none) := by
  induction l generalizing secpol with
  | nil => simp [firstKnown] at hfirst
  | cons policy' l ih =>
    unfold tokenPolicyLoop
    unfold firstKnown at hfirst
    cases hknown : known channel policy' with
    | none =>
      obtain ⟨secpol', hc⟩ := compliance_of_unknown hknown secpol
      rw [find?_cons_of_neg (by simp [hknown])] at hfirst
      rw [hc]
      exact ih hfirst secpol'
    | some p =>
      rw [find?_cons_of_pos (by simp [hknown])] at hfirst
      cases hfirst
      have hequal : ByteString.stringEqual policy.policyId policy.policyId = true := by
        simp [ByteString.stringEqual]
      have hnull : ByteString.null.length ≤ 0 := by decide
      rw [compliance_of_known hnone, checkEncryptionAlgorithm_empty hnull, if_pos rfl,
        Option.map_some, hequal, Bool.and_self]

theorem supported_none_iff {endpoint : EndpointConfig} :
    (∃ policyId encryptionAlgo, isUserTokenSupported channel endpoint
      (.userName policyId encryptionAlgo) = some (true, some .none)) ↔
      ∃ policy, firstKnown channel (tried channel endpoint.secuConfigurations) = some policy ∧
        known channel policy = some .none := by
  have hloop : ∀ policyId encryptionAlgo, isUserTokenSupported channel endpoint
      (.userName policyId encryptionAlgo) = some (true, some .none) ↔
      tokenPolicyLoop channel (.userName policyId encryptionAlgo)
        (tried channel endpoint.secuConfigurations) .basic256Sha256 = some (true, .none) := by
    intro policyId encryptionAlgo; rw [← secuConfigLoop_iff]
    simp [isUserTokenSupported]
  constructor
  · rintro ⟨policyId, encryptionAlgo, h⟩; rw [hloop] at h
    by_cases hempty : encryptionAlgo.length ≤ 0
    · exact firstKnown_of_accepted hempty h
    · exact absurd h (tokenPolicyLoop_encrypted (by omega) _ _)
  · rintro ⟨policy, hfirst, hnone⟩
    exact ⟨policy.policyId, .null, (hloop _ _).mpr (accepted_of_firstKnown hfirst hnone _)⟩

end UserName

def ChannelConfig.Belongs (channel : ChannelConfig) (endpoint : EndpointConfig) : Prop :=
  ∃ secu ∈ endpoint.secuConfigurations, 0 < secu.securityPolicy.length ∧
    secu.matchesChannel channel = true

def PasswordsProtected (endpoints : List EndpointConfig) : Prop :=
  ∀ endpoint ∈ endpoints, ∀ channel : ChannelConfig, channel.Belongs endpoint →
    ∀ policyId encryptionAlgo secpol, isUserTokenSupported channel endpoint
      (.userName policyId encryptionAlgo) = some (true, some secpol) → secpol = .none →
      channel.reqSecuPolicyUri ≠ noneUri ∧ channel.msgSecurityMode = .signAndEncrypt

/-- A URI that is taken for None and is not equal to it. -/
def CutUri (uri : ByteString) : Prop :=
  0 < uri.length ∧ securityPolicyOfUri uri.cString = some .none ∧
    ByteString.stringEqual uri noneString = false

/-- What the check of the configuration does not see: a cut URI of the user token policy; a mode other
than None with the policy None; a cut URI of the channel in mode Sign. -/
def Overlooked (channel : ChannelConfig) (policy : UserTokenPolicy) : Prop :=
  CutUri policy.securityPolicyUri ∧
      (channel.reqSecuPolicyUri = noneUri ∨ channel.msgSecurityMode ≠ .signAndEncrypt) ∨
    channel.reqSecuPolicyUri = noneUri ∧ channel.msgSecurityMode ≠ .none ∨
    policy.securityPolicyUri.length ≤ 0 ∧ channel.reqSecuPolicyUri ≠ noneUri ∧
      channel.msgSecurityMode = .sign

section Checked

variable {channel : ChannelConfig} {secu : SecurityConfig} {policy : UserTokenPolicy}

theorem modes_of_signOrNone (h : secu.securityModes &&& (modeSignMask ||| modeNoneMask) = 0) :
    modeIncluded .none secu.securityModes = false ∧ modeIncluded .sign secu.securityModes = false := by
  have hmask : ∀ mask : UInt16, (modeSignMask ||| modeNoneMask) &&& mask = mask →
      secu.securityModes &&& mask = 0 := by
    intro mask hmask; rw [← hmask, ← UInt16.and_assoc, h, UInt16.zero_and]
  simp [modeIncluded, hmask modeNoneMask (by decide), hmask modeSignMask (by decide)]

theorem protected_of_checked (hcheck : userCredentialsEncrypted secu policy = true)
    (hmatch : secu.matchesChannel channel = true) (hnone : known channel policy = some .none)
    (hover : ¬ Overlooked channel policy) :
    channel.reqSecuPolicyUri ≠ noneUri ∧ channel.msgSecurityMode = .signAndEncrypt := by
  have hmode : modeIncluded channel.msgSecurityMode secu.securityModes = true := by
    simp only [SecurityConfig.matchesChannel, Bool.and_eq_true] at hmatch
    exact hmatch.2
  have heff : effectivePolicy channel policy = some .none := by
    unfold known at hnone
    split_ifs at hnone
    exact hnone
  unfold userCredentialsEncrypted at hcheck
  unfold effectivePolicy at heff
  simp only [Overlooked, not_or, not_and, ne_eq, not_not] at hover
  obtain ⟨hcut, hpolicyNone, hcutChannel⟩ := hover
  by_cases hempty : policy.securityPolicyUri.length ≤ 0
  · have hmodes : secu.securityModes &&& modeNoneMask = 0 := by
      by_contra hne
      rw [if_pos ⟨hne, hempty⟩] at hcheck
      cases hcheck
    have hnotNone : channel.msgSecurityMode ≠ .none := by
      intro he; rw [he] at hmode
      simp [modeIncluded, hmodes] at hmode
    have hpolicy : channel.reqSecuPolicyUri ≠ noneUri := fun he => hnotNone (hpolicyNone he)
    refine ⟨hpolicy, ?_⟩
    have hnotSign := hcutChannel hempty hpolicy
    cases hm : channel.msgSecurityMode with
    | invalid => simp [hm, modeIncluded] at hmode
    | none => exact absurd hm hnotNone
    | sign => exact absurd hm hnotSign
    | signAndEncrypt => rfl
  · rw [if_neg hempty] at heff
    by_cases hequal : ByteString.stringEqual policy.securityPolicyUri noneString = true
    · have hmodes : secu.securityModes &&& (modeSignMask ||| modeNoneMask) = 0 := by
        by_contra hne
        rw [if_neg (by simp [hempty]), if_pos ⟨hne, hequal⟩] at hcheck
        cases hcheck
      obtain ⟨hn, hs⟩ := modes_of_signOrNone hmodes
      have hencrypt : channel.msgSecurityMode = .signAndEncrypt := by
        cases hm : channel.msgSecurityMode with
        | invalid => simp [hm, modeIncluded] at hmode
        | none => simp [hm, hn] at hmode
        | sign => simp [hm, hs] at hmode
        | signAndEncrypt => rfl
      refine ⟨fun he => ?_, hencrypt⟩
      have hnoneMode := hpolicyNone he
      rw [hencrypt] at hnoneMode
      cases hnoneMode
    · have h := hcut ⟨by omega, heff, by simpa using hequal⟩; exact ⟨h.1, by simpa using h.2⟩

end Checked

theorem checked_of_configured {state : ToolkitState} {endpoints : List EndpointConfig}
    (h : serverConfigured state endpoints = .ok ()) :
    ∀ endpoint ∈ endpoints, ∀ secu ∈ endpoint.secuConfigurations, secuConfigChecked secu = true := by
  unfold serverConfigured securityCheck at h
  split_ifs at h with _ _ hall
  simpa only [all_eq_true] using hall

theorem mem_tried {channel : ChannelConfig} {secus : List SecurityConfig} {policy : UserTokenPolicy}
    (h : policy ∈ tried channel secus) : ∃ secu ∈ secus, secu.matchesChannel channel = true ∧
      policy ∈ secu.userTokenPolicies := by
  obtain ⟨secu, hsecu, hpolicy⟩ := mem_flatMap.mp h
  obtain ⟨hsecu, hmatch⟩ := mem_filter.mp hsecu
  exact ⟨secu, (takeWhile_sublist _).subset hsecu, hmatch, hpolicy⟩

/-- Of the configurations that are accepted, those protect the passwords that have nothing overlooked
in a policy with which a token can be accepted in clear. -/
theorem passwordsProtected_iff (state : ToolkitState) (endpoints : List EndpointConfig)
    (hconf : serverConfigured state endpoints = .ok ()) :
    PasswordsProtected endpoints ↔
      ∀ endpoint ∈ endpoints, ∀ channel : ChannelConfig, channel.Belongs endpoint →
        ∀ policy, firstKnown channel (tried channel endpoint.secuConfigurations) = some policy →
          known channel policy = some .none → ¬ Overlooked channel policy := by
  constructor
  · intro h endpoint hep channel hbelongs policy hfirst hnone hover
    obtain ⟨policyId, encryptionAlgo, haccepted⟩ := supported_none_iff.mpr ⟨policy, hfirst, hnone⟩
    obtain ⟨hpolicy, hmode⟩ := h endpoint hep channel hbelongs _ _ _ haccepted rfl
    obtain ⟨-, he | hm⟩ | ⟨he, -⟩ | ⟨-, -, hm⟩ := hover
    · exact hpolicy he
    · exact hm hmode
    · exact hpolicy he
    · rw [hmode] at hm; cases hm
  · rintro h endpoint hep channel hbelongs policyId encryptionAlgo secpol haccepted rfl
    obtain ⟨policy, hfirst, hnone⟩ := supported_none_iff.mp ⟨policyId, encryptionAlgo, haccepted⟩
    obtain ⟨secu, hsecu, hmatch, hpolicy⟩ := mem_tried (mem_of_find?_eq_some hfirst)
    have hchecked := checked_of_configured hconf endpoint hep secu hsecu
    have huser : policy.tokenType = .userName := by
      unfold known at hnone
      split_ifs at hnone with htype
      exact htype
    have hcheck : userCredentialsEncrypted secu policy = true := by
      simp only [secuConfigChecked, Bool.and_eq_true, all_eq_true] at hchecked
      simpa [huser] using hchecked.1 policy hpolicy
    exact protected_of_checked hcheck hmatch hnone
      (h endpoint hep channel hbelongs policy hfirst hnone)

def sampleEndpoint (securityModes : UInt16) (tokenUri : ByteString) : EndpointConfig :=
  ⟨[⟨⟨some basic256Sha256Uri, by simp [basic256Sha256Uri, cText]⟩, securityModes,
    [⟨.null, .userName, tokenUri⟩]⟩]⟩

theorem passwordsProtected_iff_channelPolicy :
    serverConfigured ⟨true, false, true⟩ [sampleEndpoint 6 .null] = .ok () ∧
      PasswordsProtected [sampleEndpoint 6 .null] := by
  refine ⟨by decide, (passwordsProtected_iff ⟨true, false, true⟩ _ (by decide)).mpr ?_⟩
  intro endpoint hep channel hbelongs policy hfirst hnone; obtain rfl := mem_singleton.mp hep
  obtain ⟨secu, hsecu, hmatch, hpolicy⟩ := mem_tried (mem_of_find?_eq_some hfirst)
  obtain rfl := mem_singleton.mp hsecu
  obtain rfl := mem_singleton.mp hpolicy
  have huri : channel.reqSecuPolicyUri = basic256Sha256Uri := by
    simp only [SecurityConfig.matchesChannel, Bool.and_eq_true, beq_iff_eq] at hmatch
    exact hmatch.1.trans (by decide)
  have hknown : known channel ⟨.null, .userName, .null⟩ = some .basic256Sha256 := by
    have hpolicy : securityPolicyOfUri basic256Sha256Uri = some .basic256Sha256 := by decide
    simp [known, effectivePolicy, huri, hpolicy, ByteString.null, ByteString.length]
  rw [hknown] at hnone
  cases hnone

def cutUri : ByteString :=
  ⟨some (cText "http://opcfoundation.org/UA/SecurityPolicy#"), by simp [cText]⟩

/-- With a cut URI, passwords are accepted in clear on a channel that is only signed. -/
theorem cut_uri_in_clear :
    serverConfigured ⟨true, false, true⟩ [sampleEndpoint 2 cutUri] = .ok () ∧
      ¬ PasswordsProtected [sampleEndpoint 2 cutUri] := by
  refine ⟨by decide, fun h => ?_⟩
  have hclear := h (sampleEndpoint 2 cutUri) (by simp) ⟨basic256Sha256Uri, .sign⟩
    ⟨_, mem_singleton.mpr rfl, by decide, by decide⟩ .null .null .none (by decide) rfl
  cases hclear.2

end PasswordPolicy
end S2OPC
