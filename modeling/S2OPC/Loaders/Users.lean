import S2OPC.Common.DictRun
import S2OPC.Lib.Fallible
import S2OPC.Services.UserToken

/-!
# S2OPC.Loaders.Users

The users configuration of `sopc_users_loader.c`, and the authentication of a user name token against
it. A file is the sequence of the start and end tags that the XML parser reports.
-/

namespace S2OPC
namespace Users

open Fallible UserToken List

/-- A C string: bytes without null byte, followed by one. -/
structure CString where
  bytes : List UInt8
  noNul : 0 ∉ bytes
  deriving DecidableEq

def copyFromCString (c : CString) : Option ByteString :=
  if h : c.bytes.length < 2 ^ 31 then
    some ⟨some c.bytes, by simpa only [Option.mem_def, Option.some.injEq, forall_eq'] using h⟩
  else none

structure UserRights where
  read : Bool
  write : Bool
  exec : Bool
  deriving DecidableEq

structure UserPassword where
  user : ByteString
  password : ByteString
  rights : UserRights
  user_pos : 0 < user.length
  user_noNul : 0 ∉ user.toList
  password_nonnull : password.bytes.isSome
  deriving DecidableEq

/-- Why a function of the source does not return: the parser is stopped, an assertion fails, or
bytes outside of an object are read. -/
inductive Fault where
  | stopped
  | assertion
  | outOfBounds
  deriving DecidableEq

def djbHashStep (current : UInt64) (data : List UInt8) : UInt64 :=
  data.foldl (fun h b => (h <<< 5) + h + b.toUInt64) current

def djbHash (data : List UInt8) (len : Nat) : Option UInt64 :=
  if len ≤ data.length then some (djbHashStep 5381 (data.take len)) else none

def sizeOfLength (length : Int) : Nat := (length % 2 ^ 64).toNat

def usernameHash (user : ByteString) : Option UInt64 :=
  djbHash user.toList (sizeOfLength user.length)

def userFuncs : DictFuncs (Option ByteString) where
  eqv
    | some a, some b => ByteString.stringEqual a b
    | _, _ => false
  hashFunc
    | some a => (usernameHash a).getD 0
    | none => 0

abbrev UsersDict := Dict (Option ByteString) (Option UserPassword)

def usersGet (users : UsersDict) (name : ByteString) : Except Fault (Option UserPassword) :=
  match usernameHash name with
  | none => .error .outOfBounds
  | some _ =>
    match Dict.get userFuncs users (some name) with
    | none => .error .assertion
    | some value => .ok value.join

inductive ParseState where
  | start
  | s2opcUsers
  | anonymous
  | userPassword
  | userAuthorization
  deriving DecidableEq

inductive Tag where
  | s2opcUsers
  | userPassword
  | anonymous
  | userAuthorization
  | other
  deriving DecidableEq

inductive Attr where
  | user
  | pwd
  | read
  | write
  | execute
  | other
  deriving DecidableEq

structure ParseContext where
  users : UsersDict
  currentAnonymous : Bool
  hasAnonymous : Bool
  anonymousRights : UserRights
  currentUserPassword : Option UserPassword
  state : ParseState

inductive XmlEvent where
  | startElement (alloc : Bool) (name : Tag) (attrs : List (Attr × CString))
  | endElement (alloc : Bool)

def getAttr (name : Attr) (attrs : List (Attr × CString)) : Option CString :=
  (attrs.find? fun a => a.1 == name).map Prod.snd

def startAnonymous (ctx : ParseContext) : Except Fault ParseContext :=
  if ctx.hasAnonymous then .error .stopped
  else .ok { ctx with hasAnonymous := true, currentAnonymous := true }

def endUserpassword (alloc : Bool) (ctx : ParseContext) : Except Fault ParseContext :=
  match ctx.currentUserPassword with
  | none => .error .outOfBounds
  | some up => do
    let found ← usersGet ctx.users up.user
    if found.isSome then .error .stopped
    else
      match Dict.insert userFuncs alloc ctx.users (some up.user) (some up) with
      | none => .error .assertion
      | some (false, _) => .error .stopped
      | some (true, users) => .ok { ctx with users := users, currentUserPassword := none }

def readUser (name pwd : CString) : Option UserPassword :=
  match hname : copyFromCString name with
  | none => none
  | some user =>
    if hpos : user.length ≤ 0 then none
    else
      match hpwd : copyFromCString pwd with
      | none => none
      | some password =>
        some
          { user := user
            password := password
            rights := ⟨false, false, false⟩
            user_pos := by omega
            user_noNul := by
              unfold copyFromCString at hname
              split at hname
              · cases hname; exact name.noNul
              · cases hname
            password_nonnull := by
              unfold copyFromCString at hpwd
              split at hpwd
              · cases hpwd; rfl
              · cases hpwd }

def startUserpassword (alloc : Bool) (ctx : ParseContext) (attrs : List (Attr × CString)) :
    Except Fault ParseContext :=
  match alloc, getAttr .user attrs, getAttr .pwd attrs with
  | true, some name, some pwd =>
    match readUser name pwd with
    | none => .error .stopped
    | some up => .ok { ctx with currentUserPassword := some up }
  | _, _, _ => .error .stopped

def readRight (name : Attr) (attrs : List (Attr × CString)) : Bool :=
  -- "true"
  (getAttr name attrs).map CString.bytes == some [116, 114, 117, 101]

def startAuthorization (ctx : ParseContext) (attrs : List (Attr × CString)) :
    Except Fault ParseContext :=
  let rights : UserRights :=
    ⟨readRight .read attrs, readRight .write attrs, readRight .execute attrs⟩
  if ctx.currentAnonymous then .ok { ctx with anonymousRights := rights }
  else
    match ctx.currentUserPassword with
    | none => .error .assertion
    | some up => .ok { ctx with currentUserPassword := some { up with rights := rights } }

def startElementHandler (alloc : Bool) (name : Tag) (attrs : List (Attr × CString))
    (ctx : ParseContext) : Except Fault ParseContext :=
  match ctx.state with
  | .start =>
    if name = .s2opcUsers then .ok { ctx with state := .s2opcUsers } else .error .stopped
  | .s2opcUsers =>
    if name = .userPassword then do
      let ctx ← startUserpassword alloc ctx attrs
      .ok { ctx with state := .userPassword }
    else if name = .anonymous then do
      let ctx ← startAnonymous ctx
      .ok { ctx with state := .anonymous }
    else .error .stopped
  | .anonymous | .userPassword =>
    if name = .userAuthorization then do
      let ctx ← startAuthorization ctx attrs
      .ok { ctx with state := .userAuthorization }
    else .error .stopped
  | .userAuthorization => .ok ctx

def endElementHandler (alloc : Bool) (ctx : ParseContext) : Except Fault ParseContext :=
  match ctx.state with
  | .userAuthorization =>
    if ctx.currentAnonymous then .ok { ctx with state := .anonymous }
    else if ctx.currentUserPassword.isSome then .ok { ctx with state := .userPassword }
    else .error .assertion
  | .anonymous => .ok { ctx with currentAnonymous := false, state := .s2opcUsers }
  | .userPassword => do
    let ctx ← endUserpassword alloc ctx
    .ok { ctx with state := .s2opcUsers }
  | .s2opcUsers => .ok ctx
  | .start => .error .assertion

def parseStep (ctx : ParseContext) : XmlEvent → Except Fault ParseContext
  | .startElement alloc name attrs => startElementHandler alloc name attrs ctx
  | .endElement alloc => endElementHandler alloc ctx

def initialContext : ParseContext where
  users := Dict.create none
  currentAnonymous := false
  hasAnonymous := false
  anonymousRights := ⟨false, false, false⟩
  currentUserPassword := none
  state := .start

structure UsersConfig where
  users : UsersDict
  anonRights : UserRights

def usersConfigParse (events : List XmlEvent) : Except Fault UsersConfig := do
  let ctx ← events.foldlM parseStep initialContext
  .ok ⟨ctx.users, ctx.anonymousRights⟩

inductive AuthenticationStatus where
  | invalidToken
  | rejectedToken
  | accessDenied
  | ok
  deriving DecidableEq

inductive IdentityToken where
  | userName (token : UserNameToken)
  | other

/-- `secure_password_compare`; a missing user has the reference length -1. -/
def securePasswordCompare (sRef : Option UserPassword) (sCmp : ByteString) : Bool :=
  let bRef := (sRef.map fun up => up.password.toList).getD []
  let lRef : Int := (sRef.map fun up => up.password.length).getD (-1)
  let bCmp := sCmp.toList
  let lCmp := sCmp.length
  let result := (List.range lCmp.toNat).all fun i =>
    (if (i : Int) < lRef then bRef.getD i 0 else 0) == bCmp.getD i 0
  result && lRef == lCmp

def authenticationFct (config : UsersConfig) :
    IdentityToken → Except Fault AuthenticationStatus
  | .other => .ok .rejectedToken
  | .userName token => do
    let up ← usersGet config.users token.userName
    if securePasswordCompare up token.password then
      match up with
      | none => .error .assertion
      | some up =>
        if up.rights.read || up.rights.write || up.rights.exec then .ok .ok
        else .ok .accessDenied
    else .ok .rejectedToken

/-- The key functions the dictionary may be thought to use: names are equal when they are the
same. `username_equal` stops at the first null byte, and is not compatible with the hash. -/
def nameFuncs : DictKeyFuncs (Option ByteString) where
  eqv a b := decide (a = b)
  refl _ := decide_eq_true rfl
  symm a b h := by rw [decide_eq_true_eq] at h ⊢; exact h.symm
  trans a b c h₁ h₂ := by rw [decide_eq_true_eq] at h₁ h₂ ⊢; exact h₁.trans h₂
  hashFunc := userFuncs.hashFunc
  hash_eq a b h := by rw [decide_eq_true_eq] at h; rw [h]

theorem userFuncs_eqv (up : UserPassword) (k : Option ByteString) :
    userFuncs.eqv (some up.user) k = nameFuncs.eqv (some up.user) k := by
  cases k with
  | none => rfl
  | some name =>
    show ByteString.stringEqual up.user name = decide (some up.user = some name)
    rw [ByteString.stringEqual_eq up.user_pos up.user_noNul]
    simp

theorem userFuncs_eqv_stored (up : UserPassword) (name : ByteString) :
    userFuncs.eqv (some name) (some up.user) = nameFuncs.eqv (some name) (some up.user) := by
  have hcomm : ByteString.stringEqual name up.user = ByteString.stringEqual up.user name :=
    ByteString.stringEqual_comm _ _
  show ByteString.stringEqual name up.user = decide (some name = some up.user)
  rw [hcomm, ByteString.stringEqual_eq up.user_pos up.user_noNul]
  simp only [Option.some.injEq, eq_comm]

structure UsersInv (users : UsersDict) : Prop where
  wf : Dict.Wf nameFuncs users
  emptyKey_eq : users.emptyKey = none
  tombstoneKey_eq : users.tombstoneKey = none
  stored : ∀ p ∈ users.live, ∃ up : UserPassword, p = (some up.user, some up)

def usersOf (users : UsersDict) : List UserPassword := (Dict.forEach users).filterMap Prod.snd

theorem usersInv_create : UsersInv (Dict.create none) := by
  have hsize : Dict.initialSize = 2 ^ 4 := rfl
  have hcore : Dict.Core nameFuncs (Dict.create none : UsersDict) :=
    (Dict.core_emptied (d := (Dict.create none : UsersDict)) (le_refl 4) (by omega) hsize).1
  refine ⟨⟨hcore, by simp [Dict.create, Dict.size]⟩, rfl, rfl, ?_⟩
  intro p hp; simp [Dict.create, Dict.live, Dict.items, Dict.isFree] at hp

namespace UsersInv

variable {users : UsersDict} (h : UsersInv users)

include h

theorem forEach_eq_live : Dict.forEach users = users.live := by
  unfold Dict.forEach Dict.live Dict.items Dict.isFree
  rw [h.emptyKey_eq, h.tombstoneKey_eq]
  simp [bne]

theorem mem_usersOf (up : UserPassword) :
    up ∈ usersOf users ↔ (some up.user, some up) ∈ users.live := by
  unfold usersOf
  rw [h.forEach_eq_live, mem_filterMap]
  constructor
  · rintro ⟨p, hp, hup⟩; obtain ⟨up', rfl⟩ := h.stored p hp; cases hup; exact hp
  · intro hup; exact ⟨_, hup, rfl⟩

theorem get_eq (name : ByteString) :
    Dict.get userFuncs users (some name) =
      some (AssocMap.lookup nameFuncs.toKeyEq users.live (some name)) := by
  have hcongr : Dict.get userFuncs users (some name) = Dict.get nameFuncs users (some name) := by
    refine Dict.get_congr rfl fun idx hfree => ?_
    have hmem := Dict.mem_live.mpr ⟨idx, Dict.lt_size_of_not_isFree hfree, hfree, rfl⟩
    obtain ⟨up, hup⟩ := h.stored _ hmem
    rw [(Prod.mk.inj hup).1]
    exact userFuncs_eqv_stored up name
  rw [hcongr]
  refine h.wf.get_eq_lookup ?_ ?_
  · rw [h.emptyKey_eq]; simp
  · rw [h.tombstoneKey_eq]; simp

variable {name : ByteString} {up : UserPassword}

theorem usersGet_eq_some :
    usersGet users name = .ok (some up) ↔
      (usernameHash name).isSome ∧ up ∈ usersOf users ∧ up.user = name := by
  unfold usersGet
  cases hhash : usernameHash name with
  | none => simp
  | some hash =>
    simp only [h.get_eq, Except.ok.injEq, Option.isSome_some, true_and]
    rw [Option.join_eq_some_iff, AssocMap.lookup_eq_some_iff h.wf.distinct, h.mem_usersOf]
    constructor
    · rintro ⟨k, hk, heq⟩; obtain ⟨up', hup'⟩ := h.stored _ hk
      cases hup'; have : some name = some up.user := of_decide_eq_true heq
      exact ⟨hk, (Option.some.inj this).symm⟩
    · rintro ⟨hmem, rfl⟩; exact ⟨_, hmem, nameFuncs.refl _⟩

theorem usersGet_eq_none :
    usersGet users name = .ok none ↔
      (usernameHash name).isSome ∧ ∀ up ∈ usersOf users, up.user ≠ name := by
  cases hhash : usernameHash name with
  | none => simp [usersGet, hhash]
  | some hash =>
    have hok : ∃ r, usersGet users name = .ok r := by
      simp only [usersGet, hhash, h.get_eq]
      exact ⟨_, rfl⟩
    obtain ⟨r, hr⟩ := hok
    cases r with
    | none =>
      simp only [hr, Option.isSome_some, true_and, true_iff]
      intro up hup hname; rw [h.usersGet_eq_some.mpr ⟨by rw [hhash]; rfl, hup, hname⟩] at hr
      cases hr
    | some up =>
      obtain ⟨-, hup, hname⟩ := h.usersGet_eq_some.mp hr
      simp only [hr, Except.ok.injEq, reduceCtorEq, Option.isSome_some, true_and, false_iff]
      intro hall; exact hall up hup hname

theorem insert {alloc : Bool} {users' : UsersDict}
    (hnew : usersGet users up.user = .ok none)
    (hins : Dict.insert userFuncs alloc users (some up.user) (some up) = some (true, users')) :
    UsersInv users' := by
  have he : some up.user ≠ users.emptyKey := by rw [h.emptyKey_eq]; simp
  have ht : some up.user ≠ users.tombstoneKey := by rw [h.tombstoneKey_eq]; simp
  have hsafe : Dict.insertSafe nameFuncs users (some up.user) = true := by
    have hnone : Dict.getInternal nameFuncs users (some up.user) = none := by
      refine h.wf.getInternal_eq_none.mpr fun p hp => ?_
      obtain ⟨up', rfl⟩ := h.stored p hp
      refine decide_eq_false fun heq => ?_
      exact (h.usersGet_eq_none.mp hnew).2 up' ((h.mem_usersOf up').mpr hp)
        (Option.some.inj heq).symm
    simp [Dict.insertSafe, hnone]
  have hcongr : Dict.insert userFuncs alloc users (some up.user) (some up) =
      Dict.insert nameFuncs alloc users (some up.user) (some up) :=
    Dict.insert_congr (show userFuncs.hashFunc = nameFuncs.toDictFuncs.hashFunc from rfl)
      (userFuncs_eqv up) alloc (some up)
  rw [hcongr] at hins
  obtain hfail | ⟨d, hd, hwf, hempty, htomb, hlive⟩ := h.wf.insert alloc he ht hsafe (some up)
  · rw [hfail] at hins; cases hins
  rw [hd] at hins
  cases hins
  refine ⟨hwf, hempty.trans h.emptyKey_eq, htomb.trans h.tombstoneKey_eq, fun p hp => ?_⟩
  rcases mem_cons.mp (hlive.mem_iff.mp hp) with rfl | hold
  · exact ⟨up, rfl⟩
  · exact h.stored p (mem_of_mem_filter hold)

end UsersInv

variable {ctx' ctx : ParseContext} {attrs : List (Attr × CString)}

variable {alloc : Bool} {config : UsersConfig}

theorem endUserpassword_usersInv (h : UsersInv ctx.users)
    (hend : endUserpassword alloc ctx = .ok ctx') : UsersInv ctx'.users := by
  unfold endUserpassword at hend
  split at hend
  · cases hend
  obtain ⟨found, hget, hend⟩ := bind_eq_ok.mp hend
  cases found with
  | some up' => simp at hend
  | none =>
    simp only [Option.isSome_none, Bool.false_eq_true, if_false] at hend
    split at hend
    · cases hend
    · cases hend
    · rename_i users' hins; cases hend; exact h.insert hget hins

theorem startUserpassword_users (h : startUserpassword alloc ctx attrs = .ok ctx') :
    ctx'.users = ctx.users := by
  unfold startUserpassword at h
  split at h
  · split at h
    · cases h
    · cases h; rfl
  · cases h

theorem startAnonymous_users (h : startAnonymous ctx = .ok ctx') : ctx'.users = ctx.users := by
  unfold startAnonymous at h
  split at h
  · cases h
  · cases h; rfl

theorem startAuthorization_users (h : startAuthorization ctx attrs = .ok ctx') :
    ctx'.users = ctx.users := by
  unfold startAuthorization at h
  split at h
  · cases h; rfl
  · split at h
    · cases h
    · cases h; rfl

theorem startElementHandler_users {name : Tag}
    (h : startElementHandler alloc name attrs ctx = .ok ctx') : ctx'.users = ctx.users := by
  unfold startElementHandler at h
  split at h
  · split at h
    · cases h; rfl
    · cases h
  · split at h
    · obtain ⟨ctx₁, h₁, h₂⟩ := bind_eq_ok.mp h
      have husers := startUserpassword_users h₁
      cases h₂; exact husers
    · split at h
      · obtain ⟨ctx₁, h₁, h₂⟩ := bind_eq_ok.mp h
        have husers := startAnonymous_users h₁
        cases h₂; exact husers
      · cases h
  · split at h
    · obtain ⟨ctx₁, h₁, h₂⟩ := bind_eq_ok.mp h
      have husers := startAuthorization_users h₁
      cases h₂; exact husers
    · cases h
  · split at h
    · obtain ⟨ctx₁, h₁, h₂⟩ := bind_eq_ok.mp h
      have husers := startAuthorization_users h₁
      cases h₂; exact husers
    · cases h
  · cases h; rfl

theorem endElementHandler_usersInv (h : UsersInv ctx.users)
    (hend : endElementHandler alloc ctx = .ok ctx') : UsersInv ctx'.users := by
  unfold endElementHandler at hend
  split at hend
  · split at hend
    · cases hend; exact h
    · split at hend
      · cases hend; exact h
      · cases hend
  · cases hend; exact h
  · obtain ⟨ctx₁, h₁, h₂⟩ := bind_eq_ok.mp hend
    have hinv := endUserpassword_usersInv h h₁
    cases h₂; exact hinv
  · cases hend; exact h
  · cases hend

theorem usersConfigParse_usersInv {events : List XmlEvent}
    (h : usersConfigParse events = .ok config) : UsersInv config.users := by
  obtain ⟨ctx, hparse, hconfig⟩ := bind_eq_ok.mp h
  cases hconfig
  refine foldlM_invariant (P := fun ctx => UsersInv ctx.users) ?_ usersInv_create hparse
  intro ctx event ctx' hinv hstep
  cases event with
  | startElement alloc name attrs =>
    have husers : ctx'.users = ctx.users := startElementHandler_users hstep
    rw [husers]
    exact hinv
  | endElement alloc => exact endElementHandler_usersInv hinv hstep

/-- The token has the name and the password of the user, length and bytes. -/
def Matches (up : UserPassword) (token : UserNameToken) : Prop :=
  up.user.bytes = token.userName.bytes ∧ up.password.bytes = token.password.bytes

def UserRights.anyRight (rights : UserRights) : Bool := rights.read || rights.write || rights.exec

/-- The answer is the one the configured users give, and the name is hashed over its bytes. -/
structure AnswersAsConfigured (config : UsersConfig) (token : UserNameToken) : Prop where
  hash_eq : usernameHash token.userName = some (djbHashStep 5381 token.userName.toList)
  ok_iff : authenticationFct config (.userName token) = .ok .ok ↔
    ∃ up ∈ usersOf config.users, Matches up token ∧ up.rights.anyRight = true
  accessDenied_iff : authenticationFct config (.userName token) = .ok .accessDenied ↔
    ∃ up ∈ usersOf config.users, Matches up token ∧ up.rights.anyRight = false
  rejected_iff : authenticationFct config (.userName token) = .ok .rejectedToken ↔
    ∀ up ∈ usersOf config.users, ¬ Matches up token

/-- The name is not null, and known if the password is null. -/
def Answerable (config : UsersConfig) (token : UserNameToken) : Prop :=
  token.userName.bytes ≠ none ∧
    (token.password.bytes = none →
      ∃ up ∈ usersOf config.users, up.user.bytes = token.userName.bytes)

theorem usernameHash_null : usernameHash .null = none := by decide

theorem usernameHash_of_nonnull {name : ByteString} (h : name.bytes ≠ none) :
    usernameHash name = some (djbHashStep 5381 name.toList) := by
  obtain ⟨_ | bs, hlt⟩ := name
  · exact absurd rfl h
  have hsize : sizeOfLength (⟨some bs, hlt⟩ : ByteString).length = bs.length := by
    have := hlt bs rfl
    simp only [sizeOfLength, ByteString.length]
    omega
  simp [usernameHash, djbHash, hsize, ByteString.toList]

variable {up : UserPassword} {password : ByteString} {token : UserNameToken}

theorem securePasswordCompare_some :
    securePasswordCompare (some up) password = true ↔ up.password.bytes = password.bytes := by
  obtain ⟨bs, hbs⟩ := Option.isSome_iff_exists.mp up.password_nonnull
  obtain ⟨_ | cs, hlt⟩ := password
  · simp [securePasswordCompare, hbs, ByteString.length]
  simp only [securePasswordCompare, Option.map_some, Option.getD_some, hbs,
    ByteString.length, ByteString.toList, Bool.and_eq_true, all_eq_true, mem_range,
    beq_iff_eq, Int.toNat_natCast, Nat.cast_lt, Nat.cast_inj, Option.some.injEq]
  constructor
  · rintro ⟨hbytes, hlength⟩
    refine ext_getElem hlength fun i h₁ h₂ => ?_
    have := hbytes i h₂
    simpa [h₁, h₂] using this
  · rintro rfl; refine ⟨fun i hi => ?_, rfl⟩; rw [if_pos hi]

theorem securePasswordCompare_none :
    securePasswordCompare none password = true ↔ password.bytes = none := by
  obtain ⟨_ | cs, hlt⟩ := password
  · simp [securePasswordCompare, ByteString.length]
  · simp only [securePasswordCompare, ByteString.length, Option.map_none, Option.getD_none,
      Bool.and_eq_true, beq_iff_eq, reduceCtorEq, iff_false, not_and]
    exact fun _ => not_false

theorem authenticationFct_known
    (hget : usersGet config.users token.userName = .ok (some up)) :
    authenticationFct config (.userName token) =
      if up.password.bytes = token.password.bytes then
        if up.rights.anyRight then .ok .ok else .ok .accessDenied
      else .ok .rejectedToken := by
  simp only [authenticationFct, hget, bind, Except.bind, UserRights.anyRight]
  by_cases hpwd : up.password.bytes = token.password.bytes
  · rw [if_pos (securePasswordCompare_some.mpr hpwd), if_pos hpwd]; rfl
  · rw [if_neg (mt securePasswordCompare_some.mp hpwd), if_neg hpwd]

theorem authenticationFct_unknown
    (hget : usersGet config.users token.userName = .ok none) :
    authenticationFct config (.userName token) =
      if token.password.bytes = none then .error .assertion else .ok .rejectedToken := by
  simp only [authenticationFct, hget, bind, Except.bind]
  by_cases hpwd : token.password.bytes = none
  · rw [if_pos (securePasswordCompare_none.mpr hpwd), if_pos hpwd]
  · rw [if_neg (mt securePasswordCompare_none.mp hpwd), if_neg hpwd]

section Answers

variable {config : UsersConfig} {token : UserNameToken} (h : UsersInv config.users)

include h

variable {up : UserPassword}

theorem UsersInv.exists_matches_known
    (hget : usersGet config.users token.userName = .ok (some up)) (P : UserPassword → Prop) :
    (∃ up' ∈ usersOf config.users, Matches up' token ∧ P up') ↔
      up.password.bytes = token.password.bytes ∧ P up := by
  obtain ⟨hhash, hup, hname⟩ := h.usersGet_eq_some.mp hget
  constructor
  · rintro ⟨up', hup', ⟨hname', hpwd⟩, hP⟩
    have hget' := h.usersGet_eq_some.mpr ⟨hhash, hup', ByteString.ext hname'⟩
    rw [hget] at hget'
    cases hget'; exact ⟨hpwd, hP⟩
  · rintro ⟨hpwd, hP⟩; exact ⟨up, hup, ⟨by rw [hname], hpwd⟩, hP⟩

theorem UsersInv.not_matches_unknown (hget : usersGet config.users token.userName = .ok none) :
    ∀ up ∈ usersOf config.users, ¬ Matches up token := by
  intro up hup hmatch; exact (h.usersGet_eq_none.mp hget).2 up hup (ByteString.ext hmatch.1)

theorem UsersInv.answersAsConfigured_known
    (hhash : usernameHash token.userName = some (djbHashStep 5381 token.userName.toList))
    (hget : usersGet config.users token.userName = .ok (some up)) :
    AnswersAsConfigured config token := by
  have hknown := h.exists_matches_known hget
  refine ⟨hhash, ?_, ?_, ?_⟩
  · rw [hknown, authenticationFct_known hget]
    by_cases hpwd : up.password.bytes = token.password.bytes
    · cases hright : up.rights.anyRight <;> simp [hpwd]
    · simp [hpwd]
  · rw [hknown, authenticationFct_known hget]
    by_cases hpwd : up.password.bytes = token.password.bytes
    · cases hright : up.rights.anyRight <;> simp [hpwd]
    · simp [hpwd]
  · have hnone : (∀ up' ∈ usersOf config.users, ¬ Matches up' token) ↔
        ¬ up.password.bytes = token.password.bytes := by
      have := hknown fun _ => True
      simp only [and_true] at this
      rw [← this]
      simp
    rw [hnone, authenticationFct_known hget]
    by_cases hpwd : up.password.bytes = token.password.bytes
    · cases hright : up.rights.anyRight <;> simp [hpwd]
    · simp [hpwd]

theorem UsersInv.answersAsConfigured (ha : Answerable config token) :
    AnswersAsConfigured config token := by
  have hhash := usernameHash_of_nonnull ha.1
  have hsome : (usernameHash token.userName).isSome := by rw [hhash]; rfl
  by_cases hknown : ∃ up ∈ usersOf config.users, up.user.bytes = token.userName.bytes
  · obtain ⟨up, hup, hname⟩ := hknown
    exact h.answersAsConfigured_known hhash
      (h.usersGet_eq_some.mpr ⟨hsome, hup, ByteString.ext hname⟩)
  · have hget : usersGet config.users token.userName = .ok none := by
      refine h.usersGet_eq_none.mpr ⟨hsome, fun up hup hname => hknown ⟨up, hup, ?_⟩⟩
      rw [hname]
    have hpwd : token.password.bytes ≠ none := fun hnull => hknown (ha.2 hnull)
    have hnot := h.not_matches_unknown hget
    have hanswer := authenticationFct_unknown hget
    rw [if_neg hpwd] at hanswer
    refine ⟨hhash, ?_, ?_, ?_⟩
    · rw [hanswer]
      simpa using fun up hup hmatch => absurd hmatch (hnot up hup)
    · rw [hanswer]
      simpa using fun up hup hmatch => absurd hmatch (hnot up hup)
    · rw [hanswer]; simpa using hnot

theorem UsersInv.answerable (ha : AnswersAsConfigured config token) : Answerable config token := by
  have hname : token.userName.bytes ≠ none := by
    intro hnull; have hnullName : token.userName = .null := ByteString.ext hnull
    have hhash := ha.hash_eq
    rw [hnullName, usernameHash_null] at hhash
    cases hhash
  refine ⟨hname, fun hpwd => ?_⟩
  by_contra hunknown
  have hget : usersGet config.users token.userName = .ok none := by
    refine h.usersGet_eq_none.mpr ⟨?_, fun up hup hname => hunknown ⟨up, hup, ?_⟩⟩
    · rw [ha.hash_eq]; rfl
    · rw [hname]
  have hrejected := ha.rejected_iff.mpr (h.not_matches_unknown hget)
  rw [authenticationFct_unknown hget, if_pos hpwd] at hrejected
  cases hrejected

end Answers

/-- For the users of every configuration file: the authentication answers as configured exactly
for the tokens whose name is not null, and known if the password is null. -/
theorem authentication_iff (events : List XmlEvent) (config : UsersConfig)
    (hload : usersConfigParse events = .ok config) (token : UserNameToken) :
    AnswersAsConfigured config token ↔ Answerable config token :=
  ⟨(usersConfigParse_usersInv hload).answerable,
    (usersConfigParse_usersInv hload).answersAsConfigured⟩

def sampleFile : List XmlEvent :=
  [.startElement true .s2opcUsers [],
    .startElement true .userPassword [(.user, ⟨[97], by decide⟩), (.pwd, ⟨[98], by decide⟩)],
    .startElement true .userAuthorization [(.read, ⟨[116, 114, 117, 101], by decide⟩)],
    .endElement true, .endElement true, .endElement true]

def sampleString (b : UInt8) : ByteString := ⟨some [b], by simp⟩

theorem sample_user_authenticated :
    ∃ config, usersConfigParse sampleFile = .ok config ∧
      AnswersAsConfigured config ⟨sampleString 97, .null, sampleString 98⟩ := by
  have hok : (usersConfigParse sampleFile).isOk = true := rfl
  cases hload : usersConfigParse sampleFile with
  | error e => rw [hload] at hok; cases hok
  | ok config =>
    refine ⟨config, rfl, (authentication_iff _ _ hload _).mpr ⟨by simp [sampleString], ?_⟩⟩
    intro hnull; simp [sampleString] at hnull

/-- With no user at all, a null name, then an unknown name with a null password. -/
theorem null_name_and_null_password_not_answered :
    usersConfigParse [.startElement true .s2opcUsers [], .endElement true] =
        .ok ⟨Dict.create none, ⟨false, false, false⟩⟩ ∧
      ¬ AnswersAsConfigured ⟨Dict.create none, ⟨false, false, false⟩⟩
        ⟨.null, .null, sampleString 98⟩ ∧
      authenticationFct ⟨Dict.create none, ⟨false, false, false⟩⟩
        (.userName ⟨sampleString 97, .null, .null⟩) = .error .assertion ∧
      ¬ AnswersAsConfigured ⟨Dict.create none, ⟨false, false, false⟩⟩
        ⟨sampleString 97, .null, .null⟩ := by
  have hanswerable : ∀ token, AnswersAsConfigured ⟨Dict.create none, ⟨false, false, false⟩⟩ token →
      Answerable ⟨Dict.create none, ⟨false, false, false⟩⟩ token :=
    fun _ => usersInv_create.answerable
  refine ⟨rfl, fun h => (hanswerable _ h).1 rfl, rfl, fun h => ?_⟩
  obtain ⟨up, hup, -⟩ := (hanswerable _ h).2 rfl
  have hnone : usersOf (Dict.create none) = [] := by decide
  simp only [hnone, not_mem_nil] at hup

end Users
end S2OPC
