import Mathlib
import S2OPC.Common.Buffer
import S2OPC.Lib.Fallible

/-!
# S2OPC.Common.UriSplit

`SOPC_Helper_URI_SplitUri`: an endpoint URL is split at the first `://`, at the first colon outside of
brackets and at the first slash. A text is the list of its characters before the null one; the three
allocations of the copies may fail.
-/

namespace S2OPC
namespace UriSplit

open List

inductive UriType where
  | tcpua
  | udpua
  | ethua
  | mqttua
  deriving DecidableEq

/-- `TCPUA_PREFIX`, `UDPUA_PREFIX`, `ETHUA_PREFIX` and `MQTTUA_PREFIX`. -/
def UriType.scheme : UriType → List UInt8
  | .tcpua => [111, 112, 99, 46, 116, 99, 112]
  | .udpua => [111, 112, 99, 46, 117, 100, 112]
  | .ethua => [111, 112, 99, 46, 101, 116, 104]
  | .mqttua => [77, 113, 116, 116, 85, 97]

inductive UriSwitch where
  | uriPrefix
  | uriPort

def strstr (sep : List UInt8) : List UInt8 → Option (List UInt8 × List UInt8)
  | [] => none
  | c :: s =>
    if sep.isPrefixOf (c :: s) then some ([], (c :: s).drop sep.length)
    else (strstr sep s).map fun (found, rest) => (c :: found, rest)

def copyPart (alloc : Bool) (part rest : List UInt8) : Except Status (List UInt8 × List UInt8) :=
  if part = [] then .error .invalidParameters
  else if alloc then .ok (part, rest)
  else .error .outOfMemory

def getUriPrefixOrPort (alloc : Bool) (sepMatch : List UInt8) (uriSwitch : UriSwitch)
    (start : List UInt8) : Except Status (List UInt8 × List UInt8) :=
  match strstr sepMatch start with
  | some (found, rest) => copyPart alloc found rest
  | none =>
    match uriSwitch with
    | .uriPrefix => .error .invalidParameters
    | .uriPort => copyPart alloc start []

def bracket (nbBracketOpen : Nat) (c : UInt8) : Nat :=
  if c = 91 then nbBracketOpen + 1
  else if 0 < nbBracketOpen ∧ c = 93 then nbBracketOpen - 1
  else nbBracketOpen

def hostLoop (nbBracketOpen : Nat) : List UInt8 → Option (List UInt8 × List UInt8)
  | [] => none
  | c :: s =>
    if nbBracketOpen = 0 ∧ c = 58 then some ([], s)
    else (hostLoop (bracket nbBracketOpen c) s).map fun (host, rest) => (c :: host, rest)

def getUriHostname (alloc : Bool) (start : List UInt8) : Except Status (List UInt8 × List UInt8) :=
  match hostLoop 0 start with
  | some (host, rest) => copyPart alloc host rest
  | none => .error .invalidParameters

def getUriTypeFromEnum (uriPrefix : List UInt8) : Except Status UriType :=
  if uriPrefix = UriType.tcpua.scheme then .ok .tcpua
  else if uriPrefix = UriType.udpua.scheme then .ok .udpua
  else if uriPrefix = UriType.ethua.scheme then .ok .ethua
  else if uriPrefix = UriType.mqttua.scheme then .ok .mqttua
  else .error .invalidParameters

structure Allocs where
  uriPrefix : Bool
  hostname : Bool
  port : Bool

def splitParts (allocs : Allocs) (uri : List UInt8) :
    Except Status (UriType × List UInt8 × List UInt8) := do
  let (uriPrefix, cursor) ← getUriPrefixOrPort allocs.uriPrefix [58, 47, 47] .uriPrefix uri
  let (hostname, cursor) ← getUriHostname allocs.hostname cursor
  let (port, _) ← getUriPrefixOrPort allocs.port [47] .uriPort cursor
  let type ← getUriTypeFromEnum uriPrefix
  return (type, hostname, port)

def splitUri (allocs : Allocs) (uri : List UInt8) (hostname port : Option (List UInt8)) :
    Except Status UriType × Option (List UInt8) × Option (List UInt8) :=
  if port ≠ none ∨ hostname ≠ none ∨ 4096 < uri.length + 4 then
    (.error .invalidParameters, hostname, port)
  else match splitParts allocs uri with
    | .ok (type, hostname, port) => (.ok type, some hostname, some port)
    | .error e => (.error e, none, none)

def opened (d : Nat) (s : List UInt8) : Nat := s.foldl bracket d

def Bracketed (d : Nat) (host : List UInt8) : Prop :=
  opened d host = 0 ∧ ∀ a b, host = a ++ 58 :: b → 0 < opened d a

/-- `prefix://host:port`, and a slash before what follows. -/
structure UrlForm (uri : List UInt8) (type : UriType) (host port : List UInt8) : Prop where
  split : ∃ tail, uri = type.scheme ++ [58, 47, 47] ++ (host ++ 58 :: (port ++ tail)) ∧
    (tail = [] ∨ ∃ text, tail = 47 :: text)
  host_ne : host ≠ []
  host_bracketed : Bracketed 0 host
  port_ne : port ≠ []
  port_slash : 47 ∉ port

variable {d : Nat} {c : UInt8} {host s rest port : List UInt8} {alloc : Bool} {type : UriType}

theorem bracketed_cons :
    Bracketed d (c :: host) ↔ ¬(d = 0 ∧ c = 58) ∧ Bracketed (bracket d c) host := by
  constructor
  · rintro ⟨h0, hc⟩
    refine ⟨?_, h0, fun a b hab => hc (c :: a) b (by rw [hab]; rfl)⟩
    rintro ⟨rfl, rfl⟩; exact absurd (hc [] host rfl) (by simp [opened])
  · rintro ⟨hne, h0, hc⟩
    refine ⟨h0, fun a b hab => ?_⟩
    cases a with
    | nil => cases hab; exact Nat.pos_of_ne_zero fun h => hne ⟨h, rfl⟩
    | cons x a => cases hab; exact hc a b rfl

theorem hostLoop_eq_some :
    hostLoop d s = some (host, rest) ↔ s = host ++ 58 :: rest ∧ Bracketed d host := by
  induction s generalizing d host with
  | nil => simp [hostLoop]
  | cons c s ih =>
    rw [hostLoop]
    cases host with
    | nil =>
      have h0 : Bracketed d [] ↔ d = 0 := by simp [Bracketed, opened]
      split <;> simp [h0] <;> grind
    | cons x host =>
      rw [bracketed_cons]
      split
      · simp_all
      · simp [ih]; grind

theorem strstr_eq_some {sep found : List UInt8} (hc : c ∉ found) :
    strstr (c :: sep) s = some (found, rest) ↔ s = found ++ (c :: sep) ++ rest := by
  induction s generalizing found with
  | nil => simp [strstr]
  | cons x s ih =>
    rw [strstr]
    split
    · next h =>
      obtain ⟨t, ht⟩ := isPrefixOf_iff_prefix.1 h
      rw [← ht]
      cases found with
      | nil => simp [eq_comm]
      | cons y found => simp_all
    · next h =>
      cases found with
      | nil => simp; rintro rfl rfl; simp at h
      | cons y found => simp at hc; simp [ih hc.2]; grind

theorem strstr_not_mem (c : UInt8) (s : List UInt8) : c ∉ ((strstr [c] s).map Prod.fst).getD s := by
  induction s with
  | nil => simp [strstr]
  | cons x s ih =>
    by_cases h : c = x
    · simp [strstr, h]
    · cases hs : strstr [c] s <;> simp_all [strstr]

theorem copyPart_eq_ok {part x r : List UInt8} :
    copyPart alloc part rest = .ok (x, r) ↔ alloc = true ∧ part ≠ [] ∧ part = x ∧ rest = r := by
  unfold copyPart; split_ifs <;> simp_all

theorem getUriTypeFromEnum_eq_ok :
    getUriTypeFromEnum s = .ok type ↔ s = type.scheme := by
  constructor
  · intro h; unfold getUriTypeFromEnum at h; split_ifs at h <;> cases h <;> assumption
  · rintro rfl; cases type <;> rfl

theorem uriPrefix_eq_ok :
    getUriPrefixOrPort alloc [58, 47, 47] .uriPrefix s = .ok (type.scheme, rest) ↔
      alloc = true ∧ s = type.scheme ++ [58, 47, 47] ++ rest := by
  have hc : 58 ∉ type.scheme ∧ type.scheme ≠ [] := by cases type <;> decide
  rw [← strstr_eq_some hc.1]; unfold getUriPrefixOrPort
  rcases strstr [58, 47, 47] s with _ | ⟨found, r⟩
  · simp
  · simp [copyPart_eq_ok]; grind

theorem hostname_eq_ok :
    getUriHostname alloc s = .ok (host, rest) ↔
      alloc = true ∧ host ≠ [] ∧ s = host ++ 58 :: rest ∧ Bracketed 0 host := by
  rw [← hostLoop_eq_some, getUriHostname]
  rcases hostLoop 0 s with _ | ⟨part, r⟩
  · simp
  · simp [copyPart_eq_ok]; grind

theorem port_eq_ok :
    (∃ rest, getUriPrefixOrPort alloc [47] .uriPort s = .ok (port, rest)) ↔
      alloc = true ∧ port ≠ [] ∧ 47 ∉ port ∧
        ∃ tail, s = port ++ tail ∧ (tail = [] ∨ ∃ text, tail = 47 :: text) := by
  constructor
  · rintro ⟨rest, h⟩
    have hmem := strstr_not_mem 47 s
    unfold getUriPrefixOrPort at h
    rcases hs : strstr [47] s with _ | ⟨found, r⟩ <;> rw [hs] at h hmem
    · obtain ⟨ha, hne, rfl, -⟩ := copyPart_eq_ok.1 h
      exact ⟨ha, hne, hmem, [], by simp⟩
    · obtain ⟨ha, hne, rfl, -⟩ := copyPart_eq_ok.1 h
      exact ⟨ha, hne, hmem, 47 :: r, by simpa using (strstr_eq_some hmem).1 hs, .inr ⟨r, rfl⟩⟩
  · rintro ⟨ha, hne, hmem, tail, rfl, rfl | ⟨text, rfl⟩⟩
    · have hs : strstr [47] port = none := by
        rcases hs : strstr [47] port with _ | ⟨found, r⟩
        · rfl
        · have := (strstr_eq_some (by simpa [hs] using strstr_not_mem 47 port)).1 hs
          simp [this] at hmem
      exact ⟨[], by simp [getUriPrefixOrPort, hs, copyPart_eq_ok, ha, hne]⟩
    · have hs : strstr [47] (port ++ 47 :: text) = some (port, text) :=
        (strstr_eq_some hmem).2 (by simp)
      exact ⟨text, by simp [getUriPrefixOrPort, hs, copyPart_eq_ok, ha, hne]⟩

theorem splitParts_eq_ok {allocs : Allocs} {uri : List UInt8} :
    splitParts allocs uri = .ok (type, host, port) ↔
      (allocs.uriPrefix ∧ allocs.hostname ∧ allocs.port) ∧ UrlForm uri type host port := by
  simp only [splitParts, Fallible.bind_eq_ok, Prod.exists, getUriTypeFromEnum_eq_ok, hostname_eq_ok]
  constructor
  · rintro ⟨x, c, hx, y, c', ⟨hb, hhost, rfl, hbr⟩, p, rest, hp, t, rfl, heq⟩
    cases heq
    obtain ⟨ha, rfl⟩ := uriPrefix_eq_ok.1 hx
    obtain ⟨hc, hport, hslash, tail, rfl, htail⟩ := port_eq_ok.1 ⟨rest, hp⟩
    exact ⟨⟨ha, hb, hc⟩, ⟨tail, rfl, htail⟩, hhost, hbr, hport, hslash⟩
  · rintro ⟨⟨ha, hb, hc⟩, ⟨tail, rfl, htail⟩, hhost, hbr, hport, hslash⟩
    obtain ⟨rest, hp⟩ := port_eq_ok.2 ⟨hc, hport, hslash, tail, rfl, htail⟩
    exact ⟨_, _, uriPrefix_eq_ok.2 ⟨ha, rfl⟩, host, _, ⟨hb, hhost, rfl, hbr⟩, port, rest, hp, type, rfl, rfl⟩

/-- A URL is split exactly if it has the form, into its parts; otherwise both outputs are null. -/
theorem splitUri_exact (allocs : Allocs) (uri : List UInt8) :
    (∀ type host port, splitUri allocs uri none none = (.ok type, some host, some port) ↔
      (allocs.uriPrefix ∧ allocs.hostname ∧ allocs.port) ∧ uri.length + 4 ≤ 4096 ∧
        UrlForm uri type host port) ∧
    ((¬∃ type host port, splitUri allocs uri none none = (.ok type, some host, some port)) →
      ∃ e, splitUri allocs uri none none = (.error e, none, none)) := by
  by_cases hlen : uri.length + 4 ≤ 4096
  · simp only [hlen, true_and, ← splitParts_eq_ok]
    rcases h : splitParts allocs uri with e | ⟨type, host, port⟩ <;> simp [splitUri, h, Nat.not_lt.2 hlen]
  · simp [splitUri, Nat.lt_of_not_le hlen, hlen]

end UriSplit
end S2OPC
