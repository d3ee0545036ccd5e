import S2OPC.AddressSpace.Write

/-!
# S2OPC.PubSub.AddressUri

`SOPC_Helper_URI_ParseUri_WithPrefix`: the address of a publisher or a subscriber, with its host and
port. A text is the list of its characters before the null one.

The loop stops before the last character, which is part of the port or of the name whatever it is.
-/

namespace S2OPC
namespace AddressUri

open List
open LocalizedText (toLower)

def uadpPrefix : List UInt8 := [111, 112, 99, 46, 117, 100, 112, 58, 47, 47]

def mqttPrefix : List UInt8 := [109, 113, 116, 116, 115, 58, 47, 47]

def IsPubSubPrefix (pfx : List UInt8) : Prop :=
  uadpPrefix.isPrefixOf pfx ∨ mqttPrefix.isPrefixOf pfx
deriving Decidable

structure UriParts where
  hostnameLength : Nat := 0
  portIdx : Nat := 0
  portLength : Nat := 0
  deriving DecidableEq

structure ParseState extends UriParts where
  isPort : Bool := false
  endOfPort : Bool := false
  hasPort : Bool := false
  hasName : Bool := false
  invalid : Bool := false
  startIPv6 : Bool := false

def isDigit (c : UInt8) : Bool := 48 ≤ c && c ≤ 57

def parseChar (prefixLength idx : Nat) (c : UInt8) (s : ParseState) : ParseState :=
  if s.isPort && !s.endOfPort then
    if isDigit c then
      if s.hasPort then s else { s with hasPort := true, portIdx := idx }
    else if c = 47 && !s.invalid then
      if s.hasPort then { s with portLength := idx - s.portIdx, hasName := true, endOfPort := true }
      else { s with invalid := true }
    else if !s.hasPort || !s.hasName then { s with invalid := true }
    else s
  else if s.endOfPort then s
  else if c = 58 && !s.startIPv6 then
    { s with hostnameLength := idx - prefixLength, isPort := true }
  else if c = 91 then { s with startIPv6 := true }
  else if c = 93 then
    if s.startIPv6 then { s with startIPv6 := false } else { s with invalid := true }
  else s

def parseLoop (prefixLength : Nat) : List UInt8 → Nat → ParseState → Nat × ParseState
  | [], idx, s => (idx, s)
  | c :: cs, idx, s =>
    if s.invalid then (idx, s) else parseLoop prefixLength cs (idx + 1) (parseChar prefixLength idx c s)

def result : Nat × ParseState → Option UriParts
  | (idx, s) =>
    if s.hasPort && !s.invalid then
      if s.portLength = 0 then some { s.toUriParts with portLength := idx - s.portIdx + 1 }
      else some s.toUriParts
    else none

def parseUriWithPrefix (pfx uri : List UInt8) : Option UriParts :=
  if ¬IsPubSubPrefix pfx then none
  else if 4096 < uri.length + 4 then none
  else if uri.length ≤ pfx.length ∨ (uri.take pfx.length).map toLower ≠ pfx.map toLower then none
  else result (parseLoop pfx.length (uri.drop pfx.length).dropLast pfx.length {})

/-- Brackets are balanced, `depth` of them being open before the text, and colons are inside of one. -/
def balanced (depth : Nat) : List UInt8 → Bool
  | [] => depth = 0
  | c :: s =>
    if c = 58 && depth = 0 then false
    else if c = 91 then balanced (depth + 1) s
    else if c = 93 then 0 < depth && balanced (depth - 1) s
    else balanced depth s

def Digits (port : List UInt8) : Prop := port ≠ [] ∧ ∀ c ∈ port, isDigit c

def IsName (tail : List UInt8) : Prop := ∃ name, name ≠ [] ∧ tail = 47 :: name

def partsOf (n : Nat) (host port : List UInt8) : UriParts :=
  ⟨host.length, n + host.length + 1, port.length⟩

/-- `host:port` or `host:port/name` behind a prefix of length `n`. -/
def HostPort (n : Nat) (rest : List UInt8) (p : UriParts) : Prop :=
  ∃ host port tail, rest = host ++ 58 :: (port ++ tail) ∧ host ≠ [] ∧ balanced 0 host ∧ Digits port ∧
    (tail = [] ∨ IsName tail) ∧ p = partsOf n host port

def SamePrefix (pfx uri : List UInt8) : Prop := (uri.take pfx.length).map toLower = pfx.map toLower

def AddressForm (pfx uri : List UInt8) (p : UriParts) : Prop :=
  SamePrefix pfx uri ∧ HostPort pfx.length (uri.drop pfx.length) p

def ParsesExactly (pfx uri : List UInt8) : Prop :=
  ∀ p, parseUriWithPrefix pfx uri = some p ↔ AddressForm pfx uri p

/-- The brackets of a host as the flag `startIPv6` sees them: it does not count. -/
def flagged (startIPv6 : Bool) : List UInt8 → Bool
  | [] => !startIPv6
  | c :: s =>
    if c = 58 && !startIPv6 then false
    else if c = 91 then flagged true s
    else if c = 93 then startIPv6 && flagged false s
    else flagged startIPv6 s

/-- A bracket is opened inside of another one. -/
def nested (inside : Bool) : List UInt8 → Bool
  | [] => false
  | c :: s =>
    if c = 91 then inside || nested true s
    else if c = 93 then nested false s
    else nested inside s

/-- A port of which the last character is a digit and not the first one, or with a name behind it. -/
def RegularPort (port tail : List UInt8) : Prop :=
  Digits port ∧ (tail = [] ∧ 2 ≤ port.length ∨ IsName tail)

def Accepts (n : Nat) (rest : List UInt8) (p : UriParts) : Prop :=
  ∃ host port tail, rest = host ++ 58 :: (port ++ tail) ∧ flagged false host ∧
    (RegularPort port tail ∧ p = partsOf n host port ∨
      ∃ c, Digits port ∧ ¬isDigit c ∧ tail = [c] ∧ p = partsOf n host (port ++ [c]))

inductive Misread : List UInt8 → Prop
  | emptyHost {port tail} : RegularPort port tail → Misread (58 :: (port ++ tail))
  | nestedBracket {host port tail} : nested false host → flagged false host ∨ balanced 0 host →
      RegularPort port tail → Misread (host ++ 58 :: (port ++ tail))
  | oneDigit {host c} : host ≠ [] → balanced 0 host → isDigit c → Misread (host ++ [58, c])
  | lastCharacter {host port c} : flagged false host → Digits port → ¬isDigit c →
      Misread (host ++ 58 :: (port ++ [c]))

variable {n idx q : Nat} {c : UInt8} {s cs rest host port : List UInt8} {p : UriParts} {f : Bool}

theorem not_balanced_of_flagged {d : Nat} (h : flagged f s) (hd : f.toNat < d) : ¬balanced d s := by
  induction s generalizing f d with
  | nil => cases f <;> simp_all [flagged, balanced]; omega
  | cons c s ih =>
    have hopen := @ih true (d + 1)
    have hclose := @ih false (d - 1)
    have hother := @ih f d
    simp only [flagged, balanced] at h ⊢
    cases f <;> simp at * <;> grind

theorem flagged_eq_balanced (h : nested f s = false) : flagged f s = balanced f.toNat s := by
  induction s generalizing f with
  | nil => cases f <;> rfl
  | cons c s ih =>
    simp only [flagged, balanced, nested] at h ⊢
    cases f <;> grind

theorem nested_excludes (h : nested f s) : ¬(flagged f s ∧ balanced f.toNat s) := by
  induction s generalizing f with
  | nil => simp [nested] at h
  | cons c s ih =>
    simp only [flagged, balanced, nested] at h ⊢
    cases f
    · grind
    · have hno := not_balanced_of_flagged (f := true) (s := s) (d := 2)
      grind

theorem result_of_invalid {st : ParseState} (h : st.invalid) :
    result (parseLoop n cs idx st) = none := by
  cases cs <;> simp [parseLoop, result, h]

theorem parseLoop_name {st : ParseState} (he : st.endOfPort) (hi : st.invalid = false) :
    parseLoop n cs idx st = (idx + cs.length, st) := by
  induction cs generalizing idx with
  | nil => rfl
  | cons c cs ih => simp [parseLoop, parseChar, he, hi, ih]; omega

theorem parseLoop_port {m : Nat} (hq : q < idx) :
    result (parseLoop n cs idx { hostnameLength := m, portIdx := q, isPort := true, hasPort := true }) =
      if cs.dropWhile isDigit = [] then some ⟨m, q, idx + (cs.takeWhile isDigit).length - q + 1⟩
      else if (cs.dropWhile isDigit).head? = some 47 then
        some ⟨m, q, idx + (cs.takeWhile isDigit).length - q⟩
      else none := by
  induction cs generalizing idx with
  | nil => rfl
  | cons c cs ih =>
    have hne : idx - q ≠ 0 := by omega
    by_cases hc : isDigit c
    · simp [parseLoop, parseChar, hc, ih (Nat.lt_succ_of_lt hq)]
      grind
    · by_cases h47 : c = 47
      · subst h47
        rw [parseLoop, if_neg (by simp), parseLoop_name rfl rfl]
        simp [parseChar, hc, result, hne]
      · rw [parseLoop, if_neg (by simp), result_of_invalid (by simp [parseChar, hc, h47])]
        simp [hc, h47]

theorem parseLoop_colon {m : Nat} :
    result (parseLoop n cs idx { hostnameLength := m, isPort := true }) = some p ↔
      ∃ port tail, cs = port ++ tail ∧ Digits port ∧
        (tail = [] ∧ p = ⟨m, idx, port.length + 1⟩ ∨
          ∃ name, tail = 47 :: name ∧ p = ⟨m, idx, port.length⟩) := by
  constructor
  · intro h
    rcases cs with _ | ⟨c, cs⟩
    · simp [parseLoop, result] at h
    by_cases hc : isDigit c
    · simp [parseLoop, parseChar, hc, parseLoop_port (Nat.lt_succ_self idx)] at h
      refine ⟨c :: cs.takeWhile isDigit, cs.dropWhile isDigit, by simp, ⟨by simp, ?_⟩, ?_⟩
      · simpa [hc] using fun x hx => mem_takeWhile_imp hx
      · split_ifs at h with hnil hslash
        · cases h; exact .inl ⟨dropWhile_eq_nil_iff.2 hnil, by simp; omega⟩
        · obtain ⟨name, hname⟩ := head?_eq_some_iff.1 hslash
          cases h; exact .inr ⟨name, hname, by simp; omega⟩
    · rw [parseLoop, if_neg (by simp), result_of_invalid] at h
      · cases h
      · simp [parseChar, hc]
  · rintro ⟨_ | ⟨c, port⟩, tail, rfl, hd, h⟩
    · cases hd.1 rfl
    have hc := hd.2 c (.head _)
    have hport : ∀ x ∈ port, isDigit x := fun x hx => hd.2 x (.tail _ hx)
    simp only [cons_append, parseLoop, parseChar, hc]
    refine (parseLoop_port (Nat.lt_succ_self idx)).trans ?_
    rw [takeWhile_append_of_pos hport, dropWhile_append_of_pos hport]
    obtain ⟨rfl, rfl⟩ | ⟨name, rfl, rfl⟩ := h
    · simp; omega
    · have h47 : isDigit 47 = false := rfl
      simp [h47]; omega

theorem exists_colon {P : List UInt8 → List UInt8 → Prop} :
    (∃ h r, c :: cs = h ++ 58 :: r ∧ P h r) ↔
      c = 58 ∧ P [] cs ∨ ∃ h r, cs = h ++ 58 :: r ∧ P (c :: h) r := by
  constructor
  · rintro ⟨_ | ⟨x, h⟩, r, heq, hP⟩
    · cases heq; exact .inl ⟨rfl, hP⟩
    · cases heq; exact .inr ⟨h, r, rfl, hP⟩
  · rintro (⟨rfl, hP⟩ | ⟨h, r, rfl, hP⟩)
    · exact ⟨[], cs, rfl, hP⟩
    · exact ⟨c :: h, r, rfl, hP⟩

theorem parseLoop_host :
    result (parseLoop n cs idx { startIPv6 := f }) = some p ↔
      ∃ h r, cs = h ++ 58 :: r ∧ flagged f h ∧ result (parseLoop n r (idx + h.length + 1)
        { hostnameLength := idx + h.length - n, isPort := true }) = some p := by
  induction cs generalizing idx f with
  | nil => simp [parseLoop, result]
  | cons c cs ih =>
    have hidx : ∀ h : List UInt8, idx + (c :: h).length = idx + 1 + h.length := by simp; omega
    rw [parseLoop, if_neg (by simp), exists_colon]
    simp only [hidx, flagged, parseChar]
    by_cases hcolon : c = 58 ∧ f = false
    · simp [hcolon]
    by_cases h91 : c = 91
    · subst h91; simp [ih]
    by_cases h93 : c = 93
    · subst h93; cases f <;> simp [ih, result_of_invalid]
    · cases f <;> simp_all

theorem Digits.concat (h : Digits port) (hc : isDigit c) : RegularPort (port ++ [c]) [] := by
  have hpos := length_pos_iff.2 h.1
  exact ⟨⟨by simp, by simpa [or_imp, forall_and, hc] using h.2⟩, .inl ⟨rfl, by simp; omega⟩⟩

theorem result_eq_some (hne : rest ≠ []) :
    result (parseLoop n rest.dropLast n {}) = some p ↔ Accepts n rest p := by
  obtain ⟨body, c, rfl⟩ := rest.eq_nil_or_concat'.resolve_left hne
  rw [dropLast_concat, parseLoop_host]
  simp only [parseLoop_colon, Nat.add_sub_cancel_left]
  constructor
  · rintro ⟨host, _, rfl, hf, port, tail, rfl, hd, ⟨rfl, rfl⟩ | ⟨name, rfl, rfl⟩⟩
    · by_cases hc : isDigit c
      · exact ⟨host, port ++ [c], [], by simp, hf, .inl ⟨hd.concat hc, by simp [partsOf]⟩⟩
      · exact ⟨host, port, [c], by simp, hf, .inr ⟨c, hd, hc, rfl, by simp [partsOf]⟩⟩
    · exact ⟨host, port, 47 :: (name ++ [c]), by simp, hf, .inl ⟨⟨hd, .inr ⟨_, by simp, rfl⟩⟩, rfl⟩⟩
  · have hlast : ∀ host port x, body ++ [c] = host ++ 58 :: (port ++ [x]) → body = host ++ 58 :: port :=
      fun host port x heq =>
        (append_inj' (heq.trans (append_assoc host (58 :: port) [x]).symm) rfl).1
    rintro ⟨host, port, tail, heq, hf,
      ⟨⟨hd, ⟨rfl, hlen⟩ | ⟨name, hname, rfl⟩⟩, rfl⟩ | ⟨x, hd, -, rfl, rfl⟩⟩
    · obtain ⟨port, x, rfl⟩ := port.eq_nil_or_concat'.resolve_left hd.1
      have hd' : Digits port := ⟨by rintro rfl; simp at hlen, fun y hy => hd.2 y (by simp [hy])⟩
      exact ⟨host, port, hlast _ _ x (by simpa using heq), hf, port, [], by simp, hd',
        .inl ⟨rfl, by simp [partsOf]⟩⟩
    · obtain ⟨name, x, rfl⟩ := name.eq_nil_or_concat'.resolve_left hname
      exact ⟨host, _, hlast _ (port ++ 47 :: name) x (by simpa using heq), hf, port, _, rfl, hd,
        .inr ⟨name, rfl, rfl⟩⟩
    · exact ⟨host, port, hlast _ _ x heq, hf, port, [], by simp, hd, .inl ⟨rfl, by simp [partsOf]⟩⟩

theorem accepts_iff_hostPort (h : ¬Misread rest) : Accepts n rest p ↔ HostPort n rest p := by
  -- for a regular port, the flag and the depth agree
  have hhost : ∀ host port tail, rest = host ++ 58 :: (port ++ tail) → RegularPort port tail →
      (flagged false host ↔ balanced 0 host) ∧ host ≠ [] := by
    rintro host port tail rfl hport
    refine ⟨?_, by rintro rfl; exact h (.emptyHost hport)⟩
    by_cases hn : nested false host
    · exact ⟨fun hf => absurd (.nestedBracket hn (.inl hf) hport) h,
        fun hb => absurd (.nestedBracket hn (.inr hb) hport) h⟩
    · rw [flagged_eq_balanced (by simpa using hn)]; rfl
  constructor
  · rintro ⟨host, port, tail, rfl, hf, ⟨hport, rfl⟩ | ⟨c, hd, hc, rfl, -⟩⟩
    · obtain ⟨hiff, hnil⟩ := hhost _ _ _ rfl hport
      exact ⟨host, port, tail, rfl, hnil, hiff.1 hf, hport.1, hport.2.imp And.left id, rfl⟩
    · exact absurd (.lastCharacter hf hd hc) h
  · rintro ⟨host, port, tail, rfl, hnil, hb, hd, htail, rfl⟩
    have hport : RegularPort port tail := by
      refine ⟨hd, htail.imp_left fun ht => ⟨ht, ?_⟩⟩
      subst ht
      rcases port with _ | ⟨c, _ | ⟨c', port⟩⟩
      · cases hd.1 rfl
      · exact absurd (.oneDigit hnil hb (hd.2 c (.head _))) h
      · simp
    exact ⟨host, port, tail, rfl, (hhost _ _ _ rfl hport).1.2 hb, .inl ⟨hport, rfl⟩⟩

theorem HostPort.parts (host : List UInt8) (h : HostPort n (host ++ 58 :: s) p)
    (hp : p.hostnameLength = host.length) :
    host ≠ [] ∧ balanced 0 host ∧
      ∃ port tail, s = port ++ tail ∧ Digits port ∧ p.portLength = port.length := by
  obtain ⟨host', port, tail, heq, hnil, hb, hd, -, rfl⟩ := h
  obtain ⟨rfl, hs⟩ := append_inj heq hp.symm
  exact ⟨hnil, hb, port, tail, by simpa using hs, hd, rfl⟩

theorem Accepts.parts (h : Accepts n (host ++ 58 :: s) p) (hp : p.hostnameLength = host.length) :
    flagged false host ∧ 2 ≤ s.length := by
  obtain ⟨host', port, tail, heq, hf, h⟩ := h
  have hl : host'.length = host.length := by obtain ⟨-, rfl⟩ | ⟨c, -, -, -, rfl⟩ := h <;> exact hp
  obtain ⟨rfl, hs⟩ := append_inj heq hl.symm
  cases hs
  refine ⟨hf, ?_⟩
  obtain ⟨⟨hd, ⟨rfl, h2⟩ | ⟨name, hname, rfl⟩⟩, -⟩ | ⟨c, hd, -, rfl, -⟩ := h <;>
    have := length_pos_iff.2 hd.1 <;> simp <;> omega

theorem Misread.not_exact (h : Misread rest) : ¬∀ p, Accepts n rest p ↔ HostPort n rest p := by
  intro hexact
  cases h with
  | @emptyHost port tail hport =>
    have hform := (hexact (partsOf n [] port)).1 ⟨[], port, tail, rfl, rfl, .inl ⟨hport, rfl⟩⟩
    exact (hform.parts [] rfl).1 rfl
  | @nestedBracket host port tail hn hok hport =>
    have hnil : host ≠ [] := by rintro rfl; cases hn
    have hiff := hexact (partsOf n host port)
    refine nested_excludes hn (hok.elim (fun hf => ⟨hf, ?_⟩) (fun hb => ⟨?_, hb⟩))
    · exact ((hiff.1 ⟨host, port, tail, rfl, hf, .inl ⟨hport, rfl⟩⟩).parts host rfl).2.1
    · have hacc := hiff.2 ⟨host, port, tail, rfl, hnil, hb, hport.1, hport.2.imp And.left id, rfl⟩
      exact (hacc.parts rfl).1
  | @oneDigit host c hnil hb hc =>
    have hform : HostPort n (host ++ [58, c]) (partsOf n host [c]) :=
      ⟨host, [c], [], rfl, hnil, hb, ⟨by simp, by simpa using hc⟩, .inl rfl, rfl⟩
    exact absurd (((hexact _).2 hform).parts rfl).2 (by simp)
  | @lastCharacter host port c hf hd hc =>
    have hform := (hexact (partsOf n host (port ++ [c]))).1
      ⟨host, port, [c], rfl, hf, .inr ⟨c, hd, hc, rfl, rfl⟩⟩
    obtain ⟨-, -, port', tail, heq, hd', hl⟩ := hform.parts host rfl
    obtain ⟨rfl, -⟩ := append_inj (heq.symm.trans (append_nil _).symm) hl.symm
    exact hc (hd'.2 c (by simp))

theorem parseUriWithPrefix_eq_some {pfx uri : List UInt8} (hp : IsPubSubPrefix pfx)
    (hlen : uri.length + 4 ≤ 4096) :
    parseUriWithPrefix pfx uri = some p ↔
      SamePrefix pfx uri ∧ Accepts pfx.length (uri.drop pfx.length) p := by
  rw [parseUriWithPrefix, if_neg (not_not.2 hp), if_neg (by omega)]
  split
  · next h =>
    simp only [reduceCtorEq, false_iff]
    rintro ⟨hs, host, port, tail, heq, -⟩
    obtain hle | hne := h
    · simp [drop_eq_nil_of_le hle] at heq
    · exact hne hs
  · next h =>
    obtain ⟨hlt, hs⟩ := not_or.1 h
    rw [result_eq_some fun hnil => hlt (drop_eq_nil_iff.1 hnil)]
    exact (and_iff_right (not_not.1 hs)).symm

/-- An address is parsed as its form says exactly if what follows the prefix is not one of the texts
that are misread. -/
theorem parsesExactly_iff (pfx uri : List UInt8) (hp : IsPubSubPrefix pfx)
    (hlen : uri.length + 4 ≤ 4096) :
    ParsesExactly pfx uri ↔ ¬(SamePrefix pfx uri ∧ Misread (uri.drop pfx.length)) := by
  simp only [ParsesExactly, parseUriWithPrefix_eq_some hp hlen, AddressForm, and_congr_right_iff]
  constructor
  · rintro h ⟨hs, hm⟩
    exact hm.not_exact fun p => h p hs
  · exact fun h p hs => accepts_iff_hostPort fun hm => h ⟨hs, hm⟩

theorem udp_address_parsed :
    ParsesExactly uadpPrefix (uadpPrefix ++ [104, 58, 49, 50]) ∧
      parseUriWithPrefix uadpPrefix (uadpPrefix ++ [104, 58, 49, 50]) = some ⟨1, 12, 2⟩ := by
  refine ⟨(parsesExactly_iff _ _ (by decide) (by decide)).2 ?_, by decide⟩
  rintro ⟨-, h⟩
  have hhost (host s : List UInt8) (h : host ++ 58 :: s = [104, 58, 49, 50]) :
      host = [104] ∧ s = [49, 50] := by
    rcases host with _ | ⟨a, _ | ⟨b, host⟩⟩
    · cases h
    · cases h; exact ⟨rfl, rfl⟩
    · have hmem : (58 : UInt8) ∈ [49, 50] := by rw [← (cons.inj (cons.inj h).2).2]; simp
      exact absurd hmem (by decide)
  generalize hrest : (uadpPrefix ++ [104, 58, 49, 50]).drop uadpPrefix.length = rest at h
  cases h with
  | emptyHost => cases hrest
  | nestedBracket hn => rw [(hhost _ _ hrest.symm).1] at hn; cases hn
  | oneDigit => cases (hhost _ _ hrest.symm).2
  | @lastCharacter host port c _ _ hc =>
    have hlast := congrArg getLast? (hhost _ _ hrest.symm).2
    simp at hlast
    subst hlast; exact hc rfl

/-- The port of `mqtts://h:4` is not found, and that of `mqtts://h:1x` is taken as `1x`. -/
theorem last_character_not_examined :
    AddressForm mqttPrefix (mqttPrefix ++ [104, 58, 52]) ⟨1, 10, 1⟩ ∧
      parseUriWithPrefix mqttPrefix (mqttPrefix ++ [104, 58, 52]) = none ∧
      parseUriWithPrefix mqttPrefix (mqttPrefix ++ [104, 58, 49, 120]) = some ⟨1, 10, 2⟩ ∧
      ¬AddressForm mqttPrefix (mqttPrefix ++ [104, 58, 49, 120]) ⟨1, 10, 2⟩ := by
  refine ⟨⟨rfl, [104], [52], [], rfl, by simp, rfl, ⟨by simp, by simp [isDigit]⟩, .inl rfl, rfl⟩,
    by decide, by decide, ?_⟩
  rintro ⟨-, h⟩
  obtain ⟨-, -, port, tail, heq, hd, hl⟩ := HostPort.parts [104] (s := [49, 120]) h rfl
  obtain ⟨rfl, -⟩ := append_inj (heq.symm.trans (append_nil _).symm) hl.symm
  exact absurd (hd.2 120 (by simp)) (by decide)

end AddressUri
end S2OPC
