import S2OPC.Common.XsdDateTime
import S2OPC.Lib.Gregorian

/-!
# S2OPC.Common.XsdParse

The texts that the parser accepts. The parts of a text (`Text`) are read as numbers (`Loose`), where a
field can have spaces or a sign, and a year and a fraction have a limited length. The parser accepts a
text exactly if it has such parts (`tmFromXsdDateTime_iff`).
-/

namespace S2OPC
namespace XsdDateTime

open Numeral NumberText List Option

inductive ZoneText where
  | none
  | utc
  | offset (negative : Bool) (hour minute : List UInt8)

structure Text where
  year : List UInt8
  month : List UInt8
  day : List UInt8
  hour : List UInt8
  minute : List UInt8
  second : List UInt8
  fraction : Option (List UInt8)
  zone : ZoneText

def ZoneText.render : ZoneText → List UInt8
  | .none => []
  | .utc => [90]
  | .offset negative hour minute => (if negative then 45 else 43) :: (hour ++ 58 :: minute)

def renderFraction (fraction : Option (List UInt8)) : List UInt8 := fraction.elim [] (46 :: ·)

def Text.render (t : Text) : List UInt8 :=
  t.year ++ 45 :: (t.month ++ 45 :: (t.day ++ 84 :: (t.hour ++ 58 :: (t.minute ++ 58 ::
    (t.second ++ (renderFraction t.fraction ++ t.zone.render))))))

variable (pl : Platform)

def LooseYear (y : List UInt8) (v : Int) : Prop :=
  45 ∉ y.drop 1 ∧ (if y.headD 0 = 45 then 5 else 4) ≤ y.length ∧ y.length ≤ 20 ∧
    -2 ^ 15 ≤ v ∧ v ≤ 2 ^ 15 - 1 ∧ ∃ spaces sg ds, y = spaces ++ sg ++ ds ∧
      Spelled 10 spaces sg [] ds ∧ v = if sg = [45] then -(value 10 ds : Int) else value 10 ds

/-- Two characters that `strtoul` reads a number from, with the one that follows. -/
def LooseField (endChar : UInt8) (f : List UInt8) (n : UInt8) : Prop :=
  f.length = 2 ∧ Reads pl.ulong (2 ^ 8 - 1) (f ++ [endChar]) 10 endChar n.toNat

def LooseTwo (f : List UInt8) (n : UInt8) : Prop :=
  f.length = 2 ∧ ∃ spaces sg ds, f = spaces ++ sg ++ ds ∧ Spelled 10 spaces sg [] ds ∧
    value 10 ds < 2 ^ pl.ulonglong.bits ∧ unsigned pl.ulonglong sg (value 10 ds) = n.toNat

inductive LooseZone : ZoneText → Bool → UInt8 → UInt8 → Prop where
  | none : LooseZone .none false 0 0
  | utc : LooseZone .utc false 0 0
  | offset {negative : Bool} {f g : List UInt8} {hour minute : UInt8} :
      LooseField pl 58 f hour → hour ≤ 14 → LooseTwo pl g minute → minute ≤ 59 →
      (hour = 14 → minute = 0) → LooseZone (.offset negative f g) negative hour minute

structure LooseFraction (second ds : List UInt8) : Prop where
  digits : ∀ c ∈ ds, isDigit 10 c = true
  length : (second ++ 46 :: ds).length ≤ 339
  erange : pl.strtodErange (second ++ 46 :: ds) = false

structure Loose (t : Text) (tm : Tm) : Prop where
  year : LooseYear t.year tm.year
  month : LooseField pl 45 t.month tm.month
  month_range : 1 ≤ tm.month ∧ tm.month ≤ 12
  day : LooseField pl 84 t.day tm.day
  day_range : ¬ rejectDay tm.year tm.month tm.day
  hour : LooseField pl 58 t.hour tm.hour
  minute : LooseField pl 58 t.minute tm.minute
  minute_range : tm.minute ≤ 59
  second : LooseTwo pl t.second tm.second
  second_range : tm.second ≤ 59
  -- There is one time with the hour 24.
  hour_range : tm.hour ≤ 24
  midnight : tm.hour = 24 → tm.minute = 0 ∧ tm.second = 0 ∧ ∀ ds ∈ t.fraction, ∀ c ∈ ds, c = 48
  fraction : ∀ ds ∈ t.fraction, LooseFraction pl t.second ds
  fraction_eq : tm.secondAndFrac = t.fraction.map fun ds => t.second ++ 46 :: ds
  zone : LooseZone pl t.zone tm.utcNegOff tm.utcHourOff tm.utcMinOff

/-- A text that ends with a fraction is not followed by a `Z`. -/
def NotFollowed (t : Text) (after : List UInt8) : Prop :=
  t.fraction.isSome → t.zone.render = [] → after.headD 0 ≠ 90

variable {pl}

theorem isDecimal_eq : isDecimal = isDigit 10 := by
  funext c
  rw [Bool.eq_iff_iff]
  simp only [isDecimal, isDigit, digit?, decide_eq_true_eq, Bool.and_eq_true,
    UInt8.le_iff_toNat_le, UInt8.reduceToNat]
  split_ifs <;> simp <;> omega

variable {n bound : Nat} {ul : ULong} {ds r str : List UInt8} {hour second : UInt8}

variable {k maximum : Nat} {c a b minute : UInt8} {z : ZoneText} {y : List UInt8}

theorem subSize_of_le (hk : k ≤ n) (hn : n < 2 ^ pl.sizeBits) :
    subSize pl n k = n - k := by
  unfold subSize
  rw [show n + 2 ^ pl.sizeBits - k = n - k + 2 ^ pl.sizeBits by omega, Nat.add_mod_right,
    Nat.mod_eq_of_lt (by omega)]

theorem two_pow_sizeBits (pl : Platform) : 2 ^ 16 ≤ 2 ^ pl.sizeBits :=
  Nat.pow_le_pow_right (by decide) pl.sizeBits_ge

theorem subSize_of_lt (hk : n < k) (hk' : k < 2 ^ pl.sizeBits) :
    subSize pl n k = 2 ^ pl.sizeBits - (k - n) := by
  unfold subSize
  rw [Nat.mod_eq_of_lt (by omega)]
  omega

theorem subSize_lt (n k : Nat) : subSize pl n k < 2 ^ pl.sizeBits :=
  Nat.mod_lt _ (Nat.two_pow_pos _)

structure Separator (e : UInt8) : Prop where
  not_digit : isDigit 10 e = false
  not_space : isSpace e = false
  not_sign : e ≠ 43 ∧ e ≠ 45
  not_null : e ≠ 0
  not_x : e ≠ 120 ∧ e ≠ 88

variable {e : UInt8} {f rest after s p : List UInt8} {next : UInt8 → List UInt8 → Nat → Option Tm}
  {tm tm' : Tm} {reject : UInt8 → Prop} {rem : Nat} {negative : Bool}

theorem Separator.endsNumber (h : Separator e) : EndsNumber 10 e :=
  ⟨h.not_digit, h.not_x⟩

theorem separator_colon : Separator 58 := ⟨by decide, by decide, by decide, by decide, by decide⟩

theorem separator_t : Separator 84 := ⟨by decide, by decide, by decide, by decide, by decide⟩

theorem endsNumber_dash_ten : EndsNumber 10 45 := ⟨by decide, by decide⟩

theorem reads_append (he : e ≠ 0) (h : Reads ul maximum (f ++ [e]) 10 e n) :
    Reads ul maximum (f ++ e :: rest) 10 e n := by
  obtain ⟨spaces, sg, pre, ds, r, hs, hspelled, hr, hrest⟩ := h
  refine ⟨spaces, sg, pre, ds, r ++ rest, ?_, hspelled, ?_, hrest⟩
  · rw [← append_assoc, ← hs]; simp
  · cases r with
    | nil => exact absurd hr.symm he
    | cons c r => exact hr

theorem not_mem_of_spelled (h : Separator e) {spaces sg : List UInt8}
    (hspelled : Spelled 10 spaces sg [] ds) : e ∉ spaces ++ sg ++ [] ++ ds := by
  simp only [append_nil, mem_append, not_or]
  refine ⟨⟨fun hmem => ?_, fun hmem => ?_⟩, fun hmem => ?_⟩
  · have := hspelled.spaces e hmem; rw [h.not_space] at this; cases this
  · obtain rfl | rfl | rfl := hspelled.sign
    · exact absurd hmem not_mem_nil
    · exact h.not_sign.1 (mem_singleton.mp hmem)
    · exact h.not_sign.2 (mem_singleton.mp hmem)
  · have := hspelled.digits e hmem; rw [h.not_digit] at this; cases this

theorem append_of_head {w : List UInt8} (hs : f ++ e :: rest = w ++ r) (hw : e ∉ w)
    (hr : r.headD 0 = e) : ∃ r', f ++ [e] = w ++ r' ∧ r'.headD 0 = e := by
  obtain ⟨a, rfl, ha⟩ | ⟨c, rfl, rfl⟩ := append_eq_append_iff.mp hs
  · cases a with
    | nil => exact ⟨[e], by simp, rfl⟩
    | cons x a => simp only [cons_append, List.cons.injEq] at ha; exact absurd (by simp [ha.1]) hw
  · refine ⟨c ++ [e], by simp, ?_⟩
    cases c with
    | nil => rfl
    | cons x c => exact hr

theorem Separator.reads (h : Separator e)
    (hreads : Reads ul maximum (f ++ e :: rest) 10 e n) : Reads ul maximum (f ++ [e]) 10 e n := by
  obtain ⟨spaces, sg, pre, ds, r, hs, hspelled, hr, hrest⟩ := hreads
  obtain rfl := pre_eq_nil hspelled
  obtain ⟨r', hs', hr'⟩ := append_of_head hs (not_mem_of_spelled h hspelled) hr
  exact ⟨spaces, sg, [], ds, r', hs', hspelled, hr', hrest⟩

theorem field_iff_of (he : EndsNumber 10 e) (he0 : e ≠ 0) [DecidablePred reject]
    (hlt : bound + 1 < 2 ^ pl.sizeBits)
    (hbound : ∀ n p rem tm, rem < 2 ^ pl.sizeBits → next n p rem = some tm → rem ≤ bound)
    (hs : s.length < 2 ^ pl.sizeBits)
    (hclear : ∀ f n rest, f.length = 2 → s = f ++ e :: rest → ¬ reject n →
      next n (rest ++ after) rest.length = some tm →
      Reads pl.ulong (2 ^ 8 - 1) (f ++ e :: (rest ++ after)) 10 e n.toNat →
      Reads pl.ulong (2 ^ 8 - 1) (f ++ [e]) 10 e n.toNat) :
    field pl e reject next (s ++ after) s.length = some tm ↔
      ∃ f n rest, s = f ++ e :: rest ∧ LooseField pl e f n ∧ ¬ reject n ∧
        next n (rest ++ after) rest.length = some tm := by
  constructor
  · intro h; unfold field parseTwoDigitsUint8 at h
    by_cases hbad : (2 < s.length ∧ (s ++ after).getD 2 0 ≠ e) ∨ s.length < 2
    · rw [if_pos hbad] at h; cases h
    rw [if_neg hbad] at h
    cases hread : strtouint8 pl.ulong (s ++ after) 10 e with
    | none => rw [hread] at h; cases h
    | some n =>
      rw [hread] at h
      obtain ⟨hreject, h⟩ := ite_none_left_eq_some.mp h
      -- with two characters left the remaining length would wrap
      have hlen : 3 ≤ s.length := by
        by_contra hshort
        have hle := hbound _ _ _ _ (subSize_lt _ _) h
        rw [subSize_of_lt (by omega) (by have := two_pow_sizeBits pl; omega)] at hle
        omega
      obtain ⟨a, b, c, rest, rfl⟩ : ∃ a b c rest, s = a :: b :: c :: rest := by
        obtain _ | ⟨a, _ | ⟨b, _ | ⟨c, rest⟩⟩⟩ := s
        case cons.cons.cons => exact ⟨a, b, c, rest, rfl⟩
        all_goals simp at hlen
      obtain rfl : c = e := by by_contra hne; exact hbad (.inl ⟨hlen, hne⟩)
      rw [subSize_of_le hlen hs] at h
      refine ⟨[a, b], n, rest, rfl, ⟨rfl, ?_⟩, hreject, h⟩
      exact hclear [a, b] n rest rfl rfl hreject h ((strtouint8_eq_some_iff he).mp hread)
  · rintro ⟨f, n, rest, rfl, ⟨hf, hreads⟩, hreject, hnext⟩
    obtain ⟨a, b, rfl⟩ := length_eq_two.mp hf
    have hread : strtouint8 pl.ulong ([a, b] ++ e :: rest ++ after) 10 e = some n := by
      rw [strtouint8_eq_some_iff he, append_assoc]
      exact reads_append he0 hreads
    unfold field parseTwoDigitsUint8
    rw [if_neg (by simp), hread]
    dsimp only
    rw [if_neg hreject, subSize_of_le (by simp) hs]
    exact hnext

theorem field_iff (he : Separator e) [DecidablePred reject] (hlt : bound + 1 < 2 ^ pl.sizeBits)
    (hbound : ∀ n p rem tm, rem < 2 ^ pl.sizeBits → next n p rem = some tm → rem ≤ bound)
    (hs : s.length < 2 ^ pl.sizeBits) :
    field pl e reject next (s ++ after) s.length = some tm ↔
      ∃ f n rest, s = f ++ e :: rest ∧ LooseField pl e f n ∧ ¬ reject n ∧
        next n (rest ++ after) rest.length = some tm :=
  field_iff_of he.endsNumber he.not_null hlt hbound hs fun _ _ _ _ _ _ _ => he.reads

theorem field_bound [DecidablePred reject]
    (hbound : ∀ n p rem tm, rem < 2 ^ pl.sizeBits → next n p rem = some tm → rem ≤ bound)
    (hrem : rem < 2 ^ pl.sizeBits) (h : field pl e reject next p rem = some tm) :
    rem ≤ bound + 3 := by
  unfold field at h
  cases hread : parseTwoDigitsUint8 pl p rem e with
  | none => rw [hread] at h; cases h
  | some n =>
    rw [hread] at h
    obtain ⟨-, h⟩ := ite_none_left_eq_some.mp h
    have hle := hbound _ _ _ _ (subSize_lt _ _) h
    by_contra hbig
    rw [subSize_of_le (by omega) hrem] at hle
    omega

theorem strtouintTwo_iff {n : UInt8} (hf : f.length = 2) :
    strtouintTwo pl (f ++ rest) = some n ↔ LooseTwo pl f n := by
  obtain ⟨a, b, rfl⟩ := length_eq_two.mp hf
  have hdata : strtouintTwo pl ([a, b] ++ rest) = strtouintBuf pl [a, b] := rfl
  have hpow := two_pow_le pl.ulonglong
  rw [hdata]
  unfold strtouintBuf
  constructor
  · intro h
    cases hscan : scan 10 [a, b] with
    | none =>
      have hnone : strtoul pl.ulonglong [a, b] 10 = none := by rw [strtoul, hscan, map_none]
      rw [hnone] at h
      cases h
    | some r =>
      obtain ⟨spaces, sg, pre, hs, hspelled, hneg, -⟩ := spelled_of_scan hscan
      obtain rfl := pre_eq_nil hspelled
      rw [strtoul_of_scan hscan hneg] at h
      by_cases hrange : 2 ^ pl.ulonglong.bits ≤ value 10 r.digits
      · rw [if_pos hrange] at h
        obtain ⟨⟨-, hle⟩, -⟩ := ite_none_right_eq_some.mp h
        omega
      · rw [if_neg hrange] at h
        obtain ⟨⟨hrest, hle⟩, hn⟩ := ite_none_right_eq_some.mp h
        cases hn
        refine ⟨rfl, spaces, sg, r.digits, ?_, hspelled, by omega, ?_⟩
        · rw [hs, hrest]; simp
        · exact (UInt8.toNat_ofNat_of_lt' (Nat.lt_succ_of_le hle)).symm
  · rintro ⟨-, spaces, sg, ds, hs, hspelled, hrange, hn⟩
    have hscan : scan 10 [a, b] = some ⟨decide (sg = [45]), ds, []⟩ := by
      have h : scan 10 (spaces ++ sg ++ [] ++ ds ++ []) = _ :=
        scan_spelled hspelled (by simp) (by simp)
      rwa [append_nil, append_nil, ← hs] at h
    rw [strtoul_of_scan hscan rfl, if_neg (Nat.not_le.mpr hrange), hn]
    dsimp only
    rw [if_pos ⟨rfl, Nat.le_pred_of_lt n.toNat_lt⟩, UInt8.ofNat_toNat]

theorem offsetMinute_iff (hs : s.length < 2 ^ pl.sizeBits) :
    offsetMinute pl tm negative hour (s ++ after) s.length = some tm' ↔
      ∃ minute, LooseTwo pl s minute ∧ minute ≤ 59 ∧ (hour = 14 → minute = 0) ∧
        tm' = { tm with utcNegOff := negative, utcHourOff := hour, utcMinOff := minute } := by
  unfold offsetMinute
  constructor
  · intro h; obtain ⟨hlen, h⟩ := ite_none_left_eq_some.mp h
    cases hread : strtouintTwo pl (s ++ after) with
    | none => rw [hread] at h; cases h
    | some minute =>
      rw [hread] at h
      obtain ⟨hbad, h⟩ := ite_none_left_eq_some.mp h
      cases h; simp only [not_or, UInt8.not_lt, not_and, ne_eq, not_not] at hbad
      have hlen2 : s.length = 2 := by
        have h0 := hbad.2.2
        rw [subSize_of_le (by omega) hs] at h0
        omega
      exact ⟨minute, (strtouintTwo_iff hlen2).mp hread, hbad.1, hbad.2.1, rfl⟩
  · rintro ⟨minute, hmin, hle, h14, rfl⟩
    rw [if_neg (by rw [hmin.1]; decide), (strtouintTwo_iff hmin.1).mpr hmin]
    dsimp only
    rw [if_neg]
    simp only [not_or, UInt8.not_lt, not_and, ne_eq, not_not]
    refine ⟨hle, h14, ?_⟩
    rw [subSize_of_le hmin.1.ge hs, hmin.1]

theorem offsetMinute_bound (hrem : rem < 2 ^ pl.sizeBits)
    (h : offsetMinute pl tm negative hour p rem = some tm') : rem ≤ 2 := by
  obtain ⟨hlen, h⟩ := ite_none_left_eq_some.mp h
  cases hread : strtouintTwo pl p with
  | none => rw [hread] at h; cases h
  | some minute =>
    rw [hread] at h
    obtain ⟨hbad, -⟩ := ite_none_left_eq_some.mp h
    simp only [not_or, ne_eq, not_not] at hbad
    have h0 := hbad.2.2
    rw [subSize_of_le (by omega) hrem] at h0
    omega

def Tm.withZone (tm : Tm) : ZoneText → UInt8 → UInt8 → Tm
  | .offset negative _ _, hour, minute =>
    { tm with utcNegOff := negative, utcHourOff := hour, utcMinOff := minute }
  | _, _, _ => tm

theorem zone_nil : zone pl tm after 0 = some tm' ↔ tm' = tm ∧ after.headD 0 ≠ 90 := by
  have hpow := two_pow_sizeBits pl
  unfold zone
  rw [if_neg (by simp)]
  by_cases hz : after.headD 0 = 90
  · rw [if_pos hz, subSize_of_lt (by decide) (by omega), if_pos (by omega)]
    exact ⟨fun h => (by cases h), fun h => absurd hz h.2⟩
  · rw [if_neg hz, if_neg (by simp), some.injEq]
    exact ⟨fun h => ⟨h.symm, hz⟩, fun h => h.1.symm⟩

theorem zone_utc (hs : (90 :: s).length < 2 ^ pl.sizeBits) :
    zone pl tm (90 :: (s ++ after)) (90 :: s).length = some tm' ↔ s = [] ∧ tm' = tm := by
  unfold zone
  rw [if_neg (by simp), headD_cons, if_pos rfl, subSize_of_le (by simp) hs]
  cases s with
  | nil => simp [eq_comm]
  | cons c s => simp

theorem zone_bound (hrem : rem < 2 ^ pl.sizeBits) (h : zone pl tm p rem = some tm') : rem ≤ 6 := by
  unfold zone at h
  by_cases hz : rem ≠ 0 ∧ p.headD 0 ≠ 90
  · rw [if_pos hz] at h
    obtain ⟨-, h⟩ := ite_none_left_eq_some.mp h
    have hle := field_bound (fun _ _ _ _ => offsetMinute_bound) (subSize_lt _ _) h
    rw [subSize_of_le (by omega) hrem] at hle
    omega
  · rw [if_neg hz] at h
    obtain ⟨hrem0, -⟩ := ite_none_left_eq_some.mp h
    by_cases hh : p.headD 0 = 90
    · rw [if_pos hh] at hrem0
      by_cases h0 : rem = 0
      · omega
      · rw [subSize_of_le (by omega) hrem] at hrem0; omega
    · rw [if_neg hh] at hrem0; omega

theorem zone_offset (hc : c ≠ 90) (hs : (c :: s).length < 2 ^ pl.sizeBits) :
    zone pl tm (c :: (s ++ after)) (c :: s).length = some tm' ↔ (c = 45 ∨ c = 43) ∧
      ∃ f hour g, s = f ++ 58 :: g ∧ LooseField pl 58 f hour ∧ ¬ 14 < hour ∧
        ∃ minute, LooseTwo pl g minute ∧ minute ≤ 59 ∧ (hour = 14 → minute = 0) ∧
          tm' = { tm with utcNegOff := c == 45, utcHourOff := hour, utcMinOff := minute } := by
  have hpow := two_pow_sizeBits pl
  have hlen : s.length < 2 ^ pl.sizeBits := by rw [length_cons] at hs; omega
  have hbound : ∀ n p rem tm', rem < 2 ^ pl.sizeBits →
      offsetMinute pl tm (c == 45) n p rem = some tm' → rem ≤ 2 := fun _ _ _ _ => offsetMinute_bound
  unfold zone
  rw [if_pos (by simp [hc]), headD_cons, drop_one, tail_cons,
    subSize_of_le (by simp) hs, length_cons, Nat.add_sub_cancel, ite_none_left_eq_some,
    field_iff separator_colon (by omega) hbound hlen]
  refine and_congr (by tauto) (exists_congr fun f => exists_congr fun hour => exists_congr fun g => ?_)
  refine and_congr_right fun hsplit => and_congr_right fun _ => and_congr_right fun _ => ?_
  refine offsetMinute_iff (lt_of_le_of_lt ?_ hlen)
  simp [hsplit]; omega

theorem zone_iff (hs : s.length < 2 ^ pl.sizeBits) :
    zone pl tm (s ++ after) s.length = some tm' ↔
      ∃ z negative hour minute, s = z.render ∧ LooseZone pl z negative hour minute ∧
        tm' = tm.withZone z hour minute ∧ (s = [] → after.headD 0 ≠ 90) := by
  cases s with
  | nil =>
    rw [nil_append, length_nil, zone_nil]
    constructor
    · rintro ⟨rfl, hz⟩; exact ⟨.none, _, _, _, rfl, .none, rfl, fun _ => hz⟩
    rintro ⟨z, negative, hour, minute, hz, hloose, rfl, hafter⟩
    cases hloose with
    | none => exact ⟨rfl, hafter rfl⟩
    | utc => cases hz
    | offset => cases hz
  | cons c s =>
    rw [cons_append]
    by_cases hc : c = 90
    · subst hc; rw [zone_utc hs]
      constructor
      · rintro ⟨rfl, rfl⟩; exact ⟨.utc, _, _, _, rfl, .utc, rfl, fun h => by cases h⟩
      rintro ⟨z, negative, hour, minute, hz, hloose, rfl, -⟩
      cases hloose with
      | none => cases hz
      | utc => cases hz; exact ⟨rfl, rfl⟩
      | offset =>
        rw [ZoneText.render] at hz
        split_ifs at hz <;> cases hz
    · rw [zone_offset hc hs]
      constructor
      · rintro ⟨hsign, f, hour, g, rfl, hf, hhour, minute, hg, hle, h14, rfl⟩
        have hrender : (if (c == 45) = true then (45 : UInt8) else 43) = c := by
          obtain rfl | rfl := hsign <;> rfl
        refine ⟨.offset (c == 45) f g, _, hour, minute, ?_,
          .offset hf (UInt8.not_lt.mp hhour) hg hle h14, rfl, fun h => by cases h⟩
        rw [ZoneText.render, hrender]
      · rintro ⟨z, negative, hour, minute, hz, hloose, rfl, -⟩
        cases hloose with
        | none => cases hz
        | utc => cases hz; exact absurd rfl hc
        | @offset negative f g hour minute hf hhour hg hle h14 =>
          cases hz
          refine ⟨by cases negative <;> simp, f, hour, g, rfl, hf, UInt8.not_lt.mpr hhour, minute, hg,
            hle, h14, ?_⟩
          cases negative <;> rfl

theorem ZoneText.head_render (z : ZoneText) : ∀ c ∈ z.render.head?, isDigit 10 c = false ∧ c ≠ 46 := by
  intro c hc
  cases z with
  | none => cases hc
  | utc => cases hc; decide
  | offset negative f g =>
    cases hc
    cases negative <;> decide

theorem seconds_bound (hrem : rem < 2 ^ pl.sizeBits) (h : seconds pl tm p rem = some tm') :
    rem ≤ 345 := by
  obtain ⟨hlen, h⟩ := ite_none_left_eq_some.mp h
  cases hread : strtouintTwo pl p with
  | none => rw [hread] at h; cases h
  | some second =>
    rw [hread] at h
    obtain ⟨-, h⟩ := ite_none_left_eq_some.mp h
    by_cases h2 : rem = 2
    · omega
    rw [if_neg h2] at h
    by_cases hdot : p.getD 2 0 = 46
    · rw [if_pos hdot] at h
      obtain ⟨hbad, h⟩ := ite_none_left_eq_some.mp h
      generalize hk : (((p.drop 3).take (rem - 3)).takeWhile isDecimal).length = k at hbad h
      have hk' : k ≤ min (rem - 3) (p.length - 3) := by
        rw [← hk, ← length_drop, ← length_take]
        exact ( takeWhile_prefix _).length_le
      have htext : 3 + k ≤ 339 := by
        have hok := (not_or.mp hbad).2
        rw [Bool.not_eq_false, strtodouble, Bool.and_eq_true, Bool.and_eq_true] at hok
        have h339 := of_decide_eq_true hok.1.1
        rw [length_take] at h339
        omega
      have hle := zone_bound (subSize_lt _ _) h
      rw [subSize_of_le (by omega) hrem] at hle
      omega
    · rw [if_neg hdot] at h
      have hle := zone_bound (subSize_lt _ _) h
      rw [subSize_of_le (by omega) hrem] at hle
      omega

theorem strtodouble_iff {n : UInt8} (hf : LooseTwo pl f n) (hds : ∀ c ∈ ds, isDigit 10 c = true) :
    strtodouble pl (f ++ 46 :: ds) = true ↔ LooseFraction pl f ds := by
  obtain ⟨-, spaces, sg, ds₀, rfl, hspelled, -⟩ := hf
  have hlength := pl.strtodLength_decimal spaces sg ds₀ ds hspelled hds
  unfold strtodouble
  rw [hlength, beq_self_eq_true, Bool.and_true, Bool.and_eq_true, decide_eq_true_eq,
    Bool.not_eq_true']
  exact ⟨fun h => ⟨hds, h.1, h.2⟩, fun h => ⟨h.length, h.erange⟩⟩

structure LooseSeconds (pl : Platform) (tm : Tm) (f : List UInt8) (second : UInt8)
    (fraction : Option (List UInt8)) : Prop where
  two : LooseTwo pl f second
  range : second ≤ 59
  midnight : tm.hour = 24 → tm.minute = 0 ∧ second = 0 ∧ ∀ ds ∈ fraction, ∀ c ∈ ds, c = 48
  fraction : ∀ ds ∈ fraction, LooseFraction pl f ds

theorem seconds_fraction (hs : (a :: b :: 46 :: (ds ++ r)).length < 2 ^ pl.sizeBits)
    (hds : ∀ c ∈ ds, isDigit 10 c = true) (hr : ∀ c ∈ r.head?, isDigit 10 c = false)
    (hf : LooseTwo pl [a, b] second)
    (hok : ¬ (59 < second ∨ (tm.hour = 24 ∧ (tm.minute ≠ 0 ∨ second ≠ 0)))) :
    seconds pl tm (a :: b :: 46 :: (ds ++ r) ++ after) (a :: b :: 46 :: (ds ++ r)).length =
      if (tm.hour = 24 ∧ ∃ c ∈ ds, c ≠ 48) ∨ strtodouble pl ([a, b] ++ 46 :: ds) = false then none
      else zone pl { tm with second := second, secondAndFrac := some ([a, b] ++ 46 :: ds) }
        (r ++ after) r.length := by
  have hread : strtouintTwo pl (a :: b :: 46 :: (ds ++ r) ++ after) = some second :=
    (strtouintTwo_iff (f := [a, b]) rfl).mpr hf
  have hdigits : (((a :: b :: 46 :: (ds ++ r) ++ after).drop 3).take
      ((a :: b :: 46 :: (ds ++ r)).length - 3)).takeWhile isDecimal = ds := by
    have htake : ((a :: b :: 46 :: (ds ++ r) ++ after).drop 3).take
        ((a :: b :: 46 :: (ds ++ r)).length - 3) = ds ++ r := take_left
    rw [htake, isDecimal_eq, takeWhile_append_rest hds hr]
  have htext : (a :: b :: 46 :: (ds ++ r) ++ after).take (3 + ds.length) = [a, b] ++ 46 :: ds := by
    rw [Nat.add_comm]
    simp
  have hrest : (a :: b :: 46 :: (ds ++ r) ++ after).drop (3 + ds.length) = r ++ after := by
    rw [Nat.add_comm]
    simp
  have hget : (a :: b :: 46 :: (ds ++ r) ++ after).getD 2 0 = 46 := rfl
  unfold seconds
  rw [if_neg (by simp), hread]
  dsimp only
  rw [if_neg hok, if_neg (by simp), if_pos hget, hdigits, htext, hrest,
    subSize_of_le (by simp; omega) hs]
  have hlen : (a :: b :: 46 :: (ds ++ r)).length - (3 + ds.length) = r.length := by
    simp only [length_cons, length_append]
    omega
  rw [hlen]

theorem seconds_plain (hs : (a :: b :: c :: r).length < 2 ^ pl.sizeBits)
    (hc : c ≠ 46) (hf : LooseTwo pl [a, b] second)
    (hok : ¬ (59 < second ∨ (tm.hour = 24 ∧ (tm.minute ≠ 0 ∨ second ≠ 0)))) :
    seconds pl tm (a :: b :: c :: r ++ after) (a :: b :: c :: r).length =
      zone pl { tm with second := second } (c :: r ++ after) (c :: r).length := by
  have hread : strtouintTwo pl (a :: b :: c :: r ++ after) = some second :=
    (strtouintTwo_iff (f := [a, b]) rfl).mpr hf
  have hget : (a :: b :: c :: r ++ after).getD 2 0 = c := rfl
  unfold seconds
  rw [if_neg (by simp), hread]
  dsimp only
  rw [if_neg hok, if_neg (by simp), hget, if_neg hc, subSize_of_le (by simp) hs]
  rfl

theorem seconds_end (hf : LooseTwo pl [a, b] second)
    (hok : ¬ (59 < second ∨ (tm.hour = 24 ∧ (tm.minute ≠ 0 ∨ second ≠ 0)))) :
    seconds pl tm (a :: b :: after) 2 = some { tm with second := second } := by
  have hread : strtouintTwo pl (a :: b :: after) = some second :=
    (strtouintTwo_iff (f := [a, b]) rfl).mpr hf
  unfold seconds
  rw [if_neg (by simp), hread]
  dsimp only
  rw [if_neg hok, if_pos rfl]

theorem exists_second (h : seconds pl tm (s ++ after) s.length = some tm') :
    ∃ a b s' second, s = a :: b :: s' ∧ LooseTwo pl [a, b] second ∧
      ¬ (59 < second ∨ (tm.hour = 24 ∧ (tm.minute ≠ 0 ∨ second ≠ 0))) := by
  obtain ⟨hlen, h⟩ := ite_none_left_eq_some.mp h
  obtain _ | ⟨a, _ | ⟨b, s'⟩⟩ := s
  case cons.cons =>
    cases hread : strtouintTwo pl (a :: b :: s' ++ after) with
    | none => rw [hread] at h; cases h
    | some second =>
      rw [hread] at h
      exact ⟨a, b, s', second, rfl, (strtouintTwo_iff (f := [a, b]) rfl).mp hread,
        (ite_none_left_eq_some.mp h).1⟩
  all_goals simp at hlen

theorem seconds_sound (hs : s.length < 2 ^ pl.sizeBits) (htm : tm.secondAndFrac = none)
    (h : seconds pl tm (s ++ after) s.length = some tm') :
    ∃ f second fraction z negative hour minute, s = f ++ (renderFraction fraction ++ z.render) ∧
      LooseSeconds pl tm f second fraction ∧ LooseZone pl z negative hour minute ∧
      (fraction.isSome → z.render = [] → after.headD 0 ≠ 90) ∧
      tm' = ({ tm with second := second, secondAndFrac := fraction.map (f ++ 46 :: ·) }).withZone
        z hour minute := by
  obtain ⟨a, b, s', second, rfl, hf, hok⟩ := exists_second h
  have hrange : second ≤ 59 := UInt8.not_lt.mp fun hlt => hok (.inl hlt)
  have hmidnight : tm.hour = 24 → tm.minute = 0 ∧ second = 0 := by
    intro h24; have := not_or.mp (not_and.mp (not_or.mp hok).2 h24)
    exact ⟨not_not.mp this.1, not_not.mp this.2⟩
  have hset : ({ tm with second := second } : Tm) =
      { tm with second := second, secondAndFrac := (none : Option (List UInt8)) } := by
    rw [← htm]
  have hplain : LooseSeconds pl tm [a, b] second none :=
    ⟨hf, hrange, fun h24 => ⟨(hmidnight h24).1, (hmidnight h24).2, fun _ hds => by cases hds⟩,
      fun _ hds => by cases hds⟩
  cases s' with
  | nil =>
    have hend : seconds pl tm ([a, b] ++ after) [a, b].length = _ := seconds_end hf hok
    rw [hend, hset] at h
    cases h
    exact ⟨[a, b], second, none, .none, _, _, _, rfl, hplain, .none, fun h => (by cases h), rfl⟩
  | cons c s' =>
    have hlen' : s'.length + 3 < 2 ^ pl.sizeBits := hs
    by_cases hc : c = 46
    · subst hc
      obtain ⟨ds, r, rfl, hds, hr⟩ : ∃ ds r, s' = ds ++ r ∧ (∀ c ∈ ds, isDigit 10 c = true) ∧
          ∀ c ∈ r.head?, isDigit 10 c = false :=
        ⟨_, _, takeWhile_append_dropWhile.symm, fun _ => mem_takeWhile_imp,
          head?_dropWhile s'⟩
      rw [length_append] at hlen'
      rw [seconds_fraction hs hds hr hf hok] at h
      obtain ⟨hbad, h⟩ := ite_none_left_eq_some.mp h
      obtain ⟨hzero, hdouble⟩ := not_or.mp hbad
      obtain ⟨z, negative, hour, minute, rfl, hz, rfl, hafter⟩ := (zone_iff (by omega)).mp h
      refine ⟨[a, b], second, some ds, z, negative, hour, minute, rfl, ⟨hf, hrange, fun h24 => ?_, ?_⟩,
        hz, fun _ => hafter, rfl⟩
      · refine ⟨(hmidnight h24).1, (hmidnight h24).2, fun ds' hds' c hc => ?_⟩
        cases hds'; by_contra hne
        exact hzero ⟨h24, c, hc, hne⟩
      · intro ds' hds'; cases hds'
        exact (strtodouble_iff hf hds).mp (Bool.not_eq_false _ ▸ hdouble)
    · rw [seconds_plain hs hc hf hok, hset] at h
      obtain ⟨z, negative, hour, minute, hrender, hz, rfl, -⟩ :=
        (zone_iff (by rw [length_cons]; omega)).mp h
      refine ⟨[a, b], second, none, z, negative, hour, minute, ?_, hplain, hz, fun h => (by cases h),
        rfl⟩
      rw [← hrender]
      rfl

theorem seconds_complete {fraction : Option (List UInt8)}
    (hs : (f ++ (renderFraction fraction ++ z.render)).length < 2 ^ pl.sizeBits)
    (htm : tm.secondAndFrac = none) (hsec : LooseSeconds pl tm f second fraction)
    (hz : LooseZone pl z negative hour minute)
    (hafter : fraction.isSome → z.render = [] → after.headD 0 ≠ 90) :
    seconds pl tm (f ++ (renderFraction fraction ++ z.render) ++ after)
        (f ++ (renderFraction fraction ++ z.render)).length =
      some (({ tm with second := second, secondAndFrac := fraction.map (f ++ 46 :: ·) }).withZone
        z hour minute) := by
  obtain ⟨a, b, rfl⟩ := length_eq_two.mp hsec.two.1
  have hok : ¬ (59 < second ∨ (tm.hour = 24 ∧ (tm.minute ≠ 0 ∨ second ≠ 0))) := by
    rintro (hlt | ⟨h24, hne⟩)
    · exact UInt8.not_lt.mpr hsec.range hlt
    · exact hne.elim (· (hsec.midnight h24).1) (· (hsec.midnight h24).2.1)
  cases fraction with
  | some ds =>
    have hfrac := hsec.fraction ds rfl
    have hlen : z.render.length < 2 ^ pl.sizeBits := by
      refine lt_of_le_of_lt ?_ hs
      simp only [length_append]
      omega
    have hr : ∀ c ∈ z.render.head?, isDigit 10 c = false := fun c hc => (z.head_render c hc).1
    refine (seconds_fraction hs hfrac.digits hr hsec.two hok).trans ?_
    rw [if_neg, zone_iff hlen]
    · exact ⟨z, negative, hour, minute, rfl, hz, rfl, hafter rfl⟩
    · rintro (⟨h24, c, hc, hne⟩ | hdouble)
      · exact hne ((hsec.midnight h24).2.2 ds rfl c hc)
      · rw [(strtodouble_iff hsec.two hfrac.digits).mpr hfrac] at hdouble; cases hdouble
  | none =>
    have hset : ({ tm with second := second } : Tm) =
        { tm with second := second, secondAndFrac := (none : Option (List UInt8)) } := by
      rw [← htm]
    cases hrender : z.render with
    | nil =>
      refine (seconds_end hsec.two hok).trans ?_
      rw [hset]
      cases hz with
      | none => rfl
      | utc => rfl
      | offset => cases hrender
    | cons c r =>
      have hc : c ≠ 46 := (z.head_render c (by rw [hrender]; rfl)).2
      rw [hrender] at hs
      refine (seconds_plain hs hc hsec.two hok).trans ?_
      rw [zone_iff (by simp at hs ⊢; omega), hset]
      exact ⟨z, negative, hour, minute, hrender.symm, hz, rfl, fun h => by cases h⟩

theorem minutes_bound (hrem : rem < 2 ^ pl.sizeBits) (h : minutes pl tm p rem = some tm') :
    rem ≤ 348 :=
  field_bound (fun _ _ _ _ => seconds_bound) hrem h

theorem hours_bound (hrem : rem < 2 ^ pl.sizeBits) (h : hours pl tm p rem = some tm') : rem ≤ 351 :=
  field_bound (fun _ _ _ _ => minutes_bound) hrem h

theorem days_bound (hrem : rem < 2 ^ pl.sizeBits) (h : days pl tm p rem = some tm') : rem ≤ 354 :=
  field_bound (fun _ _ _ _ => hours_bound) hrem h

/-- A month ends at its dash. The dash could only be the minus sign of a number of ten digits, but a day
of two characters follows. -/
theorem reads_month {g : List UInt8} (hf : f.length = 2) (hg : g.length = 2) (hn : 1 ≤ n)
    (hn12 : n ≤ 12) (h : Reads ul (2 ^ 8 - 1) (f ++ 45 :: (g ++ 84 :: rest)) 10 45 n) :
    Reads ul (2 ^ 8 - 1) (f ++ [45]) 10 45 n := by
  obtain ⟨spaces, sg, pre, ds, r, hs, hspelled, hr, hrange, hval, hle⟩ := h
  obtain rfl := pre_eq_nil hspelled
  by_cases hsg : sg = [45]
  · -- the number is so long that it goes on beyond the day
    have hpow := two_pow_le ul
    have hbig : 2 ^ 32 - 12 ≤ value 10 ds := by
      rw [unsigned, if_pos hsg] at hval
      by_cases h0 : value 10 ds = 0
      · rw [h0, Nat.sub_zero, Nat.mod_self] at hval; omega
      · rw [Nat.mod_eq_of_lt (by omega)] at hval; omega
    have hlen : 6 ≤ ds.length := by
      by_contra hshort
      have hlt := value_lt (by decide) hspelled.digits
      have : 10 ^ ds.length ≤ 10 ^ 6 := Nat.pow_le_pow_right (by decide) (by omega)
      omega
    have hsplit : (f ++ 45 :: (g ++ [84])) ++ rest = (spaces ++ sg ++ [] ++ ds) ++ r := by
      rw [← hs]
      simp
    have hpre : f ++ 45 :: (g ++ [84]) <+: spaces ++ sg ++ [] ++ ds := by
      refine prefix_of_prefix_length_le ⟨rest, hsplit⟩ (prefix_append _ _) ?_
      simp only [length_append, length_cons, length_nil, hf, hg]
      omega
    exact absurd (hpre.subset (by simp)) (not_mem_of_spelled separator_t hspelled)
  · have hdash : 45 ∉ spaces ++ sg ++ [] ++ ds := by
      simp only [append_nil, mem_append, not_or]
      refine ⟨⟨fun hmem => ?_, fun hmem => ?_⟩, fun hmem => ?_⟩
      · exact absurd (hspelled.spaces 45 hmem) (by decide)
      · obtain rfl | rfl | rfl := hspelled.sign
        · exact absurd hmem not_mem_nil
        · exact absurd hmem (by decide)
        · exact hsg rfl
      · exact absurd (hspelled.digits 45 hmem) (by decide)
    obtain ⟨r', hs', hr'⟩ := append_of_head hs hdash hr
    exact ⟨spaces, sg, [], ds, r', hs', hspelled, hr', hrange, hval, hle⟩

section

variable {tm tm' : Tm} {s after : List UInt8} (hs : s.length < 2 ^ pl.sizeBits)

include hs

theorem minutes_iff : minutes pl tm (s ++ after) s.length = some tm' ↔
    ∃ f minute rest, s = f ++ 58 :: rest ∧ LooseField pl 58 f minute ∧ ¬ 59 < minute ∧
      seconds pl { tm with minute := minute } (rest ++ after) rest.length = some tm' := by
  have hpow := two_pow_sizeBits pl
  exact field_iff separator_colon (by omega) (fun _ _ _ _ => seconds_bound) hs

theorem hours_iff : hours pl tm (s ++ after) s.length = some tm' ↔
    ∃ f hour rest, s = f ++ 58 :: rest ∧ LooseField pl 58 f hour ∧ ¬ 24 < hour ∧
      minutes pl { tm with hour := hour } (rest ++ after) rest.length = some tm' := by
  have hpow := two_pow_sizeBits pl
  exact field_iff separator_colon (by omega) (fun _ _ _ _ => minutes_bound) hs

theorem days_iff : days pl tm (s ++ after) s.length = some tm' ↔
    ∃ f day rest, s = f ++ 84 :: rest ∧ LooseField pl 84 f day ∧
      ¬ rejectDay tm.year tm.month day ∧
      hours pl { tm with day := day } (rest ++ after) rest.length = some tm' := by
  have hpow := two_pow_sizeBits pl
  exact field_iff separator_t (by omega) (fun _ _ _ _ => hours_bound) hs

theorem months_iff : months pl tm (s ++ after) s.length = some tm' ↔
    ∃ f month rest, s = f ++ 45 :: rest ∧ LooseField pl 45 f month ∧
      ¬ (month < 1 ∨ 12 < month) ∧
      days pl { tm with month := month } (rest ++ after) rest.length = some tm' := by
  have hpow := two_pow_sizeBits pl
  refine field_iff_of endsNumber_dash_ten (by decide) (by omega) (fun _ _ _ _ => days_bound) hs ?_
  intro f n rest hf hsplit hreject hdays hreads
  have hrest : rest.length < 2 ^ pl.sizeBits := by
    rw [hsplit, length_append, length_cons] at hs
    omega
  obtain ⟨g, day, rest', rfl, hg, -⟩ := (days_iff hrest).mp hdays
  obtain ⟨h1, h12⟩ := not_or.mp hreject
  rw [UInt8.not_lt, UInt8.le_iff_toNat_le] at h1 h12
  rw [append_assoc, cons_append] at hreads
  exact reads_month hf hg.1 h1 h12 hreads

end

theorem strtoint16_iff {v : Int} (hne : y ≠ []) :
    strtoint16 pl y = some v ↔ y.length ≤ 20 ∧ -2 ^ 15 ≤ v ∧ v ≤ 2 ^ 15 - 1 ∧
      ∃ spaces sg ds, y = spaces ++ sg ++ ds ∧ Spelled 10 spaces sg [] ds ∧
        v = if sg = [45] then -(value 10 ds : Int) else value 10 ds := by
  have hpos := length_pos_iff.mpr hne
  have hpow : (2 : Int) ^ 31 ≤ 2 ^ (pl.ulonglong.bits - 1) := by
    have := pl.ulonglong.bits_ge
    exact pow_le_pow_right₀ (by decide) (by omega)
  unfold strtoint16
  constructor
  · intro h; obtain ⟨hlen, h⟩ := ite_none_left_eq_some.mp h
    cases hscan : scan 10 y with
    | none => rw [hscan] at h; cases h
    | some r =>
      obtain ⟨spaces, sg, pre, hs, hspelled, hneg, -⟩ := spelled_of_scan hscan
      obtain rfl := pre_eq_nil hspelled
      rw [hscan] at h
      dsimp only at h
      rw [hneg] at h
      obtain ⟨⟨hrest, hlow, hhigh⟩, h⟩ := ite_none_right_eq_some.mp h
      cases h
      refine ⟨by omega, hlow, hhigh, spaces, sg, r.digits, ?_, hspelled, ?_⟩
      · rw [hrest] at hs; simpa using hs
      · by_cases hsg : sg = [45]
        · simp only [hsg, decide_true, if_true] at hlow hhigh ⊢; omega
        · simp only [hsg, decide_false, Bool.false_eq_true, if_false] at hlow hhigh ⊢; omega
  · rintro ⟨hlen, hlow, hhigh, spaces, sg, ds, rfl, hspelled, hv⟩
    have hscan : scan 10 (spaces ++ sg ++ ds) = some ⟨decide (sg = [45]), ds, []⟩ := by
      have h : scan 10 (spaces ++ sg ++ [] ++ ds ++ []) = _ :=
        scan_spelled hspelled (by simp) (by simp)
      rwa [append_nil, append_nil] at h
    rw [if_neg (by omega), hscan]
    by_cases hsg : sg = [45]
    · simp only [hsg, decide_true, if_true] at hv ⊢
      rw [max_eq_right (by omega), if_pos ⟨trivial, by omega, by omega⟩, hv]
    · simp only [hsg, decide_false, Bool.false_eq_true, if_false] at hv ⊢
      rw [min_eq_right (by omega), if_pos ⟨trivial, by omega, by omega⟩, hv]

theorem LooseZone.withZone
    (h : LooseZone pl z negative hour minute) (hneg : tm.utcNegOff = false)
    (hhour : tm.utcHourOff = 0) (hmin : tm.utcMinOff = 0) :
    tm.withZone z hour minute =
      { tm with utcNegOff := negative, utcHourOff := hour, utcMinOff := minute } := by
  obtain ⟨_, _, _, _, _, _, _, _, _, _⟩ := tm
  subst hneg hhour hmin
  cases h <;> rfl

/-- The dash after the year is the first one that is not its sign. -/
theorem year_split
    (hn : 1 + ((((str ++ after).take str.length).drop 1).takeWhile (· != 45)).length ≠ str.length)
    (hpos : 0 < str.length) :
    ∃ y rest, str = y ++ 45 :: rest ∧ y ≠ [] ∧ 45 ∉ y.drop 1 ∧
      1 + ((((str ++ after).take str.length).drop 1).takeWhile (· != 45)).length = y.length := by
  obtain ⟨c, str', rfl⟩ := exists_cons_of_length_pos hpos
  rw [take_left, drop_one, tail_cons] at hn ⊢
  have hsplit := takeWhile_append_dropWhile (p := (· != 45)) (l := str')
  cases hdrop : str'.dropWhile (· != 45) with
  | nil => rw [hdrop, append_nil] at hsplit; rw [hsplit, length_cons] at hn; omega
  | cons d rest =>
    have hd : d = 45 := by
      have h := head?_dropWhile (p := (· != 45)) str' d (by rw [hdrop]; rfl)
      simpa using h
    rw [hdrop, hd] at hsplit
    refine ⟨c :: str'.takeWhile (· != 45), rest, ?_, cons_ne_nil _ _, fun hmem => ?_, ?_⟩
    · rw [cons_append, hsplit]
    · have := mem_takeWhile_imp hmem; simp at this
    · rw [length_cons]; omega

theorem tmFromXsdDateTime_year (hne : y ≠ []) (hdash : 45 ∉ y.drop 1) :
    tmFromXsdDateTime pl (y ++ 45 :: rest ++ after) (y ++ 45 :: rest).length =
      if (y ++ 45 :: rest).length < 19 ∨ y.length < (if y.headD 0 = 45 then 5 else 4) then none
      else (strtoint16 pl y).elim none fun year =>
        months pl ⟨year, 0, 0, 0, 0, 0, none, false, 0, 0⟩ (rest ++ after) rest.length := by
  obtain ⟨c, y, rfl⟩ := exists_cons_of_ne_nil hne
  have hn : 1 + ((((c :: y ++ 45 :: rest ++ after).take (c :: y ++ 45 :: rest).length).drop 1).takeWhile
      (· != 45)).length = (c :: y).length := by
    have htake : (y ++ 45 :: rest).takeWhile (· != 45) = y := by
      refine takeWhile_append_rest (fun x hx => ?_) (fun x hx => ?_)
      · rw [bne_iff_ne]; rintro rfl; exact hdash hx
      · cases hx; rfl
    rw [take_left, cons_append, drop_one, tail_cons, htake, length_cons, Nat.add_comm]
  have hhead : (c :: y ++ 45 :: rest ++ after).headD 0 = (c :: y).headD 0 := rfl
  have htext : (c :: y ++ 45 :: rest ++ after).take (c :: y).length = c :: y := by
    rw [append_assoc, take_left]
  have hdrop : (c :: y ++ 45 :: rest ++ after).drop ((c :: y).length + 1) = rest ++ after := by
    simp [← drop_drop]
  have hlen : (c :: y ++ 45 :: rest).length - ((c :: y).length + 1) = rest.length := by
    simp only [length_append, length_cons]
    omega
  unfold tmFromXsdDateTime
  rw [hn, hhead]
  dsimp only
  rw [htext, hdrop, hlen]
  have hne' : (c :: y).length ≠ (c :: y ++ 45 :: rest).length := by
    simp only [length_append, length_cons]
    omega
  by_cases h19 : (c :: y ++ 45 :: rest).length < 19
  · rw [if_pos h19, if_pos (.inl h19)]
  rw [if_neg h19]
  by_cases hshort : (c :: y).length < (if (c :: y).headD 0 = 45 then 5 else 4)
  · rw [if_pos (.inr hshort), if_pos (.inr hshort)]
  · rw [if_neg (not_or.mpr ⟨hne', hshort⟩), if_neg (not_or.mpr ⟨h19, hshort⟩)]
    cases strtoint16 pl (c :: y) <;> rfl

theorem tmFromXsdDateTime_sound (hs : str.length < 2 ^ pl.sizeBits)
    (h : tmFromXsdDateTime pl (str ++ after) str.length = some tm) :
    ∃ t : Text, str = t.render ∧ Loose pl t tm ∧ NotFollowed t after := by
  obtain ⟨y, rest, rfl, hne, hdash⟩ : ∃ y rest, str = y ++ 45 :: rest ∧ y ≠ [] ∧ 45 ∉ y.drop 1 := by
    obtain ⟨hlen, h⟩ := ite_none_left_eq_some.mp h
    obtain ⟨hn, -⟩ := ite_none_left_eq_some.mp h
    obtain ⟨y, rest, hsplit, hne, hdash, -⟩ := year_split (not_or.mp hn).1 (by omega)
    exact ⟨y, rest, hsplit, hne, hdash⟩
  rw [tmFromXsdDateTime_year hne hdash] at h
  obtain ⟨hlen, h⟩ := ite_none_left_eq_some.mp h
  have hlens : (y ++ 45 :: rest).length = y.length + 1 + rest.length := by simp; omega
  cases hyear : strtoint16 pl y with
  | none => rw [hyear] at h; cases h
  | some year =>
    rw [hyear] at h
    have hlooseYear : LooseYear y year := by
      obtain ⟨h20, hlow, hhigh, hspell⟩ := (strtoint16_iff hne).mp hyear
      exact ⟨hdash, Nat.not_lt.mp (not_or.mp hlen).2, h20, hlow, hhigh, hspell⟩
    obtain ⟨fm, month, r₁, rfl, hm, hmr, h⟩ := (months_iff (by omega)).mp h
    simp only [length_append, length_cons] at hs
    obtain ⟨fd, day, r₂, rfl, hd, hdr, h⟩ := (days_iff (by omega)).mp h
    simp only [length_append, length_cons] at hs
    obtain ⟨fh, hour, r₃, rfl, hh, hhr, h⟩ := (hours_iff (by omega)).mp h
    simp only [length_append, length_cons] at hs
    obtain ⟨fmin, minute, r₄, rfl, hmin, hminr, h⟩ := (minutes_iff (by omega)).mp h
    simp only [length_append, length_cons] at hs
    obtain ⟨fs, second, fraction, z, negative, zh, zm, rfl, hsec, hz, hafter, rfl⟩ :=
      seconds_sound (by omega) rfl h
    obtain ⟨h1, h12⟩ := not_or.mp hmr
    rw [hz.withZone rfl rfl rfl]
    exact ⟨⟨y, fm, fd, fh, fmin, fs, fraction, z⟩, rfl,
      ⟨hlooseYear, hm, ⟨UInt8.not_lt.mp h1, UInt8.not_lt.mp h12⟩, hd, hdr, hh, hmin,
        UInt8.not_lt.mp hminr, hsec.two, hsec.range, UInt8.not_lt.mp hhr, hsec.midnight, hsec.fraction,
        rfl, hz⟩, hafter⟩

theorem tmFromXsdDateTime_complete {t : Text} (hs : t.render.length < 2 ^ pl.sizeBits)
    (h : Loose pl t tm) (hafter : NotFollowed t after) :
    tmFromXsdDateTime pl (t.render ++ after) t.render.length = some tm := by
  obtain ⟨hdash, hshort, h20, hlow, hhigh, hspell⟩ := h.year
  have hne : t.year ≠ [] := by intro hnil; rw [hnil] at hshort; exact absurd hshort (by decide)
  have h4 : 4 ≤ t.year.length := le_trans (by split_ifs <;> decide) hshort
  have hmonth := h.month.1
  have hday := h.day.1
  have hhour := h.hour.1
  have hminute := h.minute.1
  have hsecond := h.second.1
  have h19 : ¬ (t.render.length < 19 ∨ t.year.length < (if t.year.headD 0 = 45 then 5 else 4)) := by
    simp only [Text.render, length_append, length_cons]
    omega
  have hsec : LooseSeconds pl ⟨tm.year, tm.month, tm.day, tm.hour, tm.minute, 0, none, false, 0, 0⟩
      t.second tm.second t.fraction := ⟨h.second, h.second_range, h.midnight, h.fraction⟩
  simp only [Text.render, length_append, length_cons] at hs
  refine (tmFromXsdDateTime_year hne hdash).trans ?_
  refine (if_neg h19).trans ?_
  rw [(strtoint16_iff hne).mpr ⟨h20, hlow, hhigh, hspell⟩, elim_some]
  refine (months_iff (by simp; omega)).mpr ⟨_, _, _, rfl, h.month,
    not_or.mpr ⟨UInt8.not_lt.mpr h.month_range.1, UInt8.not_lt.mpr h.month_range.2⟩, ?_⟩
  refine (days_iff (by simp; omega)).mpr ⟨_, _, _, rfl, h.day, h.day_range, ?_⟩
  refine (hours_iff (by simp; omega)).mpr ⟨_, _, _, rfl, h.hour, UInt8.not_lt.mpr h.hour_range, ?_⟩
  refine (minutes_iff (by simp; omega)).mpr ⟨_, _, _, rfl, h.minute,
    UInt8.not_lt.mpr h.minute_range, ?_⟩
  refine (seconds_complete (by simp; omega) rfl hsec h.zone hafter).trans ?_
  rw [h.zone.withZone rfl rfl rfl, ← h.fraction_eq]

theorem tmFromXsdDateTime_iff (hs : str.length < 2 ^ pl.sizeBits) :
    tmFromXsdDateTime pl (str ++ after) str.length = some tm ↔
      ∃ t : Text, str = t.render ∧ Loose pl t tm ∧ NotFollowed t after := by
  constructor
  · exact tmFromXsdDateTime_sound hs
  · rintro ⟨t, rfl, hloose, hafter⟩; exact tmFromXsdDateTime_complete hs hloose hafter

end XsdDateTime
end S2OPC
