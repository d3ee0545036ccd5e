import S2OPC.Common.XsdParse

/-!
# S2OPC.Common.XsdTime

The XSD dateTime grammar (`Strict`), the time that a text stands for (`Text.time`), and what
`SOPC_Time_FromXsdDateTime` makes of both. The time is always right; the accepted texts are those of
the grammar where a text has no field that is only read loosely, and no limit is exceeded.
-/

namespace S2OPC
namespace XsdDateTime

open Numeral NumberText Gregorian List

def TwoDigits (f : List UInt8) : Prop := f.length = 2 ∧ ∀ c ∈ f, isDigit 10 c = true

def StrictYear (y : List UInt8) : Prop :=
  ∃ sg ds, y = sg ++ ds ∧ (sg = [] ∨ sg = [45]) ∧ (∀ c ∈ ds, isDigit 10 c = true) ∧
    4 ≤ ds.length ∧ (4 < ds.length → ds.head? ≠ some 48)

def Text.yearNumber (t : Text) : Int :=
  if t.year.head? = some 45 then -(value 10 (t.year.drop 1) : Int) else value 10 t.year

inductive StrictZone : ZoneText → Prop where
  | none : StrictZone .none
  | utc : StrictZone .utc
  | offset {negative : Bool} {hour minute : List UInt8} : TwoDigits hour → TwoDigits minute →
      value 10 hour ≤ 13 ∧ value 10 minute ≤ 59 ∨ value 10 hour = 14 ∧ value 10 minute = 0 →
      StrictZone (.offset negative hour minute)

structure Strict (t : Text) : Prop where
  year : StrictYear t.year
  month : TwoDigits t.month
  month_range : 1 ≤ value 10 t.month ∧ value 10 t.month ≤ 12
  day : TwoDigits t.day
  day_range : 1 ≤ value 10 t.day ∧
    value 10 t.day ≤ daysInMonth t.yearNumber (value 10 t.month)
  hour : TwoDigits t.hour
  minute : TwoDigits t.minute
  minute_range : value 10 t.minute ≤ 59
  second : TwoDigits t.second
  second_range : value 10 t.second ≤ 59
  hour_range : value 10 t.hour ≤ 23 ∨ value 10 t.hour = 24 ∧ value 10 t.minute = 0 ∧
    value 10 t.second = 0 ∧ ∀ ds ∈ t.fraction, ∀ c ∈ ds, c = 48
  fraction : ∀ ds ∈ t.fraction, ds ≠ [] ∧ ∀ c ∈ ds, isDigit 10 c = true
  zone : StrictZone t.zone

def Grammar (str : List UInt8) : Prop := ∃ t : Text, str = t.render ∧ Strict t

def ZoneText.seconds : ZoneText → Int
  | .offset negative hour minute =>
    (if negative then -1 else 1) * (value 10 hour * 3600 + value 10 minute * 60)
  | _ => 0

def secondsSince (y : Int) (m d h mi s : Nat) (offset : Int) : Int :=
  86400 * (dayNumber y m d - dayNumber 1601 1 1) + h * 3600 + mi * 60 + s - offset

/-- A time in 100 ns, within the limits of OPC UA: 1601-01-01 00:00:00 and 9999-12-31 23:59:59. -/
def saturate (secs : Int) : Int :=
  if secs < 0 then 0
  else if secondsSince 9999 12 31 23 59 59 0 ≤ secs then 2 ^ 63 - 1
  else 10 ^ 7 * secs

def Text.time (t : Text) : Int :=
  saturate (secondsSince t.yearNumber (value 10 t.month) (value 10 t.day) (value 10 t.hour)
    (value 10 t.minute) (value 10 t.second) t.zone.seconds)

variable (pl : Platform)

structure ParsedRight (str after : List UInt8) : Prop where
  accepts : (∃ v, timeFromXsdDateTime pl (str ++ after) str.length = .ok v) ↔ Grammar str
  time : ∀ t : Text, str = t.render → Strict t → t.fraction = none →
    ∀ v, timeFromXsdDateTime pl (str ++ after) str.length = .ok v → v = t.time

def LooseGrammar (str after : List UInt8) : Prop :=
  ∃ t tm, str = t.render ∧ Loose pl t tm ∧ NotFollowed t after

/-- A string of the grammar that is within the limits of the parser, or one that is not even read
loosely. -/
structure Clear (str after : List UInt8) : Prop where
  within : Grammar str → LooseGrammar pl str after
  strict : LooseGrammar pl str after → Grammar str

variable {pl}

variable {year v : Int} {month day n : UInt8} {after : List UInt8} {z : ZoneText} {t : Text}

theorem daysSince1601_eq (hyear : 1601 ≤ year)
    (h₁ : 1 ≤ month.toNat) (h₁₂ : month.toNat ≤ 12) :
    daysSince1601 year month day = dayNumber year month.toNat day.toNat - dayNumber 1601 1 1 := by
  have hmonth := monthStart_eq year h₁ h₁₂
  have hone : monthStart 1601 1 = 0 := rfl
  have hle : month ≤ 2 ↔ ¬ 2 < month.toNat := by rw [UInt8.le_iff_toNat_le, Nat.not_lt]; rfl
  unfold daysSince1601 dayNumber monthDaysElapsed
  rw [hmonth, hone]
  dsimp only
  unfold yearStart
  by_cases h2 : 2 < month.toNat
  · rw [if_neg (by rw [hle]; exact not_not.mpr h2), Int.tdiv_eq_ediv_of_nonneg (by omega),
      Int.tdiv_eq_ediv_of_nonneg (by omega), Int.tdiv_eq_ediv_of_nonneg (by omega)]
    by_cases hleap : leap year
    · rw [if_pos ⟨h2, hleap⟩]; rw [leap_iff] at hleap; omega
    · rw [if_neg (fun h => hleap h.2)]; rw [leap_iff] at hleap; omega
  · rw [if_pos (hle.mpr h2), if_neg (fun h => h2 h.1), Int.tdiv_eq_ediv_of_nonneg (by omega),
      Int.tdiv_eq_ediv_of_nonneg (by omega), Int.tdiv_eq_ediv_of_nonneg (by omega)]
    omega

theorem tmod_eq_zero_iff (y n : Int) : y.tmod n = 0 ↔ y % n = 0 := by
  rw [← Int.dvd_iff_tmod_eq_zero, ← Int.dvd_iff_emod_eq_zero]

theorem not_rejectDay_iff :
    ¬ rejectDay year month day ↔
      1 ≤ day.toNat ∧ day.toNat ≤ daysInMonth year month.toNat := by
  have hleap := leap_iff (y := year)
  unfold rejectDay daysInMonth
  simp only [UInt8.lt_iff_toNat_lt, ← UInt8.toNat_inj, ne_eq, tmod_eq_zero_iff, UInt8.reduceToNat]
  generalize month.toNat = m
  by_cases h2 : m = 2
  · rw [if_pos h2]
    split_ifs with hl
    · rw [hleap] at hl; omega
    · rw [hleap] at hl; omega
  · rw [if_neg h2]
    split_ifs <;> omega

theorem limit_eq : secondsSince 9999 12 31 23 59 59 0 = 265046774399 := rfl

structure InRange (tm : Tm) : Prop where
  month : 1 ≤ tm.month.toNat ∧ tm.month.toNat ≤ 12
  day : 1 ≤ tm.day.toNat ∧ tm.day.toNat ≤ daysInMonth tm.year tm.month.toNat
  time : tm.hour.toNat * 3600 + tm.minute.toNat * 60 + tm.second.toNat ≤ 86400
  offset : tm.utcHourOff.toNat * 3600 + tm.utcMinOff.toNat * 60 ≤ 50400

def Tm.offset (tm : Tm) : Int :=
  (if tm.utcNegOff then -1 else 1) * (tm.utcHourOff.toNat * 3600 + tm.utcMinOff.toNat * 60)

def Tm.secondsSince (tm : Tm) : Int :=
  XsdDateTime.secondsSince tm.year tm.month.toNat tm.day.toNat tm.hour.toNat tm.minute.toNat
    tm.second.toNat tm.offset

theorem secsSince1601_offset (tm : Tm) : secsSince1601 tm = secondsSince1601 tm - tm.offset := by
  unfold secsSince1601 Tm.offset
  by_cases h0 : tm.utcHourOff = 0 ∧ tm.utcMinOff = 0
  · rw [if_neg (not_not.mpr h0), h0.1, h0.2]; simp
  · rw [if_pos h0]
    cases tm.utcNegOff with
    | false => simp
    | true => simp; ring

theorem secondsSince1601_eq {tm : Tm} (h : InRange tm) (hyear : 1601 ≤ tm.year ∨
    tm.year = 1600 ∧ tm.month = 12 ∧ tm.day = 31) : secsSince1601 tm = tm.secondsSince := by
  rw [secsSince1601_offset, Tm.secondsSince, secondsSince, secondsSince1601]
  obtain hyear | ⟨hy, hm, hd⟩ := hyear
  · rw [if_pos hyear, daysSince1601_eq hyear h.month.1 h.month.2]; ring
  have hnum : dayNumber 1600 12 31 - dayNumber 1601 1 1 = -1 := rfl
  rw [if_neg (by omega), hy, hm, hd]
  have h12 : (12 : UInt8).toNat = 12 := rfl
  have h31 : (31 : UInt8).toNat = 31 := rfl
  rw [h12, h31, hnum]
  ring

theorem abs_offset_le {tm : Tm} (h : InRange tm) : -50400 ≤ tm.offset ∧ tm.offset ≤ 50400 := by
  have := h.offset
  unfold Tm.offset
  cases tm.utcNegOff <;> simp <;> omega

theorem secondsSince_neg {tm : Tm} (h : InRange tm) (hyear : tm.year < 1601)
    (hday : tm.year ≠ 1600 ∨ tm.month ≠ 12 ∨ tm.day ≠ 31) : tm.secondsSince < 0 := by
  have hnum : dayNumber tm.year tm.month.toNat tm.day.toNat ≤ dayNumber 1601 1 1 - 2 := by
    have h1601 : dayNumber 1601 1 1 = yearStart 1600 + 366 := rfl
    by_cases hy : tm.year = 1600
    · rw [h1601, hy, dayNumber]
      have hday' := h.day.2
      rw [hy] at hday'
      have h12 : monthStart 1600 12 = 335 := rfl
      by_cases hm : tm.month.toNat < 12
      · have hle := monthStart_add_le 1600 h.month.1 hm; omega
      have hm12 : tm.month.toNat = 12 := by have := h.month.2; omega
      have hd : tm.day.toNat ≠ 31 := by
        intro hd
        refine hday.elim (· hy) fun hne => hne.elim (· ?_) (· ?_)
        · exact UInt8.toNat_inj.mp hm12
        · exact UInt8.toNat_inj.mp hd
      have h31 : daysInMonth 1600 12 = 31 := rfl
      rw [hm12] at hday' ⊢
      omega
    · have hlt := dayNumber_lt h.month.1 h.month.2 h.day.2
      have hle := yearStart_le (show tm.year + 1 ≤ 1600 by omega)
      omega
  have htime := h.time
  have hoff := abs_offset_le h
  unfold Tm.secondsSince secondsSince
  omega

theorem le_secondsSince {tm : Tm} (h : InRange tm) (hyear : 9999 < tm.year)
    (hday : tm.year ≠ 10000 ∨ tm.month ≠ 1 ∨ tm.day ≠ 1) : 265046774399 ≤ tm.secondsSince := by
  have hnum : dayNumber 10000 1 1 + 1 ≤ dayNumber tm.year tm.month.toNat tm.day.toNat := by
    have hstart : dayNumber 10000 1 1 = yearStart 10000 := rfl
    have hpos := h.day.1
    rw [hstart, dayNumber]
    by_cases hy : tm.year = 10000
    · rw [hy]
      by_cases hm : 1 < tm.month.toNat
      · have hle := monthStart_add_le 10000 (le_refl 1) hm
        have h31 : daysInMonth 10000 1 = 31 := rfl
        omega
      · have hm1 : tm.month.toNat = 1 := by have := h.month.1; omega
        have hd : tm.day.toNat ≠ 1 := by
          intro hd
          refine hday.elim (· hy) fun hne => hne.elim (· ?_) (· ?_)
          · exact UInt8.toNat_inj.mp hm1
          · exact UInt8.toNat_inj.mp hd
        omega
    · have hle := yearStart_le (show 10001 ≤ tm.year by omega)
      have hnext : yearStart 10001 = yearStart 10000 + 366 := rfl
      omega
  have hdays : dayNumber 10000 1 1 - dayNumber 1601 1 1 = 3067671 := rfl
  have hoff := abs_offset_le h
  unfold Tm.secondsSince secondsSince
  omega

theorem timeOfTm_eq {tm : Tm} (h : InRange tm) (hfrac : tm.secondAndFrac = none) :
    timeOfTm pl tm = saturate tm.secondsSince := by
  unfold timeOfTm saturate
  rw [limit_eq]
  by_cases hearly : tm.year < 1601 ∧ (tm.year ≠ 1600 ∨ tm.month ≠ 12 ∨ tm.day ≠ 31)
  · rw [if_pos hearly, if_pos (secondsSince_neg h hearly.1 hearly.2)]
  rw [if_neg hearly]
  by_cases hlate : 9999 < tm.year ∧ (tm.year ≠ 10000 ∨ tm.month ≠ 1 ∨ tm.day ≠ 1)
  · have hle := le_secondsSince h hlate.1 hlate.2
    rw [if_pos hlate, if_neg (by omega), if_pos hle]
  have hyear : 1601 ≤ tm.year ∨ tm.year = 1600 ∧ tm.month = 12 ∧ tm.day = 31 := by
    by_contra hno
    rw [not_or, not_and_or, not_and_or] at hno
    exact hearly ⟨by omega, hno.2⟩
  rw [if_neg hlate, secondsSince1601_eq h hyear, hfrac, Option.elim_none, add_zero]
  split_ifs
  · rfl
  · rfl
  · ring

theorem accepted_iff {str : List UInt8} (hs : str.length < 2 ^ pl.sizeBits) :
    (∃ v, timeFromXsdDateTime pl (str ++ after) str.length = .ok v) ↔ LooseGrammar pl str after := by
  have hok : (∃ v, timeFromXsdDateTime pl (str ++ after) str.length = .ok v) ↔
      ∃ tm, tmFromXsdDateTime pl (str ++ after) str.length = some tm := by
    unfold timeFromXsdDateTime
    cases tmFromXsdDateTime pl (str ++ after) str.length <;> simp
  rw [hok]
  constructor
  · rintro ⟨tm, htm⟩; obtain ⟨t, ht⟩ := (tmFromXsdDateTime_iff hs).mp htm; exact ⟨t, tm, ht⟩
  · rintro ⟨t, tm, ht⟩; exact ⟨tm, (tmFromXsdDateTime_iff hs).mpr ⟨t, ht⟩⟩

variable {f : List UInt8}

theorem TwoDigits.value_lt (h : TwoDigits f) : value 10 f < 100 := by
  have hlt := Numeral.value_lt (by decide) h.2; rwa [h.1] at hlt

theorem TwoDigits.toNat_ofNat (h : TwoDigits f) : (UInt8.ofNat (value 10 f)).toNat = value 10 f :=
  UInt8.toNat_ofNat_of_lt' (h.value_lt.trans (by decide))

theorem TwoDigits.spelled (h : TwoDigits f) : Spelled 10 [] [] [] f :=
  spelled_of_digits (ne_nil_of_length_pos (by rw [h.1]; decide)) h.2

theorem TwoDigits.looseTwo (h : TwoDigits f) : LooseTwo pl f (.ofNat (value 10 f)) := by
  have hpow := two_pow_le pl.ulonglong
  have hlt := h.value_lt
  exact ⟨h.1, [], [], f, rfl, h.spelled, by omega, h.toNat_ofNat.symm⟩

theorem TwoDigits.looseField (h : TwoDigits f) (e : UInt8) :
    LooseField pl e f (.ofNat (value 10 f)) := by
  have hpow := two_pow_le pl.ulong
  have hlt := h.value_lt
  refine ⟨h.1, ?_⟩
  rw [h.toNat_ofNat]
  exact reads_digits (ne_nil_of_length_pos (by rw [h.1]; decide)) h.2 rfl (by omega) (by omega)

def ZoneText.negative : ZoneText → Bool
  | .offset negative _ _ => negative
  | _ => false

def ZoneText.hourNumber : ZoneText → UInt8
  | .offset _ hour _ => .ofNat (value 10 hour)
  | _ => 0

def ZoneText.minuteNumber : ZoneText → UInt8
  | .offset _ _ minute => .ofNat (value 10 minute)
  | _ => 0

def Text.tm (t : Text) : Tm where
  year := t.yearNumber
  month := .ofNat (value 10 t.month)
  day := .ofNat (value 10 t.day)
  hour := .ofNat (value 10 t.hour)
  minute := .ofNat (value 10 t.minute)
  second := .ofNat (value 10 t.second)
  secondAndFrac := t.fraction.map fun ds => t.second ++ 46 :: ds
  utcNegOff := t.zone.negative
  utcHourOff := t.zone.hourNumber
  utcMinOff := t.zone.minuteNumber

theorem StrictZone.loose (h : StrictZone z) :
    LooseZone pl z z.negative z.hourNumber z.minuteNumber := by
  cases h with
  | none => exact .none
  | utc => exact .utc
  | @offset negative hour minute hh hm hrange =>
    have hhour : (ZoneText.offset negative hour minute).hourNumber.toNat = value 10 hour :=
      hh.toNat_ofNat
    have hminute : (ZoneText.offset negative hour minute).minuteNumber.toNat = value 10 minute :=
      hm.toNat_ofNat
    refine .offset (hh.looseField 58) ?_ hm.looseTwo ?_ fun h14 => ?_
    · rw [UInt8.le_iff_toNat_le, hhour]; show _ ≤ 14; omega
    · rw [UInt8.le_iff_toNat_le, hminute]; show _ ≤ 59; omega
    rw [h14] at hhour
    have h14' : 14 = value 10 hour := hhour
    rw [← UInt8.toNat_inj, hminute]
    show _ = 0
    omega

theorem StrictZone.seconds (h : StrictZone z) :
    z.seconds = (if z.negative then -1 else 1) *
      (z.hourNumber.toNat * 3600 + z.minuteNumber.toNat * 60) := by
  cases h with
  | none => rfl
  | utc => rfl
  | @offset negative hour minute hh hm hrange =>
    rw [ZoneText.seconds, ZoneText.negative, ZoneText.hourNumber, ZoneText.minuteNumber,
      hh.toNat_ofNat, hm.toNat_ofNat]

theorem StrictYear.loose (h : StrictYear t.year)
    (hread : strtoint16 pl t.year = some v) : LooseYear t.year t.yearNumber := by
  obtain ⟨sg, ds, hy, hsg, hds, hlen, -⟩ := h
  have hne : ds ≠ [] := ne_nil_of_length_pos (by omega)
  have hspelled : Spelled 10 [] sg [] ds := ⟨by simp, hsg.imp_right .inr, .inl rfl, hne, hds⟩
  have hdash : 45 ∉ ds := fun hmem => absurd (hds 45 hmem) (by decide)
  have hyne : t.year ≠ [] := by rw [hy]; exact append_ne_nil_of_right_ne_nil _ hne
  obtain ⟨d, ds', hd⟩ := exists_cons_of_ne_nil hne
  have hd45 : d ≠ 45 := by rintro rfl; exact hdash (by simp [hd])
  have hnumber : t.yearNumber = if sg = [45] then -(value 10 ds : Int) else value 10 ds := by
    unfold Text.yearNumber
    rw [hy]
    obtain rfl | rfl := hsg
    · simp [hd, hd45]
    · simp
  obtain ⟨h20, hlow, hhigh, spaces, sg', ds'', hy', hspelled', hv⟩ := (strtoint16_iff hyne).mp hread
  obtain ⟨hsgs, rfl⟩ := spelled_unique hspelled hspelled' (by rw [nil_append, ← hy, hy'])
  have hvn : v = t.yearNumber := by rw [hv, hnumber]; simp [hsgs]
  rw [← hvn]
  refine ⟨?_, ?_, h20, hlow, hhigh, [], sg, ds, by rw [hy, nil_append], hspelled, hvn.trans hnumber⟩
  · rw [hy]
    obtain rfl | rfl := hsg
    · exact fun hmem => hdash (drop_subset 1 _ hmem)
    · exact hdash
  · rw [hy]
    obtain rfl | rfl := hsg
    · rw [if_neg (by simp [hd, hd45])]; exact hlen
    · exact Nat.succ_le_succ hlen

theorem TwoDigits.le (h : TwoDigits f) (hle : value 10 f ≤ n.toNat) :
    UInt8.ofNat (value 10 f) ≤ n := by
  rw [UInt8.le_iff_toNat_le, h.toNat_ofNat]; exact hle

theorem TwoDigits.eq_of_ofNat (h : TwoDigits f) (heq : UInt8.ofNat (value 10 f) = n) :
    value 10 f = n.toNat := by
  rw [← heq, h.toNat_ofNat]

theorem Strict.loose (h : Strict t) (hfrac : t.fraction = none)
    (hread : strtoint16 pl t.year = some v) : Loose pl t t.tm where
  year := h.year.loose hread
  month := h.month.looseField 45
  month_range := by
    refine ⟨?_, h.month.le h.month_range.2⟩
    show (1 : UInt8) ≤ UInt8.ofNat (value 10 t.month)
    rw [UInt8.le_iff_toNat_le, h.month.toNat_ofNat]
    exact h.month_range.1
  day := h.day.looseField 84
  day_range := by
    rw [not_rejectDay_iff]
    show 1 ≤ (UInt8.ofNat (value 10 t.day)).toNat ∧ (UInt8.ofNat (value 10 t.day)).toNat ≤
      daysInMonth t.yearNumber (UInt8.ofNat (value 10 t.month)).toNat
    rw [h.day.toNat_ofNat, h.month.toNat_ofNat]
    exact h.day_range
  hour := h.hour.looseField 58
  minute := h.minute.looseField 58
  minute_range := h.minute.le h.minute_range
  second := h.second.looseTwo
  second_range := h.second.le h.second_range
  hour_range := by
    refine h.hour.le ?_
    show _ ≤ 24
    have := h.hour_range
    omega
  midnight := by
    intro h24; have h24' : value 10 t.hour = 24 := h.hour.eq_of_ofNat h24
    obtain hr | ⟨-, hm, hsec, hzero⟩ := h.hour_range
    · omega
    · refine ⟨?_, ?_, hzero⟩
      · show UInt8.ofNat (value 10 t.minute) = 0; rw [hm]; rfl
      · show UInt8.ofNat (value 10 t.second) = 0; rw [hsec]; rfl
  fraction := by
    rw [hfrac]
    exact fun _ hds => absurd hds (by simp)
  fraction_eq := rfl
  zone := h.zone.loose

theorem LooseZone.offset_le {negative : Bool} {hour minute : UInt8}
    (h : LooseZone pl z negative hour minute) : hour.toNat * 3600 + minute.toNat * 60 ≤ 50400 := by
  cases h with
  | none => simp
  | utc => simp
  | offset hf hh hg hm h14 =>
    have hh' : hour.toNat ≤ 14 := UInt8.le_iff_toNat_le.mp hh
    have hm' : minute.toNat ≤ 59 := UInt8.le_iff_toNat_le.mp hm
    by_cases heq : hour.toNat = 14
    · rw [h14 (UInt8.toNat_inj.mp heq), heq]; decide
    · omega

theorem Loose.inRange {tm : Tm} (h : Loose pl t tm) : InRange tm := by
  have hmonth := h.month_range
  have hhour := UInt8.le_iff_toNat_le.mp h.hour_range
  have hminute := UInt8.le_iff_toNat_le.mp h.minute_range
  have hsecond := UInt8.le_iff_toNat_le.mp h.second_range
  refine ⟨hmonth, not_rejectDay_iff.mp h.day_range, ?_, h.zone.offset_le⟩
  simp only [UInt8.reduceToNat] at hhour hminute hsecond
  by_cases h24 : tm.hour.toNat = 24
  · obtain ⟨hm, hs, -⟩ := h.midnight (UInt8.toNat_inj.mp h24); simp [hm, hs, h24]
  · omega

theorem Strict.year_ne (h : Strict t) : t.year ≠ [] ∧ 45 ∉ t.year.drop 1 := by
  obtain ⟨sg, ds, hy, hsg, hds, hlen, -⟩ := h.year
  have hdash : 45 ∉ ds := fun hmem => absurd (hds 45 hmem) (by decide)
  rw [hy]
  refine ⟨append_ne_nil_of_right_ne_nil _ (ne_nil_of_length_pos (by omega)), ?_⟩
  obtain rfl | rfl := hsg
  · exact fun hmem => hdash (drop_subset 1 _ hmem)
  · exact hdash

theorem exists_year {y rest : List UInt8} {tm : Tm} (hne : y ≠ []) (hdash : 45 ∉ y.drop 1)
    (h : tmFromXsdDateTime pl (y ++ 45 :: rest ++ after) (y ++ 45 :: rest).length = some tm) :
    ∃ year, strtoint16 pl y = some year := by
  rw [tmFromXsdDateTime_year hne hdash] at h
  obtain ⟨-, h⟩ := Option.ite_none_left_eq_some.mp h
  cases hyear : strtoint16 pl y with
  | none => rw [hyear] at h; cases h
  | some year => exact ⟨year, rfl⟩

theorem Strict.time_eq (h : Strict t)
    (hs : t.render.length < 2 ^ pl.sizeBits) (hfrac : t.fraction = none)
    (hv : timeFromXsdDateTime pl (t.render ++ after) t.render.length = .ok v) : v = t.time := by
  unfold timeFromXsdDateTime at hv
  cases htm : tmFromXsdDateTime pl (t.render ++ after) t.render.length with
  | none => rw [htm] at hv; cases hv
  | some tm =>
    -- the year was read, so the text is read as its numbers
    obtain ⟨year, hyear⟩ := exists_year h.year_ne.1 h.year_ne.2 htm
    have hloose := h.loose hfrac hyear
    have hfollowed : NotFollowed t after := fun hsome => by
      rw [hfrac] at hsome
      cases hsome
    have htm' := tmFromXsdDateTime_complete hs hloose hfollowed
    rw [htm'] at htm hv
    cases hv; have hoffset : t.tm.offset = t.zone.seconds := h.zone.seconds.symm
    have hnone : t.tm.secondAndFrac = none := by rw [Text.tm, hfrac, Option.map_none]
    rw [timeOfTm_eq hloose.inRange hnone, Text.time, Tm.secondsSince, hoffset]
    simp [Text.tm, h.month.toNat_ofNat, h.day.toNat_ofNat, h.hour.toNat_ofNat, h.minute.toNat_ofNat, h.second.toNat_ofNat]

/-- A string is treated as the grammar asks for exactly if it is clear. -/
theorem xsdDateTime_parsedRight_iff (pl : Platform) (str after : List UInt8)
    (hs : str.length < 2 ^ pl.sizeBits) : ParsedRight pl str after ↔ Clear pl str after := by
  constructor
  · intro h
    exact ⟨fun hg => (accepted_iff hs).mp (h.accepts.mpr hg),
      fun hl => h.accepts.mp ((accepted_iff hs).mpr hl)⟩
  · intro h
    refine ⟨⟨fun hv => h.strict ((accepted_iff hs).mp hv),
      fun hg => (accepted_iff hs).mpr (h.within hg)⟩, ?_⟩
    rintro t rfl hstrict hfrac v hv; exact hstrict.time_eq hs hfrac hv

def lateText : Text where
  year := [51, 50, 55, 54, 56]
  month := [48, 49]
  day := [48, 49]
  hour := [48, 48]
  minute := [48, 48]
  second := [48, 48]
  fraction := none
  zone := .none

theorem strict_lateText : Strict lateText where
  year := ⟨[], _, rfl, .inl rfl, all_eq_true.mp rfl, by decide, by decide⟩
  month := ⟨rfl, all_eq_true.mp rfl⟩
  month_range := by decide
  day := ⟨rfl, all_eq_true.mp rfl⟩
  day_range := by decide
  hour := ⟨rfl, all_eq_true.mp rfl⟩
  minute := ⟨rfl, all_eq_true.mp rfl⟩
  minute_range := by decide
  second := ⟨rfl, all_eq_true.mp rfl⟩
  second_range := by decide
  hour_range := .inl (by decide)
  fraction := fun _ h => by cases h
  zone := .none

def plusText : List UInt8 :=
  [50, 48, 50, 51, 45, 43, 49, 45, 48, 49, 84, 48, 48, 58, 48, 48, 58, 48, 48]

theorem not_grammar_plusText : ¬ Grammar plusText := by
  rintro ⟨t, hrender, hstrict⟩; obtain ⟨hne, hdash⟩ := hstrict.year_ne
  obtain ⟨c, y, hy⟩ := exists_cons_of_ne_nil hne
  have hyear : (plusText.drop 1).takeWhile (· != 45) = y := by
    rw [hrender, Text.render, hy]
    refine takeWhile_append_rest (fun x hx => ?_) (fun x hx => ?_)
    · rw [bne_iff_ne]; rintro rfl; exact hdash (hy ▸ hx)
    · cases hx; rfl
  have hlen : t.year.length = 4 := by rw [hy, ← hyear]; rfl
  have hmonth : (plusText.drop 5).take 2 = t.month := by
    rw [hrender, Text.render, show (5 : Nat) = t.year.length + 1 by rw [hlen], ← drop_drop,
      drop_left, drop_one, tail_cons, ← hstrict.month.1, take_left]
  have hplus := hstrict.month.2 43 (by rw [← hmonth]; decide)
  exact absurd hplus (by decide)

def exactPlatform : Platform where
  ulong := ⟨64, Nat.le_add_left 32 32⟩
  ulonglong := ⟨64, Nat.le_add_left 32 32⟩
  sizeBits := 64
  sizeBits_ge := Nat.le_add_left 16 48
  strtodLength := List.length
  strtodErange _ := false
  hundredOfNanoseconds _ _ := 0
  strtodLength_decimal _ _ _ _ _ _ := rfl
  strtodErange_decimal _ _ _ _ _ _ _ h := Bool.noConfusion h

/-- A text with a sign for a digit is accepted, and one with a late year is not. -/
theorem plus_accepted_late_refused :
    (timeFromXsdDateTime exactPlatform plusText plusText.length = .ok 133170048000000000 ∧
      ¬ Grammar plusText) ∧
    (Grammar lateText.render ∧
      timeFromXsdDateTime exactPlatform lateText.render lateText.render.length =
        .error .invalidParameters) :=
  ⟨⟨rfl, not_grammar_plusText⟩, ⟨lateText, rfl, strict_lateText⟩, rfl⟩

theorem xsdDateTime_parsedRight_iff_late :
    lateText.render.length < 2 ^ exactPlatform.sizeBits ∧
      (ParsedRight exactPlatform lateText.render [0] ↔ Clear exactPlatform lateText.render [0]) :=
  ⟨by decide, xsdDateTime_parsedRight_iff exactPlatform lateText.render [0] (by decide)⟩

end XsdDateTime
end S2OPC
