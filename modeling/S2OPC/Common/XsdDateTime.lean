import S2OPC.Common.Buffer
import S2OPC.Common.NumberText

/-!
# S2OPC.Common.XsdDateTime

`SOPC_tm_FromXsdDateTime` and `SOPC_Time_FromXsdDateTime` of `sopc_time.c`. A pointer is what memory
holds from there on, as some of the functions look at what follows the text. The remaining length is a
`size_t`, which wraps.
-/

namespace S2OPC
namespace XsdDateTime

open Numeral NumberText

structure Platform where
  ulong : ULong
  ulonglong : ULong
  -- The bits of `size_t`.
  sizeBits : Nat
  sizeBits_ge : 16 ≤ sizeBits
  -- How much of a text `strtod` reads.
  strtodLength : List UInt8 → Nat
  -- Whether it sets `errno` to `ERANGE`.
  strtodErange : List UInt8 → Bool
  -- `(int64_t)(sec_fraction / sec_fraction_100ns)`, for the text of seconds and their whole part.
  hundredOfNanoseconds : List UInt8 → UInt8 → Int
  strtodLength_decimal : ∀ spaces sg ds fs, Spelled 10 spaces sg [] ds →
    (∀ c ∈ fs, isDigit 10 c = true) →
    strtodLength (spaces ++ sg ++ ds ++ 46 :: fs) = (spaces ++ sg ++ ds ++ 46 :: fs).length
  -- The number is not zero and below `DBL_MIN`.
  strtodErange_decimal : ∀ spaces sg ds fs, Spelled 10 spaces sg [] ds →
    (∀ c ∈ fs, isDigit 10 c = true) → value 10 ds < 100 →
    strtodErange (spaces ++ sg ++ ds ++ 46 :: fs) = true →
    0 < value 10 (ds ++ fs) ∧ value 10 (ds ++ fs) * 2 ^ 1022 < 10 ^ fs.length

/-- Seconds with a fraction are kept as their text; `UTC` tells that both offsets are 0. -/
structure Tm where
  year : Int
  month : UInt8
  day : UInt8
  hour : UInt8
  minute : UInt8
  second : UInt8
  secondAndFrac : Option (List UInt8)
  utcNegOff : Bool
  utcHourOff : UInt8
  utcMinOff : UInt8
  deriving DecidableEq

variable (pl : Platform)

def subSize (n k : Nat) : Nat := (n + 2 ^ pl.sizeBits - k) % 2 ^ pl.sizeBits

def strtoint16 (data : List UInt8) : Option Int :=
  if data.length = 0 ∨ 20 < data.length then none
  else
    match scan 10 data with
    | none => none
    | some r =>
      let v : Int := if r.negative then max (-2 ^ (pl.ulonglong.bits - 1)) (-(value 10 r.digits : Int))
        else min (2 ^ (pl.ulonglong.bits - 1) - 1) (value 10 r.digits)
      if r.rest = [] ∧ -2 ^ 15 ≤ v ∧ v ≤ 2 ^ 15 - 1 then some v else none

def strtouintBuf (buf : List UInt8) : Option UInt8 :=
  match strtoul pl.ulonglong buf 10 with
  | none => none
  | some (v, _, rest) => if rest = [] ∧ v ≤ 2 ^ 8 - 1 then some (.ofNat v) else none

def strtouintTwo (p : List UInt8) : Option UInt8 := strtouintBuf pl [p.getD 0 0, p.getD 1 0]

def strtodouble (data : List UInt8) : Bool :=
  data.length ≤ 339 && pl.strtodLength data == data.length && !pl.strtodErange data

def parseTwoDigitsUint8 (p : List UInt8) (len : Nat) (endChar : UInt8) : Option UInt8 :=
  if (2 < len ∧ p.getD 2 0 ≠ endChar) ∨ len < 2 then none else strtouint8 pl.ulong p 10 endChar

def field (endChar : UInt8) (reject : UInt8 → Prop) [DecidablePred reject]
    (next : UInt8 → List UInt8 → Nat → Option Tm) (p : List UInt8) (rem : Nat) : Option Tm :=
  match parseTwoDigitsUint8 pl p rem endChar with
  | none => none
  | some n => if reject n then none else next n (p.drop 3) (subSize pl rem 3)

def offsetMinute (tm : Tm) (negative : Bool) (hour : UInt8) (p : List UInt8) (rem : Nat) : Option Tm :=
  if rem < 2 then none
  else
    match strtouintTwo pl p with
    | none => none
    | some minute =>
      if 59 < minute ∨ (hour = 14 ∧ minute ≠ 0) ∨ subSize pl rem 2 ≠ 0 then none
      else some { tm with utcNegOff := negative, utcHourOff := hour, utcMinOff := minute }

def zone (tm : Tm) (p : List UInt8) (rem : Nat) : Option Tm :=
  if rem ≠ 0 ∧ p.headD 0 ≠ 90 then
    if p.headD 0 ≠ 45 ∧ p.headD 0 ≠ 43 then none
    else field pl 58 (14 < ·) (offsetMinute pl tm (p.headD 0 == 45)) (p.drop 1) (subSize pl rem 1)
  else if (if p.headD 0 = 90 then subSize pl rem 1 else rem) ≠ 0 then none
  else some tm

def isDecimal (c : UInt8) : Bool := decide (48 ≤ c) && decide (c ≤ 57)

def seconds (tm : Tm) (p : List UInt8) (rem : Nat) : Option Tm :=
  if rem < 2 then none
  else
    match strtouintTwo pl p with
    | none => none
    | some second =>
      if 59 < second ∨ (tm.hour = 24 ∧ (tm.minute ≠ 0 ∨ second ≠ 0)) then none
      else if rem = 2 then some { tm with second := second }
      else if p.getD 2 0 = 46 then
        let digits := ((p.drop 3).take (rem - 3)).takeWhile isDecimal
        let text := p.take (3 + digits.length)
        if (tm.hour = 24 ∧ ∃ c ∈ digits, c ≠ 48) ∨ strtodouble pl text = false then none
        else
          zone pl { tm with second := second, secondAndFrac := some text }
            (p.drop (3 + digits.length)) (subSize pl rem (3 + digits.length))
      else zone pl { tm with second := second } (p.drop 2) (subSize pl rem 2)

def minutes (tm : Tm) : List UInt8 → Nat → Option Tm :=
  field pl 58 (59 < ·) fun minute => seconds pl { tm with minute := minute }

def hours (tm : Tm) : List UInt8 → Nat → Option Tm :=
  field pl 58 (24 < ·) fun hour => minutes pl { tm with hour := hour }

def rejectDay (year : Int) (month day : UInt8) : Prop :=
  (day < 1 ∨ 31 < day) ∨ (30 < day ∧ (month = 4 ∨ month = 6 ∨ month = 9 ∨ month = 11)) ∨
    (28 < day ∧ month = 2 ∧
      (year.tmod 4 ≠ 0 ∨ (year.tmod 100 = 0 ∧ year.tmod 400 ≠ 0))) ∨
    (29 < day ∧ month = 2)

instance (year : Int) (month day : UInt8) : Decidable (rejectDay year month day) :=
  inferInstanceAs (Decidable (_ ∨ _))

def days (tm : Tm) : List UInt8 → Nat → Option Tm :=
  field pl 84 (rejectDay tm.year tm.month) fun day => hours pl { tm with day := day }

def months (tm : Tm) : List UInt8 → Nat → Option Tm :=
  field pl 45 (fun month => month < 1 ∨ 12 < month) fun month => days pl { tm with month := month }

def tmFromXsdDateTime (p : List UInt8) (len : Nat) : Option Tm :=
  if len < 19 then none
  else
    -- `endPointer - currentPointer`, or the length if there is no other dash
    let n := 1 + (((p.take len).drop 1).takeWhile (· != 45)).length
    if n = len ∨ n < (if p.headD 0 = 45 then 5 else 4) then none
    else
      match strtoint16 pl (p.take n) with
      | none => none
      | some year =>
        months pl ⟨year, 0, 0, 0, 0, 0, none, false, 0, 0⟩ (p.drop (n + 1)) (len - (n + 1))

def monthDaysElapsed : List Int := [0, 31, 59, 90, 120, 151, 181, 212, 243, 273, 304, 334]

def daysSince1601 (year : Int) (month day : UInt8) : Int :=
  let elapsedYearsSince1601 := year - 1601
  let nbFebs := elapsedYearsSince1601 + (1 - if month ≤ 2 then 1 else 0)
  let leapDays := nbFebs.tdiv 4 - nbFebs.tdiv 100 + nbFebs.tdiv 400
  365 * elapsedYearsSince1601 + leapDays + monthDaysElapsed.getD (month.toNat - 1) 0 + day.toNat - 1

def secondsSince1601 (tm : Tm) : Int :=
  if tm.year ≥ 1601 then
    86400 * daysSince1601 tm.year tm.month tm.day +
      (tm.hour.toNat * 3600 + tm.minute.toNat * 60 + tm.second.toNat)
  else -1 * ((24 - tm.hour.toNat) * 3600 - tm.minute.toNat * 60 - tm.second.toNat)

def secsSince1601 (tm : Tm) : Int :=
  let offset : Int := tm.utcHourOff.toNat * 3600 + tm.utcMinOff.toNat * 60
  if ¬ (tm.utcHourOff = 0 ∧ tm.utcMinOff = 0) then
    if tm.utcNegOff then secondsSince1601 tm + offset else secondsSince1601 tm - offset
  else secondsSince1601 tm

def timeOfTm (tm : Tm) : Int :=
  if tm.year < 1601 ∧ (tm.year ≠ 1600 ∨ tm.month ≠ 12 ∨ tm.day ≠ 31) then 0
  else if 9999 < tm.year ∧ (tm.year ≠ 10000 ∨ tm.month ≠ 1 ∨ tm.day ≠ 1) then 2 ^ 63 - 1
  else if secsSince1601 tm < 0 then 0
  else if 265046774399 ≤ secsSince1601 tm then 2 ^ 63 - 1
  else
    secsSince1601 tm * 10000000 +
      tm.secondAndFrac.elim 0 fun text => pl.hundredOfNanoseconds text tm.second

def timeFromXsdDateTime (p : List UInt8) (len : Nat) : Except Status Int :=
  match tmFromXsdDateTime pl p len with
  | none => .error .invalidParameters
  | some tm => .ok (timeOfTm pl tm)

end XsdDateTime
end S2OPC
