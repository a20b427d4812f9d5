import Coordination.Binary64.Decimal

/-! Moments as dates of the Gregorian calendar, and durations, as they are shown to people. -/

namespace Coordination.Calendar

structure Date where
  year : Int
  month : Nat
  day : Nat
  deriving DecidableEq, Repr

/-! Days are counted from 1970-01-01. The calendar repeats after 400 years, and in a year that starts
with March the leap day comes last. -/

def daysPerEra : Int := 146097

/-- Days from the first of March of the year 0 up to 1970-01-01. -/
def epochOffset : Int := 719468

def yearOfEra (dayOfEra : Nat) : Nat :=
  (dayOfEra - dayOfEra / 1460 + dayOfEra / 36524 - dayOfEra / 146096) / 365

/-- Day of a year that starts with March. -/
def dayOfYear (dayOfEra : Nat) : Nat :=
  let year := yearOfEra dayOfEra
  dayOfEra - (365 * year + year / 4 - year / 100)

def dateOfDay (day : Int) : Date :=
  let shifted := day + epochOffset
  let era := shifted.fdiv daysPerEra
  let dayOfEra := (shifted.fmod daysPerEra).toNat
  let year := yearOfEra dayOfEra + era * 400
  let dayOfYear := dayOfYear dayOfEra
  let monthFromMarch := (5 * dayOfYear + 2) / 153
  let day := dayOfYear - (153 * monthFromMarch + 2) / 5 + 1
  if monthFromMarch < 10 then ⟨year, monthFromMarch + 3, day⟩
  else ⟨year + 1, monthFromMarch - 9, day⟩

/-! Texts. -/

/-- Digits of `n`, with zeros in front up to `width`. -/
def padded (width n : Nat) : String :=
  let digits := Nat.toDigits 10 n
  String.ofList (List.replicate (width - digits.length) '0' ++ digits)

/-- Years of up to four digits stand without a sign. -/
def yearText (year : Int) : String :=
  if year < 0 then "-" ++ padded 4 year.natAbs
  else if year ≤ 9999 then padded 4 year.natAbs
  else "+" ++ padded 4 year.natAbs

def dateText (d : Date) : String := s!"{yearText d.year}-{padded 2 d.month}-{padded 2 d.day}"

def timeText (millisOfDay : Nat) : String :=
  let seconds := millisOfDay / 1000
  s!"{padded 2 (seconds / 3600)}:{padded 2 (seconds / 60 % 60)}:{padded 2 (seconds % 60)}" ++
    s!".{padded 3 (millisOfDay % 1000)}"

def millisPerDay : Int := 86400000

/-- Years that dates are shown for. -/
def isShown (year : Int) : Bool := decide (-262143 ≤ year) && decide (year ≤ 262142)

/-- A moment in milliseconds from 1970 on, given as a word in two's complement. Moments that no date
is shown for are shown as their number. -/
def formatMillis (ms : UInt64) : String :=
  let signed := ms.toInt64.toInt
  let date := dateOfDay (signed.fdiv millisPerDay)
  if isShown date.year then
    s!"{dateText date}T{timeText (signed.fmod millisPerDay).toNat}Z"
  else s!"{ms}ms"

/-! Durations. -/

/-- Nanoseconds in units of `scale`, with two places. -/
def scaled (nanoseconds scale : Nat) : String :=
  ((Binary64.ofNat nanoseconds).div (.ofNat scale)).fixed 2

def formatDuration (nanoseconds : Nat) : String :=
  if nanoseconds < 1000 then s!"{nanoseconds}ns"
  else if nanoseconds < 1000000 then scaled nanoseconds 1000 ++ "us"
  else if nanoseconds < 1000000000 then scaled nanoseconds 1000000 ++ "ms"
  else scaled nanoseconds 1000000000 ++ "s"

end Coordination.Calendar
