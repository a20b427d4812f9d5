import Coordination.Calendar

/-!
Moments by the rules of the Gregorian calendar, carried on into the past and the future alike: which
dates there are, which one follows another, and what moment a text stands for.
-/

namespace Coordination.Calendar

/-- Every fourth year is a leap year, but of the full centuries only every fourth. -/
def isLeap (year : Int) : Bool := year % 4 == 0 && (year % 100 != 0 || year % 400 == 0)

def yearLength (year : Int) : Nat := if isLeap year then 366 else 365

def monthLength (year : Int) (month : Nat) : Nat :=
  if month = 2 then (if isLeap year then 29 else 28)
  else if month = 4 ∨ month = 6 ∨ month = 9 ∨ month = 11 then 30
  else 31

/-- Days from the first of 1970 up to the first of a year. -/
def daysBeforeYear (year : Int) : Int :=
  365 * (year - 1970) + ((year - 1) / 4 - (year - 1) / 100 + (year - 1) / 400 - 477)

def daysBeforeMonth (year : Int) : (month : Nat) → Nat
  | 0 | 1 => 0
  | month + 2 => daysBeforeMonth year (month + 1) + monthLength year (month + 1)

namespace Date

structure Proper (d : Date) : Prop where
  month_pos : 1 ≤ d.month
  month_le : d.month ≤ 12
  day_pos : 1 ≤ d.day
  day_le : d.day ≤ monthLength d.year d.month

instance (d : Date) : Decidable d.Proper :=
  decidable_of_iff
    (1 ≤ d.month ∧ d.month ≤ 12 ∧ 1 ≤ d.day ∧ d.day ≤ monthLength d.year d.month)
    ⟨fun ⟨a, b, c, d⟩ => ⟨a, b, c, d⟩, fun ⟨a, b, c, d⟩ => ⟨a, b, c, d⟩⟩

/-- The date of the day after. -/
def next (d : Date) : Date :=
  if d.day < monthLength d.year d.month then ⟨d.year, d.month, d.day + 1⟩
  else if d.month < 12 then ⟨d.year, d.month + 1, 1⟩
  else ⟨d.year + 1, 1, 1⟩

/-- Days from 1970-01-01 on. -/
def dayNumber (d : Date) : Int :=
  daysBeforeYear d.year + daysBeforeMonth d.year d.month + d.day - 1

end Date

structure Moment where
  date : Date
  millisOfDay : Nat
  deriving DecidableEq

namespace Moment

/-- Milliseconds from the start of 1970 on. -/
def millis (m : Moment) : Int := m.date.dayNumber * millisPerDay + m.millisOfDay

/-! Reading texts: a date, a time to the millisecond, and the mark of universal time. -/

def mark? (mark : Char) : List Char → Option (List Char)
  | [] => none
  | c :: rest => if c = mark then some rest else none

/-- A number of exactly `count` digits. -/
def number? (count : Nat) (s : List Char) : Option (Nat × List Char) :=
  let digits := s.take count
  if digits.length = count ∧ digits.all Char.isDigit then
    some (Nat.ofDigitChars 10 digits 0, s.drop count)
  else none

/-- A number of four digits or more, as many as there are. -/
def longNumber? (s : List Char) : Option (Nat × List Char) :=
  let (digits, rest) := s.span Char.isDigit
  if 4 ≤ digits.length then some (Nat.ofDigitChars 10 digits 0, rest) else none

/-- A year has a sign only if it needs more than four digits, or is before the year 0. -/
def year? : List Char → Option (Int × List Char)
  | '-' :: s => do
      let (n, rest) ← longNumber? s
      if 0 < n then some (-n, rest) else none
  | '+' :: s => do
      let (n, rest) ← longNumber? s
      if 9999 < n then some (n, rest) else none
  | s => (number? 4 s).map fun (n, rest) => (n, rest)

def date? (s : List Char) : Option (Date × List Char) := do
  let (year, s) ← year? s
  let (month, s) ← number? 2 (← mark? '-' s)
  let (day, s) ← number? 2 (← mark? '-' s)
  let date : Date := ⟨year, month, day⟩
  if date.Proper then some (date, s) else none

def timeOfDay? (s : List Char) : Option (Nat × List Char) := do
  let (hour, s) ← number? 2 s
  let (minute, s) ← number? 2 (← mark? ':' s)
  let (second, s) ← number? 2 (← mark? ':' s)
  let (milli, s) ← number? 3 (← mark? '.' s)
  if hour < 24 ∧ minute < 60 ∧ second < 60 then
    some (((hour * 60 + minute) * 60 + second) * 1000 + milli, s)
  else none

def ofText? (text : String) : Option Moment := do
  let (date, s) ← date? text.toList
  let (millisOfDay, s) ← timeOfDay? (← mark? 'T' s)
  if s = ['Z'] then some ⟨date, millisOfDay⟩ else none

end Moment

end Coordination.Calendar
