import Coordination.Calendar.Moment
import Mathlib.Data.Int.Init
import Mathlib.Order.Monotone.Basic

/-!
The dates of days, reckoned from 1970-01-01. Each day has a proper date, the day after it has the next
one, and the number of days that a date counts is the day it is the date of.
-/

namespace Coordination.Calendar

/-! Years that start with March. The leap day, if there is one, is the last of its year. -/

/-- Days from the first of March of the year 0 up to that of another year. -/
def marchDay (year : Int) : Int := 365 * year + year / 4 - year / 100 + year / 400

theorem isLeap_iff {year : Int} :
    isLeap year = true ↔ year % 4 = 0 ∧ (year % 100 ≠ 0 ∨ year % 400 = 0) := by
  simp [isLeap]

theorem yearLength_cases (year : Int) :
    yearLength year = 366 ∧ year % 4 = 0 ∧ (year % 100 ≠ 0 ∨ year % 400 = 0) ∨
      yearLength year = 365 ∧ (year % 4 ≠ 0 ∨ year % 100 = 0 ∧ year % 400 ≠ 0) := by
  by_cases leap : isLeap year = true
  · exact .inl ⟨if_pos leap, isLeap_iff.mp leap⟩
  · refine .inr ⟨if_neg leap, ?_⟩
    rw [isLeap_iff] at leap
    omega

theorem marchDay_succ (year : Int) : marchDay (year + 1) = marchDay year + yearLength (year + 1) := by
  have length := yearLength_cases (year + 1)
  unfold marchDay
  omega

/-- A day that is the `dayOfYear`-th of a year of its era is found in that year. -/
theorem yearOfEra_eq (century fourth year dayOfYear : Nat) (centuries : century < 4)
    (fourths : fourth < 25) (years : year < 4)
    (inYear : dayOfYear < 365 ∨ dayOfYear = 365 ∧ year = 3 ∧ (fourth < 24 ∨ century = 3)) :
    yearOfEra (36524 * century + 1461 * fourth + 365 * year + dayOfYear) =
      100 * century + 4 * fourth + year := by
  generalize inCentury : 1461 * fourth + 365 * year + dayOfYear = rest
  generalize inEra : 36524 * century + 1461 * fourth + 365 * year + dayOfYear = day
  have split : day = 36524 * century + rest := by omega
  -- A century has 36524 days, and only the last one of an era has one more.
  by_cases last : rest = 36524
  · obtain ⟨rfl, rfl, rfl, rfl⟩ : century = 3 ∧ fourth = 24 ∧ year = 3 ∧ dayOfYear = 365 := by omega
    subst split last
    rfl
  · have short : rest < 36524 := by omega
    have noEra : day / 146096 = 0 := by omega
    have pastCenturies : day / 36524 = century := by omega
    -- The quotient by 1460 may be one ahead in the last days of four years.
    have pastFourths : day / 1460 = 25 * century + fourth ∧
          24 * century + fourth + 365 * year + dayOfYear < 1460 ∨
        day / 1460 = 25 * century + fourth + 1 ∧
          1460 ≤ 24 * century + fourth + 365 * year + dayOfYear := by omega
    rw [yearOfEra, pastCenturies, noEra]
    omega

theorem yearOfEra_of_year {year dayOfYear : Nat} (inEra : year < 400)
    (inYear : dayOfYear < yearLength (year + 1)) :
    yearOfEra (365 * year + year / 4 - year / 100 + dayOfYear) = year := by
  have length := yearLength_cases (year + 1)
  have placed := yearOfEra_eq (year / 100) (year % 100 / 4) (year % 4) dayOfYear (by omega) (by omega)
    (by omega) (by omega)
  have whole : 100 * (year / 100) + 4 * (year % 100 / 4) + year % 4 = year := by omega
  have days : 36524 * (year / 100) + 1461 * (year % 100 / 4) + 365 * (year % 4) + dayOfYear =
      365 * year + year / 4 - year / 100 + dayOfYear := by omega
  rw [← days, placed, whole]

/-- The date of a day of a year that starts with March. -/
def ofMarch (year : Int) (dayOfYear : Nat) : Date :=
  let month := (5 * dayOfYear + 2) / 153
  let day := dayOfYear - (153 * month + 2) / 5 + 1
  if month < 10 then ⟨year, month + 3, day⟩ else ⟨year + 1, month - 9, day⟩

theorem dateOfDay_marchDay {year : Int} {day : Nat} (inYear : day < yearLength (year + 1)) :
    dateOfDay (marchDay year + day - epochOffset) = ofMarch year day := by
  obtain ⟨era, inEra, short, rfl⟩ : ∃ (era : Int) (inEra : Nat), inEra < 400 ∧ year = inEra + era * 400 :=
    ⟨year / 400, (year % 400).toNat, by omega, by omega⟩
  have length := yearLength_cases (inEra + era * 400 + 1)
  have lengthInEra := yearLength_cases (inEra + 1)
  have same : day < yearLength (inEra + 1) := by omega
  generalize first : 365 * inEra + inEra / 4 - inEra / 100 = start
  have placed := yearOfEra_of_year short same
  rw [first] at placed
  have shifted : marchDay (inEra + era * 400) + day - epochOffset + epochOffset =
      daysPerEra * era + (start + day : Nat) := by
    unfold marchDay daysPerEra
    omega
  have inside : start + day < 146097 := by omega
  have eras : (daysPerEra * era + (start + day : Nat)).fdiv daysPerEra = era := by
    rw [Int.fdiv_eq_ediv_of_nonneg _ (by decide)]
    unfold daysPerEra
    omega
  have days : ((daysPerEra * era + (start + day : Nat)).fmod daysPerEra).toNat = start + day := by
    rw [Int.fmod_eq_emod_of_nonneg _ (by decide)]
    unfold daysPerEra
    omega
  have ofYear : dayOfYear (start + day) = day := by
    rw [dayOfYear, placed]
    omega
  simp only [dateOfDay, shifted, eras, days, placed, ofYear, ofMarch]

/-- Every day is one of a year that starts with March. -/
theorem exists_march (day : Int) :
    ∃ (year : Int) (dayOfYear : Nat), dayOfYear < yearLength (year + 1) ∧
      day = marchDay year + dayOfYear - epochOffset := by
  -- Day by day from 1970-01-01, which is number 306 of its year, in both directions.
  induction day using Int.induction_on with
  | zero => exact ⟨1969, 306, by decide, by decide⟩
  | succ day induction =>
      obtain ⟨year, dayOfYear, inYear, same⟩ := induction
      by_cases last : dayOfYear + 1 < yearLength (year + 1)
      · exact ⟨year, dayOfYear + 1, last, by omega⟩
      · have length := yearLength_cases (year + 1 + 1)
        refine ⟨year + 1, 0, by omega, ?_⟩
        rw [marchDay_succ]
        omega
  | pred day induction =>
      obtain ⟨year, dayOfYear, inYear, same⟩ := induction
      by_cases first : 0 < dayOfYear
      · exact ⟨year, dayOfYear - 1, by omega, by omega⟩
      · have length := yearLength_cases (year - 1 + 1)
        have before := marchDay_succ (year - 1)
        refine ⟨year - 1, yearLength (year - 1 + 1) - 1, by omega, ?_⟩
        rw [Int.sub_add_cancel] at before length ⊢
        omega

/-! Months of a year that starts with March, which is its month number 0. -/

def monthStart (month : Nat) : Nat := (153 * month + 2) / 5

/-- Only the last month, February, has a length that depends on the year. -/
def marchMonthLength (year : Int) (month : Nat) : Nat :=
  if month < 11 then monthStart (month + 1) - monthStart month
  else yearLength (year + 1) - monthStart 11

/-- The date of a day of such a month, the first being number 0. -/
def inMarch (year : Int) (month day : Nat) : Date :=
  if month < 10 then ⟨year, month + 3, day + 1⟩ else ⟨year + 1, month - 9, day + 1⟩

variable {year : Int} {month day : Nat}

theorem inMarch_of_lt (early : month < 10) : inMarch year month day = ⟨year, month + 3, day + 1⟩ :=
  if_pos early

theorem monthLength_inMarch (isMonth : month ≤ 11) :
    monthLength (inMarch year month day).year (inMarch year month day).month =
      marchMonthLength year month := by
  obtain rfl | rfl | early : month = 11 ∨ month = 10 ∨ month < 10 := by omega
  · change (if isLeap (year + 1) then 29 else 28) = (if isLeap (year + 1) then 366 else 365) - 337
    split <;> rfl
  · rfl
  · rw [inMarch_of_lt early, marchMonthLength, if_pos (by omega)]
    obtain rfl | rfl | rfl | rfl | rfl | rfl | rfl | rfl | rfl | rfl :
        month = 0 ∨ month = 1 ∨ month = 2 ∨ month = 3 ∨ month = 4 ∨ month = 5 ∨ month = 6 ∨
          month = 7 ∨ month = 8 ∨ month = 9 := by omega
    all_goals rfl

theorem inMarch_day : (inMarch year month day).day = day + 1 := by
  unfold inMarch
  split <;> rfl

theorem proper_inMarch (isMonth : month ≤ 11) (inMonth : day < marchMonthLength year month) :
    (inMarch year month day).Proper where
  month_pos := by
    unfold inMarch
    split
    · exact Nat.le_add_left 1 _
    · change 1 ≤ month - 9
      omega
  month_le := by
    unfold inMarch
    split
    · change month + 3 ≤ 12
      omega
    · change month - 9 ≤ 12
      omega
  day_pos := by
    rw [inMarch_day]
    exact Nat.le_add_left 1 day
  day_le := by
    rw [inMarch_day, monthLength_inMarch isMonth]
    exact inMonth

theorem next_inMarch (isMonth : month ≤ 11) (within : day + 1 < marchMonthLength year month) :
    (inMarch year month day).next = inMarch year month (day + 1) := by
  rw [Date.next, monthLength_inMarch isMonth, inMarch_day, if_pos within]
  unfold inMarch
  split <;> rfl

theorem next_inMarch_last (isMonth : month < 11) (last : day + 1 = marchMonthLength year month) :
    (inMarch year month day).next = inMarch year (month + 1) 0 := by
  rw [Date.next, monthLength_inMarch (by omega), inMarch_day, if_neg (by omega)]
  -- Month 9 is December: the date goes on to another year there, the year from March on does not.
  obtain rfl | rfl | early : month = 10 ∨ month = 9 ∨ month < 9 := by omega
  · rfl
  · rfl
  · rw [inMarch_of_lt (by omega), inMarch_of_lt (by omega), if_pos (by change month + 3 < 12; omega)]

theorem next_inMarch_leap (last : day + 1 = marchMonthLength year 11) :
    (inMarch year 11 day).next = inMarch (year + 1) 0 0 := by
  rw [Date.next, monthLength_inMarch (Nat.le_refl 11), inMarch_day, if_neg (by omega)]
  rfl

theorem ofMarch_monthStart (isMonth : month ≤ 11) (inMonth : day < marchMonthLength year month) :
    ofMarch year (monthStart month + day) = inMarch year month day := by
  have length := yearLength_cases (year + 1)
  have fits : monthStart month + day < monthStart (month + 1) := by
    unfold marchMonthLength at inMonth
    split at inMonth
    · omega
    · obtain rfl : month = 11 := by omega
      have last : monthStart 11 = 337 ∧ monthStart (11 + 1) = 367 := ⟨rfl, rfl⟩
      omega
  unfold monthStart at fits ⊢
  have found : (5 * ((153 * month + 2) / 5 + day) + 2) / 153 = month := by omega
  simp only [ofMarch, found, Nat.add_sub_cancel_left]
  rfl

theorem exists_inMarch (inYear : day < yearLength (year + 1)) :
    ∃ month dayOfMonth, month ≤ 11 ∧ dayOfMonth < marchMonthLength year month ∧
      day = monthStart month + dayOfMonth := by
  have length := yearLength_cases (year + 1)
  refine ⟨(5 * day + 2) / 153, day - monthStart ((5 * day + 2) / 153), by omega, ?_, ?_⟩
  · unfold marchMonthLength
    split
    · unfold monthStart
      omega
    · have last : (5 * day + 2) / 153 = 11 := by omega
      rw [last]
      have start : monthStart 11 = 337 := rfl
      omega
  · unfold monthStart
    omega

/-! Days and their dates. -/

theorem inYear_of_inMonth (isMonth : month ≤ 11) (inMonth : day < marchMonthLength year month) :
    monthStart month + day < yearLength (year + 1) := by
  have length := yearLength_cases (year + 1)
  unfold marchMonthLength at inMonth
  split at inMonth
  · have before : monthStart (month + 1) ≤ monthStart 11 := by
      unfold monthStart
      omega
    have last : monthStart 11 = 337 := rfl
    omega
  · obtain rfl : month = 11 := by omega
    omega

theorem dateOfDay_inMarch (isMonth : month ≤ 11) (inMonth : day < marchMonthLength year month) :
    dateOfDay (marchDay year + (monthStart month + day : Nat) - epochOffset) =
      inMarch year month day := by
  rw [dateOfDay_marchDay (inYear_of_inMonth isMonth inMonth), ofMarch_monthStart isMonth inMonth]

/-- A day by the year that starts with March, the month and the day of the month that it has. -/
structure Placed (day : Int) (year : Int) (month dayOfMonth : Nat) : Prop where
  isMonth : month ≤ 11
  inMonth : dayOfMonth < marchMonthLength year month
  day_eq : day = marchDay year + (monthStart month + dayOfMonth : Nat) - epochOffset

theorem exists_placed (day : Int) : ∃ year month dayOfMonth, Placed day year month dayOfMonth := by
  obtain ⟨year, dayOfYear, inYear, same⟩ := exists_march day
  obtain ⟨month, dayOfMonth, isMonth, inMonth, rfl⟩ := exists_inMarch inYear
  exact ⟨year, month, dayOfMonth, isMonth, inMonth, same⟩

theorem Placed.date {n : Int} (placed : Placed n year month day) :
    dateOfDay n = inMarch year month day := by
  rw [placed.day_eq, dateOfDay_inMarch placed.isMonth placed.inMonth]

theorem proper_dateOfDay (n : Int) : (dateOfDay n).Proper := by
  obtain ⟨year, month, day, placed⟩ := exists_placed n
  rw [placed.date]
  exact proper_inMarch placed.isMonth placed.inMonth

theorem marchMonthLength_pos (year : Int) (month : Nat) : 0 < marchMonthLength year month := by
  have length := yearLength_cases (year + 1)
  have start : monthStart 11 = 337 := rfl
  unfold marchMonthLength
  split
  · unfold monthStart
    omega
  · omega

theorem dateOfDay_succ (n : Int) : dateOfDay (n + 1) = (dateOfDay n).next := by
  obtain ⟨year, month, day, placed⟩ := exists_placed n
  have ⟨isMonth, inMonth, same⟩ := placed
  rw [placed.date]
  by_cases within : day + 1 < marchMonthLength year month
  · rw [next_inMarch isMonth within]
    exact Placed.date ⟨isMonth, within, by omega⟩
  · have last : day + 1 = marchMonthLength year month := by omega
    by_cases inYear : month < 11
    · rw [next_inMarch_last inYear last]
      refine Placed.date ⟨inYear, marchMonthLength_pos year _, ?_⟩
      rw [marchMonthLength, if_pos inYear] at last
      have onward : monthStart month ≤ monthStart (month + 1) := by
        unfold monthStart
        omega
      omega
    · obtain rfl : month = 11 := by omega
      rw [next_inMarch_leap last]
      refine Placed.date ⟨Nat.zero_le 11, marchMonthLength_pos (year + 1) 0, ?_⟩
      rw [marchMonthLength, if_neg inYear] at last
      have start : monthStart 11 = 337 ∧ monthStart 0 = 0 := ⟨rfl, rfl⟩
      rw [marchDay_succ]
      omega

/-! Dates and the days that they count. -/

theorem daysBeforeYear_succ (year : Int) :
    daysBeforeYear (year + 1) = daysBeforeYear year + yearLength year := by
  have length := yearLength_cases year
  unfold daysBeforeYear
  omega

theorem daysBeforeMonth_succ (year : Int) (some : 1 ≤ month) :
    daysBeforeMonth year (month + 1) = daysBeforeMonth year month + monthLength year month := by
  obtain ⟨month, rfl⟩ := Nat.exists_eq_add_of_le' some
  rfl

theorem daysBeforeMonth_december (year : Int) :
    daysBeforeMonth year 12 + monthLength year 12 = yearLength year := by
  have february : monthLength year 2 + 337 = yearLength year := by
    change (if isLeap year then 29 else 28) + 337 = if isLeap year then 366 else 365
    split <;> rfl
  change 31 + monthLength year 2 + 31 + 30 + 31 + 30 + 31 + 31 + 30 + 31 + 30 + 31 = _
  omega

theorem Date.dayNumber_next {d : Date} (proper : d.Proper) : d.next.dayNumber = d.dayNumber + 1 := by
  obtain ⟨monthPos, monthLe, dayPos, dayLe⟩ := proper
  unfold next
  split
  · simp only [dayNumber]
    omega
  · have last : d.day = monthLength d.year d.month := by omega
    split
    · simp only [dayNumber, daysBeforeMonth_succ d.year monthPos]
      omega
    · have december : d.month = 12 := by omega
      have whole := daysBeforeMonth_december d.year
      have first : daysBeforeMonth (d.year + 1) 1 = 0 := rfl
      rw [december] at last
      simp only [dayNumber, december, daysBeforeYear_succ, first]
      omega

theorem dayNumber_dateOfDay (n : Int) : (dateOfDay n).dayNumber = n := by
  induction n using Int.induction_on with
  | zero => decide
  | succ n induction => rw [dateOfDay_succ, Date.dayNumber_next (proper_dateOfDay n), induction]
  | pred n induction =>
      have step := Date.dayNumber_next (proper_dateOfDay (-n - 1))
      rw [← dateOfDay_succ, Int.sub_add_cancel, induction] at step
      omega

/-! Years by the days that fall into them. -/

theorem daysBeforeYear_mono {first second : Int} (before : first ≤ second) :
    daysBeforeYear first ≤ daysBeforeYear second := by
  unfold daysBeforeYear
  omega

theorem daysBeforeMonth_mono (year : Int) : Monotone (daysBeforeMonth year) :=
  monotone_nat_of_le_succ fun
    | 0 => Nat.le_refl 0
    | _ + 1 => Nat.le_add_right _ _

namespace Date

variable {d : Date}

theorem daysBeforeYear_le_dayNumber (proper : d.Proper) : daysBeforeYear d.year ≤ d.dayNumber := by
  have dayPos := proper.day_pos
  unfold dayNumber
  omega

theorem dayNumber_lt_daysBeforeYear (proper : d.Proper) :
    d.dayNumber < daysBeforeYear (d.year + 1) := by
  have dayLe := proper.day_le
  have month := daysBeforeMonth_succ d.year proper.month_pos
  have upToNext : daysBeforeMonth d.year (d.month + 1) ≤ daysBeforeMonth d.year (12 + 1) :=
    daysBeforeMonth_mono d.year (Nat.succ_le_succ proper.month_le)
  have december : daysBeforeMonth d.year (12 + 1) = yearLength d.year :=
    daysBeforeMonth_december d.year
  rw [dayNumber, daysBeforeYear_succ]
  omega

theorem le_year_iff (proper : d.Proper) (year : Int) :
    year ≤ d.year ↔ daysBeforeYear year ≤ d.dayNumber := by
  have first := daysBeforeYear_le_dayNumber proper
  have last := dayNumber_lt_daysBeforeYear proper
  constructor
  · intro before
    exact (daysBeforeYear_mono before).trans first
  · intro days
    by_contra after
    have later : daysBeforeYear (d.year + 1) ≤ daysBeforeYear year :=
      daysBeforeYear_mono (by omega)
    omega

end Date

theorem le_year_dateOfDay_iff (year day : Int) :
    year ≤ (dateOfDay day).year ↔ daysBeforeYear year ≤ day := by
  rw [Date.le_year_iff (proper_dateOfDay day), dayNumber_dateOfDay]

end Coordination.Calendar
