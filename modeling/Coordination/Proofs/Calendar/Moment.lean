import Coordination.Proofs.Calendar.Gregorian
import Coordination.Proofs.Json.Number
import Coordination.Proofs.Statistics.Aggregate
import Coordination.Statistics.Report

/-!
The texts of moments read back: a date and a time of day are found again in their text, and the text
that a word is shown as stands for the milliseconds that the word is in two's complement.
-/

namespace Coordination

namespace Calendar

open Json (AllDigits DigitsEnd allDigits_toDigits allDigits_zeros)

/-! Numbers with zeros in front. -/

section Padded

variable (width n : Nat)

theorem toList_padded :
    (padded width n).toList =
      Json.zeros (width - (Nat.toDigits 10 n).length) ++ Nat.toDigits 10 n :=
  String.toList_ofList

theorem allDigits_padded : AllDigits (padded width n).toList := by
  rw [toList_padded]
  exact (allDigits_zeros _).append (allDigits_toDigits n)

theorem ofDigitChars_padded : Nat.ofDigitChars 10 (padded width n).toList 0 = n := by
  rw [toList_padded, ← Json.naturalOf_eq, Json.naturalOf_zeros_append, Json.naturalOf_toDigits]

theorem length_padded :
    (padded width n).toList.length = max width (Nat.toDigits 10 n).length := by
  rw [toList_padded, List.length_append, Json.zeros, List.length_replicate]
  omega

end Padded

namespace Moment

variable {width n : Nat} {c : Char} {rest : List Char}

@[simp] theorem mark?_cons : mark? c (c :: rest) = some rest := if_pos rfl

theorem number?_padded (positive : 0 < width) (small : n < 10 ^ width) :
    number? width ((padded width n).toList ++ rest) = some (n, rest) := by
  have short : (Nat.toDigits 10 n).length ≤ width :=
    (Nat.length_toDigits_le_iff (by decide) positive).mpr small
  have length : (padded width n).toList.length = width := by
    rw [length_padded, max_eq_left short]
  have digits : (padded width n).toList.all Char.isDigit = true :=
    List.all_eq_true.mpr (allDigits_padded width n)
  simp only [number?, List.take_left' length, List.drop_left' length, length, digits,
    ofDigitChars_padded, and_self, if_true]

theorem longNumber?_padded (ends : DigitsEnd rest) :
    longNumber? ((padded 4 n).toList ++ rest) = some (n, rest) := by
  have taken : ((padded 4 n).toList ++ rest).span Char.isDigit = ((padded 4 n).toList, rest) :=
    Json.takeDigits_append (allDigits_padded 4 n) ends
  have long : 4 ≤ (padded 4 n).toList.length := by
    rw [length_padded]
    exact le_max_left _ _
  simp only [longNumber?, taken, long, ofDigitChars_padded, if_true]

theorem year?_of_isDigit (digit : c.isDigit = true) :
    year? (c :: rest) = (number? 4 (c :: rest)).map fun (n, rest) => ((n : Int), rest) := by
  unfold year?
  split
  · next start => cases start; exact absurd digit (by decide)
  · next start => cases start; exact absurd digit (by decide)
  · rfl

theorem year?_padded (small : n ≤ 9999) :
    year? ((padded 4 n).toList ++ rest) = some ((n : Int), rest) := by
  have read : number? 4 ((padded 4 n).toList ++ rest) = some (n, rest) :=
    number?_padded (by decide) (Nat.lt_succ_of_le small)
  cases shape : (padded 4 n).toList with
  | nil =>
      have length := length_padded 4 n
      rw [shape, List.length_nil] at length
      omega
  | cons c digits =>
      rw [shape, List.cons_append] at read
      have digit : c.isDigit = true := allDigits_padded 4 n c (shape ▸ List.mem_cons_self)
      rw [List.cons_append, year?_of_isDigit digit, read, Option.map_some]

theorem year?_yearText (year : Int) (ends : DigitsEnd rest) :
    year? ((yearText year).toList ++ rest) = some (year, rest) := by
  have read := longNumber?_padded (n := year.natAbs) ends
  unfold yearText
  split
  · next before =>
      have sign : ("-" ++ padded 4 year.natAbs).toList = '-' :: (padded 4 year.natAbs).toList :=
        String.toList_append
      have number : -(year.natAbs : Int) = year := by omega
      simp only [sign, List.cons_append, year?, read, Option.bind_eq_bind, Option.bind_some, number,
        Int.natAbs_pos.mpr before.ne, if_true]
  split
  · next shown =>
      rw [year?_padded (by omega), Int.natAbs_of_nonneg (by omega)]
  · next long =>
      have sign : ("+" ++ padded 4 year.natAbs).toList = '+' :: (padded 4 year.natAbs).toList :=
        String.toList_append
      have number : (year.natAbs : Int) = year := by omega
      have large : 9999 < year.natAbs := by omega
      simp only [sign, List.cons_append, year?, read, Option.bind_eq_bind, Option.bind_some, number,
        large, if_true]

theorem date?_dateText {d : Date} (proper : d.Proper) :
    date? ((dateText d).toList ++ rest) = some (d, rest) := by
  have text (year month day : String) : (s!"{year}-{month}-{day}").toList ++ rest =
      year.toList ++ '-' :: (month.toList ++ '-' :: (day.toList ++ rest)) := by
    simp only [String.toList_append, List.append_assoc]
    rfl
  have month : d.month < 10 ^ 2 := by
    have monthLe := proper.month_le
    omega
  have day : d.day < 10 ^ 2 := by
    have dayLe := proper.day_le
    have longest : monthLength d.year d.month ≤ 31 := by
      unfold monthLength
      split_ifs <;> decide
    omega
  have ends : DigitsEnd
      ('-' :: ((padded 2 d.month).toList ++ '-' :: ((padded 2 d.day).toList ++ rest))) := by
    rintro c ⟨⟩
    rfl
  simp only [dateText, text, date?, year?_yearText d.year ends, mark?_cons,
    number?_padded Nat.two_pos month, number?_padded Nat.two_pos day, Option.bind_eq_bind,
    Option.bind_some, proper, if_true]

theorem timeOfDay?_timeText (inDay : n < 86400000) :
    timeOfDay? ((timeText n).toList ++ rest) = some (n, rest) := by
  have text (hour minute second milli : String) :
      (s!"{hour}:{minute}:{second}" ++ s!".{milli}").toList ++ rest =
        hour.toList ++ ':' :: (minute.toList ++ ':' :: (second.toList ++
          '.' :: (milli.toList ++ rest))) := by
    simp only [String.toList_append, List.append_assoc]
    rfl
  have hour : n / 1000 / 3600 < 24 := by omega
  have minute : n / 1000 / 60 % 60 < 60 := by omega
  have second : n / 1000 % 60 < 60 := by omega
  have milli : n % 1000 < 10 ^ 3 := by omega
  have whole : ((n / 1000 / 3600 * 60 + n / 1000 / 60 % 60) * 60 + n / 1000 % 60) * 1000 +
      n % 1000 = n := by omega
  simp only [timeText, text, timeOfDay?, mark?_cons,
    number?_padded Nat.two_pos (hour.trans (by decide)),
    number?_padded Nat.two_pos (minute.trans (by decide)),
    number?_padded Nat.two_pos (second.trans (by decide)),
    number?_padded (Nat.succ_pos 2) milli, Option.bind_eq_bind, Option.bind_some, hour, minute,
    second, and_self, if_true, whole]

/-- A moment of a proper date is what its text stands for. -/
theorem ofText?_text {d : Date} (proper : d.Proper) (inDay : n < 86400000) :
    ofText? s!"{dateText d}T{timeText n}Z" = some ⟨d, n⟩ := by
  have text (date time : String) :
      (s!"{date}T{time}Z").toList = date.toList ++ 'T' :: (time.toList ++ ['Z']) := by
    simp only [String.toList_append, List.append_assoc]
    rfl
  simp only [ofText?, text, date?_dateText proper, mark?_cons, timeOfDay?_timeText inDay,
    Option.bind_eq_bind, Option.bind_some, if_true]

end Moment

/-! Words as milliseconds. -/

/-- The number that a word stands for in two's complement. -/
def signed (ms : UInt64) : Int := if ms.toNat < 2 ^ 63 then ms.toNat else ms.toNat - 2 ^ 64

/-- Milliseconds from 1970 on of the first moment that is shown as a date, and of the last one. -/
def earliest : Int := -8334601228800000

def latest : Int := 8210266876799999

theorem toInt_toInt64 (ms : UInt64) : ms.toInt64.toInt = signed ms := by
  have half : 2 * ms.toBitVec.toNat < 2 ^ 64 ↔ ms.toNat < 2 ^ 63 := by
    change 2 * ms.toNat < 2 ^ 64 ↔ _
    omega
  change ms.toBitVec.toInt = _
  simp only [BitVec.toInt_eq_toNat_cond, half]
  rfl

theorem isShown_dateOfDay_iff (n : Int) :
    isShown (dateOfDay (n.fdiv millisPerDay)).year = true ↔ earliest ≤ n ∧ n ≤ latest := by
  have first : daysBeforeYear (-262143) = -96465292 := by decide
  have last : daysBeforeYear (262142 + 1) = 95026237 := by decide
  have before := le_year_dateOfDay_iff (-262143) (n.fdiv millisPerDay)
  have after := le_year_dateOfDay_iff (262142 + 1) (n.fdiv millisPerDay)
  have days : n.fdiv millisPerDay = n / 86400000 := Int.fdiv_eq_ediv_of_nonneg _ (by decide)
  rw [first] at before
  rw [last] at after
  unfold earliest latest
  simp only [isShown, Bool.and_eq_true, decide_eq_true_eq]
  omega

section

variable {ms : UInt64}

theorem formatMillis_of_shown (shown : earliest ≤ signed ms ∧ signed ms ≤ latest) :
    ∃ moment : Moment, moment.date.Proper ∧ moment.millisOfDay < 86400000 ∧
      moment.millis = signed ms ∧
      formatMillis ms = s!"{dateText moment.date}T{timeText moment.millisOfDay}Z" := by
  have whole : (signed ms).fdiv millisPerDay * millisPerDay + (signed ms).fmod millisPerDay =
      signed ms := Int.fdiv_mul_add_fmod _ _
  have nonneg : 0 ≤ (signed ms).fmod millisPerDay := Int.fmod_nonneg_of_pos _ (by decide)
  have small : (signed ms).fmod millisPerDay < 86400000 := Int.fmod_lt_of_pos _ (by decide)
  refine ⟨⟨dateOfDay ((signed ms).fdiv millisPerDay), ((signed ms).fmod millisPerDay).toNat⟩,
    proper_dateOfDay _, (Int.toNat_lt nonneg).mpr small, ?_, ?_⟩
  · rw [Moment.millis, dayNumber_dateOfDay, Int.toNat_of_nonneg nonneg, whole]
  · simp only [formatMillis, toInt_toInt64, (isShown_dateOfDay_iff _).mpr shown, if_true]

theorem formatMillis_of_not_shown (hidden : ¬(earliest ≤ signed ms ∧ signed ms ≤ latest)) :
    formatMillis ms = toString ms.toNat ++ "ms" := by
  have unseen := (isShown_dateOfDay_iff (signed ms)).not.mpr hidden
  simp only [formatMillis, toInt_toInt64, unseen]
  rfl

theorem ofText?_formatMillis (shown : earliest ≤ signed ms ∧ signed ms ≤ latest) :
    (Moment.ofText? (formatMillis ms)).map Moment.millis = some (signed ms) := by
  obtain ⟨moment, proper, inDay, same, text⟩ := formatMillis_of_shown shown
  rw [text, Moment.ofText?_text proper inDay, Option.map_some, ← same]

theorem formatMillis_ne_number (shown : earliest ≤ signed ms ∧ signed ms ≤ latest) (n : Nat) :
    formatMillis ms ≠ toString n ++ "ms" := by
  obtain ⟨moment, -, -, -, text⟩ := formatMillis_of_shown shown
  have otherEnd (start : String) : start ++ "Z" ≠ toString n ++ "ms" := by
    intro same
    have last := congrArg (fun text : String => text.toList.getLast?) same
    simp at last
  rw [text]
  exact otherEnd _

end

/-- A text denotes a number of milliseconds if it is the moment that many milliseconds after the start
of 1970, or the number itself. -/
def Denotes (text : String) (ms : Nat) : Prop :=
  (Moment.ofText? text).map Moment.millis = some (ms : Int) ∨ text = toString ms ++ "ms"

theorem denotes_formatMillis_iff (ms : UInt64) :
    Denotes (formatMillis ms) ms.toNat ↔ ms.toNat < 2 ^ 63 ∨ signed ms < earliest := by
  by_cases shown : earliest ≤ signed ms ∧ signed ms ≤ latest
  -- A date reads back as the signed number, which is the word's own just below 2^63.
  · rw [Denotes, ofText?_formatMillis shown, Option.some_inj,
      or_iff_left (formatMillis_ne_number shown ms.toNat), or_iff_left shown.1.not_gt, signed]
    split
    · next low => exact iff_of_true rfl low
    · next high =>
        refine iff_of_false ?_ high
        omega
  -- A number is right, and a word past all dates is below 2^63.
  · refine iff_of_true (.inr (formatMillis_of_not_shown shown)) ?_
    unfold signed earliest latest at *
    have bound := ms.toNat_lt
    split at shown <;> omega

end Calendar

/-! Reports. -/

namespace AggregateReport

open Calendar (formatMillis)

theorem ofArchives_eq_ok {archives : List Archive} {window : Option TimeWindow}
    {report : AggregateReport} (made : ofArchives archives window = .ok report) :
    report.archives = archives.length ∧ report.window = window := by
  cases merged : mergedTypes archives with
  | error fault =>
      rw [ofArchives_of_mismatch window merged] at made
      cases made
  | ok types =>
      rw [ofArchives_of_mergedTypes window merged] at made
      cases made
      exact ⟨rfl, rfl⟩

/-- The part of a report before its table. -/
def head (archives : Nat) (window : String) : String :=
  rule ++ "\n                  STATISTICS REPORT\n" ++ rule ++ "\n" ++
    s!"Archives: {archives}\nWindow:   {window}\n\n"

theorem text_of_window {report : AggregateReport} {w : TimeWindow} (window : report.window = some w) :
    ∃ table, report.text =
      head report.archives (formatMillis w.startMs ++ " .. " ++ formatMillis w.endMs) ++ table := by
  refine ⟨rows none report.metrics ++
    if report.metrics.isEmpty then "No statistics found.\n" else "", ?_⟩
  have shown : windowText (some w) = formatMillis w.startMs ++ " .. " ++ formatMillis w.endMs := rfl
  simp only [text, window, shown, head, String.append_assoc]

end AggregateReport

namespace Calendar

open AggregateReport (ofArchives head)

/-- A word is shown as the moment that it is in two's complement, if there is a date for it, and as its
number otherwise. So it denotes its number unless it is so large that it is taken for a moment before
1970 that has a date. Dates count the days from 1970 on, one for each step to the next date, and a report
shows both ends of the window that it was made over as words are shown. -/
theorem moments_shown (ms : UInt64) :
    (if earliest ≤ signed ms ∧ signed ms ≤ latest then
      (Moment.ofText? (formatMillis ms)).map Moment.millis = some (signed ms)
    else formatMillis ms = toString ms.toNat ++ "ms") ∧
    (Denotes (formatMillis ms) ms.toNat ↔ ms.toNat < 2 ^ 63 ∨ signed ms < earliest) ∧
    (Date.dayNumber ⟨1970, 1, 1⟩ = 0 ∧
      ∀ d : Date, d.Proper → d.next.dayNumber = d.dayNumber + 1) ∧
    ∀ (archives : List Archive) (w : TimeWindow) (report : AggregateReport),
      ofArchives archives (some w) = .ok report →
        ∃ table, report.text = head archives.length
            (formatMillis w.startMs ++ " .. " ++ formatMillis w.endMs) ++ table := by
  refine ⟨?_, denotes_formatMillis_iff ms, ⟨by decide, fun _ => Date.dayNumber_next⟩, ?_⟩
  · split
    · next shown => exact ofText?_formatMillis shown
    · next hidden => exact formatMillis_of_not_shown hidden
  · intro archives w report made
    obtain ⟨count, window⟩ := AggregateReport.ofArchives_eq_ok made
    rw [← count]
    exact AggregateReport.text_of_window window

/-- A window that is meant to have no end, over the archive of one process. -/
theorem moments_shown_without_end :
    ofArchives [.empty 1 "node-a"] (some ⟨0, 9223372036854775807⟩) =
        .ok ⟨1, some ⟨0, 9223372036854775807⟩, []⟩ ∧
      ∃ table, (⟨1, some ⟨0, 9223372036854775807⟩, []⟩ : AggregateReport).text =
        head 1 "1970-01-01T00:00:00.000Z .. 9223372036854775807ms" ++ table := by
  have made : ofArchives [.empty 1 "node-a"] (some ⟨0, 9223372036854775807⟩) =
      .ok ⟨1, some ⟨0, 9223372036854775807⟩, []⟩ := rfl
  have start : formatMillis 0 = "1970-01-01T00:00:00.000Z" := by decide
  have finish : formatMillis 9223372036854775807 = "9223372036854775807ms" := by decide
  have printed := (moments_shown 9223372036854775807).2.2.2 _ _ _ made
  simp only [start, finish] at printed
  exact ⟨made, printed⟩

/-- The greatest word is shown as the last millisecond before 1970. -/
theorem not_denotes_formatMillis :
    formatMillis 18446744073709551615 = "1969-12-31T23:59:59.999Z" ∧
      (Moment.ofText? "1969-12-31T23:59:59.999Z").map Moment.millis = some (-1) ∧
      ¬Denotes (formatMillis 18446744073709551615) 18446744073709551615 := by
  refine ⟨by decide, by cbv, ?_⟩
  exact (denotes_formatMillis_iff 18446744073709551615).not.mpr (by decide)

end Calendar

end Coordination
