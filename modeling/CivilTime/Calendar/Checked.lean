import CivilTime.Calendar.DayNumber
import CivilTime.Failure

/-!
# Checked dates

The conversions between dates and day numbers for callers whose numbers may
lie outside the calendar.

* `Date.check` refuses dates that do not exist, with the first fault found.
* `Date.toDayNumber` and `Date.fromDayNumber` convert what exists, and
  `Date.midnight` is the second at which a date begins.
* `yearAt` is the year of a second, for which the range of the calendar is
  checked day by day.

The fields of a date are held in signed 32-bit words, and a number that does
not fit is refused before anything else is looked at.
-/

namespace CivilTime

/-- Whether a number fits a signed 32-bit word. -/
def fitsWord (n : Int) : Bool :=
  -2147483648 ≤ n && n ≤ 2147483647

/-- The ordinal of 9999-12-31. -/
def lastOrdinal : Int := 3652059

namespace Date

/-- Refuse a date that does not exist: first a number beyond a word, then the
year, the month and the day. -/
def check (date : Date) : Except Failure Unit :=
  if !(fitsWord date.year && fitsWord date.month && fitsWord date.day) then .error .beyondWord
  else if date.year < 1 ∨ 9999 < date.year then .error (.year date.year)
  else if date.month < 1 ∨ 12 < date.month then .error .month
  else if date.day < 1 ∨ monthLength date.year date.month < date.day then .error .day
  else .ok ()

/-- The day number of a date that exists. -/
def toDayNumber (date : Date) : Except Failure Int :=
  match date.check with
  | .ok () => .ok date.dayNumber
  | .error .beyondWord => .error .date
  | .error failure => .error failure

/-- The second since 1970-01-01 00:00:00 at which a date that exists
begins. -/
def midnight (date : Date) : Except Failure Int := do
  date.check
  return date.dayNumber * 86400

/-- The date of a day number within the calendar. -/
def fromDayNumber (day : Int) : Except Failure Date :=
  if 1 ≤ day + epochOrdinal ∧ day + epochOrdinal ≤ lastOrdinal then .ok (ofDayNumber day)
  else .error .date

/-- The date a number of days after a date that exists. -/
def addDays (date : Date) (days : Int) : Except Failure Date :=
  if 1 ≤ date.ordinal + days ∧ date.ordinal + days ≤ lastOrdinal then
    .ok (ofOrdinal (date.ordinal + days))
  else .error .beyondWord

end Date

/-- The year of an ordinal within the calendar. -/
def checkedYearOfOrdinal (ordinal : Int) : Except Failure Int :=
  if !fitsWord ordinal then .error .beyondWord
  else if ordinal < 1 then .error .ordinal
  else if lastOrdinal < ordinal then .error (.year (yearOfOrdinal ordinal))
  else .ok (yearOfOrdinal ordinal)

/-- The year of a second since 1970-01-01 00:00:00. -/
def yearAt (second : Int) : Except Failure Int :=
  checkedYearOfOrdinal (second / 86400 + epochOrdinal)

/-- The check passes exactly on the dates that exist. -/
theorem Date.check_eq_ok_iff (date : Date) : date.check = .ok () ↔ date.Valid := by
  unfold Date.check
  constructor
  · intro hpassed
    split at hpassed
    · contradiction
    split at hpassed
    · contradiction
    split at hpassed
    · contradiction
    split at hpassed
    · contradiction
    exact ⟨by omega, by omega, by omega, by omega, by omega, by omega⟩
  · intro hvalid
    obtain ⟨hyearGe, hyearLe, hmonthGe, hmonthLe, hdayGe, hdayLe⟩ := hvalid
    have hshort := monthLength_le date.year date.month
    have hfits : (!(fitsWord date.year && fitsWord date.month && fitsWord date.day)) = false := by
      simp only [fitsWord, Bool.not_eq_false', Bool.and_eq_true, decide_eq_true_eq]
      omega
    rw [if_neg (by simp [hfits]), if_neg (by omega), if_neg (by omega), if_neg (by omega)]

end CivilTime
