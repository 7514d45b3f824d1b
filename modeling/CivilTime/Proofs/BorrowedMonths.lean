import CivilTime.Proofs.ReadingDifference
import Mathlib

/-!
# Borrowed months

Amounts are brought into their ranges by carrying, and negative days are made up from the lengths of
the months before a given one, nearest first.

* `daysBack` adds these lengths up, and `daysBack_eq` says that they are the days between the first
  days of two months.
* `borrowMonths_isLeast` is about the loop: it ends with the least number of months whose days are
  enough, and takes exactly their days.
* `Amounts.belowMonths` is what must not change otherwise.  `Amounts.normalize_borrows` puts that
  together.
-/

namespace CivilTime

/-! ## The months before a month -/

section Back

variable {year month days months : Int}

/-- The days of the last so many months before a month. -/
def daysBack (year month : Int) (count : Nat) : Int :=
  ∑ i ∈ Finset.range count, lengthOf (monthIndex year month - 1 - i)

/-- Months in a row have the days from the first day of the earliest to the one after the last. -/
theorem daysBack_eq (year month : Int) (count : Nat) :
    daysBack year month count =
      firstDay (monthIndex year month) - firstDay (monthIndex year month - count) := by
  unfold daysBack
  induction count with
  | zero => simp
  | succ count ih =>
    have hlength := firstDay_succ (monthIndex year month - 1 - count)
    have hnext : monthIndex year month - 1 - count + 1 = monthIndex year month - count := by omega
    have hlast : monthIndex year month - (count + 1 : Nat) = monthIndex year month - 1 - count := by
      omega
    rw [hnext] at hlength
    rw [Finset.sum_range_succ, ih, hlast]
    omega

theorem daysBack_mono (year month : Int) {count more : Nat} (h : count ≤ more) :
    daysBack year month count ≤ daysBack year month more := by
  have hmonths := firstDay_mono
    (show monthIndex year month - more ≤ monthIndex year month - count by omega)
  rw [daysBack_eq, daysBack_eq]
  omega

/-- Borrowing ends with the least number of months whose days are enough. -/
theorem borrowMonths_isLeast (days months : Int) (hfirst : 1 ≤ month) (hlast : month ≤ 12) :
    ∃ k : Nat, IsLeast {k : Nat | 0 ≤ days + daysBack year month k} k ∧
      borrowMonths year month days months = (days + daysBack year month k, months - k) := by
  obtain ⟨k, hk, hmonths, hdays, hleast⟩ :=
    borrowMonths_spec year month days months hfirst hlast
  obtain ⟨k, rfl⟩ := Int.eq_ofNat_of_zero_le hk
  have henough := borrowMonths_nonneg year month days months
  have htaken : (borrowMonths year month days months).1 = days + daysBack year month k := by
    rw [hdays, daysBack_eq]
    omega
  rw [htaken] at henough
  refine ⟨k, ⟨henough, fun j hj => ?_⟩, Prod.ext htaken hmonths⟩
  -- One month less was not enough, and so no smaller number is.
  refine Nat.not_lt.1 fun hlt => ?_
  have hshort := hleast (by omega)
  have hback := daysBack_mono year month (show j ≤ k - 1 by omega)
  have hprevious : monthIndex year month - (k - 1 : Nat) = monthIndex year month - k + 1 := by omega
  rw [daysBack_eq _ _ (k - 1), hprevious] at hback
  have henough' : 0 ≤ days + daysBack year month j := hj
  omega

end Back

/-! ## Amounts -/

namespace Amounts

/-- The microseconds that the units below the month stand for. -/
def belowMonths (a : Amounts) : Int :=
  a.days * 86400000000 + a.timeMicros

/-- Amounts stand for the days and the time of day that are left after carrying. -/
theorem belowMonths_eq (a : Amounts) (year month : Int) :
    a.belowMonths = a.carriedDays * 86400000000 + (a.normalize year month).timeMicros := by
  have htime := a.timeMicros_normalize year month
  unfold belowMonths
  omega

/-- Days make up for what is missing just if they make up for the days that are missing. -/
theorem belowMonths_nonneg_iff (a : Amounts) (days : Int) :
    0 ≤ a.belowMonths + days * 86400000000 ↔ 0 ≤ a.carriedDays + days := by
  have htotal := a.belowMonths_eq 0 1
  have htime := a.timeMicros_normalize_bounds 0 1
  omega

/-- Carrying brings amounts into their ranges and keeps what they stand for.  Months and years keep
their number, except for months that are borrowed for negative days.  These are the months next
before a given one, no more of them than it takes, and their days are added. -/
theorem normalize_borrows (a : Amounts) (year : Int) {month : Int} (hfirst : 1 ≤ month)
    (hlast : month ≤ 12) :
    (a.normalize year month).Carried ∧ ∃ k : Nat,
      IsLeast {k : Nat | 0 ≤ a.belowMonths + daysBack year month k * 86400000000} k ∧
      12 * (a.normalize year month).years + (a.normalize year month).months =
        12 * a.years + a.months - k ∧
      (a.normalize year month).belowMonths =
        a.belowMonths + daysBack year month k * 86400000000 ∧
      (0 ≤ a.belowMonths → k = 0) := by
  obtain ⟨k, hleast, htaken⟩ := borrowMonths_isLeast a.carriedDays (a.months % 12) hfirst hlast
  have htotal := a.belowMonths_eq year month
  refine ⟨a.normalize_carried year month, k, ?least, ?months, ?total, fun hnonneg => ?none⟩
  case least =>
    simpa only [belowMonths_nonneg_iff] using hleast
  case months =>
    rw [normalize_eq, htaken]
    dsimp only
    omega
  case total =>
    have hdays : (a.normalize year month).days = a.carriedDays + daysBack year month k := by
      rw [normalize_eq, htaken]
    rw [htotal, belowMonths, hdays]
    omega
  case none =>
    have hzero : 0 ≤ a.carriedDays + daysBack year month 0 := by
      rw [← belowMonths_nonneg_iff]
      simpa [daysBack] using hnonneg
    exact Nat.le_zero.1 (hleast.2 hzero)

/-- A month less thirty days and a microsecond, before March: February is too short for it, so
January is borrowed as well. -/
theorem normalize_borrows_beforeMarch :
    (1 ≤ (3 : Int) ∧ (3 : Int) ≤ 12) ∧
      normalize { months := 1, days := -30, microseconds := -1 } 2023 3 =
        { years := -1, months := 11, days := 28, hours := 23, minutes := 59, seconds := 59,
          microseconds := 999999 } ∧
      IsLeast {k : Nat | 0 ≤ belowMonths { months := 1, days := -30, microseconds := -1 } +
        daysBack 2023 3 k * 86400000000} 2 := by
  have hnormal : normalize { months := 1, days := -30, microseconds := -1 } 2023 3 =
      { years := -1, months := 11, days := 28, hours := 23, minutes := 59, seconds := 59,
        microseconds := 999999 } := by cbv
  obtain ⟨-, k, hleast, hmonths, -⟩ :=
    normalize_borrows { months := 1, days := -30, microseconds := -1 } 2023
      (show (1 : Int) ≤ 3 by decide) (by decide)
  rw [hnormal] at hmonths
  obtain rfl : k = 2 := by
    dsimp only at hmonths
    omega
  exact ⟨⟨by decide, by decide⟩, hnormal, hleast⟩

end Amounts

end CivilTime
