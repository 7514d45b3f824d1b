import CivilTime.Calendar.BusinessDay
import CivilTime.Calendar.Weekday
import Mathlib

/-!
# Counted days

Moves of the date count days of a kind, the days on a weekday or the business days.  Over a range
of any length such days are counted by a running number, which grows by one with every day of the
kind and by nothing with the others.

* `IsRunningCount` is the running number, and `IsRunningCount.card_Ioc` and
  `IsRunningCount.card_Ico` read the days of a range off it.
* `weekdayCount` numbers the days on a weekday.  `moveToWeekday_counts` says where moves to a
  weekday lead.
* `businessCount` numbers the business days, and `businessDaysMet` is the number in the direction
  of a walk.  One step adds a business day or nothing (`businessDaysMet_step`), so a walk adds those
  that it was to meet (`businessDaysMet_walk`), and a jump over weeks adds five for each.
* `addBusinessDays_eq_walk` says that jumping is a short cut for walking all the way, and
  `addBusinessDays_counts` says where it leads.
-/

namespace CivilTime

/-! ## Running numbers -/

section RunningCount

variable {p : Int → Prop} [DecidablePred p] {number : Int → Int} {first last : Int}

/-- A running number of the days of a kind. -/
def IsRunningCount (p : Int → Prop) [DecidablePred p] (number : Int → Int) : Prop :=
  ∀ day, number day = number (day - 1) + if p day then 1 else 0

/-- The days after the first up to the last are those by which the number grows. -/
theorem IsRunningCount.card_Ioc (h : IsRunningCount p number) (hle : first ≤ last) :
    (((Finset.Ioc first last).filter p).card : Int) = number last - number first := by
  induction last, hle using Int.leInduction with
  | base => simp
  | succ last hle ih =>
    have hnew : last + 1 ∉ (Finset.Ioc first last).filter p := by simp
    have hnext := h (last + 1)
    rw [Int.add_sub_cancel] at hnext
    rw [← Finset.insert_Ioc_right_eq_Ioc_add_one hle, Finset.filter_insert, hnext]
    split
    · rw [Finset.card_insert_of_notMem hnew]
      omega
    · omega

/-- The days from the first on before the last are those by which the number of the days before
grows. -/
theorem IsRunningCount.card_Ico (h : IsRunningCount p number) (hle : first ≤ last) :
    (((Finset.Ico first last).filter p).card : Int) = number (last - 1) - number (first - 1) := by
  rw [← Finset.Ioc_sub_one_sub_one_eq_Ico]
  exact h.card_Ioc (Int.sub_le_sub_right hle 1)

end RunningCount

/-! ## Weekdays -/

/-- The number of the last day on a weekday up to a day. -/
def weekdayCount (weekday : Weekday) (day : Int) : Int :=
  (day + 4 - weekday.number) / 7

theorem isRunningCount_weekdayCount (weekday : Weekday) :
    IsRunningCount (fun day => weekdayNumber day = weekday.number) (weekdayCount weekday) := by
  intro day
  have hbounds := weekday.number_bounds
  unfold weekdayCount weekdayNumber
  split
  · omega
  · omega

/-- A move ahead passes as many days on the weekday as it counts. -/
theorem weekdayCount_moveToWeekday (day : Int) (weekday : Weekday) {count : Int}
    (hcount : 0 < count) :
    day < moveToWeekday day weekday count ∧
      weekdayCount weekday (moveToWeekday day weekday count) =
        weekdayCount weekday day + count := by
  have hbounds := weekday.number_bounds
  rw [moveToWeekday, if_neg (by omega), if_pos hcount]
  unfold weekdayCount weekdayNumber
  split
  · omega
  · omega

/-- A move back passes as many days on the weekday as it counts. -/
theorem weekdayCount_moveToWeekday_of_neg (day : Int) (weekday : Weekday) {count : Int}
    (hcount : count < 0) :
    moveToWeekday day weekday count < day ∧
      weekdayCount weekday (moveToWeekday day weekday count - 1) =
        weekdayCount weekday (day - 1) + count := by
  have hbounds := weekday.number_bounds
  rw [moveToWeekday, if_neg (by omega), if_neg (by omega)]
  unfold weekdayCount weekdayNumber
  split
  · omega
  · omega

/-- A move that counts nothing leads to the first day on the weekday that is not before the
start. -/
theorem isLeast_moveToWeekday (day : Int) (weekday : Weekday) :
    IsLeast {x | day ≤ x ∧ weekdayNumber x = weekday.number} (moveToWeekday day weekday 0) := by
  have hlands := weekdayNumber_moveToWeekday day weekday 0
  have hahead : moveToWeekday day weekday 0 =
      day + (weekday.number - weekdayNumber day) % 7 := rfl
  constructor
  · exact ⟨by omega, hlands⟩
  · rintro x ⟨hle, hx⟩
    rw [hahead]
    unfold weekdayNumber at *
    omega

/-- From a day on the weekday, a move goes whole weeks. -/
theorem moveToWeekday_of_on {day : Int} {weekday : Weekday}
    (hday : weekdayNumber day = weekday.number) (count : Int) :
    moveToWeekday day weekday count = day + 7 * count := by
  simp only [moveToWeekday, hday, Int.sub_self, Int.zero_emod, if_true]
  split
  · omega
  · split
    · omega
    · omega

/-- A move to a weekday lands on it.  Counting ahead, it is the last of that many days on the
weekday after the start, and counting back the first of that many before it.  Counting nothing, it
is the first day on the weekday from the start on.  From a day on the weekday, the opposite move
leads back. -/
theorem moveToWeekday_counts (day count : Int) (weekday : Weekday) :
    weekdayNumber (moveToWeekday day weekday count) = weekday.number ∧
      (0 < count → day < moveToWeekday day weekday count ∧
        (((Finset.Ioc day (moveToWeekday day weekday count)).filter
          fun x => weekdayNumber x = weekday.number).card : Int) = count) ∧
      (count < 0 → moveToWeekday day weekday count < day ∧
        (((Finset.Ico (moveToWeekday day weekday count) day).filter
          fun x => weekdayNumber x = weekday.number).card : Int) = -count) ∧
      (count = 0 → IsLeast {x | day ≤ x ∧ weekdayNumber x = weekday.number}
        (moveToWeekday day weekday count)) ∧
      (weekdayNumber day = weekday.number →
        moveToWeekday (moveToWeekday day weekday count) weekday (-count) = day) := by
  have hlands := weekdayNumber_moveToWeekday day weekday count
  have hnumber := isRunningCount_weekdayCount weekday
  refine ⟨hlands, ?ahead, ?back, ?zero, ?undone⟩
  case ahead =>
    intro hcount
    obtain ⟨hafter, hpassed⟩ := weekdayCount_moveToWeekday day weekday hcount
    refine ⟨hafter, ?_⟩
    rw [hnumber.card_Ioc (Int.le_of_lt hafter)]
    omega
  case back =>
    intro hcount
    obtain ⟨hbefore, hpassed⟩ := weekdayCount_moveToWeekday_of_neg day weekday hcount
    refine ⟨hbefore, ?_⟩
    rw [hnumber.card_Ico (Int.le_of_lt hbefore)]
    omega
  case zero =>
    rintro rfl
    exact isLeast_moveToWeekday day weekday
  case undone =>
    intro hday
    rw [moveToWeekday_of_on hlands, moveToWeekday_of_on hday]
    omega

/-! ## Business days -/

/-- The number of the last business day up to a day. -/
def businessCount (day : Int) : Int :=
  5 * ((day + 3) / 7) + min ((day + 3) % 7 + 1) 5

theorem isRunningCount_businessCount :
    IsRunningCount (fun day => isBusinessDay day = true) businessCount := by
  intro day
  simp only [businessCount, isBusinessDay, decide_eq_true_eq]
  split
  · omega
  · omega

/-- The number of business days met on the way through a day, in one of the two directions. -/
def businessDaysMet (forward : Bool) (day : Int) : Int :=
  if forward then businessCount day else -businessCount (day - 1)

/-- A step meets the day that it leads to. -/
theorem businessDaysMet_step (forward : Bool) (day : Int) :
    businessDaysMet forward (day + dayStep forward) =
      businessDaysMet forward day + if isBusinessDay (day + dayStep forward) then 1 else 0 := by
  cases forward with
  | true =>
    have hnext := isRunningCount_businessCount (day + 1)
    rw [Int.add_sub_cancel] at hnext
    exact hnext
  | false =>
    have hnext : businessCount (day - 1) =
        businessCount (day - 1 - 1) + if isBusinessDay (day - 1) then 1 else 0 :=
      isRunningCount_businessCount (day - 1)
    show -businessCount (day - 1 - 1) =
      -businessCount (day - 1) + if isBusinessDay (day - 1) then 1 else 0
    rw [hnext]
    omega

/-- A walk meets as many business days as it was to. -/
theorem businessDaysMet_walk (forward : Bool) (day : Int) (remaining : Nat) :
    businessDaysMet forward (walkBusinessDays forward day remaining) =
      businessDaysMet forward day + remaining := by
  fun_induction walkBusinessDays forward day remaining with
  | case1 day => simp
  | case2 day left hbusiness ih =>
    rw [ih, businessDaysMet_step, if_pos hbusiness]
    omega
  | case3 day left hweekend ih =>
    rw [ih, businessDaysMet_step, if_neg hweekend]
    omega

/-- A walk ends on a business day, if it was to meet one or stood on one. -/
theorem isBusinessDay_walk {forward : Bool} {day : Int} {remaining : Nat}
    (h : isBusinessDay day = true ∨ 0 < remaining) :
    isBusinessDay (walkBusinessDays forward day remaining) = true := by
  fun_induction walkBusinessDays forward day remaining with
  | case1 day => exact h.resolve_right (Nat.lt_irrefl 0)
  | case2 day left hbusiness ih => exact ih (Or.inl hbusiness)
  | case3 day left hweekend ih => exact ih (Or.inr (Nat.succ_pos left))

/-- Counting starts on a business day, and the days of the weekend in between are none. -/
theorem countingStart_spec (forward : Bool) (day : Int) :
    isBusinessDay (countingStart forward day) = true ∧
      businessDaysMet forward (countingStart forward day) = businessDaysMet forward day := by
  unfold countingStart
  dsimp only
  split
  · next hbusiness => exact ⟨decide_eq_true hbusiness, rfl⟩
  · cases forward with
    | true =>
      simp only [businessDaysMet, businessCount, isBusinessDay, decide_eq_true_eq, if_true]
      omega
    | false =>
      simp only [businessDaysMet, businessCount, isBusinessDay, decide_eq_true_eq,
        Bool.false_eq_true, if_false]
      omega

/-- A jump over weeks keeps the weekday and meets five business days in each. -/
theorem weeks_spec (forward : Bool) (day weeks : Int) :
    isBusinessDay (day + 7 * weeks * dayStep forward) = isBusinessDay day ∧
      businessDaysMet forward (day + 7 * weeks * dayStep forward) =
        businessDaysMet forward day + 5 * weeks := by
  simp only [isBusinessDay, decide_eq_decide]
  cases forward with
  | true =>
    simp only [businessDaysMet, businessCount, dayStep, if_true]
    omega
  | false =>
    simp only [businessDaysMet, businessCount, dayStep, Bool.false_eq_true, if_false]
    omega

/-- A movement meets as many business days as it counts, and ends on the last of them. -/
theorem addBusinessDays_spec (day : Int) {count : Int} (hcount : count ≠ 0) :
    isBusinessDay (addBusinessDays day count) = true ∧
      businessDaysMet (0 < count) (addBusinessDays day count) =
        businessDaysMet (0 < count) day + count.natAbs := by
  rw [addBusinessDays, if_neg hcount]
  obtain ⟨hstart, hmet⟩ := countingStart_spec (0 < count) day
  obtain ⟨hweekday, hweeks⟩ :=
    weeks_spec (0 < count) (countingStart (0 < count) day) (count.natAbs / 5)
  refine ⟨isBusinessDay_walk (Or.inl (hweekday.trans hstart)), ?_⟩
  rw [businessDaysMet_walk, hweeks, hmet]
  omega

/-- Business days are told apart by their number. -/
theorem eq_of_businessDaysMet (forward : Bool) {day day' : Int} (h : isBusinessDay day = true)
    (h' : isBusinessDay day' = true)
    (hmet : businessDaysMet forward day = businessDaysMet forward day') : day = day' := by
  simp only [isBusinessDay, decide_eq_true_eq] at h h'
  simp only [businessDaysMet, businessCount] at hmet
  split at hmet
  · omega
  · omega

/-- Jumping over weeks is a short cut: the movement leads where walking all the way does. -/
theorem addBusinessDays_eq_walk (day : Int) {count : Int} (hcount : count ≠ 0) :
    addBusinessDays day count = walkBusinessDays (0 < count) day count.natAbs := by
  obtain ⟨hbusiness, hmet⟩ := addBusinessDays_spec day hcount
  have hwalk : isBusinessDay (walkBusinessDays (0 < count) day count.natAbs) = true :=
    isBusinessDay_walk (Or.inr (Int.natAbs_pos.2 hcount))
  refine eq_of_businessDaysMet (0 < count) hbusiness hwalk ?_
  rw [hmet, businessDaysMet_walk]

/-- A larger number belongs to a later day. -/
theorem lt_of_businessCount_lt {day later : Int} (h : businessCount day < businessCount later) :
    day < later := by
  unfold businessCount at h
  omega

/-- A movement by business days ends on a business day.  Counting ahead, that many business days lie
after the start up to the end, and counting back from the end on before the start; counting nothing
does not move.  The start may lie on a weekend. -/
theorem addBusinessDays_counts (day count : Int) :
    (0 < count → isBusinessDay (addBusinessDays day count) = true ∧
        day < addBusinessDays day count ∧
        (((Finset.Ioc day (addBusinessDays day count)).filter
          fun x => isBusinessDay x = true).card : Int) = count) ∧
      (count < 0 → isBusinessDay (addBusinessDays day count) = true ∧
        addBusinessDays day count < day ∧
        (((Finset.Ico (addBusinessDays day count) day).filter
          fun x => isBusinessDay x = true).card : Int) = -count) ∧
      (count = 0 → addBusinessDays day count = day) := by
  refine ⟨?ahead, ?back, ?zero⟩
  case ahead =>
    intro hcount
    obtain ⟨hbusiness, hmet⟩ := addBusinessDays_spec day (show count ≠ 0 by omega)
    simp only [businessDaysMet, hcount, decide_true, if_true] at hmet
    have hafter : day < addBusinessDays day count := lt_of_businessCount_lt (by omega)
    refine ⟨hbusiness, hafter, ?_⟩
    rw [isRunningCount_businessCount.card_Ioc (Int.le_of_lt hafter)]
    omega
  case back =>
    intro hcount
    obtain ⟨hbusiness, hmet⟩ := addBusinessDays_spec day (show count ≠ 0 by omega)
    simp only [businessDaysMet, show ¬0 < count by omega, decide_false, Bool.false_eq_true,
      if_false] at hmet
    have hbefore : addBusinessDays day count - 1 < day - 1 := lt_of_businessCount_lt (by omega)
    refine ⟨hbusiness, by omega, ?_⟩
    rw [isRunningCount_businessCount.card_Ico (by omega)]
    omega
  case zero =>
    intro hcount
    exact if_pos hcount

-- From a Saturday, the seventh business day is a Tuesday.
example : addBusinessDays 19434 7 = 19444 := by cbv

end CivilTime
