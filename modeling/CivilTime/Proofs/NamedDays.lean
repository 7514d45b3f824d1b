import CivilTime.Proofs.CountedDays
import CivilTime.Proofs.DatesInOrder
import CivilTime.Proofs.RuleDays
import CivilTime.Proofs.RuleReading

/-!
# The day that a rule names

The day of a rule is worked out with remainders by seven and lengths of months.  What the rule means
can be said of a date without them, by counting the dates of a kind that come before it.

* `RuleDay.Names` is this meaning, and `Date.earlierInYear` are the dates that are counted.
* `Date.encard_before` counts dates by their day numbers, from some start on.
  `Date.eq_of_encard_earlierInYear` says that a date is known by its count.
* `RuleDay.names_of_dayIn` is about the day that is worked out, one kind of rule after the other,
  and `RuleDay.eq_of_names` says that a rule names one date of a year.
* `RuleDay.names_of_parse` is the result for the rules that have a text.
-/

namespace CivilTime

namespace Date

variable {date other : Date}

/-! ## Counting the dates of a year -/

/-- The dates of a kind that come before a date in its year. -/
def earlierInYear (kind : Date → Prop) (date : Date) : Set Date :=
  {d | d.Valid ∧ (d.year = date.year ∧ kind d) ∧ d.Before date}

/-- A date lies in a month and falls on a weekday.  Weekdays count from Sunday, which is 0. -/
def OnWeekday (month weekday : Int) (date : Date) : Prop :=
  date.month = month ∧ sundayNumber date.dayNumber = weekday

/-- A date is a 29th of February. -/
def IsLeapDay (date : Date) : Prop :=
  date.month = 2 ∧ date.day = 29

instance (month weekday : Int) : DecidablePred (OnWeekday month weekday) :=
  fun _ => inferInstanceAs (Decidable (_ ∧ _))

instance : DecidablePred IsLeapDay :=
  fun _ => inferInstanceAs (Decidable (_ ∧ _))

/-- The first of January of a year. -/
def newYear (year : Int) : Date :=
  ⟨year, 1, 1⟩

theorem valid_newYear (h : date.Valid) : (newYear date.year).Valid :=
  (valid_month_ends ⟨h.year_ge, h.year_le⟩ (by decide)).1

/-- What comes before a date lies in its year from the first of January on. -/
theorem newYear_le_iff (h : date.Valid) {d : Date} (hd : d.Valid) (hbefore : d.Before date) :
    d.year = date.year ↔ (newYear date.year).dayNumber ≤ d.dayNumber := by
  have hmonth := hd.month_ge
  have hday := hd.day_ge
  rw [← Int.not_lt, ← before_iff hd (valid_newYear h)]
  unfold Before newYear at *
  dsimp only
  omega

section Count

variable {start : Date} {p : Date → Prop} (kind : Date → Prop) [DecidablePred kind]

/-- Dates before a date are counted by their day numbers, if a start and a kind tell which of them
are meant. -/
theorem encard_before (hstart : start.Valid) (h : date.Valid)
    (hp : ∀ d : Date, d.Valid → d.Before date → (p d ↔ start.dayNumber ≤ d.dayNumber ∧ kind d)) :
    {d : Date | d.Valid ∧ p d ∧ d.Before date}.encard =
      ((Finset.Ico start.dayNumber date.dayNumber).filter
        fun day => kind (ofDayNumber day)).card := by
  have himage : {d : Date | d.Valid ∧ p d ∧ d.Before date} = ofDayNumber ''
      ((Finset.Ico start.dayNumber date.dayNumber).filter
        fun day => kind (ofDayNumber day) : Finset Int) := by
    ext d
    simp only [Set.mem_ofPred_eq, Set.mem_image, SetLike.mem_coe, Finset.mem_filter,
      Finset.mem_Ico]
    constructor
    · rintro ⟨hd, hpd, hbefore⟩
      obtain ⟨hfirst, hkind⟩ := (hp d hd hbefore).1 hpd
      have hdate := ofDayNumber_dayNumber hd
      exact ⟨d.dayNumber, ⟨⟨hfirst, (before_iff hd h).1 hbefore⟩, hdate.symm ▸ hkind⟩, hdate⟩
    · rintro ⟨day, ⟨⟨hfirst, hlast⟩, hkind⟩, rfl⟩
      have hd := valid_ofDayNumber_of_between hstart h hfirst (Int.le_of_lt hlast)
      have hnumber := dayNumber_ofDayNumber day
      have hbefore := (before_iff hd h).2 (hnumber.symm ▸ hlast)
      exact ⟨hd, (hp _ hd hbefore).2 ⟨hnumber.symm ▸ hfirst, hkind⟩, hbefore⟩
  have hinj : Set.InjOn ofDayNumber
      ((Finset.Ico start.dayNumber date.dayNumber).filter
        fun day => kind (ofDayNumber day) : Finset Int) := by
    intro day _ day' _ hsame
    rw [← dayNumber_ofDayNumber day, hsame, dayNumber_ofDayNumber]
  rw [himage, hinj.encard_image, Set.encard_coe_eq_coe_finsetCard]

/-- The earlier dates of a year are counted from the first of January on. -/
theorem encard_earlierInYear (h : date.Valid) :
    (date.earlierInYear kind).encard =
      ((Finset.Ico (newYear date.year).dayNumber date.dayNumber).filter
        fun day => kind (ofDayNumber day)).card :=
  encard_before kind (valid_newYear h) h fun _ hd hbefore =>
    and_congr_left fun _ => newYear_le_iff h hd hbefore

variable {kind}

/-- Fewer dates of a kind come before an earlier date of the kind. -/
theorem encard_earlierInYear_lt (h : date.Valid) (h' : other.Valid) (hyear : date.year = other.year)
    (hkind : kind date) (hlt : date.dayNumber < other.dayNumber) :
    (date.earlierInYear kind).encard < (other.earlierInYear kind).encard := by
  rw [encard_earlierInYear kind h, encard_earlierInYear kind h', hyear, Nat.cast_lt]
  refine Finset.card_lt_card ((Finset.ssubset_iff_of_subset ?_).2 ⟨date.dayNumber, ?_, ?_⟩)
  · intro day
    simp only [Finset.mem_filter, Finset.mem_Ico]
    rintro ⟨⟨hfirst, hlast⟩, hday⟩
    exact ⟨⟨hfirst, by omega⟩, hday⟩
  · have hbefore := (before_iff h h').2 hlt
    rw [Finset.mem_filter, Finset.mem_Ico, ofDayNumber_dayNumber h]
    exact ⟨⟨(newYear_le_iff h' h hbefore).1 hyear, hlt⟩, hkind⟩
  · simp

/-- Among the dates of a kind in a year, a date is known by how many come before it. -/
theorem eq_of_encard_earlierInYear (h : date.Valid) (h' : other.Valid)
    (hyear : date.year = other.year) (hkind : kind date) (hkind' : kind other)
    (hcount : (date.earlierInYear kind).encard = (other.earlierInYear kind).encard) :
    date = other := by
  rcases Int.lt_trichotomy date.dayNumber other.dayNumber with hlt | heq | hgt
  · exact absurd hcount (encard_earlierInYear_lt h h' hyear hkind hlt).ne
  · exact eq_of_dayNumber h h' heq
  · exact absurd hcount.symm (encard_earlierInYear_lt h' h hyear.symm hkind' hgt).ne

end Count

end Date

/-! ## What a rule means -/

/-- The number of the last day on a weekday up to a day, with weekdays from Sunday on. -/
def sundayCount (weekday day : Int) : Int :=
  (day + 4 - weekday) / 7

theorem isRunningCount_sundayCount {weekday : Int} (h : 0 ≤ weekday ∧ weekday ≤ 6) :
    IsRunningCount (fun day => sundayNumber day = weekday) (sundayCount weekday) := by
  intro day
  unfold sundayNumber sundayCount
  split
  · omega
  · omega

namespace RuleDay

open Date (earlierInYear OnWeekday IsLeapDay newYear)
open ZoneRule (DayInRange)

variable {rule : RuleDay} {date other : Date}

/-- What a rule says of a date.  The last weekday of a month has none after it in the month, and the
n-th weekday has as many before it as are left of `n`.  Days of the year are counted by the days
before them, among all days or without February 29th.  A common year has no 366th day; its last day
takes the place. -/
def Names : RuleDay → Date → Prop
  | lastWeekday month weekday, date =>
    date.OnWeekday month weekday ∧ ∀ later : Date, later.Valid → later.year = date.year →
      later.OnWeekday month weekday → ¬date.Before later
  | nthWeekday month nth weekday, date =>
    date.OnWeekday month weekday ∧
      (date.earlierInYear (OnWeekday month weekday)).encard = (nth - 1).toNat
  | yearDay nth, date =>
    if nth = 366 ∧ isLeapYear date.year = false then date.month = 12 ∧ date.day = 31
    else (date.earlierInYear fun _ => True).encard = (nth - 1).toNat
  | julianDay nth, date =>
    ¬date.IsLeapDay ∧ (date.earlierInYear fun d => ¬d.IsLeapDay).encard = (nth - 1).toNat

/-! ### Weekdays of a month -/

section Weekday

variable {month weekday nth : Int}

/-- Earlier dates on a weekday of the month are counted from the first of the month on. -/
theorem encard_onWeekday (hdate : date.Valid) (hmonth : date.month = month) :
    (date.earlierInYear (OnWeekday month weekday)).encard =
      ((Finset.Ico (Date.mk date.year month 1).dayNumber date.dayNumber).filter
        fun day => sundayNumber day = weekday).card := by
  have hyears := And.intro hdate.year_ge hdate.year_le
  have hmonths : 1 ≤ month ∧ month ≤ 12 := hmonth ▸ ⟨hdate.month_ge, hdate.month_le⟩
  have hspan := (Date.inMonth_iff hdate hyears hmonths).1 ⟨rfl, hmonth⟩
  have hcount : (date.earlierInYear (OnWeekday month weekday)).encard =
      ((Finset.Ico (Date.mk date.year month 1).dayNumber date.dayNumber).filter
        fun day => sundayNumber (Date.ofDayNumber day).dayNumber = weekday).card := by
    refine Date.encard_before (fun d => sundayNumber d.dayNumber = weekday)
      (Date.valid_month_ends hyears hmonths).1 hdate fun d hd hbefore => ?_
    have hlt := (Date.before_iff hd hdate).1 hbefore
    rw [OnWeekday, ← and_assoc, Date.inMonth_iff hd hyears hmonths]
    refine and_congr_left fun _ => and_iff_left ?_
    omega
  simpa only [Date.dayNumber_ofDayNumber] using hcount

theorem names_lastWeekday (hmonth : 1 ≤ month ∧ month ≤ 12) (hweekday : 0 ≤ weekday ∧ weekday ≤ 6)
    (hdate : date.Valid) (hday : date.dayNumber = (lastWeekday month weekday).dayIn date.year) :
    (lastWeekday month weekday).Names date := by
  have hyears := And.intro hdate.year_ge hdate.year_le
  have hlength := le_monthLength date.year month
  have hends := Date.dayNumber_monthEnd date.year month
  simp only [dayIn, sundayNumber] at hday
  have hin := (Date.inMonth_iff hdate hyears hmonth).2 ⟨by omega, by omega⟩
  refine ⟨⟨hin.2, by unfold sundayNumber; omega⟩, ?_⟩
  -- A later date on the weekday would lie a week or more after, and so past the month.
  rintro later hlater hyear ⟨hsame, hon⟩ hbefore
  have hspan := (Date.inMonth_iff hlater hyears hmonth).1 ⟨hyear, hsame⟩
  have hlt := (Date.before_iff hdate hlater).1 hbefore
  unfold sundayNumber at hon
  omega

theorem names_nthWeekday (hmonth : 1 ≤ month ∧ month ≤ 12) (hnth : 1 ≤ nth ∧ nth ≤ 4)
    (hweekday : 0 ≤ weekday ∧ weekday ≤ 6) (hdate : date.Valid)
    (hday : date.dayNumber = (nthWeekday month nth weekday).dayIn date.year) :
    (nthWeekday month nth weekday).Names date := by
  have hyears := And.intro hdate.year_ge hdate.year_le
  have hlength := le_monthLength date.year month
  have hends := Date.dayNumber_monthEnd date.year month
  simp only [dayIn, sundayNumber] at hday
  have hin := (Date.inMonth_iff hdate hyears hmonth).2 ⟨by omega, by omega⟩
  refine ⟨⟨hin.2, by unfold sundayNumber; omega⟩, ?_⟩
  have hcard := (isRunningCount_sundayCount hweekday).card_Ico
    (show (Date.mk date.year month 1).dayNumber ≤ date.dayNumber by omega)
  unfold sundayCount at hcard
  rw [encard_onWeekday hdate hin.2]
  exact congrArg Nat.cast (by omega)

end Weekday

/-! ### Days of the year -/

section YearDay

variable {nth : Int}

theorem names_yearDay (hnth : 1 ≤ nth ∧ nth ≤ 366) (hdate : date.Valid)
    (hday : date.dayNumber = (yearDay nth).dayIn date.year) : (yearDay nth).Names date := by
  have hyears := And.intro hdate.year_ge hdate.year_le
  have hnewYear : (newYear date.year).dayNumber = (Date.mk date.year 1 1).dayNumber := rfl
  rw [dayIn] at hday
  by_cases hbeyond : nth = 366 ∧ isLeapYear date.year = false
  · -- The last of December stands in for the day that is not there.
    obtain ⟨rfl, hcommon⟩ := hbeyond
    have hleap : leapDay date.year = 0 := by simp [leapDay, hcommon]
    have hdecember := daysBeforeMonth_december date.year
    have hlast : date.dayNumber = (Date.mk date.year 12 31).dayNumber := by
      rw [hday]
      simp only [Date.dayNumber, Date.ordinal, hleap, daysBeforeMonth]
      omega
    have hsame := Date.eq_of_dayNumber hdate (Date.valid_month_ends hyears (by decide)).2 hlast
    rw [Names, if_pos ⟨rfl, hcommon⟩, hsame]
    exact ⟨rfl, rfl⟩
  · have hinside : nth ≤ 365 + leapDay date.year := by
      unfold leapDay
      split
      · omega
      · next hcommon =>
        have hne : nth ≠ 366 := fun hlast => hbeyond ⟨hlast, by simpa using hcommon⟩
        omega
    rw [Names, if_neg hbeyond, Date.encard_earlierInYear _ hdate, Finset.filter_true, Int.card_Ico,
      hnewYear]
    exact congrArg Nat.cast (by omega)

/-- February 29th is the sixtieth day of a leap year. -/
theorem isLeapDay_iff (hdate : date.Valid) :
    date.IsLeapDay ↔
      isLeapYear date.year = true ∧ date.dayNumber = (newYear date.year).dayNumber + 59 := by
  have hlength : monthLength date.year 2 = 28 + leapDay date.year := rfl
  have hfebruary : (Date.mk date.year 2 29).dayNumber = (newYear date.year).dayNumber + 59 := by
    simp only [newYear, Date.dayNumber, Date.ordinal, daysBeforeMonth]
    omega
  rw [← hfebruary]
  constructor
  · rintro ⟨hmonth, hday⟩
    have hexists := hdate.day_le
    rw [hmonth, hday, hlength, leapDay] at hexists
    refine ⟨?_, by rw [← hmonth, ← hday]⟩
    split at hexists
    · next hleap => exact hleap
    · omega
  · rintro ⟨hleap, hday⟩
    rw [leapDay, if_pos hleap] at hlength
    have hlast := (Date.valid_month_ends ⟨hdate.year_ge, hdate.year_le⟩
      (show 1 ≤ (2 : Int) ∧ (2 : Int) ≤ 12 by decide)).2
    rw [hlength] at hlast
    rw [Date.eq_of_dayNumber hdate hlast hday]
    exact ⟨rfl, rfl⟩

/-- Without February 29th, one day less comes before the days after it. -/
theorem encard_notLeapDay (hdate : date.Valid) :
    (date.earlierInYear fun d => ¬d.IsLeapDay).encard =
      (date.dayNumber - (newYear date.year).dayNumber -
        if isLeapYear date.year = true ∧ (newYear date.year).dayNumber + 59 < date.dayNumber then 1
        else 0).toNat := by
  have hcount : (date.earlierInYear fun d => ¬d.IsLeapDay).encard =
      ((Finset.Ico (newYear date.year).dayNumber date.dayNumber).filter fun day =>
        ¬(isLeapYear date.year = true ∧ (Date.ofDayNumber day).dayNumber =
          (newYear date.year).dayNumber + 59)).card := by
    refine Date.encard_before (fun d => ¬(isLeapYear date.year = true ∧
      d.dayNumber = (newYear date.year).dayNumber + 59)) (Date.valid_newYear hdate) hdate
      fun d hd hbefore => ?_
    rw [← Date.newYear_le_iff hdate hd hbefore]
    exact and_congr_right fun hyear => not_congr (hyear ▸ isLeapDay_iff hd)
  rw [hcount]
  simp only [Date.dayNumber_ofDayNumber]
  cases hleap : isLeapYear date.year with
  | false => simp
  | true =>
    simp only [true_and, Finset.filter_ne', Finset.card_erase_eq_ite, Finset.mem_Ico, Int.card_Ico]
    refine congrArg Nat.cast ?_
    split_ifs <;> omega

theorem names_julianDay (hnth : 1 ≤ nth ∧ nth ≤ 365) (hdate : date.Valid)
    (hday : date.dayNumber = (julianDay nth).dayIn date.year) : (julianDay nth).Names date := by
  have hnewYear : (Date.mk date.year 1 1).dayNumber = (newYear date.year).dayNumber := rfl
  rw [dayIn, leapDay, hnewYear] at hday
  rw [Names, isLeapDay_iff hdate, encard_notLeapDay hdate]
  -- From the sixtieth day on, the rule goes one day further in a leap year.
  cases hleap : isLeapYear date.year with
  | false =>
    rw [hleap, if_neg Bool.false_ne_true, ite_self] at hday
    refine ⟨fun h => Bool.false_ne_true h.1, congrArg Nat.cast ?_⟩
    rw [if_neg fun h => Bool.false_ne_true h.1]
    omega
  | true =>
    rw [hleap, if_pos rfl] at hday
    split at hday
    · refine ⟨fun h => by omega, congrArg Nat.cast ?_⟩
      rw [if_pos ⟨rfl, by omega⟩]
      omega
    · refine ⟨fun h => by omega, congrArg Nat.cast ?_⟩
      rw [if_neg fun h => by omega]
      omega

end YearDay

/-! ### All rules -/

/-- The day that is worked out is the one that the rule means. -/
theorem names_of_dayIn (h : DayInRange rule) (hdate : date.Valid)
    (hday : date.dayNumber = rule.dayIn date.year) : rule.Names date := by
  cases rule with
  | lastWeekday month weekday => exact names_lastWeekday h.1 h.2 hdate hday
  | nthWeekday month nth weekday => exact names_nthWeekday h.1 h.2.1 h.2.2 hdate hday
  | yearDay nth => exact names_yearDay h hdate hday
  | julianDay nth => exact names_julianDay h hdate hday

/-- A rule means one date of a year only. -/
theorem eq_of_names (hdate : date.Valid) (hother : other.Valid) (hyear : date.year = other.year)
    (h : rule.Names date) (h' : rule.Names other) : date = other := by
  cases rule with
  | lastWeekday month weekday =>
    rcases Int.lt_trichotomy date.dayNumber other.dayNumber with hlt | heq | hgt
    · exact absurd ((Date.before_iff hdate hother).2 hlt) (h.2 other hother hyear.symm h'.1)
    · exact Date.eq_of_dayNumber hdate hother heq
    · exact absurd ((Date.before_iff hother hdate).2 hgt) (h'.2 date hdate hyear h.1)
  | nthWeekday month nth weekday =>
    exact Date.eq_of_encard_earlierInYear hdate hother hyear h.1 h'.1 (h.2.trans h'.2.symm)
  | yearDay nth =>
    rw [Names] at h h'
    by_cases hbeyond : nth = 366 ∧ isLeapYear date.year = false
    · rw [if_pos hbeyond] at h
      rw [if_pos (hyear ▸ hbeyond)] at h'
      obtain ⟨year, month, day⟩ := date
      obtain ⟨year', month', day'⟩ := other
      simp only [Date.mk.injEq]
      exact ⟨hyear, h.1.trans h'.1.symm, h.2.trans h'.2.symm⟩
    · rw [if_neg hbeyond] at h
      rw [if_neg (hyear ▸ hbeyond)] at h'
      exact Date.eq_of_encard_earlierInYear hdate hother hyear trivial trivial (h.trans h'.symm)
  | julianDay nth =>
    exact Date.eq_of_encard_earlierInYear hdate hother hyear h.1 h'.1 (h.2.trans h'.2.symm)

/-- The days of a rule that has a text are days that can be written. -/
theorem inRange_of_parse {text : String} {r : ZoneRule} (hparse : ZoneRule.parse text = .ok r)
    {d : Daylight} (hd : r.daylight = some d) (hrule : rule = d.start.day ∨ rule = d.stop.day) :
    DayInRange rule := by
  have hrange := (ZoneRule.parse_eq_ok_iff.1 hparse).parts.inRange.daylight d hd
  rcases hrule with rfl | rfl
  · exact hrange.start.day
  · exact hrange.stop.day

/-- The two days of a rule text name a date in every year of the calendar, and looking it up does
not fail.  It is the one date of the year that the rule means, and the day by which lookups of the
zone go. -/
theorem names_of_parse {text : String} {r : ZoneRule} (hparse : ZoneRule.parse text = .ok r)
    {d : Daylight} (hd : r.daylight = some d) (hrule : rule = d.start.day ∨ rule = d.stop.day)
    {year : Int} (hfirst : 1 ≤ year) (hlast : year ≤ 9999) :
    ∃ date, rule.dateIn year = .ok date ∧ date.Valid ∧ date.year = year ∧ rule.Names date ∧
      date.dayNumber = rule.dayIn year ∧
      ∀ other : Date, other.Valid → other.year = year → rule.Names other → other = date := by
  have hrange := inRange_of_parse hparse hd hrule
  obtain ⟨date, hdate, hvalid, rfl, hday⟩ := dateIn_eq_ok hrange hfirst hlast
  have hnames := names_of_dayIn hrange hvalid hday
  exact ⟨date, hdate, hvalid, rfl, hnames, hday,
    fun other hother hyear h => eq_of_names hother hvalid hyear h hnames⟩

/-- Daylight time from the last day of every year on, and up to the sixtieth day without leap
days. -/
def countedDays : ZoneRule where
  standard := 0
  daylight := some ⟨3600, ⟨.yearDay 366, 7200⟩, ⟨.julianDay 60, 7200⟩⟩

/-- The last day of a common year in place of its 366th, and the sixtieth day of a leap year that
does not count February 29th. -/
theorem names_of_parse_countedDays :
    ZoneRule.parse "A0B,365,J60" = .ok countedDays ∧
      ((yearDay 366).dateIn 2023 = .ok ⟨2023, 12, 31⟩ ∧ (yearDay 366).Names ⟨2023, 12, 31⟩) ∧
      ((julianDay 60).dateIn 2024 = .ok ⟨2024, 3, 1⟩ ∧ (julianDay 60).Names ⟨2024, 3, 1⟩) := by
  have hparse : ZoneRule.parse "A0B,365,J60" = .ok countedDays := by decide +kernel
  obtain ⟨start, hstart, -, -, hnames, -⟩ :=
    names_of_parse hparse rfl (.inl rfl) (show (1 : Int) ≤ 2023 by decide) (by decide)
  obtain ⟨stop, hstop, -, -, hnames', -⟩ :=
    names_of_parse hparse rfl (.inr rfl) (show (1 : Int) ≤ 2024 by decide) (by decide)
  have hfound : (yearDay 366).dateIn 2023 = .ok ⟨2023, 12, 31⟩ := rfl
  have hfound' : (julianDay 60).dateIn 2024 = .ok ⟨2024, 3, 1⟩ := rfl
  obtain rfl := Except.ok.inj (hstart.symm.trans hfound)
  obtain rfl := Except.ok.inj (hstop.symm.trans hfound')
  exact ⟨hparse, ⟨hfound, hnames⟩, hfound', hnames'⟩

end RuleDay

end CivilTime
