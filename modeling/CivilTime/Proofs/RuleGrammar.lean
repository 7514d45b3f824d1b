import Mathlib.Algebra.Ring.Nat
import CivilTime.Text.Padded
import CivilTime.ZoneRule.Reader

/-!
# The grammar of rule texts

Which texts are zone rules, and which rule each of them is, without a reader.
Every part of the grammar is a relation between a value and the texts that
write it; a text has no second value, since it is read in one way only.

* `Grammar.Name` is a zone name, `Grammar.Number` a number in decimal digits,
  `Grammar.SignedDuration` a time, and `Grammar.Offset` an offset.
* `Grammar.Day` and `Grammar.SwitchTime` are the day of a switch and the switch
  itself.
* `Grammar.Rule` is a whole text: it relates a rule to the ASCII texts that
  write it.
* `ZoneRule.InRange` are the rules that have a text, and `Grammar.ruleText`
  writes one of them for every such rule.

The length of a name of letters needs no word of its own: an offset or a comma
follows it, and neither begins with a letter, so the name is as long as it can
be.
-/

namespace CivilTime.ZoneRule

namespace Grammar

/-- The name of a zone: letters, or between angle brackets any text without a
closing one. -/
inductive Name : List Char → Prop
  | letters {text : List Char} (hfilled : text ≠ []) (hletter : ∀ c ∈ text, c.isAlpha = true) :
    Name text
  | bracketed {text : List Char} (hfilled : text ≠ []) (hclosed : '>' ∉ text) :
    Name ('<' :: (text ++ ['>']))

/-- A number in one to `most` decimal digits, any zeros in front included. -/
structure Number (most n : Nat) (text : List Char) : Prop where
  filled : text ≠ []
  short : text.length ≤ most
  digit : ∀ c ∈ text, c.isDigit = true
  value : Nat.ofDigitChars 10 text 0 = n

/-- A number up to 59 in exactly two digits. -/
structure Sixtieth (n : Nat) (text : List Char) : Prop extends Number 2 n text where
  twoDigits : text.length = 2
  le : n ≤ 59

/-- What may follow the hours of a time, as seconds: minutes, and seconds after
them. -/
inductive Minutes : Int → List Char → Prop
  | none : Minutes 0 []
  | minutes {m : Nat} {text : List Char} (hm : Sixtieth m text) : Minutes (m * 60) (':' :: text)
  | seconds {m s : Nat} {text text' : List Char} (hm : Sixtieth m text) (hs : Sixtieth s text') :
    Minutes (m * 60 + s) (':' :: (text ++ ':' :: text'))

/-- Hours of one to three digits, and what follows them, as seconds. -/
inductive Duration : Int → List Char → Prop
  | hours {h : Nat} {m : Int} {text text' : List Char} (hh : Number 3 h text)
    (hm : Minutes m text') : Duration (h * 3600 + m) (text ++ text')

/-- A duration with or without a sign. -/
inductive SignedDuration : Int → List Char → Prop
  | bare {seconds : Int} {text : List Char} (h : Duration seconds text) :
    SignedDuration seconds text
  | plus {seconds : Int} {text : List Char} (h : Duration seconds text) :
    SignedDuration seconds ('+' :: text)
  | minus {seconds : Int} {text : List Char} (h : Duration seconds text) :
    SignedDuration (-seconds) ('-' :: text)

/-- An offset: a time of less than a day, counted westward. -/
inductive Offset : Int → List Char → Prop
  | westward {seconds : Int} {text : List Char} (h : SignedDuration seconds text)
    (hday : seconds.natAbs < 86400) : Offset (-seconds) text

/-- The day of a switch: a month, a week and a weekday, where the fifth week is
the last one; or a day of the year, counted from one without February 29th or
from zero with it. -/
inductive Day : RuleDay → List Char → Prop
  | nthWeekday {month week weekday : Nat} {monthText weekText weekdayText : List Char}
    (hmonth : Number 2 month monthText) (hfirst : 1 ≤ month) (hlast : month ≤ 12)
    (hweek : Number 1 week weekText) (hge : 1 ≤ week) (hle : week ≤ 4)
    (hweekday : Number 1 weekday weekdayText) (hsaturday : weekday ≤ 6) :
    Day (.nthWeekday month week weekday)
      ('M' :: (monthText ++ '.' :: (weekText ++ '.' :: weekdayText)))
  | lastWeekday {month weekday : Nat} {monthText weekText weekdayText : List Char}
    (hmonth : Number 2 month monthText) (hfirst : 1 ≤ month) (hlast : month ≤ 12)
    (hweek : Number 1 5 weekText)
    (hweekday : Number 1 weekday weekdayText) (hsaturday : weekday ≤ 6) :
    Day (.lastWeekday month weekday)
      ('M' :: (monthText ++ '.' :: (weekText ++ '.' :: weekdayText)))
  | julianDay {nth : Nat} {text : List Char} (hnth : Number 3 nth text) (hge : 1 ≤ nth)
    (hle : nth ≤ 365) : Day (.julianDay nth) ('J' :: text)
  | yearDay {nth : Nat} {text : List Char} (hnth : Number 3 nth text) (hle : nth ≤ 365) :
    Day (.yearDay (nth + 1)) text

/-- A switch: its day, and after a slash its time.  Without one it happens at two
o'clock. -/
inductive SwitchTime : Switch → List Char → Prop
  | atTwo {day : RuleDay} {text : List Char} (hday : Day day text) :
    SwitchTime ⟨day, 7200⟩ text
  | timed {day : RuleDay} {time : Int} {text timeText : List Char} (hday : Day day text)
    (htime : SignedDuration time timeText) : SwitchTime ⟨day, time⟩ (text ++ '/' :: timeText)

/-- The name and the two switches of daylight time, and its offset between them.
Without one it is an hour ahead of the standard offset, if that is less than a
day. -/
inductive DaylightTime (standard : Int) : Daylight → List Char → Prop
  | hourAhead {name startText stopText : List Char} {start stop : Switch} (hname : Name name)
    (hday : standard + 3600 < 86400) (hstart : SwitchTime start startText)
    (hstop : SwitchTime stop stopText) :
    DaylightTime standard ⟨standard + 3600, start, stop⟩
      (name ++ ',' :: (startText ++ ',' :: stopText))
  | withOffset {name offsetText startText stopText : List Char} {offset : Int}
    {start stop : Switch} (hname : Name name) (hoffset : Offset offset offsetText)
    (hstart : SwitchTime start startText) (hstop : SwitchTime stop stopText) :
    DaylightTime standard ⟨offset, start, stop⟩
      (name ++ (offsetText ++ ',' :: (startText ++ ',' :: stopText)))

/-- A name and an offset, and daylight time behind them if the zone has it. -/
inductive Parts : ZoneRule → List Char → Prop
  | steady {name text : List Char} {standard : Int} (hname : Name name)
    (hstandard : Offset standard text) : Parts ⟨standard, none⟩ (name ++ text)
  | daylight {name text daylightText : List Char} {standard : Int} {d : Daylight}
    (hname : Name name) (hstandard : Offset standard text)
    (hdaylight : DaylightTime standard d daylightText) :
    Parts ⟨standard, some d⟩ (name ++ (text ++ daylightText))

/-- All characters are ASCII characters. -/
def Ascii (text : List Char) : Prop :=
  ∀ c ∈ text, c.toNat < 128

/-- The text of a rule: its parts, in ASCII characters. -/
structure Rule (r : ZoneRule) (text : List Char) : Prop where
  ascii : Ascii text
  parts : Parts r text

end Grammar

/-! ## The rules that have a text -/

/-- The month, week, weekday and day numbers that can be written. -/
def DayInRange : RuleDay → Prop
  | .lastWeekday month weekday => (1 ≤ month ∧ month ≤ 12) ∧ 0 ≤ weekday ∧ weekday ≤ 6
  | .nthWeekday month nth weekday =>
    (1 ≤ month ∧ month ≤ 12) ∧ (1 ≤ nth ∧ nth ≤ 4) ∧ 0 ≤ weekday ∧ weekday ≤ 6
  | .yearDay nth => 1 ≤ nth ∧ nth ≤ 366
  | .julianDay nth => 1 ≤ nth ∧ nth ≤ 365

/-- The switches that can be written: the time is at most 999:59:59 in either
direction. -/
structure SwitchInRange (s : Switch) : Prop where
  day : DayInRange s.day
  time : s.time.natAbs < 3600000

/-- Daylight time that can be written. -/
structure DaylightInRange (d : Daylight) : Prop where
  offset : d.offset.natAbs < 86400
  start : SwitchInRange d.start
  stop : SwitchInRange d.stop

/-- The rules that can be written: both offsets are less than a day, and both
switches are in range. -/
structure InRange (r : ZoneRule) : Prop where
  standard : r.standard.natAbs < 86400
  daylight : ∀ d, r.daylight = some d → DaylightInRange d

namespace Grammar

variable {n width most : Nat} {text : List Char}

/-! ### The values of the grammar are in range -/

theorem ofDigitChars_lt (h : ∀ c ∈ text, c.isDigit = true) :
    Nat.ofDigitChars 10 text 0 < 10 ^ text.length := by
  induction text with
  | nil => decide
  | cons c text ih =>
    have hrest := ih fun d hd => h d (List.mem_cons_of_mem c hd)
    have hc := Char.isDigit_iff_toNat.1 (h c (List.mem_cons_self ..))
    have hle : 10 ^ text.length * (c.toNat - 48) ≤ 10 ^ text.length * 9 :=
      Nat.mul_le_mul_left _ (Nat.sub_le_of_le_add hc.2)
    rw [Nat.ofDigitChars_cons, Nat.ofDigitChars_eq_ofDigitChars_zero, List.length_cons,
      Nat.pow_succ, Nat.mul_zero, Nat.zero_add]
    exact Nat.lt_of_lt_of_le (Nat.add_lt_add_of_le_of_lt hle hrest) (by omega)

theorem Number.lt (h : Number most n text) : n < 10 ^ most := by
  have hdigits := ofDigitChars_lt h.digit
  rw [h.value] at hdigits
  exact Nat.lt_of_lt_of_le hdigits (Nat.pow_le_pow_right (by decide) h.short)

theorem Minutes.bounds {m : Int} (h : Minutes m text) : 0 ≤ m ∧ m < 3600 := by
  cases h with
  | none => decide
  | minutes hm =>
    have hle := hm.le
    omega
  | seconds hm hs =>
    have hle := hm.le
    have hle' := hs.le
    omega

theorem Duration.bounds {seconds : Int} (h : Duration seconds text) :
    0 ≤ seconds ∧ seconds < 3600000 := by
  cases h with
  | hours hh hm =>
    have hlt := hh.lt
    have hbounds := hm.bounds
    omega

theorem SignedDuration.natAbs_lt {seconds : Int} (h : SignedDuration seconds text) :
    seconds.natAbs < 3600000 := by
  cases h with
  | bare h | plus h | minus h =>
    have hbounds := h.bounds
    omega

theorem Offset.natAbs_lt {offset : Int} (h : Offset offset text) : offset.natAbs < 86400 := by
  cases h with
  | westward h hday => omega

theorem Day.inRange {day : RuleDay} (h : Day day text) : DayInRange day := by
  cases h with
  | nthWeekday _ hm hm' _ hw hw' _ hd => exact ⟨by omega, by omega, by omega⟩
  | lastWeekday _ hm hm' _ _ hd => exact ⟨by omega, by omega⟩
  | julianDay _ hn hn' => exact ⟨by omega, by omega⟩
  | yearDay _ hn => exact ⟨by omega, by omega⟩

theorem SwitchTime.inRange {s : Switch} (h : SwitchTime s text) : SwitchInRange s := by
  cases h with
  | atTwo hday => exact ⟨hday.inRange, by dsimp only; decide⟩
  | timed hday htime => exact ⟨hday.inRange, htime.natAbs_lt⟩

theorem DaylightTime.inRange {standard : Int} {d : Daylight} (hstandard : standard.natAbs < 86400)
    (h : DaylightTime standard d text) : DaylightInRange d := by
  cases h with
  | hourAhead _ hday hstart hstop => exact ⟨by dsimp only; omega, hstart.inRange, hstop.inRange⟩
  | withOffset _ hoffset hstart hstop =>
    exact ⟨hoffset.natAbs_lt, hstart.inRange, hstop.inRange⟩

/-- Every rule that has a text is in range. -/
theorem Parts.inRange {r : ZoneRule} (h : Parts r text) : r.InRange := by
  cases h with
  | steady _ hstandard => exact ⟨hstandard.natAbs_lt, fun d hd => nomatch hd⟩
  | daylight _ hstandard hdaylight =>
    refine ⟨hstandard.natAbs_lt, fun d hd => ?_⟩
    obtain rfl := Option.some.inj hd
    exact hdaylight.inRange hstandard.natAbs_lt

/-! ### Writing a rule -/

/-- A number with zeros in front up to a width. -/
def numberText (width n : Nat) : List Char :=
  (Text.paddedNat width n).toList

/-- A duration with all of its hours, minutes and seconds. -/
def durationText (seconds : Nat) : List Char :=
  numberText 1 (seconds / 3600) ++
    ':' :: (numberText 2 (seconds % 3600 / 60) ++ ':' :: numberText 2 (seconds % 60))

/-- A time, with a sign if it is negative. -/
def timeText (seconds : Int) : List Char :=
  if seconds < 0 then '-' :: durationText seconds.natAbs else durationText seconds.natAbs

/-- The day of a switch. -/
def dayText : RuleDay → List Char
  | .lastWeekday month weekday =>
    'M' :: (numberText 1 month.toNat ++ '.' :: (numberText 1 5 ++
      '.' :: numberText 1 weekday.toNat))
  | .nthWeekday month nth weekday =>
    'M' :: (numberText 1 month.toNat ++ '.' :: (numberText 1 nth.toNat ++
      '.' :: numberText 1 weekday.toNat))
  | .yearDay nth => numberText 1 (nth - 1).toNat
  | .julianDay nth => 'J' :: numberText 1 nth.toNat

/-- A switch with its time. -/
def switchText (s : Switch) : List Char :=
  dayText s.day ++ '/' :: timeText s.time

/-- A rule with the names of its standard and its daylight time. -/
def ruleText (name daylightName : List Char) (r : ZoneRule) : List Char :=
  name ++ (timeText (-r.standard) ++
    match r.daylight with
    | none => []
    | some d =>
      daylightName ++ (timeText (-d.offset) ++
        ',' :: (switchText d.start ++ ',' :: switchText d.stop)))

theorem numberText_eq (width n : Nat) :
    numberText width n =
      List.replicate (width - (Nat.toDigits 10 n).length) '0' ++ Nat.toDigits 10 n := by
  rw [numberText, Text.paddedNat, String.toList_ofList]

theorem length_numberText (width n : Nat) :
    (numberText width n).length = max width (Nat.toDigits 10 n).length := by
  rw [numberText_eq, List.length_append, List.length_replicate]
  omega

theorem isDigit_of_mem_numberText {c : Char} (h : c ∈ numberText width n) : c.isDigit = true := by
  rw [numberText_eq] at h
  rcases List.mem_append.1 h with hc | hc
  · rw [List.eq_of_mem_replicate hc]
    rfl
  · exact Nat.isDigit_of_mem_toDigits (by decide) (by decide) hc

theorem number_numberText (hwidth : width ≤ most) (hmost : 0 < most) (hn : n < 10 ^ most) :
    Number most n (numberText width n) := by
  have hdigits := (Nat.length_toDigits_le_iff (b := 10) (by decide) hmost).2 hn
  have hlength := length_numberText width n
  have hpos := Nat.length_toDigits_pos (b := 10) (n := n)
  refine ⟨List.ne_nil_of_length_pos (by omega), by omega, fun c => isDigit_of_mem_numberText, ?_⟩
  rw [numberText_eq]
  simp [Nat.ofDigitChars_append, Nat.ofDigitChars_toDigits]

theorem sixtieth_numberText (hn : n ≤ 59) : Sixtieth n (numberText 2 n) := by
  have hdigits := (Nat.length_toDigits_le_iff (b := 10) (k := 2) (n := n) (by decide) (by decide)).2
    (by omega)
  have hlength := length_numberText 2 n
  exact ⟨number_numberText (Nat.le_refl _) (by decide) (by omega), by omega, hn⟩

theorem duration_durationText {seconds : Nat} (h : seconds < 3600000) :
    Duration seconds (durationText seconds) := by
  have hhours : Number 3 (seconds / 3600) (numberText 1 (seconds / 3600)) :=
    number_numberText (by decide) (by decide) (by omega)
  have hminutes : Sixtieth (seconds % 3600 / 60) (numberText 2 (seconds % 3600 / 60)) :=
    sixtieth_numberText (by omega)
  have hseconds : Sixtieth (seconds % 60) (numberText 2 (seconds % 60)) :=
    sixtieth_numberText (by omega)
  have htext := Duration.hours hhours (.seconds hminutes hseconds)
  have hvalue : ((seconds / 3600 : Nat) : Int) * 3600 +
      (((seconds % 3600 / 60 : Nat) : Int) * 60 + ((seconds % 60 : Nat) : Int)) = seconds := by
    omega
  rwa [hvalue] at htext

theorem signedDuration_timeText {seconds : Int} (h : seconds.natAbs < 3600000) :
    SignedDuration seconds (timeText seconds) := by
  have hduration := duration_durationText h
  unfold timeText
  split
  · have htext := SignedDuration.minus hduration
    rwa [show -(seconds.natAbs : Int) = seconds by omega] at htext
  · rw [show (seconds.natAbs : Int) = seconds by omega] at hduration
    exact .bare hduration

theorem offset_timeText {offset : Int} (h : offset.natAbs < 86400) :
    Offset offset (timeText (-offset)) := by
  have htime : SignedDuration (-offset) (timeText (-offset)) :=
    signedDuration_timeText (by omega)
  have htext := Offset.westward htime (by omega)
  rwa [Int.neg_neg] at htext

theorem digit_numberText (h : n ≤ 9) : Number 1 n (numberText 1 n) :=
  number_numberText (by decide) (by decide) (by omega)

theorem month_numberText (h : n ≤ 12) : Number 2 n (numberText 1 n) :=
  number_numberText (by decide) (by decide) (by omega)

theorem yearDay_numberText (h : n ≤ 365) : Number 3 n (numberText 1 n) :=
  number_numberText (by decide) (by decide) (by omega)

theorem day_dayText {day : RuleDay} (h : DayInRange day) : Day day (dayText day) := by
  cases day with
  | lastWeekday month weekday =>
    obtain ⟨⟨hfirst, hlast⟩, hsunday, hsaturday⟩ := h
    obtain ⟨m, rfl⟩ := Int.eq_ofNat_of_zero_le (show 0 ≤ month by omega)
    obtain ⟨w, rfl⟩ := Int.eq_ofNat_of_zero_le hsunday
    exact .lastWeekday (month_numberText (by omega)) (by omega) (by omega)
      (digit_numberText (by decide)) (digit_numberText (by omega)) (by omega)
  | nthWeekday month nth weekday =>
    obtain ⟨⟨hfirst, hlast⟩, ⟨hge, hle⟩, hsunday, hsaturday⟩ := h
    obtain ⟨m, rfl⟩ := Int.eq_ofNat_of_zero_le (show 0 ≤ month by omega)
    obtain ⟨k, rfl⟩ := Int.eq_ofNat_of_zero_le (show 0 ≤ nth by omega)
    obtain ⟨w, rfl⟩ := Int.eq_ofNat_of_zero_le hsunday
    exact .nthWeekday (month_numberText (by omega)) (by omega) (by omega)
      (digit_numberText (by omega)) (by omega) (by omega) (digit_numberText (by omega)) (by omega)
  | yearDay nth =>
    obtain ⟨hge, hle⟩ := h
    obtain ⟨n, hn⟩ := Int.eq_ofNat_of_zero_le (show 0 ≤ nth - 1 by omega)
    obtain rfl : nth = n + 1 := by omega
    rw [dayText, hn]
    exact .yearDay (yearDay_numberText (by omega)) (by omega)
  | julianDay nth =>
    obtain ⟨hge, hle⟩ := h
    obtain ⟨n, rfl⟩ := Int.eq_ofNat_of_zero_le (show 0 ≤ nth by omega)
    exact .julianDay (yearDay_numberText (by omega)) (by omega) (by omega)

theorem switchTime_switchText {s : Switch} (h : SwitchInRange s) : SwitchTime s (switchText s) :=
  .timed (day_dayText h.day) (signedDuration_timeText h.time)

@[simp] theorem ascii_nil : Ascii [] :=
  fun _ hc => nomatch hc

@[simp] theorem ascii_cons {c : Char} : Ascii (c :: text) ↔ c.toNat < 128 ∧ Ascii text :=
  List.forall_mem_cons

@[simp] theorem ascii_append {text' : List Char} :
    Ascii (text ++ text') ↔ Ascii text ∧ Ascii text' :=
  List.forall_mem_append

@[simp] theorem ascii_numberText : Ascii (numberText width n) := by
  intro c hc
  have hdigit := Char.isDigit_iff_toNat.1 (isDigit_of_mem_numberText hc)
  exact Nat.lt_of_le_of_lt hdigit.2 (by decide)

@[simp] theorem ascii_timeText (seconds : Int) : Ascii (timeText seconds) := by
  unfold timeText durationText
  split <;> simp

@[simp] theorem ascii_switchText (s : Switch) : Ascii (switchText s) := by
  unfold switchText dayText
  split <;> simp

/-- A rule in range is written by its text, whatever the names. -/
theorem rule_ruleText {name daylightName : List Char} {r : ZoneRule} (h : r.InRange)
    (hname : Name name) (hascii : Ascii name) (hname' : Name daylightName)
    (hascii' : Ascii daylightName) : Rule r (ruleText name daylightName r) := by
  obtain ⟨standard, daylight⟩ := r
  obtain ⟨hstandard, hdaylight⟩ := h
  cases daylight with
  | none =>
    refine ⟨by simp [ruleText, hascii], .steady hname ?_⟩
    rw [List.append_nil]
    exact offset_timeText hstandard
  | some d =>
    obtain ⟨hoffset, hstart, hstop⟩ := hdaylight d rfl
    exact ⟨by simp [ruleText, hascii, hascii'], .daylight hname (offset_timeText hstandard)
      (.withOffset hname' (offset_timeText hoffset) (switchTime_switchText hstart)
        (switchTime_switchText hstop))⟩

end Grammar

end CivilTime.ZoneRule
