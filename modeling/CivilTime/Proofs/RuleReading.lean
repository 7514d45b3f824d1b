import CivilTime.Proofs.RuleGrammar
import CivilTime.Proofs.RuleLocalTime

/-!
# Readers and the grammar

Each reader of a part of a rule text takes off exactly a text that the grammar
has for that part.

* `Reads` says this of a reader: what it takes off is a text of the value that
  it gives, and in front of anything that cannot go on the part it takes every
  such text off.
* `readDigits_reads` to `readSwitch_reads` are about the readers one by one.  The
  three forms of a day are read apart: `readDay_month_eq_ok_iff`,
  `readDay_julian_eq_ok_iff` and `readDay_number_eq_ok_iff`.
* `readDaylight_eq_ok_iff` and `read_eq_ok_iff` are about the whole text.
* `parse_exact` is the result: a text is accepted exactly if the grammar has it,
  and everything else is refused as a malformed value.
-/

namespace CivilTime.ZoneRule

open Grammar

/-- A text does not go on with a character of this kind. -/
def Stops (kind : Char → Bool) (rest : List Char) : Prop :=
  ∀ c ∈ rest.head?, kind c = false

/-- A reader reads the texts of a grammar.  It takes off as much as it can, so
it finds the end of a text only where no character of the kind `more` follows. -/
structure Reads {α : Type} (reader : List Char → Except RuleFault (α × List Char))
    (grammar : α → List Char → Prop) (more : Char → Bool) : Prop where
  sound : ∀ {text value rest}, reader text = .ok (value, rest) →
    ∃ part, text = part ++ rest ∧ grammar value part
  complete : ∀ {value part rest}, grammar value part → Stops more rest →
    reader (part ++ rest) = .ok (value, rest)

variable {kind : Char → Bool} {text rest : List Char} {total most : Nat}

theorem stops_nil : Stops kind [] :=
  fun _ hc => nomatch hc

theorem stops_cons {c : Char} (h : kind c = false) : Stops kind (c :: rest) := by
  rintro _ ⟨⟩
  exact h

theorem Stops.mono {kind' : Char → Bool} (h : Stops kind' rest)
    (hkind : ∀ c, kind c = true → kind' c = true) : Stops kind rest := by
  intro c hc
  have hnot := h c hc
  cases hyes : kind c with
  | false => rfl
  | true => exact absurd (hkind c hyes) (by rw [hnot]; exact Bool.false_ne_true)

/-! ## Runs of characters -/

theorem takeWhile_of_stops (h : Stops kind rest) : rest.takeWhile kind = [] := by
  cases rest with
  | nil => rfl
  | cons c rest => exact List.takeWhile_cons_of_neg (by rw [h c rfl]; exact Bool.false_ne_true)

theorem takeWhile_append_of_stops (hall : ∀ c ∈ text, kind c = true) (h : Stops kind rest) :
    (text ++ rest).takeWhile kind = text := by
  rw [List.takeWhile_append_of_pos hall, takeWhile_of_stops h, List.append_nil]

theorem dropWhile_append_of_stops (hall : ∀ c ∈ text, kind c = true) (h : Stops kind rest) :
    (text ++ rest).dropWhile kind = rest := by
  have hparts := List.takeWhile_append_dropWhile (p := kind) (l := text ++ rest)
  rw [takeWhile_append_of_stops hall h] at hparts
  exact List.append_cancel_left hparts

theorem Stops.take (h : Stops kind rest) (n : Nat) : Stops kind (rest.take n) := by
  cases n with
  | zero => exact stops_nil
  | succ n =>
    cases rest with
    | nil => exact stops_nil
    | cons c rest => exact stops_cons (h c rfl)

/-! ## Numbers -/

theorem readDigits_reads (total most : Nat) :
    Reads (readDigits total most) (Number most) Char.isDigit where
  sound := by
    intro text n rest h
    unfold readDigits at h
    dsimp only at h
    split at h
    · contradiction
    · next hfilled =>
      cases h
      have htaken : (text.take most).takeWhile Char.isDigit <+: text.take most :=
        List.takeWhile_prefix _
      have hlength := Nat.le_trans htaken.length_le (List.length_take_le most text)
      have hparts := List.prefix_iff_eq_append.1 (htaken.trans <| List.take_prefix _ _)
      exact ⟨_, hparts.symm, by simpa using hfilled, hlength,
        fun c hc => List.all_eq_true.1 List.all_takeWhile c hc, rfl⟩
  complete := by
    intro n part rest h hstop
    have hdigits : ((part ++ rest).take most).takeWhile Char.isDigit = part := by
      rw [List.take_append, List.take_of_length_le h.short]
      exact takeWhile_append_of_stops h.digit (hstop.take _)
    unfold readDigits
    dsimp only
    rw [hdigits, if_neg (by simpa using h.filled), List.drop_left, ← h.value]
    rfl

theorem readSixtieth_reads : Reads readSixtieth Sixtieth fun _ => false where
  sound := by
    intro text n rest h
    unfold readSixtieth at h
    dsimp only at h
    split at h
    · contradiction
    next hdigits =>
      split at h
      · contradiction
      next hle =>
        cases h
        simp only [Bool.or_eq_true, decide_eq_true_eq, Bool.not_eq_true', not_or,
          Bool.not_eq_false, List.all_eq_true] at hdigits
        have hlength := List.length_take_le 2 text
        exact ⟨text.take 2, (List.take_append_drop 2 text).symm,
          ⟨⟨List.ne_nil_of_length_pos (by omega), hlength, hdigits.2, rfl⟩, by omega, by omega⟩⟩
  complete := by
    intro n part rest h _
    have htake : (part ++ rest).take 2 = part := List.take_left' h.twoDigits
    have hdrop : (part ++ rest).drop 2 = rest := List.drop_left' h.twoDigits
    have hvalue : digitsValue part = n := h.value
    have hdigits : (decide (part.length < 2) || !part.all Char.isDigit) = false := by
      simp [h.twoDigits, List.all_eq_true.2 h.digit]
    have hle := h.le
    unfold readSixtieth
    dsimp only
    rw [htake, hdrop, hdigits, hvalue, if_neg Bool.false_ne_true, if_neg (by omega)]

/-! ## Times -/

/-- The character that goes on a time behind its hours or minutes. -/
def isColon (c : Char) : Bool := c = ':'

theorem readMinutes_of_stops (h : Stops isColon rest) : readMinutes rest = .ok (0, rest) := by
  unfold readMinutes
  split
  · next rest => exact absurd (h ':' rfl) (by decide)
  · rfl

theorem readMinutes_reads : Reads readMinutes Minutes isColon where
  sound := by
    intro text m rest h
    unfold readMinutes at h
    split at h
    · next behind =>
      obtain ⟨⟨minutes, after⟩, hminutes, hseconds⟩ := bind_eq_ok.1 h
      obtain ⟨part, rfl, hpart⟩ := readSixtieth_reads.sound hminutes
      dsimp only at hseconds
      split at hseconds
      · next behind' =>
        obtain ⟨⟨seconds, after'⟩, hsixtieth, hresult⟩ := bind_eq_ok.1 hseconds
        obtain ⟨part', rfl, hpart'⟩ := readSixtieth_reads.sound hsixtieth
        cases hresult
        exact ⟨_, by simp, .seconds hpart hpart'⟩
      · cases hseconds
        exact ⟨_, rfl, .minutes hpart⟩
    · cases h
      exact ⟨[], rfl, .none⟩
  complete := by
    intro m part rest h hstop
    cases h with
    | none => exact readMinutes_of_stops hstop
    | minutes hm =>
      have hend : Stops (fun _ => false) rest := fun _ _ => rfl
      refine bind_eq_ok.2 ⟨_, readSixtieth_reads.complete hm hend, ?_⟩
      dsimp only
      split
      · next rest => exact absurd (hstop ':' rfl) (by decide)
      · rfl
    | seconds hm hs =>
      rw [List.cons_append, List.append_assoc]
      have hend : Stops (fun _ => false) rest := fun _ _ => rfl
      refine bind_eq_ok.2 ⟨_, readSixtieth_reads.complete hm fun _ _ => rfl, ?_⟩
      exact bind_eq_ok.2 ⟨_, readSixtieth_reads.complete hs hend, rfl⟩

/-- The characters that go on a time. -/
def isTimeChar (c : Char) : Bool := c.isDigit || isColon c

theorem stops_isDigit_of_minutes {m : Int} {part : List Char} (h : Minutes m part)
    (hstop : Stops isTimeChar rest) : Stops Char.isDigit (part ++ rest) := by
  cases h with
  | none => exact hstop.mono fun c hc => by simp [isTimeChar, hc]
  | minutes | seconds => exact stops_cons rfl

theorem readDuration_reads (total : Nat) :
    Reads (readDuration total) Duration isTimeChar where
  sound := by
    intro text seconds rest h
    obtain ⟨⟨hours, after⟩, hhours, hbehind⟩ := bind_eq_ok.1 h
    obtain ⟨⟨minutes, after'⟩, hminutes, hresult⟩ := bind_eq_ok.1 hbehind
    obtain ⟨part, rfl, hpart⟩ := (readDigits_reads total 3).sound hhours
    obtain ⟨part', rfl, hpart'⟩ := readMinutes_reads.sound hminutes
    cases hresult
    exact ⟨_, (List.append_assoc _ _ _).symm, .hours hpart hpart'⟩
  complete := by
    intro seconds part rest h hstop
    cases h with
    | hours hh hm =>
      have hminutes := readMinutes_reads.complete hm
        (hstop.mono fun c hc => by simp [isTimeChar, hc])
      rw [List.append_assoc]
      refine bind_eq_ok.2 ⟨_, (readDigits_reads total 3).complete hh
        (stops_isDigit_of_minutes hm hstop), ?_⟩
      exact bind_eq_ok.2 ⟨_, hminutes, rfl⟩

/-- A number begins with a digit. -/
theorem Grammar.Number.exists_cons {n : Nat} (h : Number most n text) :
    ∃ c behind, text = c :: behind ∧ c.isDigit = true := by
  cases text with
  | nil => exact absurd rfl h.filled
  | cons c behind => exact ⟨c, behind, rfl, h.digit c (List.mem_cons_self ..)⟩

/-- A number does not begin with a sign or a letter. -/
theorem Grammar.Number.head?_ne {n : Nat} {c : Char} (h : Number most n text)
    (hc : c.isDigit = false) : (text ++ rest).head? ≠ some c := by
  obtain ⟨digit, behind, rfl, hdigit⟩ := h.exists_cons
  rw [List.cons_append, List.head?_cons, ne_eq, Option.some.injEq]
  rintro rfl
  exact Bool.false_ne_true (hc.symm.trans hdigit)

theorem Grammar.Duration.exists_cons {seconds : Int} (h : Duration seconds text) :
    ∃ c behind, text = c :: behind ∧ c.isDigit = true := by
  cases h with
  | hours hh _ =>
    obtain ⟨c, behind, rfl, hc⟩ := hh.exists_cons
    exact ⟨c, _, rfl, hc⟩

theorem Grammar.Duration.head?_ne {seconds : Int} {c : Char} (h : Duration seconds text)
    (hc : c.isDigit = false) : (text ++ rest).head? ≠ some c := by
  cases h with
  | hours hh _ =>
    rw [List.append_assoc]
    exact hh.head?_ne hc

theorem readSigned_of_duration {seconds : Int} (h : Duration seconds text) (rest : List Char) :
    readSigned total (text ++ rest) = readDuration total (text ++ rest) := by
  unfold readSigned
  split
  · next heq => exact absurd (congrArg List.head? heq) (h.head?_ne rfl)
  · next heq => exact absurd (congrArg List.head? heq) (h.head?_ne rfl)
  · rfl

theorem readSigned_reads (total : Nat) :
    Reads (readSigned total) SignedDuration isTimeChar where
  sound := by
    intro text seconds rest h
    unfold readSigned at h
    split at h
    · obtain ⟨part, rfl, hpart⟩ := (readDuration_reads total).sound h
      exact ⟨_, rfl, .plus hpart⟩
    · obtain ⟨⟨size, after⟩, hsize, hresult⟩ := bind_eq_ok.1 h
      obtain ⟨part, rfl, hpart⟩ := (readDuration_reads total).sound hsize
      cases hresult
      exact ⟨_, rfl, .minus hpart⟩
    · obtain ⟨part, rfl, hpart⟩ := (readDuration_reads total).sound h
      exact ⟨_, rfl, .bare hpart⟩
  complete := by
    intro seconds part rest h hstop
    cases h with
    | bare h =>
      rw [readSigned_of_duration h]
      exact (readDuration_reads total).complete h hstop
    | plus h => exact (readDuration_reads total).complete h hstop
    | minus h => exact bind_eq_ok.2 ⟨_, (readDuration_reads total).complete h hstop, rfl⟩

theorem readOffset_reads (total : Nat) : Reads (readOffset total) Offset isTimeChar where
  sound := by
    intro text offset rest h
    obtain ⟨⟨seconds, after⟩, hseconds, hresult⟩ := bind_eq_ok.1 h
    obtain ⟨part, rfl, hpart⟩ := (readSigned_reads total).sound hseconds
    dsimp only at hresult
    split at hresult
    · contradiction
    · cases hresult
      exact ⟨_, rfl, .westward hpart (by omega)⟩
  complete := by
    intro offset part rest h hstop
    cases h with
    | westward h hday =>
      refine bind_eq_ok.2 ⟨_, (readSigned_reads total).complete h hstop, ?_⟩
      exact if_neg (by omega)

/-! ## Switches -/

theorem expect_eq_ok_iff {c : Char} : expect c text = .ok rest ↔ text = c :: rest := by
  cases text with
  | nil => simp [expect]
  | cons d behind =>
    by_cases heq : d = c
    · simp [expect, heq]
    · simp [expect, heq]

theorem expect_cons (c : Char) : expect c (c :: rest) = .ok rest :=
  expect_eq_ok_iff.2 rfl

/-! ### The day of a switch -/

section Day

variable {day : RuleDay}

/-- Behind the letter of a month are three numbers with dots between them, and the week tells
whether the day is a counted one or the last. -/
theorem readDay_month_eq_ok_iff :
    readDay total ('M' :: text) = .ok (day, rest) ↔
      ∃ (month week weekday : Nat) (after after' : List Char),
        readDigits total 2 text = .ok (month, '.' :: after) ∧
        readDigits total 1 after = .ok (week, '.' :: after') ∧
        readDigits total 1 after' = .ok (weekday, rest) ∧
        1 ≤ month ∧ month ≤ 12 ∧ 1 ≤ week ∧ weekday ≤ 6 ∧
        (week ≤ 4 ∧ day = .nthWeekday month week weekday ∨
          week = 5 ∧ day = .lastWeekday month weekday) := by
  constructor
  · intro h
    obtain ⟨⟨month, _⟩, hmonth, hbehind⟩ := bind_eq_ok.1 h
    obtain ⟨after, hdot, hbehind₁⟩ := bind_eq_ok.1 hbehind
    obtain ⟨⟨week, _⟩, hweek, hbehind₂⟩ := bind_eq_ok.1 hbehind₁
    obtain ⟨after', hdot', hbehind₃⟩ := bind_eq_ok.1 hbehind₂
    obtain ⟨⟨weekday, _⟩, hweekday, hresult⟩ := bind_eq_ok.1 hbehind₃
    obtain rfl := expect_eq_ok_iff.1 hdot
    obtain rfl := expect_eq_ok_iff.1 hdot'
    dsimp only at hresult
    split at hresult
    · contradiction
    split at hresult
    · cases hresult
      exact ⟨month, week, weekday, after, after', hmonth, hweek, hweekday, by omega, by omega,
        by omega, by omega, Or.inl ⟨by omega, rfl⟩⟩
    split at hresult
    · next hfifth =>
      cases hresult
      exact ⟨month, week, weekday, after, after', hmonth, hweek, hweekday, by omega, by omega,
        by omega, by omega, Or.inr ⟨hfifth, rfl⟩⟩
    · contradiction
  · rintro ⟨month, week, weekday, after, after', hmonth, hweek, hweekday, hfirst, hlast, hge,
      hsaturday, hday⟩
    refine bind_eq_ok.2 ⟨_, hmonth, bind_eq_ok.2 ⟨_, expect_cons '.', bind_eq_ok.2 ⟨_, hweek,
      bind_eq_ok.2 ⟨_, expect_cons '.', bind_eq_ok.2 ⟨_, hweekday, ?_⟩⟩⟩⟩⟩
    dsimp only
    rw [if_neg (by omega)]
    rcases hday with ⟨hle, rfl⟩ | ⟨rfl, rfl⟩
    · exact if_pos (by omega)
    · rfl

/-- Behind the letter of a day without leap days is its number. -/
theorem readDay_julian_eq_ok_iff :
    readDay total ('J' :: text) = .ok (day, rest) ↔
      ∃ nth : Nat, readDigits total 3 text = .ok (nth, rest) ∧ 1 ≤ nth ∧ nth ≤ 365 ∧
        day = .julianDay nth := by
  constructor
  · intro h
    obtain ⟨⟨nth, _⟩, hnth, hresult⟩ := bind_eq_ok.1 h
    dsimp only at hresult
    split at hresult
    · contradiction
    · cases hresult
      exact ⟨nth, hnth, by omega, by omega, rfl⟩
  · rintro ⟨nth, hnth, hge, hle, rfl⟩
    exact bind_eq_ok.2 ⟨_, hnth, if_neg (by omega)⟩

/-- Where no letter is in front, the text is the number of a day of the year. -/
theorem readDay_number_eq_ok_iff (hmonth : text.head? ≠ some 'M')
    (hjulian : text.head? ≠ some 'J') :
    readDay total text = .ok (day, rest) ↔
      ∃ nth : Nat, readDigits total 3 text = .ok (nth, rest) ∧ nth ≤ 365 ∧
        day = .yearDay (nth + 1) := by
  unfold readDay
  split
  · exact absurd rfl hmonth
  · exact absurd rfl hjulian
  constructor
  · intro h
    obtain ⟨⟨nth, _⟩, hnth, hresult⟩ := bind_eq_ok.1 h
    dsimp only at hresult
    split at hresult
    · contradiction
    · cases hresult
      exact ⟨nth, hnth, by omega, rfl⟩
  · rintro ⟨nth, hnth, hle, rfl⟩
    exact bind_eq_ok.2 ⟨_, hnth, if_neg (by omega)⟩

theorem exists_day_of_readDay_month (h : readDay total ('M' :: text) = .ok (day, rest)) :
    ∃ part, 'M' :: text = part ++ rest ∧ Day day part := by
  obtain ⟨month, week, weekday, after, after', hmonth, hweek, hweekday, hfirst, hlast, hge,
    hsaturday, hday⟩ := readDay_month_eq_ok_iff.1 h
  obtain ⟨monthText, rfl, hmonthText⟩ := (readDigits_reads total 2).sound hmonth
  obtain ⟨weekText, rfl, hweekText⟩ := (readDigits_reads total 1).sound hweek
  obtain ⟨weekdayText, rfl, hweekdayText⟩ := (readDigits_reads total 1).sound hweekday
  rcases hday with ⟨hle, rfl⟩ | ⟨rfl, rfl⟩
  · exact ⟨_, by simp, .nthWeekday hmonthText hfirst hlast hweekText hge hle hweekdayText hsaturday⟩
  · exact ⟨_, by simp, .lastWeekday hmonthText hfirst hlast hweekText hweekdayText hsaturday⟩

theorem exists_day_of_readDay_julian (h : readDay total ('J' :: text) = .ok (day, rest)) :
    ∃ part, 'J' :: text = part ++ rest ∧ Day day part := by
  obtain ⟨nth, hnth, hge, hle, rfl⟩ := readDay_julian_eq_ok_iff.1 h
  obtain ⟨part, rfl, hpart⟩ := (readDigits_reads total 3).sound hnth
  exact ⟨_, rfl, .julianDay hpart hge hle⟩

theorem exists_day_of_readDay_number (hmonth : text.head? ≠ some 'M')
    (hjulian : text.head? ≠ some 'J') (h : readDay total text = .ok (day, rest)) :
    ∃ part, text = part ++ rest ∧ Day day part := by
  obtain ⟨nth, hnth, hle, rfl⟩ := (readDay_number_eq_ok_iff hmonth hjulian).1 h
  obtain ⟨part, rfl, hpart⟩ := (readDigits_reads total 3).sound hnth
  exact ⟨_, rfl, .yearDay hpart hle⟩

/-- The reader of a month, a week and a weekday, in front of whatever ends a number. -/
theorem readDay_month {month week weekday : Nat} {monthText weekText weekdayText : List Char}
    (hmonth : Number 2 month monthText) (hfirst : 1 ≤ month) (hlast : month ≤ 12)
    (hweek : Number 1 week weekText) (hge : 1 ≤ week) (hweekday : Number 1 weekday weekdayText)
    (hsaturday : weekday ≤ 6) (hstop : Stops Char.isDigit rest)
    (hday : week ≤ 4 ∧ day = .nthWeekday month week weekday ∨
      week = 5 ∧ day = .lastWeekday month weekday) :
    readDay total ('M' :: (monthText ++ '.' :: (weekText ++ '.' :: (weekdayText ++ rest)))) =
      .ok (day, rest) :=
  readDay_month_eq_ok_iff.2 ⟨month, week, weekday, _, _,
    (readDigits_reads total 2).complete hmonth (stops_cons rfl),
    (readDigits_reads total 1).complete hweek (stops_cons rfl),
    (readDigits_reads total 1).complete hweekday hstop, hfirst, hlast, hge, hsaturday, hday⟩

theorem readDay_reads (total : Nat) : Reads (readDay total) Day Char.isDigit where
  sound := by
    intro text day rest h
    by_cases hmonth : text.head? = some 'M'
    · obtain ⟨behind, rfl⟩ := List.head?_eq_some_iff.1 hmonth
      exact exists_day_of_readDay_month h
    by_cases hjulian : text.head? = some 'J'
    · obtain ⟨behind, rfl⟩ := List.head?_eq_some_iff.1 hjulian
      exact exists_day_of_readDay_julian h
    exact exists_day_of_readDay_number hmonth hjulian h
  complete := by
    intro day part rest h hstop
    cases h with
    | nthWeekday hmonth hfirst hlast hweek hge hle hweekday hsaturday =>
      simp only [List.cons_append, List.append_assoc]
      exact readDay_month hmonth hfirst hlast hweek hge hweekday hsaturday hstop
        (Or.inl ⟨hle, rfl⟩)
    | lastWeekday hmonth hfirst hlast hweek hweekday hsaturday =>
      simp only [List.cons_append, List.append_assoc]
      exact readDay_month hmonth hfirst hlast hweek (by decide) hweekday hsaturday hstop
        (Or.inr ⟨rfl, rfl⟩)
    | julianDay hnth hge hle =>
      exact readDay_julian_eq_ok_iff.2
        ⟨_, (readDigits_reads total 3).complete hnth hstop, hge, hle, rfl⟩
    | yearDay hnth hle =>
      exact (readDay_number_eq_ok_iff (hnth.head?_ne rfl) (hnth.head?_ne rfl)).2
        ⟨_, (readDigits_reads total 3).complete hnth hstop, hle, rfl⟩

end Day

/-! ### Switches with their times -/

/-- The characters that go on a switch. -/
def isSwitchChar (c : Char) : Bool := isTimeChar c || c = '/'

theorem readSwitch_reads (total : Nat) :
    Reads (readSwitch total) SwitchTime isSwitchChar where
  sound := by
    intro text s rest h
    obtain ⟨⟨day, after⟩, hday, hbehind⟩ := bind_eq_ok.1 h
    obtain ⟨part, rfl, hpart⟩ := (readDay_reads total).sound hday
    dsimp only at hbehind
    split at hbehind
    · obtain ⟨⟨time, after'⟩, htime, hresult⟩ := bind_eq_ok.1 hbehind
      obtain ⟨part', rfl, hpart'⟩ := (readSigned_reads total).sound htime
      cases hresult
      exact ⟨_, by simp, .timed hpart hpart'⟩
    · cases hbehind
      exact ⟨_, rfl, .atTwo hpart⟩
  complete := by
    intro s part rest h hstop
    cases h with
    | atTwo hday =>
      have hread := (readDay_reads total).complete hday
        (hstop.mono fun c hc => by simp [isSwitchChar, isTimeChar, hc])
      refine bind_eq_ok.2 ⟨_, hread, ?_⟩
      dsimp only
      split
      · exact absurd (hstop '/' rfl) (by decide)
      · rfl
    | timed hday htime =>
      have htime := (readSigned_reads total).complete htime
        (hstop.mono fun c hc => by simp [isSwitchChar, hc])
      rw [List.append_assoc]
      refine bind_eq_ok.2 ⟨_, (readDay_reads total).complete hday (stops_cons rfl), ?_⟩
      exact bind_eq_ok.2 ⟨_, htime, rfl⟩

/-! ## Names -/

theorem exists_name_of_skipName (h : skipName text = .ok rest) :
    ∃ name, text = name ++ rest ∧ Name name := by
  unfold skipName at h
  split at h
  · next behind =>
    dsimp only at h
    split at h
    · contradiction
    next c after hafter =>
      split at h
      · contradiction
      next hfilled =>
        cases h
        have hclosing := List.head?_dropWhile_not (· ≠ '>') behind
        rw [hafter] at hclosing
        obtain rfl : c = '>' := by simpa using hclosing
        have hparts := List.takeWhile_append_dropWhile (p := (· ≠ '>')) (l := behind)
        rw [hafter] at hparts
        refine ⟨'<' :: (behind.takeWhile (· ≠ '>') ++ ['>']), ?_, .bracketed ?_ fun hmem => ?_⟩
        · rw [List.cons_append, List.append_assoc]
          exact congrArg _ hparts.symm
        · simpa using hfilled
        · exact absurd (List.all_eq_true.1 List.all_takeWhile _ hmem) (by decide)
  · dsimp only at h
    split at h
    · contradiction
    split at h
    · contradiction
    next hshorter =>
      cases h
      refine ⟨text.takeWhile Char.isAlpha, List.takeWhile_append_dropWhile.symm, .letters ?_ ?_⟩
      · intro hempty
        have hparts := List.takeWhile_append_dropWhile (p := Char.isAlpha) (l := text)
        rw [hempty, List.nil_append] at hparts
        exact hshorter (congrArg List.length hparts)
      · exact fun c hc => List.all_eq_true.1 List.all_takeWhile c hc

theorem skipName_of_name {name : List Char} (h : Name name) (hfilled : rest ≠ [])
    (hstop : Stops Char.isAlpha rest) : skipName (name ++ rest) = .ok rest := by
  cases h with
  | letters hname hletter =>
    obtain ⟨c, behind, rfl⟩ := List.exists_cons_of_ne_nil hname
    have hdrop := dropWhile_append_of_stops hletter hstop
    rw [List.cons_append] at hdrop ⊢
    unfold skipName
    split
    · next heq =>
      obtain ⟨rfl, -⟩ := List.cons.inj heq
      exact absurd (hletter '<' (List.mem_cons_self ..)) (by decide)
    · dsimp only
      rw [hdrop, if_neg (by simpa using hfilled), if_neg (by simp; omega)]
  | @bracketed inner hname hclosed =>
    have hinside : ∀ c ∈ inner, decide (c ≠ '>') = true :=
      fun c hc => decide_eq_true fun heq => hclosed (heq ▸ hc)
    have hclosing : Stops (· ≠ '>') ('>' :: rest) := stops_cons rfl
    have htake := takeWhile_append_of_stops hinside hclosing
    have hdrop := dropWhile_append_of_stops hinside hclosing
    rw [List.cons_append, List.append_assoc, List.singleton_append, skipName, htake, hdrop]
    dsimp only
    rw [if_neg (by simpa using hname)]

/-- Letters come after the digits and the colon. -/
theorem colon_lt_of_isAlpha {c : Char} (h : c.isAlpha = true) : ':'.toNat < c.toNat := by
  have hletter : (decide ('A'.val ≤ c.val ∧ c.val ≤ 'Z'.val) ||
      (decide ('a'.val ≤ c.val) && decide (c.val ≤ 'z'.val))) = true := h
  simp only [Bool.or_eq_true, Bool.and_eq_true, decide_eq_true_eq] at hletter
  rcases hletter with ⟨hle, -⟩ | ⟨hle, -⟩
  · exact Nat.lt_of_lt_of_le (by decide) (UInt32.le_iff_toNat_le.1 hle)
  · exact Nat.lt_of_lt_of_le (by decide) (UInt32.le_iff_toNat_le.1 hle)

theorem isTimeChar_of_isAlpha {c : Char} (h : c.isAlpha = true) : isTimeChar c = false := by
  have hlt := colon_lt_of_isAlpha h
  have hdigit : c.isDigit = false := by
    refine Bool.eq_false_iff.2 fun hc => ?_
    have hle := (Char.isDigit_iff_toNat.1 hc).2
    exact absurd (Nat.lt_of_lt_of_le hlt hle) (by decide)
  have hcolon : isColon c = false := by
    refine decide_eq_false fun heq => ?_
    rw [heq] at hlt
    exact Nat.lt_irrefl _ hlt
  rw [isTimeChar, hdigit, hcolon, Bool.or_self]

/-- A name does not go on a time. -/
theorem Grammar.Name.exists_cons {name : List Char} (h : Name name) :
    ∃ c behind, name = c :: behind ∧ isTimeChar c = false := by
  cases h with
  | letters hname hletter =>
    obtain ⟨c, behind, rfl⟩ := List.exists_cons_of_ne_nil hname
    exact ⟨c, behind, rfl, isTimeChar_of_isAlpha (hletter c (List.mem_cons_self ..))⟩
  | bracketed => exact ⟨_, _, rfl, rfl⟩

theorem Grammar.DaylightTime.exists_cons {standard : Int} {d : Daylight}
    (h : DaylightTime standard d text) : ∃ c behind, text = c :: behind ∧ isTimeChar c = false := by
  cases h with
  | hourAhead hname | withOffset hname =>
    obtain ⟨c, behind, rfl, hc⟩ := hname.exists_cons
    exact ⟨c, _, rfl, hc⟩

/-- An offset does not go on a name, and it is not left out. -/
theorem Grammar.Offset.exists_cons {offset : Int} (h : Offset offset text) :
    ∃ c behind, text = c :: behind ∧ c.isAlpha = false ∧ c ≠ ',' := by
  have hdigit : ∀ c : Char, c.isDigit = true → c.isAlpha = false ∧ c ≠ ',' := by
    intro c hc
    refine ⟨?_, fun heq => ?_⟩
    · cases hletter : c.isAlpha with
      | false => rfl
      | true => simpa [isTimeChar, hc] using isTimeChar_of_isAlpha hletter
    · rw [heq] at hc
      contradiction
  cases h with
  | westward h _ =>
    cases h with
    | bare h =>
      obtain ⟨c, behind, rfl, hc⟩ := h.exists_cons
      exact ⟨c, behind, rfl, hdigit c hc⟩
    | plus | minus => exact ⟨_, _, rfl, by decide⟩

/-! ## Whole texts -/

theorem readDaylightOffset_of_ne {standard : Int} {c : Char} (h : c ≠ ',') :
    readDaylightOffset total standard (c :: rest) = readOffset total (c :: rest) := by
  unfold readDaylightOffset
  split
  · next heq => exact absurd (List.cons.inj heq).1 h
  · rfl

theorem daylightTime_of_readDaylight {standard : Int} {d : Daylight}
    (h : readDaylight total standard text = .ok d) : DaylightTime standard d text := by
  obtain ⟨named, hname, hbehind⟩ := bind_eq_ok.1 h
  obtain ⟨⟨offset, after⟩, hoffset, hbehind₁⟩ := bind_eq_ok.1 hbehind
  obtain ⟨after₁, hcomma, hbehind₂⟩ := bind_eq_ok.1 hbehind₁
  obtain ⟨⟨start, after₂⟩, hstart, hbehind₃⟩ := bind_eq_ok.1 hbehind₂
  obtain ⟨after₃, hcomma', hbehind₄⟩ := bind_eq_ok.1 hbehind₃
  obtain ⟨⟨stop, after₄⟩, hstop, hresult⟩ := bind_eq_ok.1 hbehind₄
  obtain ⟨name, rfl, hnamed⟩ := exists_name_of_skipName hname
  obtain rfl := expect_eq_ok_iff.1 hcomma
  obtain ⟨startText, rfl, hstarts⟩ := (readSwitch_reads total).sound hstart
  obtain rfl := expect_eq_ok_iff.1 hcomma'
  obtain ⟨stopText, rfl, hstops⟩ := (readSwitch_reads total).sound hstop
  dsimp only at hresult
  split at hresult
  · next hend =>
    cases hresult
    obtain rfl := List.isEmpty_iff.1 hend
    unfold readDaylightOffset at hoffset
    split at hoffset
    · split at hoffset
      · contradiction
      next hday =>
        cases hoffset
        rw [List.append_nil]
        exact .hourAhead hnamed (Int.not_le.1 hday) hstarts hstops
    · obtain ⟨offsetText, rfl, hoffsets⟩ := (readOffset_reads total).sound hoffset
      rw [List.append_nil]
      exact .withOffset hnamed hoffsets hstarts hstops
  · contradiction

/-- The reader of daylight time, once it is past the name and the offset. -/
theorem readDaylight_of_offset {standard offset : Int} {start stop : Switch}
    {behind startText stopText : List Char} (hname : skipName text = .ok behind)
    (hoffset : readDaylightOffset total standard behind =
      .ok (offset, ',' :: (startText ++ ',' :: stopText)))
    (hstart : SwitchTime start startText) (hstop : SwitchTime stop stopText) :
    readDaylight total standard text = .ok ⟨offset, start, stop⟩ := by
  have hread := (readSwitch_reads total).complete hstart
    (show Stops isSwitchChar (',' :: stopText) from stops_cons rfl)
  have hread' := (readSwitch_reads total).complete hstop stops_nil
  rw [List.append_nil] at hread'
  exact bind_eq_ok.2 ⟨_, hname, bind_eq_ok.2 ⟨_, hoffset, bind_eq_ok.2 ⟨_, expect_cons ',',
    bind_eq_ok.2 ⟨_, hread, bind_eq_ok.2 ⟨_, expect_cons ',', bind_eq_ok.2 ⟨_, hread', rfl⟩⟩⟩⟩⟩⟩

/-- In front of an offset, a name is read to its end. -/
theorem skipName_of_offset {name offsetText : List Char} {offset : Int} (hname : Name name)
    (hoffset : Offset offset offsetText) (rest : List Char) :
    skipName (name ++ (offsetText ++ rest)) = .ok (offsetText ++ rest) := by
  obtain ⟨c, behind, rfl, hletter, -⟩ := hoffset.exists_cons
  exact skipName_of_name hname (List.cons_ne_nil _ _) (stops_cons hletter)

theorem readDaylight_eq_ok_iff {standard : Int} {d : Daylight} :
    readDaylight total standard text = .ok d ↔ DaylightTime standard d text := by
  refine ⟨daylightTime_of_readDaylight, fun h => ?_⟩
  cases h with
  | hourAhead hname hday hstart hstop =>
    refine readDaylight_of_offset (skipName_of_name hname (List.cons_ne_nil _ _) ?_) ?_ hstart hstop
    · exact stops_cons rfl
    · exact if_neg (Int.not_le.2 hday)
  | @withOffset _ _ startText stopText _ _ _ hname hoffset hstart hstop =>
    refine readDaylight_of_offset (skipName_of_offset hname hoffset _) ?_ hstart hstop
    have hcomma : Stops isTimeChar (',' :: (startText ++ ',' :: stopText)) := stops_cons rfl
    have hread := (readOffset_reads total).complete hoffset hcomma
    obtain ⟨c, behind, rfl, -, hne⟩ := hoffset.exists_cons
    exact (readDaylightOffset_of_ne hne).trans hread

theorem all_isAscii_iff : text.all isAscii = true ↔ Ascii text := by
  simp [Ascii, isAscii]

theorem rule_of_read {r : ZoneRule} (h : read text = .ok r) : Grammar.Rule r text := by
  unfold read at h
  dsimp only at h
  split at h
  · contradiction
  next hascii =>
    obtain ⟨behind, hname, hbehind⟩ := bind_eq_ok.1 h
    obtain ⟨⟨standard, after⟩, hstandard, hresult⟩ := bind_eq_ok.1 hbehind
    obtain ⟨name, rfl, hnamed⟩ := exists_name_of_skipName hname
    obtain ⟨offsetText, rfl, hoffset⟩ := (readOffset_reads _).sound hstandard
    refine ⟨all_isAscii_iff.1 (by simpa using hascii), ?_⟩
    dsimp only at hresult
    split at hresult
    · next hend =>
      cases hresult
      obtain rfl := List.isEmpty_iff.1 hend
      rw [List.append_nil]
      exact .steady hnamed hoffset
    · obtain ⟨d, hd, hrule⟩ := bind_eq_ok.1 hresult
      cases hrule
      exact .daylight hnamed hoffset (readDaylight_eq_ok_iff.1 hd)

/-- A text is a rule exactly if the grammar has it for that rule. -/
theorem read_eq_ok_iff {r : ZoneRule} : read text = .ok r ↔ Grammar.Rule r text := by
  refine ⟨rule_of_read, ?_⟩
  rintro ⟨hascii, hparts⟩
  have hall : (!text.all isAscii) = false := by rw [all_isAscii_iff.2 hascii, Bool.not_true]
  unfold read
  rw [hall, if_neg Bool.false_ne_true]
  generalize text.length = total
  cases hparts with
  | steady hname hstandard =>
    have hskip := skipName_of_offset hname hstandard []
    have hread := (readOffset_reads total).complete hstandard stops_nil
    rw [List.append_nil] at hskip hread
    exact bind_eq_ok.2 ⟨_, hskip, bind_eq_ok.2 ⟨_, hread, rfl⟩⟩
  | daylight hname hstandard hdaylight =>
    have hskip := skipName_of_offset hname hstandard
    have hdaylightTime := (@readDaylight_eq_ok_iff _ total _ _).2 hdaylight
    obtain ⟨c, behind, rfl, hc⟩ := hdaylight.exists_cons
    refine bind_eq_ok.2 ⟨_, hskip _, bind_eq_ok.2 ⟨_,
      (readOffset_reads total).complete hstandard (stops_cons hc), ?_⟩⟩
    exact bind_eq_ok.2 ⟨_, hdaylightTime, rfl⟩

theorem parse_eq_ok_iff {text : String} {r : ZoneRule} :
    parse text = .ok r ↔ Grammar.Rule r text.toList :=
  mapError_eq_ok.trans read_eq_ok_iff

theorem category_of_parse {text : String} {failure : Failure} (h : parse text = .error failure) :
    failure.category = .value := by
  unfold parse at h
  cases hread : read text.toList with
  | error fault =>
    rw [hread] at h
    cases h
    rfl
  | ok r =>
    rw [hread] at h
    contradiction

/-- The reader accepts exactly the texts of the grammar and gives the rules that they
write; every other text is malformed.  The rules that have a text are those in range,
and each of them comes back from its text, whatever the names. -/
theorem parse_exact :
    (∀ text r, parse text = .ok r ↔ Grammar.Rule r text.toList) ∧
      (∀ text, (∀ r, ¬Grammar.Rule r text.toList) →
        ∃ failure, parse text = .error failure ∧ failure.category = .value) ∧
      (∀ r : ZoneRule, r.InRange ↔ ∃ text, parse text = .ok r) ∧
      ∀ (r : ZoneRule) (name daylightName : List Char), r.InRange → Name name → Ascii name →
        Name daylightName → Ascii daylightName →
          parse (String.ofList (ruleText name daylightName r)) = .ok r := by
  have hback : ∀ (r : ZoneRule) (name daylightName : List Char), r.InRange → Name name →
      Ascii name → Name daylightName → Ascii daylightName →
        parse (String.ofList (ruleText name daylightName r)) = .ok r := by
    intro r name daylightName hrange hname hascii hname' hascii'
    rw [parse_eq_ok_iff, String.toList_ofList]
    exact rule_ruleText hrange hname hascii hname' hascii'
  refine ⟨fun _ _ => parse_eq_ok_iff, fun text hnone => ?_, fun r => ⟨fun hrange => ?_, ?_⟩, hback⟩
  · cases hparse : parse text with
    | error failure => exact ⟨failure, rfl, category_of_parse hparse⟩
    | ok r => exact absurd (parse_eq_ok_iff.1 hparse) (hnone r)
  · -- Any name will do.
    have hname : Name ['A'] := .letters (List.cons_ne_nil _ _) (List.all_eq_true.1 rfl)
    have hascii : Ascii ['A'] := by simp
    exact ⟨_, hback r ['A'] ['A'] hrange hname hascii hname hascii⟩
  · rintro ⟨text, hparse⟩
    exact (parse_eq_ok_iff.1 hparse).parts.inRange

/-- The rule of central Europe has a text and comes back from its own one, and a name
alone is no rule. -/
theorem parse_centralEurope :
    Grammar.Rule centralEurope "CET-1CEST,M3.5.0,M10.5.0/3".toList ∧
      parse (String.ofList (ruleText ['C', 'E', 'T'] ['<', '+', '2', '>'] centralEurope)) =
        .ok centralEurope ∧
      ∃ failure, parse "CET" = .error failure ∧ failure.category = .value := by
  obtain ⟨hparse, hmalformed, hrange, hback⟩ := parse_exact
  have htext : parse "CET-1CEST,M3.5.0,M10.5.0/3" = .ok centralEurope := by decide +kernel
  have hname : Name ['C', 'E', 'T'] :=
    .letters (List.cons_ne_nil _ _) (List.all_eq_true.1 rfl)
  have hname' : Name ['<', '+', '2', '>'] := @Name.bracketed ['+', '2'] (by decide) (by decide)
  refine ⟨(hparse _ _).1 htext, ?_, hmalformed "CET" fun r hr => ?_⟩
  · exact hback _ _ _ ((hrange _).2 ⟨_, htext⟩) hname (by simp) hname' (by simp)
  · have hfault : parse "CET" = .error (.rule .missingName) := by rfl
    exact nomatch hfault.symm.trans ((hparse _ _).2 hr)

end CivilTime.ZoneRule
