import CivilTime.Proofs.OutOfRange
import CivilTime.Proofs.ReadingSums
import CivilTime.Proofs.ShiftModes

/-!
# Moves by months meet

A move to the first or the last day of a month looks at the month of a reading only, and keeps its
time of day.  On a clock that stands still such moves can be put together: the month that is reached
counts, and the kind of the last move.

* `SpecialKind.dateIn` is the date that a move leads to, by the number of the month, and
  `add_monthMove_eq_ok_iff` the instant.
* `shiftReading_congr` is why moves meet: the move of a reading and the zone decide, and not the
  instant.
* `Reading.normalize_nextDay_eq_ok_iff` is the reason why the day after the last of a month is the
  first of the next.
* `monthMoves_meet` is the result.
-/

namespace CivilTime

/-! ## The dates of moves by months -/

namespace SpecialKind

/-- The first or the last day of a month, by the number of the month. -/
def dateIn (kind : SpecialKind) (index : Int) : Date :=
  ⟨index / 12, index % 12 + 1, if kind = .lastDayOf then lengthOf index else 1⟩

theorem monthIndex_dateIn (kind : SpecialKind) (index : Int) :
    monthIndex (kind.dateIn index).year (kind.dateIn index).month = index :=
  monthIndex_of_parts index

end SpecialKind

namespace Reading

variable {r s : Reading} {kind : SpecialKind}

/-- A move by months leads to a day of the month that lies so many months away. -/
theorem move_month (hkind : kind ≠ .weekdays) (r : Reading) (amount : Int) :
    r.move (.special ⟨kind, amount⟩) =
      .ok (r.onDate (kind.dateIn (monthIndex r.year r.month + amount))) := by
  have hindex : monthIndex r.year (r.month + amount) = monthIndex r.year r.month + amount := by
    unfold monthIndex
    omega
  cases kind with
  | weekdays => exact absurd rfl hkind
  | firstDayOf =>
    simp only [move, SpecialMove.apply, carryInto_month, date, hindex]
    rfl
  | lastDayOf =>
    simp only [move, SpecialMove.apply, carryInto_month, date, hindex]
    rfl

/-- The day after the last of a month is the first of the next. -/
theorem normalize_nextDay_eq_ok_iff (hr : r.Valid) {index : Int}
    (hindex : (r.onDate (SpecialKind.dateIn .lastDayOf index)).Valid) (hs : s.Valid) :
    ((r.onDate (SpecialKind.dateIn .lastDayOf index)).plus { days := 1 }).normalize = .ok s ↔
      s = r.onDate (SpecialKind.dateIn .firstDayOf (index + 1)) := by
  have hlength : 28 ≤ lengthOf (index + 1) := le_monthLength _ _
  have hlast : SpecialKind.dateIn .lastDayOf index =
      ⟨index / 12, index % 12 + 1, lengthOf index⟩ := rfl
  have hday : Amounts.days { days := 1 } * 86400000000 + Amounts.timeMicros { days := 1 } =
      86400000000 := rfl
  have htotal : (r.onDate (SpecialKind.dateIn .lastDayOf index)).microTotal + 86400000000 =
      ((firstDay (index + 1) + 1 - 1) * 86400 + r.daySeconds) * 1000000 + r.microsecond := by
    rw [hlast, microTotal_onDate, firstDay_succ]
    omega
  rw [normalize_plus_iff_of_noMonths hindex rfl rfl, hday, htotal]
  constructor
  · rintro ⟨-, hsame⟩
    exact eq_onDate_of_microTotal hr hs (Int.le_refl 1) (by omega) hsame
  · rintro rfl
    exact ⟨hs, microTotal_onDate r (index + 1) 1⟩

end Reading

namespace Instant

variable {t u v : Instant} {m : Movement} {kind : SpecialKind}

/-! ## Moves on a clock that stands still -/

/-- What a moved reading means depends on the zone and the reading alone. -/
theorem shiftReading_congr {m' : Movement} (hzone : u.zone = t.zone)
    (hmove : u.reading.move m' = t.reading.move m) : u.shiftReading m' = t.shiftReading m := by
  simp only [shiftReading, atMoved, hzone, hmove]

/-- On a clock that stands still, a shift leads to the instant with the moved reading. -/
theorem shiftReading_eq_ok_iff (ht : t.Consistent) (hnamed : ∀ data, t.zone ≠ .named data) :
    t.shiftReading m = .ok u ↔
      u.Consistent ∧ u.zone = t.zone ∧ t.reading.move m = .ok u.reading := by
  constructor
  · intro h
    obtain ⟨moved, hmoved, -⟩ := bind_eq_ok.1 h
    obtain ⟨r, hr, hread⟩ := bind_eq_ok.1 hmoved
    obtain ⟨day, hday, -⟩ := bind_eq_ok.1 hread
    have hdate : r.date.Valid := ((Date.toDayNumber_eq_ok_iff _ _).1 hday).1
    have hvalid : r.Valid := Reading.valid_of_move ht.valid hr hdate
    rw [shiftReading_eq hr hvalid] at h
    obtain ⟨hu, hzone, -⟩ := (ofReading_eq_ok_iff hvalid).1 h
    exact ⟨hu, hzone, reading_of_ofReading hnamed hvalid h ▸ hr⟩
  · rintro ⟨hu, hzone, hr⟩
    rw [shiftReading_eq hr hu.valid, ← hzone]
    exact ofReading_reading hu (hzone ▸ hnamed) .compatible

/-- On a clock that stands still, a move by months leads to the instant on the date of the move, at
the same time of day. -/
theorem add_monthMove_eq_ok_iff (ht : t.Consistent) (hnamed : ∀ data, t.zone ≠ .named data)
    (hkind : kind ≠ .weekdays) {amount : Int} :
    t.add (.special ⟨kind, amount⟩) = .ok u ↔
      u.Consistent ∧ u.zone = t.zone ∧
        u.reading =
          t.reading.onDate (kind.dateIn (monthIndex t.reading.year t.reading.month + amount)) := by
  change t.shiftReading (.special ⟨kind, amount⟩) = .ok u ↔ _
  rw [shiftReading_eq_ok_iff ht hnamed, Reading.move_month hkind, Except.ok.injEq,
    eq_comm (a := u.reading)]

/-- Two moves by months after each other are one. -/
theorem add_add_monthMove (ht : t.Consistent) (hnamed : ∀ data, t.zone ≠ .named data)
    {kind' : SpecialKind} (hkind : kind ≠ .weekdays) (hkind' : kind' ≠ .weekdays)
    {amount amount' : Int} (hu : t.add (.special ⟨kind, amount⟩) = .ok u) :
    u.add (.special ⟨kind', amount'⟩) = t.add (.special ⟨kind', amount + amount'⟩) := by
  obtain ⟨-, hzone, hreading⟩ := (add_monthMove_eq_ok_iff ht hnamed hkind).1 hu
  have hindex : monthIndex u.reading.year u.reading.month =
      monthIndex t.reading.year t.reading.month + amount := by
    rw [hreading]
    exact kind.monthIndex_dateIn _
  change u.shiftReading (.special ⟨kind', amount'⟩) =
    t.shiftReading (.special ⟨kind', amount + amount'⟩)
  apply shiftReading_congr hzone
  rw [Reading.move_month hkind', Reading.move_month hkind', hindex, Int.add_assoc, hreading]
  rfl

/-- The day after the last of a month is the first of the next. -/
theorem add_nextDay_eq_ok_iff (ht : t.Consistent) (hnamed : ∀ data, t.zone ≠ .named data)
    {amount : Int} (hu : t.add (.special ⟨.lastDayOf, amount⟩) = .ok u) :
    u.add (.interval ⟨{ days := 1 }, false, none⟩) = .ok v ↔
      t.add (.special ⟨.firstDayOf, amount + 1⟩) = .ok v := by
  obtain ⟨huc, hzone, hreading⟩ := (add_monthMove_eq_ok_iff ht hnamed (by decide)).1 hu
  rw [add_forward, shiftReading_amounts_eq_ok_iff (hzone ▸ hnamed),
    add_monthMove_eq_ok_iff ht hnamed (by decide), hzone, hreading, ← Int.add_assoc]
  refine and_congr_right fun hv => and_congr_right fun _ => ?_
  exact Reading.normalize_nextDay_eq_ok_iff ht.valid (hreading ▸ huc.valid) hv.valid

/-- Moves by months to the first or the last day of a month meet, on a clock that stands still.
They keep the time of day, and two of them are one move of the second kind by the sum.  The day
after the last of a month is the first of the next.  Plain amounts of months do not meet: where the
month reached is too short for the day, they lead into the month after it. -/
theorem monthMoves_meet (ht : t.Consistent) (hnamed : ∀ data, t.zone ≠ .named data) (m n : Int) :
    (∀ kind kind' : SpecialKind, kind ≠ .weekdays → kind' ≠ .weekdays →
        ∀ u, t.add (.special ⟨kind, m⟩) = .ok u →
          u.reading =
              t.reading.onDate (kind.dateIn (monthIndex t.reading.year t.reading.month + m)) ∧
            u.add (.special ⟨kind', n⟩) = t.add (.special ⟨kind', m + n⟩)) ∧
      (∀ u, t.add (.special ⟨.lastDayOf, m⟩) = .ok u → ∀ v,
        u.add (.interval ⟨{ days := 1 }, false, none⟩) = .ok v ↔
          t.add (.special ⟨.firstDayOf, m + 1⟩) = .ok v) ∧
      (∀ u, t.add (.interval ⟨{ months := m }, false, none⟩) = .ok u →
        lengthOf (monthIndex t.reading.year t.reading.month + m) < t.reading.day →
          u.reading = t.reading.onDate
            ⟨(monthIndex t.reading.year t.reading.month + m + 1) / 12,
              (monthIndex t.reading.year t.reading.month + m + 1) % 12 + 1,
              t.reading.day - lengthOf (monthIndex t.reading.year t.reading.month + m)⟩) := by
  refine ⟨?meet, ?nextDay, ?pastMonth⟩
  case meet =>
    intro kind kind' hkind hkind' u hu
    exact ⟨((add_monthMove_eq_ok_iff ht hnamed hkind).1 hu).2.2,
      add_add_monthMove ht hnamed hkind hkind' hu⟩
  case nextDay =>
    intro u hu v
    exact add_nextDay_eq_ok_iff ht hnamed hu
  case pastMonth =>
    intro u hu hshort
    rw [add_forward, shiftReading_amounts_eq_ok_iff hnamed] at hu
    exact Reading.eq_onDate_of_pastMonth ht.valid hshort hu.2.2

/-- Noon of the last day of January, five and a half hours ahead of UTC. -/
def lastOfJanuary : Instant where
  reading := ⟨2023, 1, 31, 12, 0, 0, 0⟩
  epoch := 1675146600
  kept := 19800
  isDaylight := false
  zone := .fixed ⟨19800, by decide⟩

/-- Noon of the last day of February. -/
def lastOfFebruary : Instant :=
  { lastOfJanuary with reading := ⟨2023, 2, 28, 12, 0, 0, 0⟩, epoch := 1677565800 }

/-- Noon of the first day of March. -/
def firstOfMarch : Instant :=
  { lastOfJanuary with reading := ⟨2023, 3, 1, 12, 0, 0, 0⟩, epoch := 1677652200 }

/-- Noon of the third day of March. -/
def thirdOfMarch : Instant :=
  { lastOfJanuary with reading := ⟨2023, 3, 3, 12, 0, 0, 0⟩, epoch := 1677825000 }

/-- From the end of January by way of February: on to the end of another February, which has a leap
day, and to the first of March.  A plain month goes past the end of February. -/
theorem monthMoves_meet_lastOfJanuary :
    lastOfJanuary.add (.special ⟨.lastDayOf, 1⟩) = .ok lastOfFebruary ∧
      lastOfFebruary.add (.special ⟨.lastDayOf, 12⟩) =
        lastOfJanuary.add (.special ⟨.lastDayOf, 13⟩) ∧
      lastOfFebruary.add (.interval ⟨{ days := 1 }, false, none⟩) = .ok firstOfMarch ∧
      lastOfJanuary.add (.interval ⟨{ months := 1 }, false, none⟩) = .ok thirdOfMarch ∧
      thirdOfMarch.reading = lastOfJanuary.reading.onDate ⟨2023, 3, 3⟩ := by
  have hconsistent : lastOfJanuary.Consistent := ⟨(Reading.check_eq_ok_iff _).1 rfl, rfl, rfl⟩
  have hfebruary : lastOfJanuary.add (.special ⟨.lastDayOf, 1⟩) = .ok lastOfFebruary := rfl
  have hmarch : lastOfJanuary.add (.special ⟨.firstDayOf, 2⟩) = .ok firstOfMarch := rfl
  have hmonth : lastOfJanuary.add (.interval ⟨{ months := 1 }, false, none⟩) = .ok thirdOfMarch :=
    rfl
  obtain ⟨hmeet, hnextDay, hpast⟩ := monthMoves_meet hconsistent (fun _ h => nomatch h) 1 12
  exact ⟨hfebruary, (hmeet .lastDayOf .lastDayOf (by decide) (by decide) _ hfebruary).2,
    (hnextDay _ hfebruary _).2 hmarch, hmonth, hpast _ hmonth (by decide)⟩

end Instant

end CivilTime
