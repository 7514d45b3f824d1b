import CivilTime.Proofs.DifferenceAcrossZones
import CivilTime.Proofs.ElapsedTime
import CivilTime.Proofs.ReadingSums

/-!
# Subtracting undoes adding

In absolute mode an interval is added to a reading, the reading is brought into
its ranges, and the zone says which instant it means.  Subtracting the interval
goes back if each of these steps can be undone.

* `Amounts.Undoable` are the amounts for which `Reading.normalize_plus_opposite`
  undoes the sum.  Days and smaller units carry by their total, which can be taken
  back; months can be taken back if the day exists in every month, since then no
  day overflows.
* `reading_of_ofReading` and `ofReading_reading` are about clocks that stand still:
  a reading means an instant with that reading, and an instant is the one that its
  reading means.  On other clocks both have to be asked for.
* `subtract_add` is the result.
-/

namespace CivilTime

/-! ## Opposite amounts -/

namespace Amounts

/-- Amounts that can be taken back after they are added on a day of the month:
they have no months, or nothing but months while every month has the day. -/
def Undoable (a : Amounts) (day : Int) : Prop :=
  a.years = 0 ∧ a.months = 0 ∨ a = { years := a.years, months := a.months } ∧ day ≤ 28

theorem Undoable.scale {a : Amounts} {day : Int} (h : a.Undoable day) (factor : Int) :
    (a.scale factor).Undoable day := by
  rcases h with ⟨hyears, hmonths⟩ | ⟨hmonths, hday⟩
  · left
    simp [Amounts.scale, hyears, hmonths]
  · right
    rw [hmonths]
    exact ⟨by simp [Amounts.scale], hday⟩

end Amounts

namespace Reading

variable {r s : Reading} {a : Amounts}

/-- Days and smaller units are taken back by their total. -/
theorem normalize_plus_opposite_of_noMonths (hr : r.Valid) (hyears : a.years = 0)
    (hmonths : a.months = 0) (h : (r.plus a).normalize = .ok s) :
    (s.plus (a.scale (-1))).normalize = .ok r := by
  obtain ⟨hs, htotal⟩ := (normalize_plus_iff_of_noMonths hr hyears hmonths).1 h
  have htime := a.timeMicros_opposite
  have hdays : (a.scale (-1)).days = -1 * a.days := rfl
  refine (normalize_plus_iff_of_noMonths hs ?_ ?_).2 ⟨hr, by omega⟩
  · simp [Amounts.scale, hyears]
  · simp [Amounts.scale, hmonths]

/-- Months added to a day that every month has are taken back. -/
theorem normalize_plus_opposite_of_months (hr : r.Valid) (hday : r.day ≤ 28) {years months : Int}
    (h : (r.plus { years, months }).normalize = .ok s) :
    (s.plus (Amounts.scale (-1) { years, months })).normalize = .ok r := by
  have hreached := eq_onDate_of_months hr hday h
  have hmonth : monthIndex s.year s.month = monthIndex r.year r.month + 12 * years + months := by
    rw [hreached]
    exact monthIndex_of_parts _
  have hreturn : monthIndex (s.year + -1 * years) (s.month + -1 * months) =
      monthIndex r.year r.month := by
    rw [monthIndex_add, hmonth]
    omega
  have hback : s.plus (Amounts.scale (-1) { years, months }) =
      s.plus { years := -1 * years, months := -1 * months } := rfl
  rw [hback, normalize_eq_ok_iff, microTotal_plus_months]
  simp only [plus]
  rw [hreturn]
  refine ⟨monthYear_bounds hr, hr, ?_⟩
  rw [← monthIndex_add, hreturn, hreached]
  rfl

/-- A sum with amounts that can be taken back goes back to the reading. -/
theorem normalize_plus_opposite (hr : r.Valid) (ha : a.Undoable r.day)
    (h : (r.plus a).normalize = .ok s) : (s.plus (a.scale (-1))).normalize = .ok r := by
  rcases ha with ⟨hyears, hmonths⟩ | ⟨hmonths, hday⟩
  · exact normalize_plus_opposite_of_noMonths hr hyears hmonths h
  · rw [hmonths] at h ⊢
    exact normalize_plus_opposite_of_months hr hday h

end Reading

namespace Instant

variable {t u : Instant} {zone : Zone} {r : Reading} {choice : Choice} {i : Interval}

/-! ## Clocks that stand still -/

/-- On a clock that stands still, a reading means an instant with that reading. -/
theorem reading_of_ofReading (hnamed : ∀ data, zone ≠ .named data) (hr : r.Valid)
    (h : ofReading zone r choice = .ok u) : u.reading = r := by
  obtain ⟨hu, rfl, hepoch, hmicro⟩ := (ofReading_eq_ok_iff hr).1 h
  rw [epochOf_eq hnamed hu.prescribed] at hepoch
  have hshown := Except.ok.inj hepoch
  have hshows := hu.shows
  refine Reading.eq_of_localSeconds hu.valid hr ?_ hmicro
  unfold offset at hshows
  omega

/-- On a clock that stands still, an instant is the one that its reading means. -/
theorem ofReading_reading (ht : t.Consistent) (hnamed : ∀ data, t.zone ≠ .named data)
    (choice : Choice) : ofReading t.zone t.reading choice = .ok t := by
  refine (ofReading_eq_ok_iff ht.valid).2 ⟨ht, rfl, ?_, rfl⟩
  have hshows := ht.shows
  unfold offset at hshows
  rw [epochOf_eq hnamed ht.prescribed]
  exact congrArg Except.ok (by omega)

/-! ## Adding and subtracting -/

/-- A sum is the instant that the sum of the reading means. -/
theorem exists_reading_of_shiftReading {a : Amounts} (h : t.shiftReading (.amounts a) = .ok u) :
    ∃ r, (t.reading.plus a).normalize = .ok r ∧ r.Valid ∧
      ofReading t.zone r .compatible = .ok u := by
  obtain ⟨moved, hmoved, -⟩ := bind_eq_ok.1 h
  obtain ⟨r, hr, -⟩ := bind_eq_ok.1 hmoved
  have hvalid := (Reading.valid_of_normalize hr).2.1
  rw [shiftReading_eq hr hvalid] at h
  exact ⟨r, hr, hvalid, h⟩

/-- An interval is subtracted by adding its opposite amounts to the reading. -/
theorem subtract_eq (hr : (u.reading.plus ((i.signed 1).scale (-1))).normalize = .ok r)
    (hvalid : r.Valid) : u.subtract (.interval i) = ofReading u.zone r .compatible := by
  change u.shiftReading (.amounts (i.signed (-1))) = _
  rw [Interval.signed_neg]
  exact shiftReading_eq hr hvalid

/-- Subtracting an interval undoes adding it, if its amounts can be taken back, the
instant is the one that its reading means, and the sum has the reading that was
added up.  On a clock that stands still, the last two are always so. -/
theorem subtract_add (ht : t.Consistent) (hi : i.amounts.Undoable t.reading.day)
    (hu : t.add (.interval i) = .ok u) :
    (ofReading t.zone t.reading .compatible = .ok t →
        (t.reading.plus (i.signed 1)).normalize = .ok u.reading →
        u.subtract (.interval i) = .ok t) ∧
      ((∀ data, t.zone ≠ .named data) →
        ofReading t.zone t.reading .compatible = .ok t ∧
          (t.reading.plus (i.signed 1)).normalize = .ok u.reading ∧
          u.subtract (.interval i) = .ok t) := by
  obtain ⟨r, hr, hvalid, hmeant⟩ := exists_reading_of_shiftReading (a := i.signed 1) hu
  have hzone : u.zone = t.zone := ((ofReading_eq_ok_iff hvalid).1 hmeant).2.1
  have hundo : ofReading t.zone t.reading .compatible = .ok t →
      (t.reading.plus (i.signed 1)).normalize = .ok u.reading →
      u.subtract (.interval i) = .ok t := by
    intro hself hsum
    have hback := Reading.normalize_plus_opposite ht.valid (hi.scale _) hsum
    rw [subtract_eq hback ht.valid, hzone]
    exact hself
  refine ⟨hundo, fun hnamed => ?_⟩
  have hself := ofReading_reading ht hnamed .compatible
  have hsum : (t.reading.plus (i.signed 1)).normalize = .ok u.reading := by
    rw [reading_of_ofReading hnamed hvalid hmeant]
    exact hr
  exact ⟨hself, hsum, hundo hself hsum⟩

/-- A month before the clock of the zone goes back. -/
def octoberHalfPastOne : Instant where
  reading := ⟨2023, 10, 5, 1, 30, 0, 0⟩
  epoch := 1696483800
  kept := -14400
  isDaylight := true
  zone := .named eastern

theorem consistent_octoberHalfPastOne : octoberHalfPastOne.Consistent :=
  ⟨(Reading.check_eq_ok_iff _).1 rfl, rfl, rfl⟩

/-- A month later the reading occurs twice, and the first of the two is meant both
ways. -/
theorem subtract_add_octoberHalfPastOne :
    octoberHalfPastOne.add (.interval ⟨{ months := 1 }, false, none⟩) = .ok sundayHalfPastOne ∧
      sundayHalfPastOne.subtract (.interval ⟨{ months := 1 }, false, none⟩) =
        .ok octoberHalfPastOne := by
  have hsum : octoberHalfPastOne.add (.interval ⟨{ months := 1 }, false, none⟩) =
      .ok sundayHalfPastOne := rfl
  exact ⟨hsum,
    (subtract_add consistent_octoberHalfPastOne (Or.inr ⟨rfl, by decide⟩) hsum).1 rfl rfl⟩

end Instant

end CivilTime
