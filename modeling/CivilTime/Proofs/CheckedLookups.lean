import CivilTime.Proofs.ReadZones
import CivilTime.Proofs.RuleDays

/-!
# Lookups fail at the ends of the calendar alone

The lookups of a zone read their tables at indices that are known to be there, and
take the days of a rule from arithmetic that cannot fail.  The same lookups are
spelled out here with every check made where it is due: `LookupFault` names what
could go wrong at each.

* `checkedSearch` and `entryAt` read a table only after a look at the index, which
  may count from the end.
* `ZoneRule.checkedPeriodAt` and `ZoneRule.checkedLocalTimeAt` find each switch by its
  date, and ask for daylight time wherever they use it.
* `ZoneData.checkedOffsetAt`, `ZoneData.checkedPeriodAt` and
  `ZoneData.checkedLocalTimeAt` look a time up in the zone.
* `ZoneData.lookups_fail_iff` is the result: in a zone that is read, no check is
  failed but that of the year, and that exactly outside the calendar.
-/

namespace CivilTime

/-- What could go wrong in a lookup. -/
inductive LookupFault where
  /-- A second without a year in the calendar. -/
  | year (failure : Failure)
  /-- The day of a switch has no date. -/
  | date (failure : Failure)
  /-- An index that the table does not have. -/
  | index
  /-- Daylight time is taken for granted, and the rule has none. -/
  | daylight
  /-- An entry is taken for granted, and nothing is recorded. -/
  | nothing
  deriving DecidableEq

/-! ## Tables -/

section Table

variable {α : Type} (key : α → Int) (entries : Array α) (x : Int)

/-- The search of a window, with a look at the index before each entry is read. -/
def checkedSearch (left right : Nat) : Except LookupFault Nat :=
  if left < right then
    let middle := (left + right) / 2
    match entries[middle]? with
    | none => .error .index
    | some entry =>
      if key entry ≤ x then checkedSearch (middle + 1) right
      else checkedSearch left middle
  else .ok left
termination_by right - left

/-- The index of the first entry after, if the search does not reach the end. -/
def checkedFirstAfter : Except LookupFault (Option Nat) := do
  let index ← checkedSearch key entries x 0 entries.size
  return if index ≠ entries.size then some index else none

variable {key entries x}

/-- The entry at an index.  Negative indices count from the end. -/
def entryAt (entries : Array α) (index : Int) : Except LookupFault α :=
  let place := if index < 0 then index + entries.size else index
  if place < 0 then .error .index
  else
    match entries[place.toNat]? with
    | some entry => .ok entry
    | none => .error .index

/-- The search reads only entries that are there. -/
theorem checkedSearch_eq (left right : Nat) (hright : right ≤ entries.size) :
    checkedSearch key entries x left right =
      .ok (searchWindow key entries x left right hright) := by
  fun_induction searchWindow key entries x left right hright with
  | case1 left right hright hlt middle hmiddle hle ih =>
    rw [checkedSearch, if_pos hlt]
    dsimp only
    rw [Array.getElem?_eq_getElem hmiddle]
    dsimp only
    rw [if_pos hle]
    exact ih
  | case2 left right hright hlt middle hmiddle hgt ih =>
    rw [checkedSearch, if_pos hlt]
    dsimp only
    rw [Array.getElem?_eq_getElem hmiddle]
    dsimp only
    rw [if_neg hgt]
    exact ih
  | case3 left right hright hclosed => rw [checkedSearch, if_neg hclosed]

theorem checkedFirstAfter_eq :
    checkedFirstAfter key entries x = .ok ((firstAfter key entries x).map Fin.val) := by
  have hbounds := searchWindow_bounds key entries x 0 entries.size (Nat.le_refl _) (Nat.zero_le _)
  rw [checkedFirstAfter, checkedSearch_eq 0 entries.size (Nat.le_refl _), firstAfter]
  dsimp only [Bind.bind, Except.bind, Pure.pure, Except.pure]
  split
  · rw [dif_pos (by omega)]
    rfl
  · rw [dif_neg (by omega)]
    rfl

theorem entryAt_eq {index : Int} (hindex : 0 ≤ index) (h : index.toNat < entries.size) :
    entryAt entries index = .ok entries[index.toNat] := by
  have hplace : ¬index < 0 := by omega
  simp only [entryAt, if_neg hplace, Array.getElem?_eq_getElem h]

/-- The last entry of a table that has one. -/
theorem entryAt_last (h : entries.size - 1 < entries.size) :
    entryAt entries (-1) = .ok entries[entries.size - 1] := by
  have hplace : ¬-1 + (entries.size : Int) < 0 := by omega
  have hindex : (-1 + (entries.size : Int)).toNat = entries.size - 1 := by omega
  simp only [entryAt, if_pos (show (-1 : Int) < 0 by decide), if_neg hplace, hindex,
    Array.getElem?_eq_getElem h]

end Table

/-! ## Rules -/

/-- The moment of a switch in a year, by the date of its day. -/
def Switch.checkedIn (s : Switch) (year : Int) : Except LookupFault Int := do
  let date ← (s.day.dateIn year).mapError .date
  return date.dayNumber * 86400 + s.time

theorem Switch.checkedIn_eq {s : Switch} (h : ZoneRule.SwitchInRange s) {year : Int}
    (hfirst : 1 ≤ year) (hlast : year ≤ 9999) : s.checkedIn year = .ok (s.inYear year) := by
  obtain ⟨date, hdate, -, -, hday⟩ := RuleDay.dateIn_eq_ok h.day hfirst hlast
  rw [checkedIn, hdate, inYear, ← hday]
  rfl

namespace ZoneRule

variable (r : ZoneRule)

/-- The daylight time of a rule that is taken to have it. -/
def checkedDaylight : Except LookupFault Daylight :=
  match r.daylight with
  | some d => .ok d
  | none => .error .daylight

/-- Begin and end of daylight time in a year, each on the clock in use just before
it. -/
def checkedLocalBounds (year : Int) : Except LookupFault (Int × Int) := do
  let d ← r.checkedDaylight
  let start ← d.start.checkedIn year
  let stop ← d.stop.checkedIn year
  return (start, stop)

/-- Begin and end of daylight time in a year as exact times. -/
def checkedExactBounds (year : Int) : Except LookupFault (Int × Int) := do
  let d ← r.checkedDaylight
  let (start, stop) ← r.checkedLocalBounds year
  return (start - r.standard, stop - d.offset)

/-- A moment of the year before, unless that is before the calendar. -/
def checkedEarlier (year : Int) (bound : Int × Int → Int) : Except LookupFault (Option Int) :=
  if year ≤ 1 then .ok none
  else do
    let bounds ← r.checkedExactBounds (year - 1)
    return some (bound bounds)

/-- The offset period around an exact time. -/
def checkedPeriodAt (epoch : Int) : Except LookupFault OffsetPeriod :=
  match r.daylight with
  | none => .ok ⟨r.standard, none, false⟩
  | some d => do
    let year ← (yearAt (epoch + r.standard)).mapError .year
    let (start, stop) ← r.checkedExactBounds year
    if start < stop then
      if start ≤ epoch ∧ epoch < stop then return ⟨d.offset, some start, true⟩
      else if stop ≤ epoch then return ⟨r.standard, some stop, false⟩
      else
        let before ← r.checkedEarlier year Prod.snd
        return ⟨r.standard, before, false⟩
    else
      if stop ≤ epoch ∧ epoch < start then return ⟨r.standard, some stop, false⟩
      else if start ≤ epoch then return ⟨d.offset, some start, true⟩
      else
        let before ← r.checkedEarlier year Prod.fst
        return ⟨d.offset, before, true⟩

/-- How often a local time occurs. -/
def checkedLocalTimeAt (time : Int) : Except LookupFault LocalTime :=
  match r.daylight with
  | none => .ok (.once r.standard)
  | some d => do
    let year ← (yearAt time).mapError .year
    let (start, stop) ← r.checkedLocalBounds year
    return if start < stop then Daylight.localTimeBetween start stop r.standard d.offset time
      else Daylight.localTimeBetween stop start d.offset r.standard time

variable {r} {d : Daylight} {year : Int}

theorem checkedLocalBounds_eq (h : r.InRange) (hd : r.daylight = some d) (hfirst : 1 ≤ year)
    (hlast : year ≤ 9999) : r.checkedLocalBounds year = .ok (d.localBounds year) := by
  have hrange := h.daylight d hd
  rw [checkedLocalBounds, checkedDaylight, hd]
  dsimp only [Bind.bind, Except.bind]
  rw [Switch.checkedIn_eq hrange.start hfirst hlast]
  dsimp only
  rw [Switch.checkedIn_eq hrange.stop hfirst hlast]
  rfl

theorem checkedExactBounds_eq (h : r.InRange) (hd : r.daylight = some d) (hfirst : 1 ≤ year)
    (hlast : year ≤ 9999) :
    r.checkedExactBounds year = .ok (d.exactBounds r.standard year) := by
  rw [checkedExactBounds, checkedLocalBounds_eq h hd hfirst hlast, checkedDaylight, hd]
  rfl

/-- The year before is asked for its switches only if it lies in the calendar. -/
theorem checkedEarlier_eq (h : r.InRange) (hd : r.daylight = some d) (hlast : year ≤ 9999)
    (bound : Int × Int → Int) :
    r.checkedEarlier year bound =
      .ok (Daylight.earlier year (bound (d.exactBounds r.standard (year - 1)))) := by
  rw [checkedEarlier, Daylight.earlier]
  split
  · rfl
  · rw [checkedExactBounds_eq h hd (by omega) (by omega)]
    rfl

theorem checkedPeriodAt_eq (h : r.InRange) (x : Int) :
    r.checkedPeriodAt x = (r.periodAt x).mapError .year := by
  rw [checkedPeriodAt, periodAt]
  cases hd : r.daylight with
  | none => rfl
  | some d =>
    dsimp only
    cases hyear : yearAt (x + r.standard) with
    | error failure => rfl
    | ok year =>
      obtain ⟨⟨hfirst, hlast⟩, -⟩ := (yearAt_eq_ok_iff _ _).1 hyear
      have hearlier := checkedEarlier_eq h hd hlast
      dsimp only [Bind.bind, Except.bind, Except.mapError]
      rw [checkedExactBounds_eq h hd hfirst hlast, hearlier, hearlier, Daylight.periodIn]
      dsimp only [Pure.pure, Except.pure]
      split
      · split
        · rfl
        · split <;> rfl
      · split
        · rfl
        · split <;> rfl

theorem checkedLocalTimeAt_eq (h : r.InRange) (time : Int) :
    r.checkedLocalTimeAt time = (r.localTimeAt time).mapError .year := by
  rw [checkedLocalTimeAt, localTimeAt]
  cases hd : r.daylight with
  | none => rfl
  | some d =>
    dsimp only
    cases hyear : yearAt time with
    | error failure => rfl
    | ok year =>
      obtain ⟨⟨hfirst, hlast⟩, -⟩ := (yearAt_eq_ok_iff _ _).1 hyear
      dsimp only [Bind.bind, Except.bind, Except.mapError]
      rw [checkedLocalBounds_eq h hd hfirst hlast]
      rfl

end ZoneRule

/-! ## Zones -/

namespace ZoneData

variable (z : ZoneData)

/-- The last entry of a table that is taken to have one. -/
def checkedLast : Except LookupFault ExactEntry :=
  if z.exactTable.size = 0 then .error .nothing else entryAt z.exactTable (-1)

/-- The offset at an exact time, and whether it is daylight time. -/
def checkedOffsetAt (epoch : Int) : Except LookupFault (Int × Bool) := do
  match ← checkedFirstAfter ExactEntry.since z.exactTable epoch with
  | some index =>
    let entry ← entryAt z.exactTable (max 0 ((index : Int) - 1))
    return (entry.offset, entry.isDaylight)
  | none =>
    match z.rule with
    | some rule =>
      let period ← rule.checkedPeriodAt epoch
      return (period.offset, period.isDaylight)
    | none =>
      let entry ← z.checkedLast
      return (entry.offset, entry.isDaylight)

/-- The last recorded transition, if any is recorded. -/
def checkedLastTransition : Except LookupFault (Option ExactEntry) :=
  if 1 < z.exactTable.size then do
    let entry ← entryAt z.exactTable (-1)
    return some entry
  else .ok none

/-- The period around an exact time, where a transition before it is known. -/
def checkedPeriodAt (epoch : Int) : Except LookupFault (Option OffsetPeriod) := do
  match ← checkedFirstAfter ExactEntry.since z.exactTable epoch with
  | some index =>
    if index ≤ 1 then return none
    else
      let entry ← entryAt z.exactTable ((index : Int) - 1)
      return some entry.period
  | none =>
    let last ← z.checkedLastTransition
    match z.rule with
    | some rule =>
      let period ← rule.checkedPeriodAt epoch
      return periodAfter last period
    | none => return last.map ExactEntry.period

/-- How often a local time occurs. -/
def checkedLocalTimeAt (time : Int) : Except LookupFault LocalTime := do
  match ← checkedFirstAfter WallEntry.limit z.wallTable time with
  | some index =>
    let entry ← entryAt z.wallTable index
    return entry.localTimeAt time
  | none =>
    match z.rule with
    | some rule => rule.checkedLocalTimeAt time
    | none =>
      if z.wallTable.size = 0 ∧ z.exactTable.size = 0 then .error .nothing
      else if z.wallTable.size ≠ 0 then
        let entry ← entryAt z.wallTable (-1)
        return .once (entry.offset + entry.change)
      else
        let entry ← entryAt z.exactTable (-1)
        return .once entry.offset

variable {z} {x time : Int}

theorem checkedLast_eq (hrule : z.rule = none) : z.checkedLast = .ok (z.lastEntry hrule) := by
  have hrecorded : z.exactTable.size ≠ 0 := by
    rcases z.known with hrecorded | hruled
    · exact hrecorded
    · simp [hrule] at hruled
  rw [checkedLast, if_neg hrecorded, entryAt_last (by omega)]
  rfl

theorem checkedLastTransition_eq : z.checkedLastTransition = .ok z.lastTransition := by
  rw [checkedLastTransition, lastTransition]
  split
  · rw [entryAt_last (by omega)]
    rfl
  · rfl

theorem checkedOffsetAt_eq (h : z.IsRead) (x : Int) :
    z.checkedOffsetAt x = (z.offsetAt x).mapError .year := by
  rw [checkedOffsetAt, checkedFirstAfter_eq]
  cases hfound : firstAfter ExactEntry.since z.exactTable x with
  | some index =>
    have hentry : entryAt z.exactTable (max 0 ((index.val : Int) - 1)) =
        .ok (z.entryBefore index) := by
      have hplace : (max 0 ((index.val : Int) - 1)).toNat = index.val - 1 := by omega
      rw [entryAt_eq (by omega) (by omega)]
      simp only [entryBefore, hplace]
    rw [offsetAt_of_index hfound]
    dsimp only [Bind.bind, Except.bind, Option.map_some]
    rw [hentry]
    rfl
  | none =>
    dsimp only [Bind.bind, Except.bind, Option.map_none]
    split
    · next rule hrule =>
      rw [offsetAt_eq_rule hrule hfound, ZoneRule.checkedPeriodAt_eq (h.rule_inRange hrule)]
      cases rule.periodAt x <;> rfl
    · next hrule =>
      rw [offsetAt_of_noRule hrule hfound, checkedLast_eq hrule]
      rfl

theorem checkedPeriodAt_eq (h : z.IsRead) (x : Int) :
    z.checkedPeriodAt x = (z.periodAt x).mapError .year := by
  rw [checkedPeriodAt, checkedFirstAfter_eq, periodAt]
  cases hfound : firstAfter ExactEntry.since z.exactTable x with
  | some index =>
    dsimp only [Bind.bind, Except.bind, Option.map_some]
    split
    · rfl
    · have hentry : entryAt z.exactTable ((index.val : Int) - 1) = .ok (z.entryBefore index) := by
        have hplace : ((index.val : Int) - 1).toNat = index.val - 1 := by omega
        rw [entryAt_eq (by omega) (by omega)]
        simp only [entryBefore, hplace]
      rw [hentry]
      rfl
  | none =>
    dsimp only [Bind.bind, Except.bind, Option.map_none]
    rw [checkedLastTransition_eq]
    cases hrule : z.rule with
    | none => rfl
    | some rule =>
      dsimp only
      rw [ZoneRule.checkedPeriodAt_eq (h.rule_inRange hrule)]
      cases rule.periodAt x <;> rfl

theorem checkedLocalTimeAt_eq (h : z.IsRead) (time : Int) :
    z.checkedLocalTimeAt time = (z.localTimeAt time).mapError .year := by
  rw [checkedLocalTimeAt, checkedFirstAfter_eq]
  cases hfound : firstAfter WallEntry.limit z.wallTable time with
  | some index =>
    rw [localTimeAt, recordedTimeAt?, hfound]
    dsimp only [Bind.bind, Except.bind, Option.map_some]
    rw [entryAt_eq (Int.natCast_nonneg _) index.isLt]
    rfl
  | none =>
    dsimp only [Bind.bind, Except.bind, Option.map_none]
    split
    · next rule hrule =>
      rw [localTimeAt_eq_rule hrule hfound]
      exact ZoneRule.checkedLocalTimeAt_eq (h.rule_inRange hrule) time
    · next hrule =>
      have hrecorded : z.exactTable.size ≠ 0 := by
        rcases z.known with hrecorded | hruled
        · exact hrecorded
        · simp [hrule] at hruled
      rw [localTimeAt_of_noRule hrule hfound, if_neg (fun hnone => hrecorded hnone.2),
        Array.back?_eq_getElem?]
      split
      · rw [entryAt_last (by omega), Array.getElem?_eq_getElem (by omega)]
        rfl
      · rw [entryAt_last (by omega), Array.getElem?_eq_none (by omega)]
        rfl

theorem exists_offsetAt_error_iff :
    (∃ failure, z.offsetAt x = .error failure) ↔
      firstAfter ExactEntry.since z.exactTable x = none ∧
        ∃ rule, z.rule = some rule ∧ rule.daylight.isSome ∧ ¬InCalendar (x + rule.standard) := by
  constructor
  · rintro ⟨failure, hfailed⟩
    obtain ⟨hnone, rule, hrule, hfailed⟩ := offsetAt_eq_error_iff.1 hfailed
    exact ⟨hnone, rule, hrule, ZoneRule.exists_periodAt_error_iff.1 ⟨failure, hfailed⟩⟩
  · rintro ⟨hnone, rule, hrule, houtside⟩
    obtain ⟨failure, hfailed⟩ := ZoneRule.exists_periodAt_error_iff.2 houtside
    exact ⟨failure, offsetAt_eq_error_iff.2 ⟨hnone, rule, hrule, hfailed⟩⟩

theorem exists_localTimeAt_error_iff :
    (∃ failure, z.localTimeAt time = .error failure) ↔
      firstAfter WallEntry.limit z.wallTable time = none ∧
        ∃ rule, z.rule = some rule ∧ rule.daylight.isSome ∧ ¬InCalendar time := by
  constructor
  · rintro ⟨failure, hfailed⟩
    obtain ⟨hnone, rule, hrule, hfailed⟩ := localTimeAt_eq_error_iff.1 hfailed
    exact ⟨hnone, rule, hrule, ZoneRule.exists_localTimeAt_error_iff.1 ⟨failure, hfailed⟩⟩
  · rintro ⟨hnone, rule, hrule, houtside⟩
    obtain ⟨failure, hfailed⟩ := ZoneRule.exists_localTimeAt_error_iff.2 houtside
    exact ⟨failure, localTimeAt_eq_error_iff.2 ⟨hnone, rule, hrule, hfailed⟩⟩

/-- In a zone that is read, lookups fail no check but that of the year.  They fail it
exactly where no transition is recorded after the time, the zone has a rule with
daylight time, and the second whose year the rule asks for is outside the calendar. -/
theorem lookups_fail_iff (h : z.IsRead) (t : Int) :
    (z.checkedOffsetAt t = (z.offsetAt t).mapError .year ∧
      z.checkedPeriodAt t = (z.periodAt t).mapError .year ∧
      z.checkedLocalTimeAt t = (z.localTimeAt t).mapError .year) ∧
    ((∃ failure, z.offsetAt t = .error failure) ↔
      firstAfter ExactEntry.since z.exactTable t = none ∧
        ∃ rule, z.rule = some rule ∧ rule.daylight.isSome ∧ ¬InCalendar (t + rule.standard)) ∧
    ((∃ failure, z.periodAt t = .error failure) ↔
      firstAfter ExactEntry.since z.exactTable t = none ∧
        ∃ rule, z.rule = some rule ∧ rule.daylight.isSome ∧ ¬InCalendar (t + rule.standard)) ∧
    ((∃ failure, z.localTimeAt t = .error failure) ↔
      firstAfter WallEntry.limit z.wallTable t = none ∧
        ∃ rule, z.rule = some rule ∧ rule.daylight.isSome ∧ ¬InCalendar t) := by
  refine ⟨⟨checkedOffsetAt_eq h t, checkedPeriodAt_eq h t, checkedLocalTimeAt_eq h t⟩,
    exists_offsetAt_error_iff, ?_, exists_localTimeAt_error_iff⟩
  simp only [periodAt_eq_error_iff, ← offsetAt_eq_error_iff]
  exact exists_offsetAt_error_iff

/-- In the last hour of the calendar the year is over in central Europe.  Such a second is
a local time there, and as an exact time it has no offset. -/
theorem lookups_fail_lastSecond :
    (∃ failure,
        (ofRule none .centralEurope).checkedOffsetAt lastSecond = .error (.year failure)) ∧
      ∃ answer, (ofRule none .centralEurope).checkedLocalTimeAt lastSecond = .ok answer := by
  obtain ⟨⟨hoffset, -, hlocal⟩, hfails, -, hfails'⟩ :=
    lookups_fail_iff isRead_centralEurope lastSecond
  constructor
  · obtain ⟨failure, hfailed⟩ := hfails.2 ⟨rfl, _, rfl, rfl, by decide⟩
    exact ⟨failure, by rw [hoffset, hfailed]; rfl⟩
  · cases hanswer : (ofRule none .centralEurope).localTimeAt lastSecond with
    | ok answer => exact ⟨answer, by rw [hlocal, hanswer]; rfl⟩
    | error failure =>
      obtain ⟨-, rule, hrule, -, houtside⟩ := hfails'.1 ⟨failure, hanswer⟩
      exact absurd (by decide) houtside

end ZoneData

end CivilTime
