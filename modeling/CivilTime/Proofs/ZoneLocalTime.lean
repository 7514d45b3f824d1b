import CivilTime.Proofs.RuleOffsets
import CivilTime.Proofs.TableLookup
import Mathlib.Data.Int.LeastGreatest

/-!
# Local times in a zone

A zone answers for local times exactly if its transitions are spaced on the
clock and its rule takes over without a break.

* `ZoneData.WellSpaced` is about the tables, `ZoneData.RuleFits` about the
  rule, and `ZoneData.RuleFollows` about the seam between them.
* `RuleFollows.offset_or_le` says how long the last recorded offset goes on
  under the rule.
* `describes_of_rule` and `describes_of_noRule` are about what follows the last
  entry, and `endsWell_of_rule` and `endsWell_of_noRule` show that it fits to
  the last transition.
* `classifies_localTimeAt` is the result for the whole zone.
-/

namespace CivilTime

open ExactEntry

theorem Spaced.pairwise {entries : List ExactEntry} (h : Spaced entries) :
    entries.Pairwise fun a b => a.since ≤ b.since := by
  induction entries with
  | nil => exact List.Pairwise.nil
  | cons a entries ih =>
    have hrest := ih h.tail
    refine List.pairwise_cons.2 ⟨?_, hrest⟩
    cases entries with
    | nil => exact fun b hb => nomatch hb
    | cons b entries =>
      have hlt := h.lt
      intro c hc
      rcases List.mem_cons.1 hc with rfl | hc
      · omega
      · have hle := (List.pairwise_cons.1 hrest).1 c hc
        omega

/-- The spans come in order, up to that of the last transition. -/
theorem spanEnd_le_of_suffix {a b c d : ExactEntry} {rest : List ExactEntry}
    (h : Spaced (a :: b :: rest)) (hlast : [c, d] <:+ a :: b :: rest) :
    spanEnd a b ≤ spanEnd c d := by
  induction rest generalizing a b with
  | nil =>
    obtain ⟨rfl, rfl⟩ : c = a ∧ d = b := by simpa using hlast.eq_of_length rfl
    exact Int.le_refl _
  | cons e rest ih =>
    rcases List.suffix_cons_iff.1 hlast with heq | hlast
    · simp at heq
    · have hspan := h.le
      have hrest := ih h.tail hlast
      unfold spanStart spanEnd at *
      omega

/-- From the end of the last span on, local times are shown after the last
transition only. -/
theorem since_le_of_mem_shownFrom {after : Int → Int → Prop} {a b c d : ExactEntry}
    {rest : List ExactEntry} {time x : Int} (h : Spaced (a :: b :: rest))
    (hlast : [c, d] <:+ a :: b :: rest) (hle : spanEnd c d ≤ time)
    (hx : x ∈ shownFrom after a (b :: rest) time) : d.since ≤ x := by
  induction rest generalizing a b with
  | nil =>
    obtain ⟨rfl, rfl⟩ : c = a ∧ d = b := by simpa using hlast.eq_of_length rfl
    rw [shownFrom_of_le h.lt hle] at hx
    exact hx.1
  | cons e rest ih =>
    rw [shownFrom_of_le h.lt (Int.le_trans (spanEnd_le_of_suffix h hlast) hle)] at hx
    rcases List.suffix_cons_iff.1 hlast with heq | hlast
    · simp at heq
    · exact ih h.tail hlast hx

theorem calendar_of_year {time year : Int} (hyear : yearAt time = .ok year) (hfirst : 2 ≤ year)
    (hlast : year ≤ 9998) :
    yearStart 1 + 172800 ≤ time ∧ time + 172800 ≤ yearStart 10000 := by
  obtain ⟨-, hstart, hstop⟩ := (yearAt_eq_ok_iff _ _).1 hyear
  have hcalendar := yearStart_bounds hfirst hlast
  omega

namespace ZoneData

/-! ## What is asked of a zone -/

/-- The tables of a zone that classifies local times exactly.  The table by
exact time begins with the first second of the calendar, its transitions are
spaced, and its offsets are less than a day.  The table by local time is made
from it, without bringing a limit into the calendar. -/
structure WellSpaced (z : ZoneData) : Prop where
  sentinel : ∃ first rest, z.exactTable.toList = first :: rest ∧ first.since = firstSecond
  wall : z.wallTable.toList = ZoneFile.wallEntries z.exactTable.toList
  spaced : Spaced z.exactTable.toList
  offsets : ∀ a ∈ z.exactTable.toList, a.offset.natAbs < 86400
  unclamped : ∀ a b, [a, b] <:+: z.exactTable.toList →
    clampSecond (spanEnd a b) = spanEnd a b

/-- The rule takes over after the last transition, from `a` to `b`.  At the
transition it gives the offset that begins there.  In the 48 hours before, it
gives that offset or those of the table.  Its own first transition afterwards
does not overlap with this one on the clock. -/
structure RuleFollows (z : ZoneData) (rule : ZoneRule) (a b : ExactEntry) : Prop where
  atLast : ∃ period, rule.periodAt b.since = .ok period ∧ period.offset = b.offset
  before :
    (∀ x period, b.since - 172800 ≤ x → x < b.since → rule.periodAt x = .ok period →
      period.offset = b.offset) ∨
    (∀ x period, b.since - 172800 ≤ x → x < b.since → rule.periodAt x = .ok period →
      ∃ found, z.offsetAt x = .ok found ∧ found.1 = period.offset)
  apart : ∀ next offset, b.since < next → offset ≠ b.offset →
    (∃ period, rule.periodAt next = .ok period ∧ period.offset = offset) →
    (∀ x, b.since ≤ x → x < next →
      ∃ period, rule.periodAt x = .ok period ∧ period.offset = b.offset) →
    spanEnd a b ≤ next + min b.offset offset

/-- The rule of a zone classifies local times exactly by itself, and it follows
the last transition.  Its offsets are less than a day, as those of every rule
that is read from text (`ZoneRule.withinDay_of_read`). -/
structure RuleFits (z : ZoneData) (rule : ZoneRule) : Prop where
  exact : ∀ time year, yearAt time = .ok year → 2 ≤ year → year ≤ 9998 →
    Classifies (rule.localTimeAt time) (rule.timesShowing time) time
  withinDay : rule.WithinDay
  follows : ∀ a b, [a, b] <:+ z.exactTable.toList → RuleFollows z rule a b

/-! ## The seam -/

variable {z : ZoneData} {rule : ZoneRule} {a b : ExactEntry} {time x : Int}

/-- After the last transition the last offset goes on, unless the clock has
passed the span of the transition. -/
theorem RuleFollows.offset_or_le (h : RuleFollows z rule a b) (hx : b.since ≤ x)
    {period : OffsetPeriod} (hperiod : rule.periodAt x = .ok period) :
    period.offset = b.offset ∨ spanEnd a b ≤ x + min b.offset period.offset := by
  by_cases hsame : period.offset = b.offset
  · exact Or.inl hsame
  right
  obtain ⟨lastPeriod, hlastPeriod, hlastOffset⟩ := h.atLast
  -- The first exact time at which the rule gives another offset.
  obtain ⟨next, ⟨hnext, nextPeriod, hnextPeriod, hother⟩, hleast⟩ :=
    @Int.exists_least_of_bdd
      (fun y => b.since ≤ y ∧ ∃ p, rule.periodAt y = .ok p ∧ p.offset ≠ b.offset)
      ⟨b.since, fun y hy => hy.1⟩ ⟨x, hx, period, hperiod, hsame⟩
  have hle : next ≤ x := hleast x ⟨hx, period, hperiod, hsame⟩
  have hlt : b.since < next := by
    refine lt_of_le_of_ne hnext fun heq => ?_
    rw [← heq, hlastPeriod] at hnextPeriod
    obtain rfl := Except.ok.inj hnextPeriod
    exact hother hlastOffset
  have hconstant : ∀ y, b.since ≤ y → y < next →
      ∃ p, rule.periodAt y = .ok p ∧ p.offset = b.offset := by
    intro y hfrom hto
    obtain ⟨p, hp⟩ := ZoneRule.exists_periodAt_of_between hlastPeriod hnextPeriod hfrom
      (Int.le_of_lt hto)
    refine ⟨p, hp, Classical.byContradiction fun hne => ?_⟩
    exact absurd (hleast y ⟨hfrom, p, hp, hne⟩) (Int.not_le.2 hto)
  have hspan := h.apart next _ hlt hother ⟨nextPeriod, hnextPeriod, rfl⟩ hconstant
  -- The rule has no third offset, so the one at `x` is the one that begins at `next`.
  have hlastCases := ZoneRule.offset_cases hlastPeriod
  have hnextCases := ZoneRule.offset_cases hnextPeriod
  have hcases := ZoneRule.offset_cases hperiod
  omega

/-- From the end of the span of the last transition on, the rule shows local
times after the transition only. -/
theorem RuleFollows.since_le (h : RuleFollows z rule a b) (hrule : rule.WithinDay)
    (hoffset : b.offset.natAbs < 86400) (hle : spanEnd a b ≤ time)
    (htable : x ∈ z.timesShowing time → b.since ≤ x) {period : OffsetPeriod}
    (hperiod : rule.periodAt x = .ok period) (htime : x + period.offset = time) :
    b.since ≤ x := by
  refine Int.not_lt.1 fun hlt => ?_
  have hspan : b.since + b.offset ≤ time := by
    unfold spanEnd at hle
    omega
  by_cases hfar : x < b.since - 172800
  · have hwithin := hrule.offset hperiod
    omega
  rcases h.before with hlast | hsame
  · have heq := hlast x period (by omega) hlt hperiod
    omega
  · obtain ⟨found, hfound, heq⟩ := hsame x period (by omega) hlt hperiod
    have hge := htable ⟨found, hfound, by omega⟩
    omega

/-! ## After the last entry -/

/-- Without a rule the last offset goes on. -/
theorem mem_shownFrom_of_noRule (hrule : z.rule = none) :
    x ∈ shownFrom (z.HoldsAfter b) b [] time ↔ x = time - b.offset ∧ b.since ≤ x := by
  constructor
  · rintro ⟨hx, offset, hholds, htime⟩
    simp only [HoldsFrom, HoldsAfter, hrule] at hholds
    omega
  · rintro ⟨htime, hx⟩
    exact ⟨hx, b.offset, by simp only [HoldsFrom, HoldsAfter, hrule], by omega⟩

theorem mem_shownFrom_of_rule (hrule : z.rule = some rule) :
    x ∈ shownFrom (z.HoldsAfter b) b [] time ↔ b.since ≤ x ∧ x ∈ rule.timesShowing time := by
  have hholds : ∀ offset, HoldsFrom (z.HoldsAfter b) b [] x offset ↔
      ∃ period, rule.periodAt x = .ok period ∧ period.offset = offset := by
    intro offset
    simp only [HoldsFrom, HoldsAfter, hrule]
  constructor
  · rintro ⟨hx, offset, hoffset, htime⟩
    obtain ⟨period, hperiod, rfl⟩ := (hholds offset).1 hoffset
    exact ⟨hx, period, hperiod, htime⟩
  · rintro ⟨hx, period, hperiod, htime⟩
    exact ⟨hx, _, (hholds _).2 ⟨period, hperiod, rfl⟩, htime⟩

/-- Without a rule, the answer after the last entry is right from the first
local second of the last offset on. -/
theorem describes_of_noRule (hrule : z.rule = none) (hle : b.since + b.offset ≤ time) :
    ∃ localTime, z.localTimeAfter b time = .ok localTime ∧
      localTime.Describes (shownFrom (z.HoldsAfter b) b [] time) time := by
  refine ⟨.once b.offset, by simp only [localTimeAfter, hrule], Set.ext fun x => ?_⟩
  rw [mem_shownFrom_of_noRule hrule, Set.mem_singleton_iff, and_iff_left_iff_imp]
  omega

/-- With a rule, the answer after the last entry is right if the rule is, and
shows the local time after that entry only. -/
theorem describes_of_rule (hrule : z.rule = some rule)
    (hexact : Classifies (rule.localTimeAt time) (rule.timesShowing time) time)
    (hafter : ∀ x ∈ rule.timesShowing time, b.since ≤ x) :
    ∃ localTime, z.localTimeAfter b time = .ok localTime ∧
      localTime.Describes (shownFrom (z.HoldsAfter b) b [] time) time := by
  obtain ⟨localTime, hanswer, hdescribes⟩ := classifies_iff.1 hexact
  have hsame : shownFrom (z.HoldsAfter b) b [] time = rule.timesShowing time := by
    ext x
    rw [mem_shownFrom_of_rule hrule]
    exact and_iff_right_of_imp (hafter x)
  refine ⟨localTime, by simp only [localTimeAfter, hrule, hanswer], ?_⟩
  rw [hsame]
  exact hdescribes

theorem endsWell_of_noRule (hrule : z.rule = none) (a b : ExactEntry) (time : Int) :
    EndsWell (z.HoldsAfter b) (z.localTimeAfter b) a b time := by
  refine ⟨fun _ x => mem_shownFrom_of_noRule hrule, fun hle => describes_of_noRule hrule ?_⟩
  unfold spanEnd at hle
  omega

/-- A rule that fits takes over where the table ends. -/
theorem endsWell_of_rule (hrule : z.rule = some rule) (hfits : z.RuleFits rule)
    (hlast : [a, b] <:+ z.exactTable.toList) (hoffset : b.offset.natAbs < 86400) {year : Int}
    (hyear : yearAt time = .ok year) (hfirst : 2 ≤ year) (hlast' : year ≤ 9998)
    (htable : spanEnd a b ≤ time → ∀ x ∈ z.timesShowing time, b.since ≤ x) :
    EndsWell (z.HoldsAfter b) (z.localTimeAfter b) a b time := by
  have hfollows := hfits.follows a b hlast
  have hcalendar := calendar_of_year hyear hfirst hlast'
  refine ⟨fun hlt x => ?_, fun hle => ?_⟩
  · rw [mem_shownFrom_of_rule hrule]
    constructor
    · rintro ⟨hx, period, hperiod, htime⟩
      have hcases := hfollows.offset_or_le hx hperiod
      omega
    · rintro ⟨htime, hx⟩
      obtain ⟨period, hperiod⟩ := @ZoneRule.exists_periodAt rule x hfits.withinDay (by omega)
        (by omega)
      have hcases := hfollows.offset_or_le hx hperiod
      exact ⟨hx, period, hperiod, by omega⟩
  · refine describes_of_rule hrule (hfits.exact time year hyear hfirst hlast') ?_
    rintro x ⟨period, hperiod, htime⟩
    exact hfollows.since_le hfits.withinDay hoffset hle (htable hle x) hperiod htime

/-! ## The whole zone -/

/-- All offsets of a zone are less than a day. -/
theorem natAbs_of_offsetAt (hz : z.WellSpaced)
    (hrule : ∀ rule, z.rule = some rule → rule.WithinDay) {found : Int × Bool}
    (h : z.offsetAt x = .ok found) : found.1.natAbs < 86400 := by
  unfold offsetAt at h
  split at h
  · cases h
    exact hz.offsets _ (Array.mem_toList_iff.2 (Array.getElem_mem _))
  · split at h
    · next rule hsome =>
      obtain ⟨period, hperiod, h⟩ := bind_eq_ok.1 h
      obtain rfl := pure_eq_ok.1 h
      exact (hrule rule hsome).offset hperiod
    · cases h
      exact hz.offsets _ (Array.mem_toList_iff.2 (Array.getElem_mem _))

/-- The exact times at which the zone shows a local time are those that are
read from its table. -/
theorem timesShowing_eq {first : ExactEntry} {rest : List ExactEntry} (hz : z.WellSpaced)
    (hrule : ∀ rule, z.rule = some rule → rule.WithinDay)
    (htable : z.exactTable.toList = first :: rest) (htime : first.since + 86400 ≤ time) :
    z.timesShowing time =
      shownFrom (z.HoldsAfter ((first :: rest).getLast (List.cons_ne_nil _ _))) first rest
        time := by
  have hsorted := hz.spaced.pairwise
  rw [htable] at hsorted
  ext x
  constructor
  · rintro ⟨found, hfound, hx⟩
    have hoffset := natAbs_of_offsetAt hz hrule hfound
    have hfirst : first.since ≤ x := by omega
    exact ⟨hfirst, found.1, (offsetAt_iff htable hsorted hfirst _).1 ⟨found, hfound, rfl⟩, hx⟩
  · rintro ⟨hfirst, offset, hholds, hx⟩
    obtain ⟨found, hfound, rfl⟩ := (offsetAt_iff htable hsorted hfirst _).2 hholds
    exact ⟨found, hfound, hx⟩

/-- Without transitions, what follows the first entry decides. -/
theorem describes_of_noTransition {first : ExactEntry} (hoffset : first.offset.natAbs < 86400)
    (hrule : ∀ rule, z.rule = some rule → rule.WithinDay ∧
      Classifies (rule.localTimeAt time) (rule.timesShowing time) time)
    (htime : first.since + 86400 ≤ time) :
    ∃ localTime, z.localTimeAfter first time = .ok localTime ∧
      localTime.Describes (shownFrom (z.HoldsAfter first) first [] time) time := by
  cases hsome : z.rule with
  | none => exact describes_of_noRule hsome (by omega)
  | some rule =>
    obtain ⟨hwithin, hexact⟩ := hrule rule hsome
    refine describes_of_rule hsome hexact ?_
    rintro x ⟨period, hperiod, hx⟩
    have hbound := hwithin.offset hperiod
    omega

/-- A zone whose transitions are spaced on the clock, and whose rule fits to
them if it has one, classifies local times exactly. -/
theorem classifies_localTimeAt (hz : z.WellSpaced)
    (hrule : ∀ rule, z.rule = some rule → z.RuleFits rule) {year : Int}
    (hyear : yearAt time = .ok year) (hfirst : 2 ≤ year) (hlast : year ≤ 9998) :
    Classifies (z.localTimeAt time) (z.timesShowing time) time := by
  obtain ⟨first, rest, htable, hsentinel⟩ := hz.sentinel
  have hwithin : ∀ rule, z.rule = some rule → rule.WithinDay :=
    fun rule hsome => (hrule rule hsome).withinDay
  have htime : first.since + 172800 ≤ time := by
    have hcalendar := calendar_of_year hyear hfirst hlast
    have hstart : yearStart 1 = firstSecond := by decide
    omega
  have hspaced := hz.spaced
  have hoffsets := hz.offsets
  have hunclamped := hz.unclamped
  have hwall := hz.wall
  rw [htable] at hspaced hoffsets hunclamped hwall
  rw [classifies_iff, localTimeAt_eq htable hwall hspaced hunclamped,
    timesShowing_eq hz hwithin htable (by omega)]
  have hfirstOffset := hoffsets first List.mem_cons_self
  cases rest with
  | nil =>
    have hdays : first.since + 86400 ≤ time := by omega
    refine describes_of_noTransition hfirstOffset (fun rule hsome => ?_) hdays
    exact ⟨hwithin rule hsome, (hrule rule hsome).exact time year hyear hfirst hlast⟩
  | cons b rest =>
    refine describes_from hspaced (fun c d hsuffix => ?_) (by omega)
    have hd : (first :: b :: rest).getLast (List.cons_ne_nil _ _) = d :=
      (hsuffix.getLast (List.cons_ne_nil _ _)).symm
    rw [hd]
    cases hsome : z.rule with
    | none => exact endsWell_of_noRule hsome c d time
    | some rule =>
      refine endsWell_of_rule hsome (hrule rule hsome) (htable ▸ hsuffix) ?_ hyear hfirst hlast ?_
      · exact hoffsets d (hsuffix.subset (by simp))
      · intro hle x hx
        rw [timesShowing_eq hz hwithin htable (by omega)] at hx
        exact since_le_of_mem_shownFrom hspaced hsuffix hle hx

/-! ## An example -/

/-- A zone that takes up central European time on 1997-01-11. -/
def lateCentralEurope : ZoneData where
  key := none
  exactTable := #[⟨firstSecond, 0, false⟩, ⟨852940800, 3600, false⟩]
  wallTable := #[⟨852944400, 0, 3600⟩]
  rule := some ZoneRule.centralEurope
  known := Or.inl (by decide)

theorem lateCentralEurope_transition {a b : ExactEntry}
    (h : [a, b] <:+: lateCentralEurope.exactTable.toList) :
    a = ⟨firstSecond, 0, false⟩ ∧ b = ⟨852940800, 3600, false⟩ := by
  have heq : [a, b] = [⟨firstSecond, 0, false⟩, ⟨852940800, 3600, false⟩] := h.eq_of_length rfl
  cases heq
  exact ⟨rfl, rfl⟩

theorem lateCentralEurope_wellSpaced : lateCentralEurope.WellSpaced where
  sentinel := ⟨_, _, rfl, rfl⟩
  wall := by decide
  spaced := by
    refine ⟨fun a b hin => ?_, fun a b c hin => ?_⟩
    · obtain ⟨rfl, rfl⟩ := lateCentralEurope_transition hin
      decide
    · exact absurd hin.length_le (Nat.lt_irrefl 2)
  offsets := by decide
  unclamped := by
    intro a b hin
    obtain ⟨rfl, rfl⟩ := lateCentralEurope_transition hin
    decide

/-- In January 1997, standard time holds in central Europe. -/
theorem centralEurope_winter {x : Int} {period : OffsetPeriod} (hfrom : 852768000 ≤ x)
    (hto : x < 853286400) (h : ZoneRule.centralEurope.periodAt x = .ok period) :
    period.offset = 3600 := by
  have hbegin : yearStart 1997 = 852076800 := by decide
  have hend : yearStart (1997 + 1) = 883612800 := by decide
  obtain ⟨found, hfound, hplan⟩ := @ZoneRule.periodAt_offset ZoneRule.centralEurope _ rfl
    ZoneRule.centralEurope_regular 1997 x (by decide) (by decide) (by omega) (by omega)
  obtain rfl := Except.ok.inj (h.symm.trans hfound)
  have hinside := ZoneRule.centralEurope_regular.inside (show (1 : Int) ≤ 1997 by decide)
    (by decide)
  have hfirst : (ZoneRule.centralEuropeDaylight.planIn ZoneRule.centralEurope.standard 1997).first =
      859687200 := rfl
  rw [hplan, YearPlan.offsetAt_of_early hinside.toSpaced (by omega)]
  rfl

theorem lateCentralEurope_ruleFits :
    lateCentralEurope.RuleFits ZoneRule.centralEurope where
  exact := fun time year hyear hfirst hlast =>
    ZoneRule.classifies_of_regular rfl ZoneRule.centralEurope_regular hfirst hlast hyear
  withinDay := ⟨by decide, by decide⟩
  follows := by
    intro a b hsuffix
    obtain ⟨rfl, rfl⟩ := lateCentralEurope_transition hsuffix.isInfix
    refine ⟨⟨_, rfl, rfl⟩, Or.inl fun x period hfrom hto hperiod => ?_,
      fun next offset hlt hne hnext _ => ?_⟩
    · exact centralEurope_winter (by dsimp only at hfrom; omega) (by dsimp only at hto; omega)
        hperiod
    · obtain ⟨period, hperiod, rfl⟩ := hnext
      have hwithin : ZoneRule.centralEurope.WithinDay := ⟨by decide, by decide⟩
      have hoffset := hwithin.offset hperiod
      dsimp only [spanEnd] at hlt ⊢
      refine Int.not_lt.1 fun hnear => hne ?_
      exact centralEurope_winter (by omega) (by omega) hperiod

/-- A local time in the hour that the zone skips. -/
theorem lateCentralEurope_classifies :
    Classifies (lateCentralEurope.localTimeAt 852942600)
      (lateCentralEurope.timesShowing 852942600) 852942600 := by
  have hyear : yearAt 852942600 = .ok 1997 := rfl
  refine classifies_localTimeAt lateCentralEurope_wellSpaced (fun rule hrule => ?_) hyear
    (by decide) (by decide)
  obtain rfl := Option.some.inj hrule
  exact lateCentralEurope_ruleFits

end ZoneData

end CivilTime
