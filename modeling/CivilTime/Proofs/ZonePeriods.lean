import CivilTime.Proofs.RulePeriods
import CivilTime.Proofs.ZoneLocalTime

/-!
# The periods of a zone

A zone looks an exact time up in its table, and behind the table asks its rule.
The period that it gives begins at the latest transition that is recorded in
either of the two.

* `ZoneData.recorded` are the transitions of the table, and those of the rule from
  the last one of the table on.
* `ZoneData.InOrder` is what is asked of the zone.
* `ZoneData.PeriodAround` says what a period is: it begins at the latest
  transition, and its offset holds from there on.  `ZoneData.IsPeriodAt` is the
  same for an answer that may be no period.
* `isPeriodAt_of_index` is the answer from the table.  Behind it, the answer comes
  from the last entry (`isPeriodAt_of_noRule`), from a rule without daylight time
  (`isPeriodAt_of_steady`), or from one with it (`isPeriodAt_of_daylight`).
* `exists_isPeriodAt` puts the four together, and `periodAt_around` is the result.
-/

namespace CivilTime.ZoneData

variable {z : ZoneData} {rule : ZoneRule} {d : Daylight} {period : OffsetPeriod}
  {e last : ExactEntry} {x time year : Int}

/-! ## Recorded transitions -/

/-- The transitions of the table.  Its first entry is none. -/
def tableChanges (z : ZoneData) : List ExactEntry :=
  z.exactTable.toList.tail

/-- The transitions of the rule, if it has any. -/
def ruleChanges (z : ZoneData) : Set ExactEntry :=
  {e | ∃ rule d, z.rule = some rule ∧ rule.daylight = some d ∧ e ∈ d.changes rule.standard}

/-- The transitions of the table, and those of the rule that are not before the last
one of them. -/
def recorded (z : ZoneData) : Set ExactEntry :=
  {e | e ∈ z.tableChanges ∨
    e ∈ z.ruleChanges ∧ ∀ last ∈ z.tableChanges.getLast?, last.since ≤ e.since}

/-- The table begins with the first second of the calendar and is in order, and
the rule is regular if it has daylight time. -/
structure InOrder (z : ZoneData) : Prop where
  sentinel : ∀ first ∈ z.exactTable.toList.head?, first.since = firstSecond
  sorted : z.exactTable.toList.Pairwise fun a b => a.since ≤ b.since
  regular : ∀ rule d, z.rule = some rule → rule.daylight = some d → d.Regular rule.standard

/-- The period around an exact time begins at the latest recorded transition, and its
offset holds from there on. -/
structure PeriodAround (z : ZoneData) (time : Int) (period : OffsetPeriod) (e : ExactEntry) :
    Prop where
  latest : IsLatest z.recorded time e
  since : period.since = some e.since
  holds : ∀ x, e.since ≤ x → x ≤ time → z.offsetAt x = .ok (period.offset, period.isDaylight)

/-- The right answers to an exact time: no period before all recorded transitions, and
the period around it otherwise. -/
def IsPeriodAt (z : ZoneData) (time : Int) : Option OffsetPeriod → Prop
  | none => ∀ e ∈ z.recorded, time < e.since
  | some period => ∃ e, z.PeriodAround time period e

theorem mem_tableChanges_iff :
    e ∈ z.tableChanges ↔
      ∃ i, 1 ≤ i ∧ ∃ hi : i < z.exactTable.size, z.exactTable[i] = e := by
  rw [tableChanges, List.mem_iff_getElem]
  constructor
  · rintro ⟨i, hi, rfl⟩
    rw [List.length_tail, Array.length_toList] at hi
    exact ⟨i + 1, by omega, by omega, by rw [List.getElem_tail]; rfl⟩
  · rintro ⟨i, hpos, hi, rfl⟩
    refine ⟨i - 1, by rw [List.length_tail, Array.length_toList]; omega, ?_⟩
    rw [List.getElem_tail]
    simp only [Nat.sub_add_cancel hpos, Array.getElem_toList]

theorem lastTransition_eq : z.lastTransition = z.tableChanges.getLast? := by
  rw [tableChanges, List.getLast?_tail, Array.length_toList, lastTransition]
  by_cases hone : z.exactTable.size = 1
  · rw [if_pos hone, dif_neg (by omega)]
  · rw [if_neg hone, List.getLast?_eq_getElem?, Array.length_toList, Array.getElem?_toList]
    split
    · rw [Array.getElem?_eq_getElem]
    · rw [Array.getElem?_eq_none (by omega)]

/-- The table ends with its last transition. -/
theorem InOrder.le_last (hz : z.InOrder) (hlast : z.tableChanges.getLast? = some last)
    (he : e ∈ z.tableChanges) : e.since ≤ last.since := by
  obtain ⟨before, hbefore⟩ := List.getLast?_eq_some_iff.1 hlast
  have hsorted : z.tableChanges.Pairwise fun a b => a.since ≤ b.since := hz.sorted.tail
  rw [hbefore] at he hsorted
  rcases List.mem_append.1 he with he | he
  · exact (List.pairwise_append.1 hsorted).2.2 e he last (List.mem_singleton.2 rfl)
  · exact Int.le_of_eq (congrArg ExactEntry.since (List.mem_singleton.1 he))

/-- What is not before the last transition of the table is not before any of them. -/
theorem InOrder.le_of_last_le (hz : z.InOrder) (he : e ∈ z.tableChanges)
    (hx : ∀ last ∈ z.tableChanges.getLast?, last.since ≤ x) : e.since ≤ x := by
  cases hend : z.tableChanges.getLast? with
  | none =>
    rw [List.getLast?_eq_none_iff.1 hend] at he
    contradiction
  | some last => exact Int.le_trans (hz.le_last hend he) (hx last hend)

theorem InOrder.first_since (hz : z.InOrder) (h : 0 < z.exactTable.size) :
    z.exactTable[0].since = firstSecond :=
  hz.sentinel _ (by rw [List.head?_eq_getElem?, Array.getElem?_toList, Array.getElem?_eq_getElem h,
    Option.mem_some])

theorem InOrder.keys (hz : z.InOrder) : KeysInOrder ExactEntry.since z.exactTable :=
  keysInOrder_of_pairwise hz.sorted

/-! ## Within the table -/

section Table

variable {index : Fin z.exactTable.size}

theorem offsetAt_of_index (h : firstAfter ExactEntry.since z.exactTable x = some index) :
    z.offsetAt x = .ok ((z.entryBefore index).offset, (z.entryBefore index).isDaylight) := by
  rw [offsetAt, h]

/-- A recorded transition is one of those before the index, or it is still to come. -/
theorem InOrder.mem_recorded_cases (hz : z.InOrder) (htime : firstSecond ≤ time)
    (h : firstAfter ExactEntry.since z.exactTable time = some index) (he : e ∈ z.recorded) :
    (∃ i, 1 ≤ i ∧ ∃ hi : i < index.val, z.exactTable[i] = e) ∨ time < e.since := by
  obtain ⟨hlt, -⟩ := (firstAfter_eq_some_iff hz.keys index).1 h
  rcases he with he | ⟨-, he⟩
  · obtain ⟨i, hpos, hi, rfl⟩ := mem_tableChanges_iff.1 he
    by_cases hbefore : i < index.val
    · exact Or.inl ⟨i, hpos, hbefore, rfl⟩
    · have hle := hz.keys index i index.isLt hi (by omega)
      exact Or.inr (Int.lt_of_lt_of_le hlt hle)
  · -- The entry at the index is not the first one, which is never to come.
    have hpos : 1 ≤ index.val := by
      refine Nat.pos_of_ne_zero fun hzero => ?_
      have hfirst := hz.first_since (Nat.lt_of_le_of_lt (Nat.zero_le _) index.isLt)
      simp only [Fin.getElem_fin, hzero, hfirst] at hlt
      omega
    have hnext := mem_tableChanges_iff.2 ⟨index, hpos, index.isLt, rfl⟩
    exact Or.inr (Int.lt_of_lt_of_le hlt (hz.le_of_last_le hnext he))

theorem isPeriodAt_of_index (hz : z.InOrder) (htime : firstSecond ≤ time)
    (h : firstAfter ExactEntry.since z.exactTable time = some index) :
    ∃ answer, z.periodAt time = .ok answer ∧ z.IsPeriodAt time answer := by
  obtain ⟨hlt, hbefore⟩ := (firstAfter_eq_some_iff hz.keys index).1 h
  refine ⟨if index.val ≤ 1 then none else some (z.entryBefore index).period,
    by rw [periodAt, h], ?_⟩
  split
  · intro e he
    rcases hz.mem_recorded_cases htime h he with ⟨i, hpos, hi, -⟩ | hlater
    · omega
    · exact hlater
  · have hmem : z.entryBefore index ∈ z.tableChanges :=
      mem_tableChanges_iff.2 ⟨index.val - 1, by omega, by omega, rfl⟩
    refine ⟨z.entryBefore index, ⟨Or.inl hmem, hbefore (index.val - 1) (by omega), ?_⟩, rfl, ?_⟩
    · intro other hother hle
      rcases hz.mem_recorded_cases htime h hother with ⟨i, -, hi, rfl⟩ | hlater
      · exact hz.keys i (index.val - 1) (by omega) (by omega) (by omega)
      · omega
    · intro x hfrom hto
      refine offsetAt_of_index ((firstAfter_eq_some_iff hz.keys index).2
        ⟨by omega, fun i hi => ?_⟩)
      exact Int.le_trans (hz.keys i (index.val - 1) (by omega) (by omega) (by omega)) hfrom

end Table

/-! ## Behind the table -/

theorem InOrder.firstAfter_eq_none_iff (hz : z.InOrder) (hx : firstSecond ≤ x) :
    firstAfter ExactEntry.since z.exactTable x = none ↔
      ∀ last ∈ z.tableChanges.getLast?, last.since ≤ x := by
  rw [CivilTime.firstAfter_eq_none_iff hz.keys]
  constructor
  · intro hall last hlast
    obtain ⟨i, -, hi, rfl⟩ := mem_tableChanges_iff.1 (List.mem_of_getLast? hlast)
    exact hall i hi
  · intro hlast i hi
    rcases Nat.eq_zero_or_pos i with rfl | hpos
    · rw [hz.first_since hi]
      exact hx
    · exact hz.le_of_last_le (mem_tableChanges_iff.2 ⟨i, hpos, hi, rfl⟩) hlast

theorem InOrder.firstSecond_le (hz : z.InOrder) (he : e ∈ z.tableChanges) :
    firstSecond ≤ e.since := by
  obtain ⟨i, -, hi, rfl⟩ := mem_tableChanges_iff.1 he
  rw [← hz.first_since (by omega)]
  exact hz.keys 0 i (by omega) hi (Nat.zero_le _)

/-- From the last transition of the table on, lookups are behind it. -/
theorem InOrder.firstAfter_of_last (hz : z.InOrder) (hlast : z.tableChanges.getLast? = some last)
    (hx : last.since ≤ x) : firstAfter ExactEntry.since z.exactTable x = none := by
  have hfirst := hz.firstSecond_le (List.mem_of_getLast? hlast)
  refine (hz.firstAfter_eq_none_iff (Int.le_trans hfirst hx)).2 fun other hother => ?_
  obtain rfl := Option.some.inj (hlast.symm.trans hother)
  exact hx

/-- Behind the table its last transition is the latest, unless the rule has a later one. -/
theorem InOrder.isLatest_last (hz : z.InOrder) (hlast : z.tableChanges.getLast? = some last)
    (hle : last.since ≤ time)
    (hrule : ∀ e ∈ z.ruleChanges, e.since ≤ time → e.since ≤ last.since) :
    IsLatest z.recorded time last := by
  have hmem := List.mem_of_getLast? hlast
  refine ⟨Or.inl hmem, hle, fun other hother hbefore => ?_⟩
  rcases hother with hother | ⟨hother, -⟩
  · exact hz.le_last hlast hother
  · exact hrule other hother hbefore

/-! ### Without a rule -/

theorem offsetAt_of_noRule (hrule : z.rule = none)
    (h : firstAfter ExactEntry.since z.exactTable x = none) :
    z.offsetAt x = .ok ((z.lastEntry hrule).offset, (z.lastEntry hrule).isDaylight) := by
  unfold offsetAt
  rw [h]
  dsimp only
  split
  · next hsome =>
    rw [hrule] at hsome
    contradiction
  · rfl

theorem lastEntry_of_last (hrule : z.rule = none) (hlast : z.tableChanges.getLast? = some last) :
    z.lastEntry hrule = last := by
  rw [← lastTransition_eq, lastTransition] at hlast
  split at hlast
  · exact Option.some.inj hlast
  · contradiction

theorem isPeriodAt_of_noRule (hz : z.InOrder) (hrule : z.rule = none) (htime : firstSecond ≤ time)
    (h : firstAfter ExactEntry.since z.exactTable time = none) :
    ∃ answer, z.periodAt time = .ok answer ∧ z.IsPeriodAt time answer := by
  have hnone : ∀ e, e ∉ z.ruleChanges := by
    rintro e ⟨rule, -, hsome, -⟩
    rw [hrule] at hsome
    contradiction
  refine ⟨z.tableChanges.getLast?.map ExactEntry.period,
    by rw [periodAt, h, hrule, ← lastTransition_eq], ?_⟩
  cases hend : z.tableChanges.getLast? with
  | none =>
    rintro e (he | ⟨he, -⟩)
    · rw [List.getLast?_eq_none_iff.1 hend] at he
      contradiction
    · exact absurd he (hnone e)
  | some last =>
    have hle := (hz.firstAfter_eq_none_iff htime).1 h last hend
    refine ⟨last, hz.isLatest_last hend hle fun e he => absurd he (hnone e), rfl, ?_⟩
    intro x hfrom _
    rw [offsetAt_of_noRule hrule (hz.firstAfter_of_last hend hfrom), lastEntry_of_last hrule hend]
    rfl

/-! ### With a rule -/

theorem offsetAt_of_rule (hrule : z.rule = some rule)
    (h : firstAfter ExactEntry.since z.exactTable x = none)
    (hperiod : rule.periodAt x = .ok period) :
    z.offsetAt x = .ok (period.offset, period.isDaylight) := by
  unfold offsetAt
  rw [h]
  dsimp only
  split
  · next found hsome =>
    obtain rfl := Option.some.inj (hrule.symm.trans hsome)
    exact bind_eq_ok.2 ⟨period, hperiod, rfl⟩
  · next hnone =>
    rw [hrule] at hnone
    contradiction

theorem periodAt_of_rule (hrule : z.rule = some rule)
    (h : firstAfter ExactEntry.since z.exactTable x = none)
    (hperiod : rule.periodAt x = .ok period) :
    z.periodAt x = .ok (periodAfter z.tableChanges.getLast? period) := by
  rw [periodAt, h, hrule, ← lastTransition_eq]
  exact bind_eq_ok.2 ⟨period, hperiod, rfl⟩

theorem ruleChanges_eq (hrule : z.rule = some rule) (hd : rule.daylight = some d) :
    z.ruleChanges = d.changes rule.standard := by
  ext e
  constructor
  · rintro ⟨rule', d', hrule', hd', he⟩
    obtain rfl := Option.some.inj (hrule.symm.trans hrule')
    obtain rfl := Option.some.inj (hd.symm.trans hd')
    exact he
  · exact fun he => ⟨rule, d, hrule, hd, he⟩

/-- A period of the rule that is older than the last transition of the table begins at
that one. -/
theorem periodAround_of_last (hz : z.InOrder) (hrule : z.rule = some rule)
    (hlast : z.tableChanges.getLast? = some last) (hle : last.since ≤ time)
    (hchanges : ∀ e ∈ z.ruleChanges, e.since ≤ time → e.since ≤ last.since)
    (hholds : ∀ x, last.since ≤ x → x ≤ time → rule.periodAt x = .ok period) :
    z.PeriodAround time { period with since := some last.since } last := by
  refine ⟨hz.isLatest_last hlast hle hchanges, rfl, fun x hfrom hto => ?_⟩
  have hbehind := hz.firstAfter_of_last hlast hfrom
  exact @offsetAt_of_rule z rule period x hrule hbehind (hholds x hfrom hto)

/-- A period of the rule that is not older begins at the transition of the rule. -/
theorem periodAround_of_rule (hz : z.InOrder) (hrule : z.rule = some rule)
    (hd : rule.daylight = some d) (he : IsLatest (d.changes rule.standard) time e)
    (hlater : ∀ last ∈ z.tableChanges.getLast?, last.since ≤ e.since)
    (hholds : ∀ x, e.since ≤ x → x ≤ time → rule.periodAt x = .ok e.period) :
    z.PeriodAround time e.period e := by
  have hchanges := ruleChanges_eq hrule hd
  have hcalendar := (hz.regular rule d hrule hd).calendar_lt_since he.mem
  have hbegin : yearStart 1 = firstSecond := by decide
  refine ⟨⟨Or.inr ⟨hchanges ▸ he.mem, hlater⟩, he.le, fun other hother hle => ?_⟩, rfl,
    fun x hfrom hto => ?_⟩
  · rcases hother with hother | ⟨hother, -⟩
    · exact hz.le_of_last_le hother hlater
    · exact he.last other (hchanges ▸ hother) hle
  · refine offsetAt_of_rule hrule ?_ (hholds x hfrom hto)
    refine (hz.firstAfter_eq_none_iff (by omega)).2 fun last hlast => ?_
    exact Int.le_trans (hlater last hlast) hfrom

theorem periodAfter_of_le {last : Option ExactEntry}
    (h : ∀ entry ∈ last, entry.since ≤ e.since) : periodAfter last e.period = some e.period := by
  cases last with
  | none => rfl
  | some entry => exact if_pos (h entry rfl)

theorem periodAfter_of_lt (h : e.since < last.since) :
    periodAfter (some last) e.period = some { e.period with since := some last.since } :=
  if_neg (Int.not_le.2 h)

theorem isPeriodAt_of_steady (hz : z.InOrder) (hrule : z.rule = some rule)
    (hd : rule.daylight = none) (htime : firstSecond ≤ time)
    (h : firstAfter ExactEntry.since z.exactTable time = none) :
    ∃ answer, z.periodAt time = .ok answer ∧ z.IsPeriodAt time answer := by
  have hnone : ∀ e, e ∉ z.ruleChanges := by
    rintro e ⟨rule', d, hsome, hd', -⟩
    obtain rfl := Option.some.inj (hrule.symm.trans hsome)
    rw [hd] at hd'
    contradiction
  have hperiod : ∀ x, rule.periodAt x = .ok ⟨rule.standard, none, false⟩ := by
    intro x
    rw [ZoneRule.periodAt, hd]
  refine ⟨_, periodAt_of_rule hrule h (hperiod time), ?_⟩
  cases hend : z.tableChanges.getLast? with
  | none =>
    rintro e (he | ⟨he, -⟩)
    · rw [List.getLast?_eq_none_iff.1 hend] at he
      contradiction
    · exact absurd he (hnone e)
  | some last =>
    have hle := (hz.firstAfter_eq_none_iff htime).1 h last hend
    exact ⟨last, periodAround_of_last hz hrule hend hle (fun e he => absurd he (hnone e))
      fun x _ _ => hperiod x⟩

theorem isPeriodAt_of_daylight (hz : z.InOrder) (hrule : z.rule = some rule)
    (hd : rule.daylight = some d) (hyear : yearAt time = .ok year) (hfirst : 2 ≤ year)
    (hlast : year ≤ 9998) (h : firstAfter ExactEntry.since z.exactTable time = none) :
    ∃ answer, z.periodAt time = .ok answer ∧ z.IsPeriodAt time answer := by
  have hregular := hz.regular rule d hrule hd
  have hstandard := hregular.standard
  have hcalendar := calendar_of_year hyear hfirst hlast
  have hsentinel : yearStart 1 = firstSecond := by decide
  obtain ⟨-, hbegin, -⟩ := (yearAt_eq_ok_iff _ _).1 hyear
  obtain ⟨standardYear, hstandardYear⟩ :=
    @exists_yearAt (time + rule.standard) (by omega) (by omega)
  rcases ZoneRule.latest_cases hd hregular hstandardYear with ⟨e, he, hperiod⟩ | ⟨hnone, -⟩
  · have hholds := fun x => @ZoneRule.periodAt_of_isLatest _ d _ _ hd hregular hstandardYear e x he
    refine ⟨_, periodAt_of_rule hrule h hperiod, ?_⟩
    by_cases hlater : ∀ last ∈ z.tableChanges.getLast?, last.since ≤ e.since
    · rw [periodAfter_of_le hlater]
      exact ⟨e, periodAround_of_rule hz hrule hd he hlater hholds⟩
    · obtain ⟨last, hend, hlt⟩ : ∃ last ∈ z.tableChanges.getLast?, e.since < last.since := by
        simpa using hlater
      have hle := (hz.firstAfter_eq_none_iff (by omega)).1 h last hend
      rw [show z.tableChanges.getLast? = some last from hend, periodAfter_of_lt hlt]
      refine ⟨last, periodAround_of_last hz hrule hend hle (fun other hother hbefore => ?_)
        fun x hfrom hto => hholds x (by omega) hto⟩
      have hbefore := he.last other (ruleChanges_eq hrule hd ▸ hother) hbefore
      omega
  · -- The transitions of the first year are over.
    have hwithin :=
      @Daylight.Regular.changes_within d rule.standard 1 hregular (by decide) (by decide)
    have hmem := Daylight.mem_changes_iff.2
      ⟨1, by decide, by decide, Or.inl (Eq.refl (d.firstChange rule.standard 1))⟩
    have hlater := hnone _ hmem
    have hyears := yearStart_mono (show 1 + 1 ≤ year by omega)
    omega

/-! ## The whole zone -/

theorem exists_isPeriodAt (hz : z.InOrder) (hyear : yearAt time = .ok year) (hfirst : 2 ≤ year)
    (hlast : year ≤ 9998) :
    ∃ answer, z.periodAt time = .ok answer ∧ z.IsPeriodAt time answer := by
  have hcalendar := calendar_of_year hyear hfirst hlast
  have hsentinel : yearStart 1 = firstSecond := by decide
  have htime : firstSecond ≤ time := by omega
  cases h : firstAfter ExactEntry.since z.exactTable time with
  | some index => exact isPeriodAt_of_index hz htime h
  | none =>
    cases hrule : z.rule with
    | none => exact isPeriodAt_of_noRule hz hrule htime h
    | some rule =>
      cases hd : rule.daylight with
      | none => exact isPeriodAt_of_steady hz hrule hd htime h
      | some d => exact isPeriodAt_of_daylight hz hrule hd hyear hfirst hlast h

/-- A lookup gives no period exactly if no recorded transition is at or before the time.
Otherwise it gives the offset and the flag that hold at the time, and the time of the
latest recorded transition, from which on they hold. -/
theorem periodAt_around (hz : z.InOrder) (hyear : yearAt time = .ok year) (hfirst : 2 ≤ year)
    (hlast : year ≤ 9998) :
    ∃ answer, z.periodAt time = .ok answer ∧
      (answer = none ↔ ∀ e ∈ z.recorded, time < e.since) ∧
      ∀ period, answer = some period →
        z.offsetAt time = .ok (period.offset, period.isDaylight) ∧
          ∃ e, IsLatest z.recorded time e ∧ period.since = some e.since ∧
            ∀ x, e.since ≤ x → x ≤ time →
              z.offsetAt x = .ok (period.offset, period.isDaylight) := by
  obtain ⟨answer, hanswer, hright⟩ := exists_isPeriodAt hz hyear hfirst hlast
  refine ⟨answer, hanswer, ?_, ?_⟩
  · cases answer with
    | none => exact iff_of_true rfl hright
    | some period =>
      obtain ⟨e, haround⟩ := hright
      refine iff_of_false (Option.some_ne_none _) fun hnone => ?_
      exact absurd haround.latest.le (Int.not_le.2 (hnone e haround.latest.mem))
  · rintro period rfl
    obtain ⟨e, haround⟩ := hright
    exact ⟨haround.holds time haround.latest.le (Int.le_refl _), e, haround.latest,
      haround.since, haround.holds⟩

theorem lateCentralEurope_inOrder : lateCentralEurope.InOrder where
  sentinel := by
    rintro first ⟨⟩
    rfl
  sorted := lateCentralEurope_wellSpaced.spaced.pairwise
  regular := by
    rintro rule d ⟨⟩ ⟨⟩
    exact ZoneRule.centralEurope_regular

/-- In the winter in which the zone takes up its rule, the period begins with the table's
transition and not with the rule's one of October. -/
theorem lateCentralEurope_periodAt_around :
    lateCentralEurope.periodAt 853000000 = .ok (some ⟨3600, some 852940800, false⟩) ∧
      ∀ x, 852940800 ≤ x → x ≤ 853000000 → lateCentralEurope.offsetAt x = .ok (3600, false) := by
  have hyear : yearAt 853000000 = .ok 1997 := rfl
  have hperiod :
      lateCentralEurope.periodAt 853000000 = .ok (some ⟨3600, some 852940800, false⟩) := by
    decide +kernel
  obtain ⟨answer, hanswer, -, haround⟩ :=
    periodAt_around lateCentralEurope_inOrder hyear (by decide) (by decide)
  obtain rfl := Except.ok.inj (hperiod.symm.trans hanswer)
  obtain ⟨-, e, -, hsince, hholds⟩ := haround _ rfl
  rw [← Option.some.inj hsince] at hholds
  exact ⟨hperiod, hholds⟩

end CivilTime.ZoneData
