import CivilTime.Proofs.FileLayout
import CivilTime.Proofs.RuleReading
import CivilTime.Proofs.ZonePeriods

/-!
# What reading a zone guarantees

The data of a zone comes from a file or from the text of a rule
(`ZoneData.IsRead`).  Either way some things need not be looked at again.

* `ZoneData.IsRead.rule_inRange`: a rule is in range.
* `ZoneData.IsRead.offset_fits`: the recorded offsets are those of four bytes.
* `ZoneData.IsRead.wallTable_eq`: the table by local time belongs to the one by
  exact time.

The last section says when a lookup fails.  `InCalendar` are the seconds that have a
year in the calendar, and only a rule with daylight time asks for one.
-/

namespace CivilTime

/-! ## Bytes stand for bounded numbers -/

namespace ZoneFile

theorem foldl_lt (bytes : List UInt8) (value : Nat) :
    bytes.foldl (fun value byte => 256 * value + byte.toNat) value <
      (value + 1) * 256 ^ bytes.length := by
  induction bytes generalizing value with
  | nil => simp
  | cons byte bytes ih =>
    have hbyte := byte.toNat_lt
    have hstep : (256 * value + byte.toNat + 1) * 256 ^ bytes.length ≤
        256 * (value + 1) * 256 ^ bytes.length := Nat.mul_le_mul_right _ (by omega)
    calc bytes.foldl _ (256 * value + byte.toNat)
        < (256 * value + byte.toNat + 1) * 256 ^ bytes.length := ih _
      _ ≤ 256 * (value + 1) * 256 ^ bytes.length := hstep
      _ = (value + 1) * 256 ^ (byte :: bytes).length := by
        rw [List.length_cons, Nat.pow_succ, Nat.mul_comm 256, Nat.mul_assoc,
          Nat.mul_comm 256]

theorem unsignedValue_lt (bytes : List UInt8) : unsignedValue bytes < 256 ^ bytes.length := by
  have hlt := foldl_lt bytes 0
  rwa [Nat.zero_add, Nat.one_mul] at hlt

/-- Bytes stand for a number that fits them. -/
theorem fits_signedValue (bytes : List UInt8) : Fits bytes.length (signedValue bytes) := by
  have hlt := unsignedValue_lt bytes
  have hcast : ((256 ^ bytes.length : Nat) : Int) = 256 ^ bytes.length :=
    Int.natCast_pow 256 bytes.length
  have hrange : Nat.pow 256 bytes.length = 256 ^ bytes.length := rfl
  unfold Fits signedValue
  rw [hrange]
  dsimp only
  split <;> omega

theorem offset_fits_of_typesOf {bytes : List UInt8} {types : List TimeType}
    (h : typesOf bytes = .ok types) : ∀ type ∈ types, Fits 4 type.offset := by
  induction bytes using typesOf.induct generalizing types with
  | case1 =>
    cases h
    exact fun _ hmem => absurd hmem List.not_mem_nil
  | case2 a b c d daylight name rest ih =>
    rw [typesOf] at h
    obtain ⟨others, hothers, h⟩ := bind_eq_ok.1 h
    obtain rfl := pure_eq_ok.1 h
    exact List.forall_mem_cons.2 ⟨fits_signedValue [a, b, c, d], ih hothers⟩
  | case3 bytes hshort hlong =>
    rw [typesOf] at h
    · contradiction
    · exact hshort
    · exact hlong

theorem offset_fits_of_transitions {types : List TimeType} {records : List (Int × UInt8)}
    {entries : List ExactEntry} (htypes : ∀ type ∈ types, Fits 4 type.offset)
    (h : transitions types records = .ok entries) : ∀ entry ∈ entries, Fits 4 entry.offset := by
  induction records generalizing entries with
  | nil =>
    cases h
    exact fun _ hmem => absurd hmem List.not_mem_nil
  | cons record records ih =>
    obtain ⟨since, index⟩ := record
    rw [transitions] at h
    cases htype : types[index.toNat]? with
    | none =>
      rw [htype] at h
      contradiction
    | some type =>
      rw [htype] at h
      obtain ⟨others, hothers, h⟩ := bind_eq_ok.1 h
      obtain rfl := pure_eq_ok.1 h
      exact List.forall_mem_cons.2 ⟨htypes type (List.mem_of_getElem? htype), ih hothers⟩

theorem offset_fits_of_exactEntries {block : Block} {entries : List ExactEntry}
    (htypes : ∀ type ∈ block.types, Fits 4 type.offset) (h : exactEntries block = .ok entries) :
    ∀ entry ∈ entries, Fits 4 entry.offset := by
  rw [exactEntries] at h
  cases hblock : block.types with
  | nil =>
    rw [hblock] at h
    cases h
    exact fun _ hmem => absurd hmem List.not_mem_nil
  | cons first others =>
    rw [hblock] at h htypes
    obtain ⟨rest, hrest, h⟩ := bind_eq_ok.1 h
    obtain rfl := pure_eq_ok.1 h
    exact List.forall_mem_cons.2
      ⟨htypes first List.mem_cons_self, offset_fits_of_transitions htypes hrest⟩

theorem offset_fits_of_readBlock {width : Nat} {header : Header} {bytes rest : List UInt8}
    {block : Block} (h : readBlock width header bytes = .ok (block, rest)) :
    ∀ type ∈ block.types, Fits 4 type.offset := by
  obtain ⟨⟨times, afterTimes⟩, -, h⟩ := bind_eq_ok.1 h
  obtain ⟨types, htypes, h⟩ := bind_eq_ok.1 h
  obtain ⟨rfl, -⟩ := Prod.mk.inj (pure_eq_ok.1 h)
  exact offset_fits_of_typesOf htypes

theorem offset_fits_of_readZone {bytes rest : List UInt8} {header : Header} {block : Block}
    (h : readZone bytes = .ok (header, block, rest)) :
    ∀ type ∈ block.types, Fits 4 type.offset := by
  obtain ⟨⟨first, afterHeader⟩, -, h⟩ := bind_eq_ok.1 h
  dsimp only at h
  split at h
  · obtain ⟨⟨read, afterBlock⟩, hread, h⟩ := bind_eq_ok.1 h
    cases pure_eq_ok.1 h
    exact offset_fits_of_readBlock hread
  · obtain ⟨⟨second, afterSecond⟩, -, h⟩ := bind_eq_ok.1 h
    obtain ⟨⟨read, afterBlock⟩, hread, h⟩ := bind_eq_ok.1 h
    cases pure_eq_ok.1 h
    intro type htype
    exact offset_fits_of_readBlock hread type htype

theorem inRange_of_readRule {header : Header} {bytes : List UInt8} {rule : ZoneRule}
    (h : readRule header bytes = .ok (some rule)) : rule.InRange := by
  rw [readRule] at h
  split at h
  · cases pure_eq_ok.1 h
  · obtain ⟨text, -, h⟩ := bind_eq_ok.1 h
    obtain ⟨read, hread, h⟩ := bind_eq_ok.1 h
    obtain rfl := Option.some.inj (pure_eq_ok.1 h)
    exact (ZoneRule.read_eq_ok_iff.1 (mapError_eq_ok.1 hread)).parts.inRange

/-- The parts of a zone that is decoded. -/
theorem decode_parts {key : Option String} {bytes : List UInt8} {z : ZoneData}
    (h : decode key bytes = .ok z) :
    (∀ entry ∈ z.exactTable.toList, Fits 4 entry.offset) ∧
      z.wallTable.toList = wallEntries z.exactTable.toList ∧
      ∀ rule, z.rule = some rule → rule.InRange := by
  obtain ⟨⟨header, block, rest⟩, hzone, h⟩ := bind_eq_ok.1 h
  obtain ⟨entries, hentries, h⟩ := bind_eq_ok.1 h
  have hoffsets := offset_fits_of_exactEntries (offset_fits_of_readZone hzone) hentries
  have hparts : ∀ rule, zoneOf key entries rule = .ok z →
      (∀ entry ∈ z.exactTable.toList, Fits 4 entry.offset) ∧
        z.wallTable.toList = wallEntries z.exactTable.toList ∧ z.rule = rule := by
    intro rule hzone
    rw [zoneOf] at hzone
    split at hzone
    · obtain rfl := Except.ok.inj hzone
      exact ⟨hoffsets, rfl, rfl⟩
    · contradiction
  dsimp only at h
  split at h
  · obtain ⟨hfit, hwall, hrule⟩ := hparts none h
    exact ⟨hfit, hwall, fun found hfound => by rw [hrule] at hfound; contradiction⟩
  · obtain ⟨rule, hread, h⟩ := bind_eq_ok.1 h
    obtain ⟨hfit, hwall, hrule⟩ := hparts rule h
    refine ⟨hfit, hwall, fun found hfound => inRange_of_readRule (hread.trans ?_)⟩
    rw [← hrule, hfound]

end ZoneFile

/-! ## Zones that are read -/

namespace ZoneData

/-- The data of a zone that is read from a file, or from the text of a rule. -/
inductive IsRead : ZoneData → Prop
  | file {key : Option String} {bytes : List UInt8} {z : ZoneData}
    (hdecoded : ZoneFile.decode key bytes = .ok z) : IsRead z
  | rule {key : Option String} {text : String} {rule : ZoneRule}
    (hparsed : ZoneRule.parse text = .ok rule) : IsRead (.ofRule key rule)

variable {z : ZoneData}

namespace IsRead

theorem rule_inRange (h : z.IsRead) {rule : ZoneRule} (hrule : z.rule = some rule) :
    rule.InRange := by
  cases h with
  | file hdecoded => exact (ZoneFile.decode_parts hdecoded).2.2 rule hrule
  | rule hparsed =>
    obtain rfl := Option.some.inj hrule
    exact (ZoneRule.parse_eq_ok_iff.1 hparsed).parts.inRange

theorem offset_fits (h : z.IsRead) :
    ∀ entry ∈ z.exactTable.toList, ZoneFile.Fits 4 entry.offset := by
  cases h with
  | file hdecoded => exact (ZoneFile.decode_parts hdecoded).1
  | rule hparsed => exact fun _ hmem => absurd hmem List.not_mem_nil

theorem wallTable_eq (h : z.IsRead) :
    z.wallTable.toList = ZoneFile.wallEntries z.exactTable.toList := by
  cases h with
  | file hdecoded => exact (ZoneFile.decode_parts hdecoded).2.1
  | rule hparsed => rfl

end IsRead

theorem isRead_centralEurope : (ofRule none .centralEurope).IsRead :=
  @IsRead.rule none "CET-1CEST,M3.5.0,M10.5.0/3" _ (by decide +kernel)

end ZoneData

/-! ## The failures of lookups -/

/-- The seconds of the calendar. -/
def InCalendar (second : Int) : Prop :=
  firstSecond ≤ second ∧ second ≤ lastSecond

instance (second : Int) : Decidable (InCalendar second) :=
  inferInstanceAs (Decidable (_ ∧ _))

/-- They are the seconds of the years 1 to 9999. -/
theorem inCalendar_iff {second : Int} :
    InCalendar second ↔ yearStart 1 ≤ second ∧ second < yearStart 10000 := by
  have hcalendar : yearStart 1 = firstSecond ∧ yearStart 10000 = lastSecond + 1 := by decide
  unfold InCalendar
  omega

/-- A second has a year in the calendar, unless it lies outside. -/
theorem exists_yearAt_iff {second : Int} :
    (∃ year, yearAt second = .ok year) ↔ InCalendar second := by
  rw [inCalendar_iff]
  constructor
  · rintro ⟨year, hyear⟩
    obtain ⟨⟨hfirst, hlast⟩, hfrom, hto⟩ := (yearAt_eq_ok_iff _ _).1 hyear
    have hbegin := yearStart_mono hfirst
    have hend := yearStart_mono (show year + 1 ≤ 10000 by omega)
    exact ⟨by omega, by omega⟩
  · rintro ⟨hfrom, hto⟩
    exact exists_yearAt hfrom hto

theorem exists_yearAt_error_iff {second : Int} :
    (∃ failure, yearAt second = .error failure) ↔ ¬InCalendar second := by
  rw [← exists_yearAt_iff]
  cases yearAt second with
  | error failure => simp
  | ok year => simp

namespace ZoneRule

variable {r : ZoneRule} {x time : Int} {failure : Failure}

theorem periodAt_eq_error_iff :
    r.periodAt x = .error failure ↔
      r.daylight.isSome ∧ yearAt (x + r.standard) = .error failure := by
  rw [periodAt]
  cases r.daylight with
  | none => simp
  | some d =>
    refine bind_pure_eq_error.trans ?_
    simp

theorem localTimeAt_eq_error_iff :
    r.localTimeAt time = .error failure ↔ r.daylight.isSome ∧ yearAt time = .error failure := by
  rw [localTimeAt]
  cases r.daylight with
  | none => simp
  | some d =>
    refine bind_pure_eq_error.trans ?_
    simp

theorem exists_periodAt_error_iff :
    (∃ failure, r.periodAt x = .error failure) ↔
      r.daylight.isSome ∧ ¬InCalendar (x + r.standard) := by
  simp only [periodAt_eq_error_iff, exists_and_left, exists_yearAt_error_iff]

theorem exists_localTimeAt_error_iff :
    (∃ failure, r.localTimeAt time = .error failure) ↔
      r.daylight.isSome ∧ ¬InCalendar time := by
  simp only [localTimeAt_eq_error_iff, exists_and_left, exists_yearAt_error_iff]

end ZoneRule

namespace ZoneData

variable {z : ZoneData} {x time : Int} {failure : Failure}

/-! ### After the recorded transitions -/

theorem offsetAt_eq_rule {rule : ZoneRule} (hrule : z.rule = some rule)
    (h : firstAfter ExactEntry.since z.exactTable x = none) :
    z.offsetAt x = rule.periodAt x >>= fun period => pure (period.offset, period.isDaylight) := by
  unfold offsetAt
  rw [h]
  dsimp only
  split
  · next found hsome =>
    obtain rfl := Option.some.inj (hrule.symm.trans hsome)
    rfl
  · next hnone =>
    rw [hrule] at hnone
    contradiction

theorem localTimeAt_eq_rule {rule : ZoneRule} (hrule : z.rule = some rule)
    (h : firstAfter WallEntry.limit z.wallTable time = none) :
    z.localTimeAt time = rule.localTimeAt time := by
  unfold localTimeAt recordedTimeAt?
  rw [h]
  dsimp only [Option.map_none]
  split
  · next found hsome =>
    obtain rfl := Option.some.inj (hrule.symm.trans hsome)
    rfl
  · next hnone =>
    rw [hrule] at hnone
    contradiction

/-- Without a rule, the offset after the last local entry goes on. -/
theorem localTimeAt_of_noRule (hrule : z.rule = none)
    (h : firstAfter WallEntry.limit z.wallTable time = none) :
    z.localTimeAt time =
      match z.wallTable.back? with
      | some last => .ok (.once (last.offset + last.change))
      | none => .ok (.once (z.lastEntry hrule).offset) := by
  unfold localTimeAt recordedTimeAt?
  rw [h]
  dsimp only [Option.map_none]
  split
  · next hsome =>
    rw [hrule] at hsome
    contradiction
  · rfl

/-- After the recorded transitions, a zone fails where its rule fails. -/
theorem offsetAt_eq_error_iff :
    z.offsetAt x = .error failure ↔
      firstAfter ExactEntry.since z.exactTable x = none ∧
        ∃ rule, z.rule = some rule ∧ rule.periodAt x = .error failure := by
  cases hfound : firstAfter ExactEntry.since z.exactTable x with
  | some index =>
    rw [offsetAt_of_index hfound]
    simp
  | none =>
    cases hrule : z.rule with
    | none =>
      rw [offsetAt_of_noRule hrule hfound]
      simp
    | some rule =>
      rw [offsetAt_eq_rule hrule hfound, bind_pure_eq_error]
      simp

theorem periodAt_eq_error_iff :
    z.periodAt x = .error failure ↔
      firstAfter ExactEntry.since z.exactTable x = none ∧
        ∃ rule, z.rule = some rule ∧ rule.periodAt x = .error failure := by
  rw [periodAt]
  cases firstAfter ExactEntry.since z.exactTable x with
  | some index => simp
  | none =>
    cases z.rule with
    | none => simp
    | some rule =>
      refine bind_pure_eq_error.trans ?_
      simp

theorem localTimeAt_eq_error_iff :
    z.localTimeAt time = .error failure ↔
      firstAfter WallEntry.limit z.wallTable time = none ∧
        ∃ rule, z.rule = some rule ∧ rule.localTimeAt time = .error failure := by
  cases hfound : firstAfter WallEntry.limit z.wallTable time with
  | some index =>
    rw [localTimeAt, recordedTimeAt?, hfound]
    simp
  | none =>
    cases hrule : z.rule with
    | none =>
      rw [localTimeAt_of_noRule hrule hfound]
      cases z.wallTable.back? <;> simp
    | some rule =>
      rw [localTimeAt_eq_rule hrule hfound]
      simp

end ZoneData

end CivilTime
