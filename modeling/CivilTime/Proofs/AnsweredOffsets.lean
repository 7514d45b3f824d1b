import CivilTime.Instant.Basic
import CivilTime.Proofs.ReadZones

/-!
# The offsets that zones answer with

A zone has one offset at an exact time, and it answers for a local time with one or two.
What holds of the offsets in its table and its rule holds of all of these.

* `LocalTime.All` says something of every offset of an answer, and
  `LocalTime.All.exists_settle` that a choice settles on one of them.
* `WallEntry.localTimeAt_all` and `Daylight.localTimeIn_all` are about the answers from a
  table and from a rule.
* `ZoneData.IsRead.localTimeAt_all` and `ZoneData.IsRead.offsetAt_fits` are the results
  for a zone that is read: its offsets fit four bytes.
-/

namespace CivilTime

/-! ## Offsets of local answers -/

namespace LocalTime

/-- Every offset of an answer has a property. -/
def All (P : Int → Prop) : LocalTime → Prop
  | once offset => P offset
  | skipped before after => P before ∧ P after
  | repeated first second => P first ∧ P second

variable {P : Int → Prop} {answer : LocalTime}

/-- A choice that does not refuse settles on one of the offsets. -/
theorem All.exists_settle (h : answer.All P) {choice : Choice} (hchoice : choice ≠ .refuse)
    (shown : String) (key : Option String) :
    ∃ offset, choice.settle shown key answer = .ok offset ∧ P offset := by
  cases answer with
  | once offset => exact ⟨offset, rfl, h⟩
  | skipped before after =>
    cases choice with
    | refuse => exact absurd rfl hchoice
    | earlier => exact ⟨before, rfl, h.1⟩
    | compatible => exact ⟨after, rfl, h.2⟩
    | later => exact ⟨after, rfl, h.2⟩
  | repeated first second =>
    cases choice with
    | refuse => exact absurd rfl hchoice
    | later => exact ⟨second, rfl, h.2⟩
    | compatible => exact ⟨first, rfl, h.1⟩
    | earlier => exact ⟨first, rfl, h.1⟩

end LocalTime

/-- Answers from an entry have its offset and the one that follows. -/
theorem WallEntry.localTimeAt_all {P : Int → Prop} {entry : WallEntry} (h : P entry.offset)
    (h' : P (entry.offset + entry.change)) (time : Int) : (entry.localTimeAt time).All P := by
  rw [localTimeAt]
  split
  · exact h
  split
  · exact ⟨h, h'⟩
  · exact ⟨h', h⟩

theorem Daylight.localTimeIn_all {P : Int → Prop} {d : Daylight} {standard : Int}
    (h : P standard) (h' : P d.offset) (year time : Int) :
    (d.localTimeIn standard year time).All P := by
  have hbetween : ∀ first second outer inner, P outer → P inner →
      (localTimeBetween first second outer inner time).All P := by
    intro first second outer inner houter hinner
    rw [localTimeBetween]
    split
    · split
      · exact houter
      split
      · exact ⟨hinner, houter⟩
      split
      · exact hinner
      split
      · exact ⟨hinner, houter⟩
      · exact houter
    · split
      · exact houter
      split
      · exact ⟨houter, hinner⟩
      split
      · exact hinner
      split
      · exact ⟨houter, hinner⟩
      · exact houter
  rw [localTimeIn]
  dsimp only
  split
  · exact hbetween _ _ _ _ h h'
  · exact hbetween _ _ _ _ h' h

/-- The offsets of a rule in range are less than a day. -/
theorem ZoneRule.InRange.withinDay {r : ZoneRule} (h : r.InRange) : r.WithinDay := by
  refine ⟨h.standard, ?_⟩
  rw [otherOffset]
  cases hd : r.daylight with
  | none => exact h.standard
  | some d => exact (h.daylight d hd).offset

/-- The offset of an entry by local time, and the one after it, are offsets of the table by
exact time. -/
theorem ZoneFile.forall_mem_wallEntriesAfter {P : Int → Prop} {before : Int}
    {entries : List ExactEntry} (hbefore : P before) (h : ∀ entry ∈ entries, P entry.offset) :
    ∀ entry ∈ wallEntriesAfter before entries,
      P entry.offset ∧ P (entry.offset + entry.change) := by
  induction entries generalizing before with
  | nil => exact fun _ hmem => absurd hmem List.not_mem_nil
  | cons next rest ih =>
    obtain ⟨hnext, hrest⟩ := List.forall_mem_cons.1 h
    have hchanged : before + (next.offset - before) = next.offset := by omega
    rw [wallEntriesAfter]
    refine List.forall_mem_cons.2 ⟨⟨hbefore, ?_⟩, ih hnext hrest⟩
    rwa [hchanged]

theorem ZoneFile.forall_mem_wallEntries {P : Int → Prop} {entries : List ExactEntry}
    (h : ∀ entry ∈ entries, P entry.offset) :
    ∀ entry ∈ wallEntries entries, P entry.offset ∧ P (entry.offset + entry.change) := by
  cases entries with
  | nil => exact fun _ hmem => absurd hmem List.not_mem_nil
  | cons first rest =>
    obtain ⟨hfirst, hrest⟩ := List.forall_mem_cons.1 h
    exact forall_mem_wallEntriesAfter hfirst hrest

namespace ZoneData

variable {z : ZoneData}

theorem fits_of_natAbs {offset : Int} (h : offset.natAbs < 86400) : ZoneFile.Fits 4 offset := by
  unfold ZoneFile.Fits
  omega

/-- Every offset that a zone answers with fits four bytes. -/
theorem IsRead.localTimeAt_all (h : z.IsRead) {time : Int} {answer : LocalTime}
    (hanswer : z.localTimeAt time = .ok answer) : answer.All (ZoneFile.Fits 4) := by
  have hwall := ZoneFile.forall_mem_wallEntries h.offset_fits
  rw [← h.wallTable_eq] at hwall
  cases hfound : firstAfter WallEntry.limit z.wallTable time with
  | some index =>
    rw [localTimeAt, recordedTimeAt?, hfound] at hanswer
    obtain rfl := Except.ok.inj hanswer
    have hentry := hwall z.wallTable[index] (by simp)
    exact WallEntry.localTimeAt_all hentry.1 hentry.2 time
  | none =>
    cases hrule : z.rule with
    | none =>
      rw [localTimeAt_of_noRule hrule hfound] at hanswer
      split at hanswer
      · next last hlast =>
        obtain rfl := Except.ok.inj hanswer
        exact (hwall last (by simpa using Array.mem_of_back? hlast)).2
      · obtain rfl := Except.ok.inj hanswer
        exact h.offset_fits _ (by simp [lastEntry])
    | some rule =>
      rw [localTimeAt_eq_rule hrule hfound] at hanswer
      have hrange := h.rule_inRange hrule
      cases hd : rule.daylight with
      | none =>
        rw [ZoneRule.localTimeAt, hd] at hanswer
        obtain rfl := Except.ok.inj hanswer
        exact fits_of_natAbs hrange.standard
      | some d =>
        rw [ZoneRule.localTimeAt, hd] at hanswer
        obtain ⟨year, -, hanswer⟩ := bind_eq_ok.1 hanswer
        obtain rfl := pure_eq_ok.1 hanswer
        exact Daylight.localTimeIn_all (fits_of_natAbs hrange.standard)
          (fits_of_natAbs (hrange.daylight d hd).offset) year time

/-- Every offset that a zone has at an exact time fits four bytes. -/
theorem IsRead.offsetAt_fits (h : z.IsRead) {x offset : Int} {isDaylight : Bool}
    (hoffset : z.offsetAt x = .ok (offset, isDaylight)) : ZoneFile.Fits 4 offset := by
  cases hfound : firstAfter ExactEntry.since z.exactTable x with
  | some index =>
    rw [offsetAt_of_index hfound] at hoffset
    cases hoffset
    exact h.offset_fits _ (by simp [entryBefore])
  | none =>
    cases hrule : z.rule with
    | none =>
      rw [offsetAt_of_noRule hrule hfound] at hoffset
      cases hoffset
      exact h.offset_fits _ (by simp [lastEntry])
    | some rule =>
      rw [offsetAt_eq_rule hrule hfound] at hoffset
      obtain ⟨period, hperiod, hoffset⟩ := bind_eq_ok.1 hoffset
      cases pure_eq_ok.1 hoffset
      exact fits_of_natAbs ((h.rule_inRange hrule).withinDay.offset hperiod)

end ZoneData

end CivilTime
