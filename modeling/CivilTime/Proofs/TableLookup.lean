import CivilTime.Proofs.Success
import CivilTime.Proofs.TableSearch
import CivilTime.Proofs.TransitionSpans
import CivilTime.ZoneFile.Decoder

/-!
# Looking up the tables of a zone

A zone searches its two tables by halves.  On tables in order, that gives what
a reading from the front gives.

* `ZoneData.offsetAt_iff` compares the lookup of an exact time with
  `HoldsFrom`.
* `ZoneData.localTimeAt_eq` compares the lookup of a local time with
  `localTimeFrom`.

The table by local time is the one that is made from the table by exact
time, and none of its limits had to be brought into the calendar.
-/

namespace CivilTime

open ExactEntry

/-! ## Looking up exact times -/

section HoldsFrom

variable {after : Int → Int → Prop} {x offset : Int}

/-- The offset that holds is that of the entry before the first one after. -/
theorem holdsFrom_of_findIdx? {a : ExactEntry} {rest : List ExactEntry} {k : Nat}
    (h : (rest.findIdx? fun e => x < e.since) = some k) (hk : k < (a :: rest).length) :
    HoldsFrom after a rest x offset ↔ offset = (a :: rest)[k].offset := by
  induction rest generalizing a k with
  | nil => contradiction
  | cons b rest ih =>
    rw [List.findIdx?_cons] at h
    by_cases hlt : x < b.since
    · rw [if_pos (decide_eq_true hlt)] at h
      obtain rfl := Option.some.inj h
      rw [HoldsFrom, or_iff_left (fun hge => absurd hlt (Int.not_lt.2 hge.1))]
      exact and_iff_right hlt
    · rw [if_neg (by simpa using hlt)] at h
      obtain ⟨j, hj, rfl⟩ := Option.map_eq_some_iff.1 h
      rw [HoldsFrom, or_iff_right (fun hholds => hlt hholds.1),
        and_iff_right (Int.not_lt.1 hlt), ih hj (by simpa using hk)]
      rfl

theorem holdsFrom_of_findIdx?_eq_none {a : ExactEntry} {rest : List ExactEntry}
    (h : (rest.findIdx? fun e => x < e.since) = none) :
    HoldsFrom after a rest x offset ↔ after x offset := by
  induction rest generalizing a with
  | nil => exact Iff.rfl
  | cons b rest ih =>
    rw [List.findIdx?_cons] at h
    by_cases hlt : x < b.since
    · rw [if_pos (decide_eq_true hlt)] at h
      contradiction
    · rw [if_neg (by simpa using hlt), Option.map_eq_none_iff] at h
      rw [HoldsFrom, or_iff_right (fun hholds => hlt hholds.1),
        and_iff_right (Int.not_lt.1 hlt), ih h]

end HoldsFrom

namespace ZoneData

/-- The exact times at which the zone shows a local time. -/
def timesShowing (z : ZoneData) (time : Int) : Set Int :=
  {x | ∃ found, z.offsetAt x = .ok found ∧ x + found.1 = time}

/-- The offset that holds at an exact time after the last entry of the
table. -/
def HoldsAfter (z : ZoneData) (last : ExactEntry) (x offset : Int) : Prop :=
  match z.rule with
  | some rule => ∃ period, rule.periodAt x = .ok period ∧ period.offset = offset
  | none => offset = last.offset

/-- The answer to a local time after the last entry of the table. -/
def localTimeAfter (z : ZoneData) (last : ExactEntry) (time : Int) : Except Failure LocalTime :=
  match z.rule with
  | some rule => rule.localTimeAt time
  | none => .ok (.once last.offset)

variable {z : ZoneData} {first : ExactEntry} {rest : List ExactEntry} {x time : Int}

theorem lastEntry_eq (hrule : z.rule = none) (htable : z.exactTable.toList = first :: rest) :
    z.lastEntry hrule = (first :: rest).getLast (List.cons_ne_nil _ _) := by
  rw [lastEntry, List.getLast_eq_getElem]
  simp only [← Array.getElem_toList, ← Array.length_toList, htable]

theorem entryBefore_eq (htable : z.exactTable.toList = first :: rest)
    (index : Fin z.exactTable.size) (h : index.val - 1 < (first :: rest).length) :
    z.entryBefore index = (first :: rest)[index.val - 1] := by
  rw [entryBefore]
  simp only [← Array.getElem_toList, htable]

/-- The table is searched by exact time as it is read. -/
theorem offsetAt_iff (htable : z.exactTable.toList = first :: rest)
    (hsorted : (first :: rest).Pairwise fun a b => a.since ≤ b.since) (hfirst : first.since ≤ x)
    (offset : Int) :
    (∃ found, z.offsetAt x = .ok found ∧ found.1 = offset) ↔
      HoldsFrom (z.HoldsAfter ((first :: rest).getLast (List.cons_ne_nil _ _))) first rest x
        offset := by
  rw [← htable] at hsorted
  have hscan := @firstAfter_findIdx? _ ExactEntry.since z.exactTable x hsorted
  rw [htable, List.findIdx?_cons, if_neg (by simpa using hfirst)] at hscan
  unfold offsetAt
  cases hfound : firstAfter ExactEntry.since z.exactTable x with
  | some index =>
    rw [hfound, eq_comm, Option.map_some, Option.map_eq_some_iff] at hscan
    obtain ⟨k, hk, hindex⟩ := hscan
    have hlength : k < (first :: rest).length := by
      have hsize : z.exactTable.size = (first :: rest).length := by
        rw [← htable, Array.length_toList]
      have hlt := index.isLt
      omega
    rw [holdsFrom_of_findIdx? hk hlength]
    have hentry := entryBefore_eq htable index (by omega)
    simp only [← hindex, Nat.add_sub_cancel] at hentry
    simp only [hentry, Except.ok.injEq, exists_eq_left']
    exact eq_comm
  | none =>
    rw [hfound, eq_comm, Option.map_none, Option.map_eq_none_iff] at hscan
    rw [holdsFrom_of_findIdx?_eq_none hscan]
    dsimp only
    split
    · next rule hrule =>
      simp only [HoldsAfter, hrule]
      constructor
      · rintro ⟨found, hfound, rfl⟩
        obtain ⟨period, hperiod, hfound⟩ := bind_eq_ok.1 hfound
        obtain rfl := pure_eq_ok.1 hfound
        exact ⟨period, hperiod, rfl⟩
      · rintro ⟨period, hperiod, rfl⟩
        exact ⟨_, bind_eq_ok.2 ⟨period, hperiod, rfl⟩, rfl⟩
    · next hrule =>
      simp only [HoldsAfter, hrule, lastEntry_eq hrule htable, Except.ok.injEq, exists_eq_left']
      exact eq_comm

/-! ## Looking up local times -/

theorem wallEntriesAfter_cons {a b : ExactEntry} (h : clampSecond (spanEnd a b) = spanEnd a b)
    (rest : List ExactEntry) :
    ZoneFile.wallEntriesAfter a.offset (b :: rest) =
      wallEntry a b :: ZoneFile.wallEntriesAfter b.offset rest := by
  rw [ZoneFile.wallEntriesAfter, wallEntry, ← h]
  rfl

/-- The entries by local time come in order. -/
theorem pairwise_wallEntriesAfter {a : ExactEntry} (h : Spaced (a :: rest))
    (hclamp : ∀ b c, [b, c] <:+: a :: rest → clampSecond (spanEnd b c) = spanEnd b c) :
    (ZoneFile.wallEntriesAfter a.offset rest).Pairwise fun c d => c.limit ≤ d.limit := by
  induction rest generalizing a with
  | nil => exact List.Pairwise.nil
  | cons b rest ih =>
    have htail : ∀ c d, [c, d] <:+: b :: rest → clampSecond (spanEnd c d) = spanEnd c d :=
      fun c d hin => hclamp c d (hin.trans (List.infix_cons (List.infix_refl _)))
    rw [wallEntriesAfter_cons (hclamp a b ⟨[], rest, rfl⟩), List.pairwise_cons]
    refine ⟨?_, ih h.tail htail⟩
    cases rest with
    | nil => exact fun d hd => nomatch hd
    | cons c rest =>
      have hspan := h.le
      have hnext : spanEnd a b ≤ spanEnd b c := by
        unfold spanStart spanEnd at *
        omega
      have hrest := ih h.tail htail
      rw [wallEntriesAfter_cons (htail b c ⟨[], rest, rfl⟩)] at hrest ⊢
      intro d hd
      rcases List.mem_cons.1 hd with rfl | hd
      · exact hnext
      · exact Int.le_trans hnext ((List.pairwise_cons.1 hrest).1 d hd)

/-- The table is searched by local time as a scan would do it. -/
theorem recordedTimeAt?_eq (h : z.wallTable.toList.Pairwise fun c d => c.limit ≤ d.limit) :
    z.recordedTimeAt? time =
      (z.wallTable.toList.find? fun e => time < e.limit).map fun e => e.localTimeAt time := by
  rw [← firstAfter_find? h, Option.map_map, recordedTimeAt?]
  rfl

theorem localTimeFrom_eq {after : Int → Except Failure LocalTime} {a : ExactEntry}
    (hclamp : ∀ b c, [b, c] <:+: a :: rest → clampSecond (spanEnd b c) = spanEnd b c) :
    localTimeFrom after a rest time =
      match (ZoneFile.wallEntriesAfter a.offset rest).find? fun e => time < e.limit with
      | some e => .ok (e.localTimeAt time)
      | none => after time := by
  induction rest generalizing a with
  | nil => rfl
  | cons b rest ih =>
    rw [wallEntriesAfter_cons (hclamp a b ⟨[], rest, rfl⟩), localTimeFrom, List.find?_cons]
    have hlimit : (wallEntry a b).limit = spanEnd a b := rfl
    rw [hlimit]
    by_cases hlt : time < spanEnd a b
    · rw [if_pos hlt, decide_eq_true hlt]
    · rw [if_neg hlt, decide_eq_false hlt,
        ih fun c d hin => hclamp c d (hin.trans (List.infix_cons (List.infix_refl _)))]

/-- The offset after the last entry by local time is that of the last entry
by exact time. -/
theorem lastOffset_eq (a : ExactEntry) (rest : List ExactEntry) :
    (match (ZoneFile.wallEntriesAfter a.offset rest).getLast? with
      | some last => last.offset + last.change
      | none => a.offset) = ((a :: rest).getLast (List.cons_ne_nil _ _)).offset := by
  induction rest generalizing a with
  | nil => rfl
  | cons b rest ih =>
    rw [ZoneFile.wallEntriesAfter, List.getLast?_cons, List.getLast_cons (List.cons_ne_nil _ _),
      ← ih b]
    cases (ZoneFile.wallEntriesAfter b.offset rest).getLast? with
    | none =>
      simp only [Option.getD_none]
      omega
    | some last => rfl

/-- The answer to a local time is the one that is read from the table. -/
theorem localTimeAt_eq (htable : z.exactTable.toList = first :: rest)
    (hwall : z.wallTable.toList = ZoneFile.wallEntries (first :: rest))
    (hspaced : Spaced (first :: rest))
    (hclamp : ∀ a b, [a, b] <:+: first :: rest → clampSecond (spanEnd a b) = spanEnd a b) :
    z.localTimeAt time =
      localTimeFrom (z.localTimeAfter ((first :: rest).getLast (List.cons_ne_nil _ _))) first rest
        time := by
  have hsorted := pairwise_wallEntriesAfter hspaced hclamp
  rw [ZoneFile.wallEntries] at hwall
  rw [← hwall] at hsorted
  rw [localTimeFrom_eq hclamp, localTimeAt, recordedTimeAt?_eq hsorted, hwall]
  cases (ZoneFile.wallEntriesAfter first.offset rest).find? fun e => time < e.limit with
  | some e => rfl
  | none =>
    dsimp only [Option.map_none]
    split
    · next rule hrule => simp only [localTimeAfter, hrule]
    · next hrule =>
      have hlast := lastOffset_eq first rest
      rw [← hwall, Array.getLast?_toList] at hlast
      simp only [localTimeAfter, hrule, ← hlast]
      cases hback : z.wallTable.back? with
      | some last => rfl
      | none =>
        rw [hback] at hlast
        rw [lastEntry_eq hrule htable, ← hlast]

end ZoneData

end CivilTime
