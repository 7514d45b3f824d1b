import CivilTime.Proofs.LocalTimeExact
import CivilTime.Zone.Data

/-!
# Local times along a table of transitions

A table of transitions is read entry by entry, once for an exact time
(`HoldsFrom`) and once for a local time (`localTimeFrom`).  On the clock a
transition spans the seconds that it skips or repeats, from `spanStart` up to
`spanEnd`.  Where the spans come one after the other, the two readings agree.

* `describes_transition` is the agreement at a single transition.
* `mem_shownFrom_of_lt` says that before the end of a span no entry after the
  transition matters but the first.
* `describes_from` is the agreement for the whole table, by induction on it.

What holds after the last entry is left open: `EndsWell` says what it has to
fulfil for a local time.
-/

namespace CivilTime

namespace ExactEntry

/-- The first local second that the transition between two entries skips or
repeats. -/
def spanStart (a b : ExactEntry) : Int :=
  b.since + min a.offset b.offset

/-- The local second after the last one that the transition skips or
repeats. -/
def spanEnd (a b : ExactEntry) : Int :=
  b.since + max a.offset b.offset

/-- The entry by local time of the transition between two entries. -/
def wallEntry (a b : ExactEntry) : WallEntry where
  limit := spanEnd a b
  offset := a.offset
  change := b.offset - a.offset

end ExactEntry

open ExactEntry

/-! ## One transition -/

/-- Before the end of its span, a local time is shown before the transition,
after it, both or neither, and the entry says which. -/
theorem describes_transition {a b : ExactEntry} {time : Int} {shown : Set Int}
    (hlt : time < spanEnd a b)
    (hshown : ∀ x, x ∈ shown ↔
      x = time - a.offset ∧ x < b.since ∨ x = time - b.offset ∧ b.since ≤ x) :
    ((wallEntry a b).localTimeAt time).Describes shown time := by
  unfold spanEnd at hlt
  unfold WallEntry.localTimeAt wallEntry spanEnd
  dsimp only
  split
  · -- The span has not begun, or it is empty.
    refine Set.ext fun x => ?_
    rw [hshown, Set.mem_singleton_iff]
    omega
  · split
    · refine ⟨Set.ext fun x => ?_, by omega⟩
      rw [hshown, Set.mem_insert_iff, Set.mem_singleton_iff]
      omega
    · refine Set.eq_empty_iff_forall_notMem.2 fun x => ?_
      rw [hshown]
      omega

/-! ## Reading a table -/

/-- An offset holds at an exact time, read from an entry on.  After the last
entry, `after` says which offset holds. -/
def HoldsFrom (after : Int → Int → Prop) : ExactEntry → List ExactEntry → Int → Int → Prop
  | _, [], x, offset => after x offset
  | a, b :: rest, x, offset =>
    x < b.since ∧ offset = a.offset ∨ b.since ≤ x ∧ HoldsFrom after b rest x offset

/-- How often a local time occurs, read from an entry on.  After the last
entry, `after` gives the answer. -/
def localTimeFrom (after : Int → Except Failure LocalTime) :
    ExactEntry → List ExactEntry → Int → Except Failure LocalTime
  | _, [], time => after time
  | a, b :: rest, time =>
    if time < spanEnd a b then .ok ((wallEntry a b).localTimeAt time)
    else localTimeFrom after b rest time

/-- The exact times from an entry on at which a local time is shown. -/
def shownFrom (after : Int → Int → Prop) (a : ExactEntry) (rest : List ExactEntry) (time : Int) :
    Set Int :=
  {x | a.since ≤ x ∧ ∃ offset, HoldsFrom after a rest x offset ∧ x + offset = time}

variable {after : Int → Int → Prop} {localAfter : Int → Except Failure LocalTime}
  {a b : ExactEntry} {rest : List ExactEntry} {time : Int}

theorem mem_shownFrom_cons (h : a.since < b.since) (x : Int) :
    x ∈ shownFrom after a (b :: rest) time ↔
      a.since ≤ x ∧ x < b.since ∧ x = time - a.offset ∨ x ∈ shownFrom after b rest time := by
  constructor
  · rintro ⟨hx, offset, ⟨hlt, rfl⟩ | ⟨hge, hholds⟩, htime⟩
    · exact Or.inl ⟨hx, hlt, by omega⟩
    · exact Or.inr ⟨hge, offset, hholds, htime⟩
  · rintro (⟨hx, hlt, htime⟩ | ⟨hge, offset, hholds, htime⟩)
    · exact ⟨hx, a.offset, Or.inl ⟨hlt, rfl⟩, by omega⟩
    · exact ⟨by omega, offset, Or.inr ⟨hge, hholds⟩, htime⟩

/-- The transitions come in order, and the span of each ends before that of
the next begins. -/
structure Spaced (entries : List ExactEntry) : Prop where
  increasing : ∀ a b, [a, b] <:+: entries → a.since < b.since
  apart : ∀ a b c, [a, b, c] <:+: entries → spanEnd a b ≤ spanStart b c

theorem Spaced.tail {entries : List ExactEntry} (h : Spaced (a :: entries)) : Spaced entries :=
  ⟨fun b c hin => h.increasing b c (hin.trans (List.infix_cons (List.infix_refl _))),
    fun b c d hin => h.apart b c d (hin.trans (List.infix_cons (List.infix_refl _)))⟩

theorem Spaced.lt (h : Spaced (a :: b :: rest)) : a.since < b.since :=
  h.increasing a b ⟨[], rest, rfl⟩

theorem Spaced.le {c : ExactEntry} (h : Spaced (a :: b :: c :: rest)) :
    spanEnd a b ≤ spanStart b c :=
  h.apart a b c ⟨[], rest, rfl⟩

/-- What follows the last transition fits to it, for one local time.  Before
the end of the span the last offset counts as if it went on, and from then on
the answer that follows is right about the exact times after the
transition. -/
structure EndsWell (after : Int → Int → Prop) (localAfter : Int → Except Failure LocalTime)
    (a b : ExactEntry) (time : Int) : Prop where
  near : time < spanEnd a b →
    ∀ x, x ∈ shownFrom after b [] time ↔ x = time - b.offset ∧ b.since ≤ x
  far : spanEnd a b ≤ time →
    ∃ localTime, localAfter time = .ok localTime ∧
      localTime.Describes (shownFrom after b [] time) time

/-- Before the end of the span of a transition, a local time is shown after it
at the offset that it begins, and at no other. -/
theorem mem_shownFrom_of_lt (h : Spaced (a :: b :: rest))
    (hend : ∀ c d, [c, d] <:+ a :: b :: rest → EndsWell after localAfter c d time)
    (hlt : time < spanEnd a b) (x : Int) :
    x ∈ shownFrom after b rest time ↔ x = time - b.offset ∧ b.since ≤ x := by
  induction rest generalizing a b with
  | nil => exact (hend a b (List.suffix_refl _)).near hlt x
  | cons c rest ih =>
    have hspan := h.le
    have hnext : time < spanEnd b c := by
      unfold spanStart spanEnd at *
      omega
    have hrest := ih h.tail (fun d e hsuffix => hend d e (hsuffix.trans (List.suffix_cons _ _)))
      hnext
    rw [mem_shownFrom_cons h.tail.lt, hrest]
    -- The local times shown after the next transition lie beyond the span of this one.
    unfold spanStart spanEnd at *
    omega

/-- From the end of the span of a transition on, a local time is shown after
the transition only. -/
theorem shownFrom_of_le (h : a.since < b.since) (hle : spanEnd a b ≤ time) :
    shownFrom after a (b :: rest) time = shownFrom after b rest time := by
  ext x
  rw [mem_shownFrom_cons h, or_iff_right]
  unfold spanEnd at hle
  omega

theorem describes_before (h : Spaced (a :: b :: rest))
    (hend : ∀ c d, [c, d] <:+ a :: b :: rest → EndsWell after localAfter c d time)
    (hbegin : a.since + a.offset ≤ time) (hlt : time < spanEnd a b) :
    ∃ localTime, localTimeFrom localAfter a (b :: rest) time = .ok localTime ∧
      localTime.Describes (shownFrom after a (b :: rest) time) time := by
  refine ⟨_, if_pos hlt, describes_transition hlt fun x => ?_⟩
  rw [mem_shownFrom_cons h.lt, mem_shownFrom_of_lt h hend hlt]
  omega

/-- The answer read from a table is right about the exact times read from it,
for local times that lie after the beginning of the table. -/
theorem describes_from (h : Spaced (a :: b :: rest))
    (hend : ∀ c d, [c, d] <:+ a :: b :: rest → EndsWell after localAfter c d time)
    (hbegin : a.since + a.offset ≤ time) :
    ∃ localTime, localTimeFrom localAfter a (b :: rest) time = .ok localTime ∧
      localTime.Describes (shownFrom after a (b :: rest) time) time := by
  induction rest generalizing a b with
  | nil =>
    by_cases hlt : time < spanEnd a b
    · exact describes_before h hend hbegin hlt
    · have hle : spanEnd a b ≤ time := by omega
      rw [shownFrom_of_le h.lt hle, localTimeFrom, if_neg hlt]
      exact (hend a b (List.suffix_refl _)).far hle
  | cons c rest ih =>
    by_cases hlt : time < spanEnd a b
    · exact describes_before h hend hbegin hlt
    · have hle : spanEnd a b ≤ time := by omega
      rw [shownFrom_of_le h.lt hle, localTimeFrom, if_neg hlt]
      refine ih h.tail (fun d e hsuffix => hend d e (hsuffix.trans (List.suffix_cons _ _))) ?_
      unfold spanEnd at hle
      omega

end CivilTime
