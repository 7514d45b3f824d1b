import CivilTime.Failure
import CivilTime.Zone.LocalTime
import Mathlib.Data.Set.Insert

/-!
# Exact answers about local times

A zone is asked how often a local time occurs.  The answer is exact if it
agrees with the exact times at which the zone shows that local time.

* `LocalTime.Describes` says this of one answer and one set of exact times.
* `Classifies` says that the three kinds of answers come where they belong,
  each exactly then.  `classifies_iff` reduces it to `LocalTime.Describes`.
-/

namespace CivilTime

namespace LocalTime

/-- The answer agrees with the exact times at which a local time is shown. -/
def Describes (times : Set Int) (time : Int) : LocalTime → Prop
  | once offset => times = {time - offset}
  | skipped _ _ => times = ∅
  | repeated first second =>
    times = {time - first, time - second} ∧ time - first < time - second

/-- Whether the local time is said to be skipped. -/
def IsSkipped : LocalTime → Prop
  | skipped _ _ => True
  | once _ | repeated _ _ => False

variable {times : Set Int} {time : Int}

/-- A local time that is shown has one description. -/
theorem describes_unique {a b : LocalTime} (ha : a.Describes times time)
    (hb : b.Describes times time) : a = b ∨ a.IsSkipped ∧ b.IsSkipped := by
  cases a with
  | once o =>
    have ha : times = {time - o} := ha
    subst ha
    cases b with
    | once p =>
      have hp : time - o = time - p := Set.singleton_eq_singleton_iff.1 hb
      exact Or.inl (congrArg once (by omega))
    | skipped p q => exact absurd hb (Set.singleton_ne_empty _)
    | repeated p q =>
      obtain ⟨hpair, hlt⟩ := hb
      have hp : time - p = time - o := (Set.ext_iff.1 hpair (time - p)).2 (Or.inl rfl)
      have hq : time - q = time - o := (Set.ext_iff.1 hpair (time - q)).2 (Or.inr rfl)
      omega
  | skipped o p =>
    have ha : times = ∅ := ha
    subst ha
    cases b with
    | once q => exact absurd hb.symm (Set.singleton_ne_empty _)
    | skipped q r => exact Or.inr ⟨trivial, trivial⟩
    | repeated q r => exact absurd hb.1.symm ((Set.insert_nonempty _ _).ne_empty)
  | repeated o p =>
    obtain ⟨ha, hlt⟩ := ha
    subst ha
    cases b with
    | once q =>
      have ho : time - o = time - q := (Set.ext_iff.1 hb (time - o)).1 (Or.inl rfl)
      have hp : time - p = time - q := (Set.ext_iff.1 hb (time - p)).1 (Or.inr rfl)
      omega
    | skipped q r => exact absurd hb ((Set.insert_nonempty _ _).ne_empty)
    | repeated q r =>
      obtain ⟨hpair, hlt'⟩ := hb
      rcases Set.pair_eq_pair_iff.1 hpair with ⟨hq, hr⟩ | ⟨hr, hq⟩
      · obtain rfl : o = q := by omega
        obtain rfl : p = r := by omega
        exact Or.inl rfl
      · omega

end LocalTime

/-- There is an answer, and it is exact: a local time is said to occur once,
twice or not at all exactly if it is shown at one exact time, at two or at
none, and these are the exact times that the answer names. -/
structure Classifies (answer : Except Failure LocalTime) (times : Set Int) (time : Int) :
    Prop where
  total : ∃ localTime, answer = .ok localTime
  once : ∀ offset, answer = .ok (.once offset) ↔ times = {time - offset}
  repeated : ∀ first second, answer = .ok (.repeated first second) ↔
    times = {time - first, time - second} ∧ time - first < time - second
  skipped : (∃ before after, answer = .ok (.skipped before after)) ↔ times = ∅

/-- An answer is exact if it describes the exact times. -/
theorem classifies_iff {answer : Except Failure LocalTime} {times : Set Int} {time : Int} :
    Classifies answer times time ↔
      ∃ localTime, answer = .ok localTime ∧ localTime.Describes times time := by
  constructor
  · intro h
    obtain ⟨localTime, hanswer⟩ := h.total
    refine ⟨localTime, hanswer, ?_⟩
    cases localTime with
    | once offset => exact (h.once offset).1 hanswer
    | skipped before after => exact h.skipped.1 ⟨before, after, hanswer⟩
    | repeated first second => exact (h.repeated first second).1 hanswer
  · rintro ⟨localTime, rfl, h⟩
    refine ⟨⟨localTime, rfl⟩, fun offset => ⟨fun heq => ?_, fun htimes => ?_⟩,
      fun first second => ⟨fun heq => ?_, fun htimes => ?_⟩, ⟨?_, fun htimes => ?_⟩⟩
    · obtain rfl := Except.ok.inj heq
      exact h
    · rcases LocalTime.describes_unique h (b := .once offset) htimes with heq | hskipped
      · rw [heq]
      · exact hskipped.2.elim
    · obtain rfl := Except.ok.inj heq
      exact h
    · rcases LocalTime.describes_unique h (b := .repeated first second) htimes with heq | hskipped
      · rw [heq]
      · exact hskipped.2.elim
    · rintro ⟨before, after, heq⟩
      obtain rfl := Except.ok.inj heq
      exact h
    · rcases LocalTime.describes_unique h (b := .skipped 0 0) htimes with heq | hskipped
      · exact ⟨0, 0, by rw [heq]⟩
      · cases localTime with
        | skipped before after => exact ⟨before, after, rfl⟩
        | _ => exact hskipped.1.elim

end CivilTime
