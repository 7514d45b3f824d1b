import Mathlib.Data.List.Forall2
import CivilTime.Proofs.ConsistentScript
import CivilTime.Proofs.ShiftModes
import CivilTime.Proofs.SteadyDifference

/-!
# Scripts in steady zones

Zones that stand at one offset can take each other's place in a script: whatever
is made, read, replaced or shifted there shows the same, and differences are the
same.

* `Action.Agree` relates two actions that leave the same store, report the same
  notes, and fail or succeed together.  `agree_bind` takes two sequences apart.
* `Value.Alike` and `Moment.Alike` carry likeness of instants to values.
* `Step.Alike` are steps of the same operation on arguments that are alike.
  A difference is taken of two instants of one steady zone.
* `perform_alike` is the result: the answers of such steps are alike.
-/

namespace CivilTime.Script

/-! ## Actions side by side -/

namespace Action

variable {α β γ δ : Type} {R : α → β → Prop} {S : γ → δ → Prop}

/-- From any store the two actions leave the same store and the same notes, and
both fail, or both succeed with related results. -/
def Agree (R : α → β → Prop) (a : Action α) (b : Action β) : Prop :=
  ∀ e, (a.run.run e).2 = (b.run.run e).2 ∧ Together R (a.run.run e).1 (b.run.run e).1

theorem agree_pure {x : α} {y : β} (h : R x y) : Agree R (pure x) (pure y) :=
  fun _ => ⟨rfl, .ok h⟩

theorem agree_throw (failure failure' : Failure) :
    Agree R (throw failure : Action α) (throw failure' : Action β) :=
  fun _ => ⟨rfl, .error failure failure'⟩

theorem agree_ofResult {r : Except Failure α} {s : Except Failure β} (h : Together R r s) :
    Agree R (ofResult r) (ofResult s) :=
  fun _ => ⟨rfl, h⟩

/-- An action beside itself. -/
theorem agree_of_refl {R : α → α → Prop} (hR : ∀ x, R x x) (a : Action α) : Agree R a a :=
  fun _ => ⟨rfl, .of_refl hR _⟩

/-- Sequences agree if their parts do. -/
theorem agree_bind {a : Action α} {b : Action β} {f : α → Action γ} {g : β → Action δ}
    (h : Agree R a b) (hfg : ∀ x y, R x y → Agree S (f x) (g y)) :
    Agree S (a >>= f) (b >>= g) := by
  intro e
  obtain ⟨heffects, hresult⟩ := h e
  rw [ExceptT.run_bind, StateT.run_bind, ExceptT.run_bind, StateT.run_bind]
  cases ha : a.run.run e with
  | mk x e₁ =>
    cases hb : b.run.run e with
    | mk y e₂ =>
      rw [ha, hb] at heffects hresult
      obtain rfl : e₁ = e₂ := heffects
      cases hresult with
      | ok hR => exact hfg _ _ hR e₁
      | error failure failure' => exact ⟨rfl, .error failure failure'⟩

end Action

/-! ## Moments and values that are alike -/

/-- Moments that show the same in zones that are alike. -/
structure Moment.Alike (m n : Moment) : Prop where
  instant : m.instant.Alike n.instant
  microsecond : m.microsecond = n.microsecond

/-- The same value, zones that are alike, or moments that are. -/
inductive Value.Alike : Value → Value → Prop
  | same (v : Value) : Alike v v
  | zone {y z : Zone} (h : y.Alike z) : Alike (.zone y) (.zone z)
  | moment {m n : Moment} (h : m.Alike n) : Alike (.moment m) (.moment n)

/-- Answers with values that are alike. -/
inductive Answer.Alike : Answer → Answer → Prop
  | value {v w : Value} (h : v.Alike w) : Alike (.value v) (.value w)

/-- Named values that are alike, name by name. -/
def FieldsAlike : List (String × Value) → List (String × Value) → Prop :=
  List.Forall₂ fun field field' => field.1 = field'.1 ∧ field.2.Alike field'.2

open CivilTime.Script.Action

variable {m n : Moment} {v w : Value}

namespace Moment

theorem ofInstant_alike {t u : Instant} (h : t.Alike u) : (ofInstant t).Alike (ofInstant u) :=
  ⟨h, congrArg Number.whole h.microsecond⟩

theorem carry_alike (h : m.Alike n) {r s : Except Failure Instant}
    (hrs : Together Instant.Alike r s) : Together Alike (m.carry r) (n.carry s) :=
  .bind hrs fun _ _ htu => .ok ⟨htu, h.microsecond⟩

theorem inZone_alike (h : m.Alike n) {y z : Zone} (hyz : y.Alike z) :
    Together Alike (m.inZone y) (n.inZone z) :=
  carry_alike h (Instant.inZone_alike h.instant hyz)

/-- Whether a shift is refused for its microsecond is decided before the zone is
asked. -/
theorem shift_alike (h : m.Alike n) (d : Delta) (mode : ShiftMode) (direction : ShiftDirection) :
    Together Alike (m.shift d mode direction) (n.shift d mode direction) := by
  have hshift := Instant.shift_alike h.instant d mode direction
  unfold shift
  rw [h.microsecond]
  split
  · exact .of_then_error _ _ _ _
  · exact .bind hshift fun _ _ htu => .ok (ofInstant_alike htu)
  · exact carry_alike h hshift
  · exact carry_alike h hshift

theorem diff_eq_of_alike {m' n' : Moment} (hm : m.Alike m') (hn : n.Alike n')
    (h : m.instant.diff n.instant = m'.instant.diff n'.instant) : m.diff n = m'.diff n' := by
  rw [diff, diff, hm.microsecond, hn.microsecond, h]

end Moment

/-! ## Making moments -/

theorem dateField_alike (h : v.Alike w) : Together Eq v.dateField w.dateField := by
  cases h with
  | same => exact .of_refl (fun _ => rfl) _
  | zone => exact .error _ _
  | moment => exact .error _ _

theorem timeField_alike (h : v.Alike w) (limit : Int) :
    Together Eq (v.timeField limit) (w.timeField limit) := by
  cases h with
  | same => exact .of_refl (fun _ => rfl) _
  | zone => exact .error _ _
  | moment => exact .error _ _

theorem toZone_alike (h : v.Alike w) : Agree Zone.Alike v.toZone w.toZone := by
  cases h with
  | same => exact agree_of_refl Zone.Alike.same _
  | zone h => exact agree_pure h
  | moment => exact agree_throw _ _

theorem Clock.moment_alike (c : Clock) (date : Date) {y z : Zone} (h : y.Alike z)
    (choice : Choice) :
    Together Moment.Alike (c.moment date y choice) (c.moment date z choice) := by
  unfold moment
  split
  · exact .bind (Instant.ofReading_alike h _ choice) fun _ _ htu => .ok ⟨htu, rfl⟩
  · exact .error _ _

namespace MomentFields

variable {f g : MomentFields}

/-- Fields that are alike, one by one. -/
structure Alike (f g : MomentFields) : Prop where
  year : f.year.Alike g.year
  month : f.month.Alike g.month
  day : f.day.Alike g.day
  hour : f.hour.Alike g.hour
  minute : f.minute.Alike g.minute
  second : f.second.Alike g.second
  microsecond : f.microsecond.Alike g.microsecond
  zone : f.zone.Alike g.zone

theorem date_alike (h : f.Alike g) : Together Eq f.date g.date := by
  refine .bind (dateField_alike h.year) ?_
  rintro year _ rfl
  refine .bind (dateField_alike h.month) ?_
  rintro month _ rfl
  refine .bind (dateField_alike h.day) ?_
  rintro day _ rfl
  exact .of_refl (fun _ => rfl) _

theorem clock_alike (h : f.Alike g) : Together Eq f.clock g.clock := by
  refine .bind (timeField_alike h.hour 24) ?_
  rintro hour _ rfl
  refine .bind (timeField_alike h.minute 60) ?_
  rintro minute _ rfl
  refine .bind (timeField_alike h.second 60) ?_
  rintro second _ rfl
  refine .bind (timeField_alike h.microsecond microsPerSecond) ?_
  rintro microsecond _ rfl
  exact .ok rfl

theorem make_alike (h : f.Alike g) (choice : Choice) :
    Agree Moment.Alike (f.make choice) (g.make choice) := by
  refine agree_bind (agree_ofResult (date_alike h)) ?_
  rintro date _ rfl
  refine agree_bind (agree_ofResult (clock_alike h)) ?_
  rintro clock _ rfl
  refine agree_bind (toZone_alike h.zone) fun y z hyz => ?_
  exact agree_ofResult (clock.moment_alike date hyz choice)

theorem ofMoment_alike (h : m.Alike n) : (ofMoment m).Alike (ofMoment n) := by
  rw [ofMoment, ofMoment, h.instant.reading, h.microsecond]
  exact ⟨.same _, .same _, .same _, .same _, .same _, .same _, .same _, .zone h.instant.zone⟩

theorem ofList_alike (fields : List Plain) (microsecond : Option Plain) (h : v.Alike w) :
    (ofList fields microsecond v).Alike (ofList fields microsecond w) :=
  ⟨.same _, .same _, .same _, .same _, .same _, .same _, .same _, h⟩

end MomentFields

/-! ## Replacing fields -/

section Fields

variable {fields fields' : List (String × Value)}

/-- A name leads to values that are alike, or to none on both sides. -/
theorem lookup_alike (h : FieldsAlike fields fields') (name : String) :
    Option.Rel Value.Alike (fields.lookup name) (fields'.lookup name) := by
  induction h with
  | nil => exact .none
  | @cons field field' rest rest' hfield _ ih =>
    rw [← Prod.eta field, ← Prod.eta field', List.lookup_cons, List.lookup_cons, hfield.1]
    cases name == field'.1 with
    | true => exact .some hfield.2
    | false => exact ih

theorem getD_alike {o o' : Option Value} (h : Option.Rel Value.Alike o o') (hvw : v.Alike w) :
    (o.getD v).Alike (o'.getD w) := by
  cases h with
  | some h => exact h
  | none => exact hvw

theorem names_alike (h : FieldsAlike fields fields') :
    fields.map Prod.fst = fields'.map Prod.fst := by
  induction h with
  | nil => rfl
  | cons hfield _ ih => rw [List.map_cons, List.map_cons, hfield.1, ih]

theorem filter_alike (h : FieldsAlike fields fields') (name : String) :
    FieldsAlike (fields.filter fun field => field.1 ≠ name)
      (fields'.filter fun field => field.1 ≠ name) := by
  refine List.rel_filter ?_ h
  intro field field' hfield
  show decide (field.1 ≠ name) = true ↔ decide (field'.1 ≠ name) = true
  rw [hfield.1]

theorem MomentFields.replace_alike {f g : MomentFields} (hfg : f.Alike g)
    (h : FieldsAlike fields fields') : (f.replace fields).Alike (g.replace fields') where
  year := getD_alike (lookup_alike h "year") hfg.year
  month := getD_alike (lookup_alike h "month") hfg.month
  day := getD_alike (lookup_alike h "day") hfg.day
  hour := getD_alike (lookup_alike h "hour") hfg.hour
  minute := getD_alike (lookup_alike h "minute") hfg.minute
  second := getD_alike (lookup_alike h "second") hfg.second
  microsecond := getD_alike (lookup_alike h "microsecond") hfg.microsecond
  zone := getD_alike (lookup_alike h "tz") hfg.zone

theorem Moment.replace_alike (hmn : m.Alike n) (h : FieldsAlike fields fields')
    (choice : Option Plain) :
    Agree Alike (m.replace fields choice) (n.replace fields' choice) := by
  have hkept := filter_alike h "disambiguate"
  have hmade := MomentFields.replace_alike (MomentFields.ofMoment_alike hmn) hkept
  unfold replace
  dsimp only
  rw [names_alike hkept]
  refine agree_bind (agree_of_refl (fun _ => rfl) _) fun _ _ _ => ?_
  -- A choice among the fields is a plain value, so it is the same on both sides.
  have hnamed := lookup_alike h "disambiguate"
  generalize fields.lookup "disambiguate" = named at hnamed ⊢
  generalize fields'.lookup "disambiguate" = named' at hnamed ⊢
  cases hnamed with
  | none => exact MomentFields.make_alike hmade _
  | some hvalue =>
    cases hvalue with
    | same => exact MomentFields.make_alike hmade _
    | zone => exact MomentFields.make_alike hmade _
    | moment => exact MomentFields.make_alike hmade _

end Fields

/-! ## Steps -/

/-- Steps of one operation on arguments that are alike.  The instants of a
difference are consistent and lie in one steady zone. -/
inductive Step.Alike : Step Value → Step Value → Prop
  | ofReading (fields : List Plain) (microsecond choice : Option Plain) {v w : Value}
    (h : v.Alike w) :
    Alike (.ofReading fields microsecond v choice) (.ofReading fields microsecond w choice)
  | ofTimestamp (seconds microsecond : Plain) {v w : Value} (h : v.Alike w) :
    Alike (.ofTimestamp seconds microsecond v) (.ofTimestamp seconds microsecond w)
  | inZone {m n : Moment} (hmn : m.Alike n) {v w : Value} (h : v.Alike w) :
    Alike (.inZone (.moment m) v) (.inZone (.moment n) w)
  | replace {fields fields' : List (String × Value)} (h : FieldsAlike fields fields')
    {m n : Moment} (hmn : m.Alike n) (choice : Option Plain) :
    Alike (.replace fields (.moment m) choice) (.replace fields' (.moment n) choice)
  | shift {m n : Moment} (hmn : m.Alike n) (d : Delta) (mode : ShiftMode)
    (direction : ShiftDirection) (form : Form) :
    Alike (.shift (.moment m) (.delta d) mode direction form)
      (.shift (.moment n) (.delta d) mode direction form)
  | apply {m n : Moment} (hmn : m.Alike n) (d : Delta) (mode direction : Plain) :
    Alike (.apply (.moment m) (.delta d) mode direction)
      (.apply (.moment n) (.delta d) mode direction)
  | diff {y z : Zone} {offset : Int} (hy : y.Steady offset) (hz : z.Steady offset)
    {m n m' n' : Moment} (hm : m.instant.LiesIn y) (hn : n.instant.LiesIn y)
    (hm' : m'.instant.LiesIn z) (hn' : n'.instant.LiesIn z) (hmm : m.Alike m') (hnn : n.Alike n')
    (form : Form) :
    Alike (.diff (.moment m) (.moment n) form) (.diff (.moment m') (.moment n') form)

theorem resultOf_alike {r s : Except Failure Value} (h : Together Value.Alike r s) :
    Agree Answer.Alike (resultOf r) (resultOf s) :=
  agree_bind (agree_ofResult h) fun _ _ hvw => agree_pure (.value hvw)

theorem valueOf_alike {a b : Action Value} (h : Agree Value.Alike a b) :
    Agree Answer.Alike (valueOf a) (valueOf b) :=
  agree_bind h fun _ _ hvw => agree_pure (.value hvw)

theorem momentOf_alike {a b : Action Moment} (h : Agree Moment.Alike a b) :
    Agree Answer.Alike (momentOf a) (momentOf b) :=
  agree_bind h fun _ _ hmn => agree_pure (.value (.moment hmn))

theorem shiftBy_alike (hmn : m.Alike n) (d : Delta) (mode : ShiftMode)
    (direction : ShiftDirection) :
    Together Value.Alike ((Value.moment m).shiftBy (.delta d) mode direction)
      ((Value.moment n).shiftBy (.delta d) mode direction) := by
  show Together Value.Alike (m.shift d mode direction >>= fun x => .ok (.moment x))
    (n.shift d mode direction >>= fun x => .ok (.moment x))
  exact .bind (Moment.shift_alike hmn d mode direction) fun _ _ h => .ok (.moment h)

theorem minus_alike (hmn : m.Alike n) (d : Delta) :
    Agree Value.Alike ((Value.moment m).minus (.delta d)) ((Value.moment n).minus (.delta d)) :=
  agree_bind (agree_ofResult (Moment.shift_alike hmn d .absolute .backward)) fun _ _ h =>
    agree_pure (.moment h)

theorem perform_ofTimestamp_alike (seconds microsecond : Plain) (h : v.Alike w) :
    Agree Answer.Alike (Step.perform (.ofTimestamp seconds microsecond v))
      (Step.perform (.ofTimestamp seconds microsecond w)) := by
  refine momentOf_alike (agree_bind (agree_of_refl (fun _ => rfl) _) ?_)
  rintro ⟨epoch, microsecond⟩ _ rfl
  dsimp only
  split
  · exact agree_bind (R := fun _ _ => False) (agree_throw _ _) fun _ _ h => h.elim
  · refine agree_bind (toZone_alike h) fun y z hyz => ?_
    refine agree_bind (agree_ofResult (Instant.ofTimestamp_alike hyz _ _)) fun t u htu => ?_
    exact agree_pure (Moment.ofInstant_alike htu)

/-- Steps of one operation on arguments that are alike leave the same store and
the same notes, and fail together or answer alike. -/
theorem perform_alike {step step' : Step Value} (h : step.Alike step') :
    Agree Answer.Alike step.perform step'.perform := by
  cases h with
  | ofReading fields microsecond choice h =>
    refine momentOf_alike (agree_bind (agree_of_refl (fun _ => rfl) _) fun _ _ _ => ?_)
    exact MomentFields.make_alike (MomentFields.ofList_alike fields microsecond h) _
  | ofTimestamp seconds microsecond h => exact perform_ofTimestamp_alike seconds microsecond h
  | inZone hmn h =>
    refine momentOf_alike (agree_bind (agree_ofResult (.ok hmn)) fun m n hmn => ?_)
    refine agree_bind (toZone_alike h) fun y z hyz => ?_
    exact agree_ofResult (Moment.inZone_alike hmn hyz)
  | replace h hmn choice => exact momentOf_alike (Moment.replace_alike hmn h choice)
  | shift hmn d mode direction form =>
    cases form with
    | function => exact resultOf_alike (shiftBy_alike hmn d mode direction)
    | method => exact resultOf_alike (shiftBy_alike hmn d mode direction)
    | operator =>
      cases direction with
      | forward => exact resultOf_alike (shiftBy_alike hmn d .absolute .forward)
      | backward => exact valueOf_alike (minus_alike hmn d)
  | apply hmn d mode direction =>
    refine resultOf_alike (.bind (.of_refl (fun _ => rfl) _) ?_)
    rintro names _ rfl
    exact shiftBy_alike hmn d _ _
  | @diff y z offset hy hz m n m' n' hm hn hm' hn' hmm hnn form =>
    have hdiff : m.diff n = m'.diff n' := Moment.diff_eq_of_alike hmm hnn
      (Instant.LiesIn.diff_alike hy hz hm hn hm' hn' hmm.instant hnn.instant)
    have hagree : Agree Answer.Alike (valueOf (Value.ofDifference (m.diff n)))
        (valueOf (Value.ofDifference (m'.diff n'))) := by
      rw [hdiff]
      exact valueOf_alike (agree_of_refl Value.Alike.same _)
    cases form with
    | function => exact hagree
    | method => exact hagree
    | operator => exact hagree

/-- The named zone of a rule without daylight time, four hours behind UTC. -/
def fourBehind : Zone := .named (.ofRule none ⟨-14400, none⟩)

/-- An instant four hours behind UTC, in the zone of that rule. -/
def inFourBehind (t : Instant) : Instant :=
  { t with kept := -14400, isDaylight := false, zone := fourBehind }

/-- A month and thirty hours back from an instant. -/
def shiftBack (t : Instant) : Step Value :=
  .shift (.moment (.ofInstant t)) (.delta (.interval Instant.monthAndThirtyHours)) .wall .backward
    .method

/-- The difference of two instants, by the minus sign. -/
def differenceOf (t u : Instant) : Step Value :=
  .diff (.moment (.ofInstant t)) (.moment (.ofInstant u)) .operator

/-- The abbreviation puts its offset together from a standard offset and an hour of
daylight time, and the rule has it as it is. -/
theorem perform_alike_lastOfMarch :
    ((shiftBack Instant.lastOfMarch).Alike (shiftBack (inFourBehind Instant.lastOfMarch)) ∧
      Agree Answer.Alike (shiftBack Instant.lastOfMarch).perform
        (shiftBack (inFourBehind Instant.lastOfMarch)).perform) ∧
    (differenceOf Instant.lastOfMarch Instant.eveningOfLeapDay).Alike
        (differenceOf (inFourBehind Instant.lastOfMarch) (inFourBehind Instant.eveningOfLeapDay)) ∧
      Agree Answer.Alike (differenceOf Instant.lastOfMarch Instant.eveningOfLeapDay).perform
        (differenceOf (inFourBehind Instant.lastOfMarch)
          (inFourBehind Instant.eveningOfLeapDay)).perform := by
  have hdaylight : Instant.easternDaylight.Steady (-14400) :=
    .abbreviation "EDT" ⟨-18000, by decide⟩ true
  have hrule : fourBehind.Steady (-14400) := .named none "<-04>4" (-14400) rfl
  have hvalid : ∀ r : Reading, r.check = .ok () → r.Valid := fun r => (Reading.check_eq_ok_iff r).1
  have hmarch : (Moment.ofInstant Instant.lastOfMarch).Alike
      (.ofInstant (inFourBehind Instant.lastOfMarch)) :=
    ⟨⟨rfl, rfl, rfl, .steady hdaylight hrule⟩, rfl⟩
  have hleap : (Moment.ofInstant Instant.eveningOfLeapDay).Alike
      (.ofInstant (inFourBehind Instant.eveningOfLeapDay)) :=
    ⟨⟨rfl, rfl, rfl, .steady hdaylight hrule⟩, rfl⟩
  have hshift : (shiftBack Instant.lastOfMarch).Alike
      (shiftBack (inFourBehind Instant.lastOfMarch)) := .shift hmarch _ _ _ _
  have hdiff : (differenceOf Instant.lastOfMarch Instant.eveningOfLeapDay).Alike
      (differenceOf (inFourBehind Instant.lastOfMarch) (inFourBehind Instant.eveningOfLeapDay)) :=
    .diff hdaylight hrule ⟨⟨hvalid _ rfl, rfl, rfl⟩, rfl⟩ ⟨⟨hvalid _ rfl, rfl, rfl⟩, rfl⟩
      ⟨⟨hvalid _ rfl, rfl, rfl⟩, rfl⟩ ⟨⟨hvalid _ rfl, rfl, rfl⟩, rfl⟩ hmarch hleap _
  exact ⟨⟨hshift, perform_alike hshift⟩, hdiff, perform_alike hdiff⟩

end CivilTime.Script
