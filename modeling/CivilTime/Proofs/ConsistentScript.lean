import CivilTime.Proofs.ConsistentInstant
import CivilTime.Script.Run

/-!
# Scripts hold consistent instants

A script runs public operations one after the other, on instants, zones and
deltas that it keeps in registers.  This module carries the consistency of
single instants over to whole scripts.

* `Action.Ensures` says what holds of the result of an action whenever it has
  one, from any store.  `ensures_bind` takes a sequence apart.
* `Moment.Consistent` adds to a consistent instant that the microsecond, of
  whatever kind of number, is in range.
* `perform_ensures` is the step: from consistent arguments, a public step
  answers with a consistent moment or with none.
* `run_consistent` and `mem_runAll` carry this through a session, and
  `consistent_of_mem_runAll` is the result.

The one step that is not public takes an instant at its reading as it is,
skipped or not.
-/

namespace CivilTime.Script

namespace Action

variable {α β : Type} {P : α → Prop} {Q : β → Prop}

/-- What the result of an action fulfils whenever there is one. -/
def Ensures (a : Action α) (P : α → Prop) : Prop :=
  ∀ e b e', a.run.run e = (.ok b, e') → P b

theorem ensures_pure {b : α} (h : P b) : Ensures (pure b) P := by
  intro e b' e' hrun
  cases hrun
  exact h

theorem ensures_throw {failure : Failure} : Ensures (throw failure : Action α) P := by
  intro e b e' hrun
  cases hrun

theorem ensures_ofResult {r : Except Failure α} (h : ∀ b, r = .ok b → P b) :
    Ensures (ofResult r) P := by
  intro e b e' hrun
  cases hrun
  exact h b rfl

/-- A sequence ensures what its second part ensures from the result of the
first. -/
theorem ensures_bind {a : Action α} {f : α → Action β} (ha : Ensures a P)
    (hf : ∀ b, P b → Ensures (f b) Q) : Ensures (a >>= f) Q := by
  intro e c e' hrun
  rw [ExceptT.run_bind, StateT.run_bind] at hrun
  cases hfirst : a.run.run e with
  | mk result e₁ =>
    rw [hfirst] at hrun
    cases result with
    | error failure => cases (hrun : (Except.error failure, e₁) = (.ok c, e'))
    | ok b => exact hf b (ha e b e₁ hfirst) e₁ c e' hrun

/-- A sequence whose second part ensures the same from any result of the
first. -/
theorem ensures_then {a : Action α} {f : α → Action β} (hf : ∀ b, Ensures (f b) Q) :
    Ensures (a >>= f) Q :=
  ensures_bind (P := fun _ => True) (fun _ _ _ _ => trivial) fun b _ => hf b

end Action

/-! ## Moments -/

/-- The microsecond of a time of day is in its range, whatever kind of number
it is. -/
def Number.IsMicrosecond (n : Number) : Prop :=
  n.before (.whole 0) = false ∧ n.before (.whole 1000000) = true

/-- The instant is consistent, and the microsecond is in range. -/
structure Moment.Consistent (m : Moment) : Prop where
  instant : m.instant.Consistent
  microsecond : m.microsecond.IsMicrosecond

theorem unitsPerOne_pos : 0 < Binary.unitsPerOne := by
  unfold Binary.unitsPerOne
  generalize 1074 = n
  exact Nat.two_pow_pos n

/-- Whole numbers are compared as such. -/
theorem before_whole_iff (m n : Int) :
    (Number.whole m).before (.whole n) = true ↔ m < n := by
  unfold Number.before Number.units
  rw [decide_eq_true_iff]
  exact Int.mul_lt_mul_right (Int.natCast_pos.2 unitsPerOne_pos)

theorem isMicrosecond_whole {n : Int} (h : 0 ≤ n ∧ n < 1000000) :
    (Number.whole n).IsMicrosecond := by
  refine ⟨?_, (before_whole_iff _ _).2 h.2⟩
  rw [← Bool.not_eq_true, before_whole_iff]
  exact Int.not_lt.2 h.1

namespace Moment

theorem consistent_ofInstant {t : Instant} (h : t.Consistent) : (ofInstant t).Consistent :=
  ⟨h, isMicrosecond_whole h.valid.microsecond⟩

/-- A new instant with the microsecond as it was. -/
theorem consistent_carry {m n : Moment} {r : Except Failure Instant} (h : m.Consistent)
    (hr : ∀ t, r = .ok t → t.Consistent) (hn : m.carry r = .ok n) : n.Consistent := by
  obtain ⟨t, ht, hn⟩ := bind_eq_ok.1 hn
  obtain rfl := pure_eq_ok.1 hn
  exact ⟨hr t ht, h.microsecond⟩

namespace Consistent

variable {m n : Moment}

theorem inZone (h : m.Consistent) {zone : Zone} (hn : m.inZone zone = .ok n) : n.Consistent :=
  consistent_carry h (fun _ ht => Instant.consistent_of_inZone h.instant ht) hn

/-- Deriving the reading anew changes nothing. -/
theorem reread_eq (h : m.Consistent) : m.reread = .ok m := by
  rw [Moment.reread, carry, h.instant.reread]
  rfl

/-- Reading in another zone can be taken back. -/
theorem inZone_inZone (h : m.Consistent) {zone : Zone} (hn : m.inZone zone = .ok n) :
    n.inZone m.instant.zone = .ok m := by
  obtain ⟨t, ht, hn⟩ := bind_eq_ok.1 hn
  obtain rfl := pure_eq_ok.1 hn
  rw [Moment.inZone, carry, h.instant.inZone_inZone ht]
  rfl

theorem shift (h : m.Consistent) {d : Delta} {mode : ShiftMode} {direction : ShiftDirection}
    (hn : m.shift d mode direction = .ok n) : n.Consistent := by
  have hshift : ∀ t, m.instant.shift d mode direction = .ok t → t.Consistent :=
    fun _ ht => Instant.consistent_of_shift h.instant ht
  unfold Moment.shift at hn
  split at hn
  · obtain ⟨_, _, hn⟩ := bind_eq_ok.1 hn
    contradiction
  · obtain ⟨t, ht, hn⟩ := bind_eq_ok.1 hn
    obtain rfl := pure_eq_ok.1 hn
    exact consistent_ofInstant (hshift t ht)
  · exact consistent_carry h hshift hn
  · exact consistent_carry h hshift hn

end Consistent

end Moment

/-! ## Making moments -/

/-- A number that is accepted for the microsecond is in range. -/
theorem isMicrosecond_of_timeField {v : Value} {n : Number}
    (h : v.timeField microsPerSecond = .ok n) : n.IsMicrosecond := by
  unfold Value.timeField at h
  split at h
  · unfold Plain.numberBelow at h
    split at h
    · split at h
      · contradiction
      · next hrange =>
        obtain rfl := Except.ok.inj h
        simpa [Number.IsMicrosecond, microsPerSecond] using hrange
    · contradiction
  · contradiction

theorem isMicrosecond_of_clock {f : MomentFields} {c : Clock} (h : f.clock = .ok c) :
    c.microsecond.IsMicrosecond := by
  obtain ⟨_, _, h⟩ := bind_eq_ok.1 h
  obtain ⟨_, _, h⟩ := bind_eq_ok.1 h
  obtain ⟨_, _, h⟩ := bind_eq_ok.1 h
  obtain ⟨n, hn, h⟩ := bind_eq_ok.1 h
  obtain rfl := pure_eq_ok.1 h
  exact isMicrosecond_of_timeField hn

theorem consistent_of_moment {c : Clock} {date : Date} {zone : Zone} {choice : Choice} {m : Moment}
    (hc : c.microsecond.IsMicrosecond) (h : c.moment date zone choice = .ok m) :
    m.Consistent := by
  unfold Clock.moment at h
  split at h
  · obtain ⟨t, ht, h⟩ := bind_eq_ok.1 h
    obtain rfl := pure_eq_ok.1 h
    exact ⟨Instant.consistent_of_ofReading ht, hc⟩
  · contradiction

open CivilTime.Script.Action

/-- Fields make consistent moments only. -/
theorem make_ensures (f : MomentFields) (choice : Choice) :
    (f.make choice).Ensures Moment.Consistent := by
  refine ensures_then fun date => ?_
  refine ensures_bind (ensures_ofResult fun c => isMicrosecond_of_clock) fun clock hclock => ?_
  refine ensures_then fun zone => ?_
  exact ensures_ofResult fun m => consistent_of_moment hclock

theorem momentOfList_ensures (fields : List Plain) (microsecond : Option Plain) (zone : Value)
    (choice : Option Plain) :
    (momentOfList fields microsecond zone choice).Ensures Moment.Consistent :=
  ensures_then fun _ => make_ensures _ _

theorem replace_ensures (m : Moment) (values : List (String × Value)) (choice : Option Plain) :
    (m.replace values choice).Ensures Moment.Consistent :=
  ensures_then fun _ => make_ensures _ _

/-! ## Values and answers -/

/-- A moment is consistent; other values have nothing to show. -/
def Value.Consistent : Value → Prop
  | .moment m => m.Consistent
  | _ => True

def Answer.Consistent : Answer → Prop
  | .value v => v.Consistent
  | .lookups _ => True

theorem consistent_of_toMoment {v : Value} {m : Moment} (h : v.Consistent)
    (hm : v.toMoment = .ok m) : m.Consistent := by
  cases v with
  | moment m' =>
    obtain rfl := Except.ok.inj hm
    exact h
  | _ => contradiction

theorem consistent_of_shiftBy {t delta v : Value} {mode : ShiftMode} {direction : ShiftDirection}
    (h : t.Consistent) (hv : t.shiftBy delta mode direction = .ok v) : v.Consistent := by
  obtain ⟨d, _, hv⟩ := bind_eq_ok.1 hv
  cases t with
  | moment m =>
    obtain ⟨n, hn, hv⟩ := bind_eq_ok.1 hv
    obtain rfl := pure_eq_ok.1 hv
    exact Moment.Consistent.shift h hn
  | _ =>
    obtain ⟨_, _, hv⟩ := bind_eq_ok.1 hv
    obtain ⟨_, _, hv⟩ := bind_eq_ok.1 hv
    contradiction

theorem consistent_of_plus {t delta v : Value} (h : t.Consistent) (hv : t.plus delta = .ok v) :
    v.Consistent := by
  unfold Value.plus at hv
  split at hv
  · obtain ⟨n, hn, hv⟩ := bind_eq_ok.1 hv
    obtain rfl := pure_eq_ok.1 hv
    exact Moment.Consistent.shift h hn
  · obtain ⟨_, _, hv⟩ := bind_eq_ok.1 hv
    obtain rfl := pure_eq_ok.1 hv
    trivial
  · contradiction
  · contradiction

theorem consistent_of_opposite {v w : Value} (hw : v.opposite = .ok w) : w.Consistent := by
  unfold Value.opposite at hw
  split at hw
  · exact Except.ok.inj hw ▸ trivial
  · exact Except.ok.inj hw ▸ trivial
  · contradiction

theorem consistent_of_comparisons {a b v : Value} (hv : a.comparisons b = .ok v) :
    v.Consistent := by
  unfold Value.comparisons at hv
  split at hv
  · exact Except.ok.inj hv ▸ trivial
  · split at hv <;> contradiction
  · contradiction

theorem ofDifference_ensures (r : Except Failure (Interval × List Note)) :
    (Value.ofDifference r).Ensures Value.Consistent := by
  refine ensures_then fun _ => ?_
  exact ensures_then fun _ => ensures_pure trivial

theorem difference_ensures (a b : Value) : (a.difference b).Ensures Value.Consistent := by
  unfold Value.difference
  split
  · exact ofDifference_ensures _
  · exact ensures_throw

theorem minus_ensures {a b : Value} (h : a.Consistent) : (a.minus b).Ensures Value.Consistent := by
  unfold Value.minus
  split
  · exact ofDifference_ensures _
  · refine ensures_bind (ensures_ofResult fun n hn => ?_) fun n hn => ensures_pure hn
    exact Moment.Consistent.shift h hn
  · exact ensures_then fun _ => ensures_pure trivial
  · exact ensures_throw

theorem resultOf_ensures {r : Except Failure Value} (h : ∀ v, r = .ok v → v.Consistent) :
    (resultOf r).Ensures Answer.Consistent :=
  ensures_bind (ensures_ofResult h) fun _ hv => ensures_pure hv

/-- A result that is no moment. -/
theorem resultOf_map_ensures {α : Type} {r : Except Failure α} {f : α → Value}
    (hf : ∀ a, (f a).Consistent) :
    (resultOf (r >>= fun a => pure (f a))).Ensures Answer.Consistent := by
  refine resultOf_ensures fun v hv => ?_
  obtain ⟨a, _, hv⟩ := bind_eq_ok.1 hv
  obtain rfl := pure_eq_ok.1 hv
  exact hf a

theorem valueOf_ensures {a : Action Value} (h : a.Ensures Value.Consistent) :
    (valueOf a).Ensures Answer.Consistent :=
  ensures_bind h fun _ hv => ensures_pure hv

theorem momentOf_ensures {a : Action Moment} (h : a.Ensures Moment.Consistent) :
    (momentOf a).Ensures Answer.Consistent :=
  ensures_bind h fun _ hm => ensures_pure hm

/-! ## One step -/

/-- The arguments that a step takes from registers. -/
def Step.arguments {α : Type} : Step α → List α
  | .namedZone x | .lookup x _ _ | .negate x | .ofReading _ _ x _ | .ofTimestamp _ _ x
  | .reread x => [x]
  | .inZone x y | .atMoved x y _ | .diff x y _ | .shift x y _ _ _ | .apply x y _ _ | .compare x y
  | .equal x y => [x, y]
  | .replace fields x _ => fields.map Prod.snd ++ [x]
  | _ => []

/-- Whether a step is a public operation.  Taking an instant at its reading as
it is, is not. -/
def Step.isPublic {α : Type} : Step α → Bool
  | .atMoved _ _ _ => false
  | _ => true

/-- From consistent arguments, a public step answers with a consistent moment
or with none. -/
theorem perform_ensures {step : Step Value} (hpublic : step.isPublic = true)
    (harguments : ∀ v ∈ step.arguments, v.Consistent) :
    step.perform.Ensures Answer.Consistent := by
  cases step with
  | ofReading fields microsecond zone choice =>
    exact momentOf_ensures (momentOfList_ensures _ _ _ _)
  | ofTimestamp seconds microsecond zone =>
    refine momentOf_ensures (ensures_then fun ⟨epoch, microsecond⟩ => ?_)
    dsimp only
    split
    · exact ensures_bind (P := fun _ => False) ensures_throw fun _ h => h.elim
    · refine ensures_then fun zone => ?_
      refine ensures_bind (ensures_ofResult fun t ht => ?_) fun t ht => ensures_pure ht
      exact Moment.consistent_ofInstant (Instant.consistent_of_ofTimestamp ht)
  | inZone t zone =>
    have ht : t.Consistent := harguments t (by simp [Step.arguments])
    refine momentOf_ensures (ensures_bind (P := Moment.Consistent) ?_ fun m hm => ?_)
    · exact ensures_ofResult fun m hm => consistent_of_toMoment ht hm
    · refine ensures_then fun zone => ensures_ofResult fun n hn => ?_
      exact Moment.Consistent.inZone hm hn
  | replace fields t choice =>
    refine momentOf_ensures ?_
    split
    · exact replace_ensures _ _ _
    · exact ensures_throw
  | atMoved movement t choice => contradiction
  | reread t =>
    have ht : t.Consistent := harguments t (by simp [Step.arguments])
    refine resultOf_ensures fun v hv => ?_
    obtain ⟨m, hm, hv⟩ := bind_eq_ok.1 hv
    have hconsistent : m.Consistent := consistent_of_toMoment ht hm
    obtain ⟨n, hn, hv⟩ := bind_eq_ok.1 hv
    obtain rfl := pure_eq_ok.1 hv
    rw [hconsistent.reread_eq] at hn
    exact Except.ok.inj hn ▸ hconsistent
  | diff a b form =>
    have hb : b.Consistent := harguments b (by simp [Step.arguments])
    cases form with
    | function => exact valueOf_ensures (difference_ensures _ _)
    | method => exact valueOf_ensures (ensures_then fun _ => difference_ensures _ _)
    | operator => exact valueOf_ensures (minus_ensures hb)
  | shift t delta mode direction form =>
    have ht : t.Consistent := harguments t (by simp [Step.arguments])
    cases form with
    | function => exact resultOf_ensures fun v hv => consistent_of_shiftBy ht hv
    | method =>
      refine resultOf_ensures fun v hv => ?_
      obtain ⟨_, _, hv⟩ := bind_eq_ok.1 hv
      exact consistent_of_shiftBy ht hv
    | operator =>
      cases direction with
      | forward => exact resultOf_ensures fun v hv => consistent_of_plus ht hv
      | backward => exact valueOf_ensures (minus_ensures ht)
  | apply t delta mode direction =>
    have ht : t.Consistent := harguments t (by simp [Step.arguments])
    refine resultOf_ensures fun v hv => ?_
    obtain ⟨_, _, hv⟩ := bind_eq_ok.1 hv
    exact consistent_of_shiftBy ht hv
  | negate x => exact resultOf_ensures fun v hv => consistent_of_opposite hv
  | compare a b => exact resultOf_ensures fun v hv => consistent_of_comparisons hv
  | equal a b => exact ensures_pure trivial
  | lookup zone exactTimes localTimes =>
    cases zone with
    | zone z =>
      cases z with
      | named data => exact ensures_pure trivial
      | _ => exact ensures_throw
    | _ => exact ensures_throw
  | resetSearchPath paths =>
    cases paths with
    | null => exact ensures_then fun _ => ensures_then fun _ => ensures_pure trivial
    | _ =>
      refine ensures_then fun _ => ensures_then fun _ => ensures_then fun _ => ?_
      exact ensures_pure trivial
  | clearCache keys =>
    cases keys with
    | null => exact ensures_then fun _ => ensures_then fun _ => ensures_pure trivial
    | _ =>
      refine ensures_then fun _ => ensures_then fun _ => ensures_then fun _ => ?_
      exact ensures_pure trivial
  | available => exact ensures_then fun _ => ensures_then fun _ => ensures_pure trivial
  | fixedZone _ | abbreviationZone _ | ruleZone _ _ | fileZone _ _ | interval _ _ | weekday _ _
  | special _ _ | specialNamed _ _ => exact resultOf_map_ensures fun _ => trivial
  | namedZone _ | getZone _ | cached | write _ _ | remove _ | makeDirectory _ | setPackage _
  | settings _ _ => exact ensures_then fun _ => ensures_pure trivial

/-! ## Sessions -/

/-- Every register holds a consistent moment or none. -/
def Registers.Consistent (registers : Registers) : Prop :=
  ∀ r ∈ registers, r.2.Consistent

theorem consistent_of_resolve {registers : Registers} {a : Argument} {v : Value}
    (h : registers.Consistent) (hv : a.resolve registers = .ok v) : v.Consistent := by
  cases a with
  | value p =>
    obtain rfl := Except.ok.inj hv
    trivial
  | register name =>
    cases hw : registers.lookup name with
    | none => simp [Argument.resolve, hw] at hv
    | some w =>
      simp only [Argument.resolve, hw, Except.ok.injEq] at hv
      obtain ⟨before, after, hregisters, _⟩ := List.lookup_eq_some_iff.1 hw
      exact hv ▸ h (name, w) (by simp [hregisters])

theorem consistent_of_resolveAll {registers : Registers} {fields : List (String × Argument)}
    {values : List (String × Value)} (h : registers.Consistent)
    (hvalues : Argument.resolveAll registers fields = .ok values) :
    ∀ v ∈ values.map Prod.snd, v.Consistent := by
  induction fields generalizing values with
  | nil =>
    obtain rfl := Except.ok.inj hvalues
    simp
  | cons field fields ih =>
    obtain ⟨v, hv, hvalues⟩ := bind_eq_ok.1 hvalues
    obtain ⟨vs, hvs, hvalues⟩ := bind_eq_ok.1 hvalues
    obtain rfl := pure_eq_ok.1 hvalues
    simp only [List.map_cons, List.forall_mem_cons]
    exact ⟨consistent_of_resolve h hv, ih hvs⟩

/-- Resolving the arguments of a step keeps the operation, and takes its
arguments from the registers. -/
theorem resolve_arguments {registers : Registers} {step : Step Argument} {resolved : Step Value}
    (h : registers.Consistent) (hresolve : step.resolve registers = .ok resolved) :
    resolved.isPublic = step.isPublic ∧ ∀ v ∈ resolved.arguments, v.Consistent := by
  cases step with
  | namedZone _ | lookup _ _ _ | negate _ | ofReading _ _ _ _ | ofTimestamp _ _ _ | reread _ =>
    obtain ⟨x, hx, hresolve⟩ := bind_eq_ok.1 hresolve
    obtain rfl := pure_eq_ok.1 hresolve
    simpa [Step.arguments, Step.isPublic] using consistent_of_resolve h hx
  | inZone _ _ | atMoved _ _ _ | diff _ _ _ | shift _ _ _ _ _ | apply _ _ _ _ | compare _ _
  | equal _ _ =>
    obtain ⟨x, hx, hresolve⟩ := bind_eq_ok.1 hresolve
    obtain ⟨y, hy, hresolve⟩ := bind_eq_ok.1 hresolve
    obtain rfl := pure_eq_ok.1 hresolve
    simpa [Step.arguments, Step.isPublic] using
      ⟨consistent_of_resolve h hx, consistent_of_resolve h hy⟩
  | replace fields t choice =>
    obtain ⟨values, hvalues, hresolve⟩ := bind_eq_ok.1 hresolve
    obtain ⟨x, hx, hresolve⟩ := bind_eq_ok.1 hresolve
    obtain rfl := pure_eq_ok.1 hresolve
    refine ⟨rfl, fun v hv => ?_⟩
    rcases List.mem_append.1 hv with hfield | hmoment
    · exact consistent_of_resolveAll h hvalues v hfield
    · obtain rfl := List.mem_singleton.1 hmoment
      exact consistent_of_resolve h hx
  | _ =>
    obtain rfl := Except.ok.inj hresolve
    exact ⟨rfl, fun v hv => nomatch hv⟩

/-- The moment that a reply answers with is consistent, if there is one. -/
def Reply.Consistent (reply : Reply) : Prop :=
  ∀ answer, reply.outcome = .answered answer → answer.Consistent

/-- Setting a register to a consistent answer keeps the registers
consistent. -/
theorem assign_consistent {s : Session} (h : s.registers.Consistent) (register : Option String)
    {answer : Answer} (hanswer : answer.Consistent) :
    (s.assign register answer).registers.Consistent := by
  cases register with
  | none => exact h
  | some name =>
    have hvalue : answer.registered.Consistent := by
      cases answer with
      | value v => exact hanswer
      | lookups l => trivial
    exact List.forall_mem_cons.2 ⟨hvalue, h⟩

/-- One public step keeps the registers consistent, and its reply is. -/
theorem run_consistent {s : Session} {step : Step Argument} (register : Option String)
    (h : s.registers.Consistent) (hpublic : step.isPublic = true) :
    (s.run step register).1.registers.Consistent ∧ (s.run step register).2.Consistent := by
  rw [Session.run]
  cases hresolve : step.resolve s.registers with
  | error name => exact ⟨h, fun answer hanswer => nomatch hanswer⟩
  | ok resolved =>
    obtain ⟨hsame, harguments⟩ := resolve_arguments h hresolve
    have hensures := perform_ensures (hsame.trans hpublic) harguments
    dsimp only
    cases hrun : resolved.perform.run.run ⟨s.store, []⟩ with
    | mk result effects =>
      cases result with
      | error failure => exact ⟨h, fun answer hanswer => nomatch hanswer⟩
      | ok answer =>
        have hanswer := hensures _ _ _ hrun
        refine ⟨?_, fun other hother => ?_⟩
        · exact @assign_consistent ⟨effects.store, s.registers⟩ h register answer hanswer
        · cases hother
          exact hanswer

/-- Every reply of a script of public steps is consistent. -/
theorem mem_runAll {s : Session} {steps : List (Step Argument × Option String)}
    (h : s.registers.Consistent) (hpublic : ∀ step ∈ steps, step.1.isPublic = true) :
    ∀ reply ∈ s.runAll steps, reply.Consistent := by
  induction steps generalizing s with
  | nil => exact fun reply hreply => nomatch hreply
  | cons step steps ih =>
    have hrest := (List.forall_mem_cons.1 hpublic).2
    obtain ⟨hregisters, hfirst⟩ := run_consistent step.2 h (List.forall_mem_cons.1 hpublic).1
    exact List.forall_mem_cons.2 ⟨hfirst, ih hregisters hrest⟩

/-- Whatever public steps a script takes from registers without moments, every
moment that it answers with is consistent.  Reading the moment anew changes
nothing, and reading it in another zone can be taken back. -/
theorem consistent_of_mem_runAll {s : Session} {steps : List (Step Argument × Option String)}
    (hstart : ∀ register ∈ s.registers, ∀ m, register.2 ≠ .moment m)
    (hpublic : ∀ step ∈ steps, step.1.isPublic = true) {reply : Reply}
    (hreply : reply ∈ s.runAll steps) {m : Moment}
    (hm : reply.outcome = .answered (.value (.moment m))) :
    m.Consistent ∧ m.reread = .ok m ∧
      ∀ zone n, m.inZone zone = .ok n → n.inZone m.instant.zone = .ok m := by
  have hregisters : s.registers.Consistent := by
    intro register hregister
    have hno := hstart register hregister
    cases hvalue : register.2 with
    | moment m => exact absurd hvalue (hno m)
    | _ => trivial
  have hconsistent : m.Consistent := mem_runAll hregisters hpublic reply hreply _ hm
  exact ⟨hconsistent, hconsistent.reread_eq, fun zone n => hconsistent.inZone_inZone⟩

/-- A script that takes an instant to another zone. -/
def zoneChangeSteps : List (Step Argument × Option String) :=
  [(.fixedZone (.int 3600), some "one"),
   (.fixedZone (.int 10800), some "two"),
   (.ofTimestamp (.int 1675162800) (.int 0) (.register "one"), some "t"),
   (.inZone (.register "t") (.register "two"), none)]

/-- The moment that the script answers with last. -/
def zoneChangeMoment : Moment :=
  .ofInstant {
    reading := ⟨2023, 1, 31, 14, 0, 0, 0⟩, epoch := 1675162800, kept := 10800,
    isDaylight := false, zone := .fixed ⟨10800, by decide⟩ }

theorem consistent_zoneChangeMoment :
    zoneChangeMoment.Consistent ∧ zoneChangeMoment.reread = .ok zoneChangeMoment ∧
      ∀ zone n, zoneChangeMoment.inZone zone = .ok n →
        n.inZone zoneChangeMoment.instant.zone = .ok zoneChangeMoment := by
  have hlast : (Session.initial.runAll zoneChangeSteps)[3]? =
      some ⟨[], .answered (.value (.moment zoneChangeMoment))⟩ := by rfl
  have hstart : ∀ register ∈ Session.initial.registers, ∀ m, register.2 ≠ .moment m :=
    fun _ h => nomatch h
  have hpublic : ∀ step ∈ zoneChangeSteps, step.1.isPublic = true := by
    intro step hstep
    simp only [zoneChangeSteps, List.mem_cons, List.not_mem_nil, or_false] at hstep
    rcases hstep with rfl | rfl | rfl | rfl <;> rfl
  exact consistent_of_mem_runAll hstart hpublic (List.mem_of_getElem? hlast) rfl

end CivilTime.Script
