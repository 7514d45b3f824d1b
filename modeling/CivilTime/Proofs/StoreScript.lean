import CivilTime.Proofs.FileTrees
import CivilTime.Proofs.RecentKeys
import CivilTime.Script.Run
import Mathlib.Logic.Relation

/-!
# The store of a script

A script changes the store in a few ways: it requests zones, clears the cache, and changes files
and settings.  What each of these changes keeps, a script keeps.

* `Change` lists the changes.  `Action.Changes` says that an action does nothing else to the store,
  and `Action.changes_bind` takes a sequence apart.
* `changes_perform` is the step, whatever its arguments are, and `Session.changes_after` is the
  result for whole scripts, whose replies `Session.runAll_append` takes apart.
* Every change is an event of the store (`Session.exists_events`).  `Session.kept_after` is what
  that means for the cache.
* `Session.wellFormed_after` is what it means for the files.
-/

namespace CivilTime.Script

/-- A change that a step makes to the store. -/
inductive Change (s : Store) : Store → Prop
  | request (key : String) : Change s (s.get key).1
  | clear : Change s s.clear
  | clearKeys (keys : List String) : Change s (s.clearKeys keys)
  | write (path : String) (content : List UInt8) :
    Change s { s with root := s.root.write content (Directory.pathNames path) }
  | remove (path : String) : Change s { s with root := s.root.remove (Directory.pathNames path) }
  | makeDirectory (path : String) :
    Change s { s with root := s.root.makeDirectory (Directory.pathNames path) }
  | setPackage (present : Bool) : Change s { s with hasPackage := present }
  | settings (environment configured : Option String) :
    Change s { s with environment, configured }
  | searchPath (searchPath : List String) : Change s { s with searchPath }

namespace Change

variable {s t : Store}

/-- Every change is something that can happen to a store. -/
theorem exists_event (h : Change s t) : ∃ event, t = s.step event := by
  cases h with
  | request key => exact ⟨.request key, rfl⟩
  | clear => exact ⟨.clear, rfl⟩
  | clearKeys keys => exact ⟨.clearKeys keys, rfl⟩
  | write path content =>
    exact ⟨.change fun s => { s with root := s.root.write content (Directory.pathNames path) }, rfl⟩
  | remove path =>
    exact ⟨.change fun s => { s with root := s.root.remove (Directory.pathNames path) }, rfl⟩
  | makeDirectory path =>
    exact ⟨.change fun s => { s with root := s.root.makeDirectory (Directory.pathNames path) }, rfl⟩
  | setPackage present => exact ⟨.change fun s => { s with hasPackage := present }, rfl⟩
  | settings environment configured =>
    exact ⟨.change fun s => { s with environment, configured }, rfl⟩
  | searchPath searchPath => exact ⟨.change fun s => { s with searchPath }, rfl⟩

/-- Changes keep the files a well-formed tree. -/
theorem wellFormed (h : Change s t) (hs : s.root.WellFormed) : t.root.WellFormed := by
  cases h with
  | request key =>
    rw [Store.root_get]
    exact hs
  | write path content =>
    exact Directory.wellFormed_write content
      (fun _ hname => Directory.isEntryName_of_mem_pathNames hname) hs
  | remove path =>
    exact Directory.wellFormed_remove
      (fun _ hname => Directory.isEntryName_of_mem_pathNames hname) hs
  | makeDirectory path =>
    exact Directory.wellFormed_makeDirectory
      (fun _ hname => Directory.isEntryName_of_mem_pathNames hname) hs
  | clear | clearKeys _ | setPackage _ | settings _ _ | searchPath _ => exact hs

end Change

namespace Action

variable {α β : Type}

/-- What an action does to the store is a number of changes. -/
def Changes (a : Action α) : Prop :=
  ∀ e, Relation.ReflTransGen Change e.store (a.run.run e).2.store

theorem changes_pure (b : α) : Changes (pure b) :=
  fun _ => .refl

theorem changes_throw (failure : Failure) : Changes (throw failure : Action α) :=
  fun _ => .refl

theorem changes_ofResult (r : Except Failure α) : Changes (ofResult r) :=
  fun _ => .refl

theorem changes_get : Changes (get : Action Effects) :=
  fun _ => .refl

theorem changes_report (notes : List Note) : Changes (report notes) :=
  fun _ => .refl

/-- A sequence of actions makes the changes of both, one after the other. -/
theorem changes_bind {a : Action α} {f : α → Action β} (ha : Changes a)
    (hf : ∀ b, Changes (f b)) : Changes (a >>= f) := by
  intro e
  have hfirst := ha e
  rw [ExceptT.run_bind, StateT.run_bind]
  cases hrun : a.run.run e with
  | mk result e₁ =>
    rw [hrun] at hfirst
    cases result with
    | error failure => exact hfirst
    | ok b => exact hfirst.trans (hf b e₁)

theorem changes_update {f : Store → Store} (h : ∀ s, Change s (f s)) : Changes (update f) :=
  fun e => .single (h e.store)

theorem changes_zoneOfKey (key : String) : Changes (zoneOfKey key) :=
  fun _ => .single (.request key)

theorem changes_zoneOfValue (key : Plain) : Changes (zoneOfValue key) := by
  refine changes_bind (changes_ofResult _) fun _ => ?_
  cases key with
  | text key => exact changes_zoneOfKey key
  | _ => exact changes_throw _

theorem changes_clearKeys (keys : List Plain) : Changes (clearKeys keys) := by
  refine changes_bind (changes_update fun _ => .clearKeys _) fun _ => ?_
  split
  · exact changes_throw _
  · exact changes_pure _

end Action

open CivilTime.Script.Action

/-! ## Steps -/

theorem changes_namedZone (v : Value) : Changes v.namedZone := by
  unfold Value.namedZone
  split
  · exact changes_bind (changes_zoneOfKey _) fun _ => changes_pure _
  · exact changes_pure _
  · exact changes_throw _

theorem changes_toZone (v : Value) : Changes v.toZone := by
  unfold Value.toZone
  split
  · exact changes_bind (changes_zoneOfKey _) fun _ => changes_pure _
  · exact changes_pure _
  · exact changes_throw _

theorem changes_make (f : MomentFields) (choice : Choice) : Changes (f.make choice) := by
  refine changes_bind (changes_ofResult _) fun _ => changes_bind (changes_ofResult _) fun _ => ?_
  exact changes_bind (changes_toZone _) fun _ => changes_ofResult _

theorem changes_ofDifference (r : Except Failure (Interval × List Note)) :
    Changes (Value.ofDifference r) :=
  changes_bind (changes_ofResult r) fun _ => changes_bind (changes_report _) fun _ => changes_pure _

theorem changes_difference (a b : Value) : Changes (a.difference b) := by
  unfold Value.difference
  split
  · exact changes_ofDifference _
  · exact changes_throw _

theorem changes_minus (a b : Value) : Changes (a.minus b) := by
  unfold Value.minus
  split
  · exact changes_ofDifference _
  · exact changes_bind (changes_ofResult _) fun _ => changes_pure _
  · exact changes_bind (changes_ofResult _) fun _ => changes_pure _
  · exact changes_throw _

theorem changes_resultOf (r : Except Failure Value) : Changes (resultOf r) :=
  changes_bind (changes_ofResult r) fun _ => changes_pure _

theorem changes_valueOf {a : Action Value} (h : Changes a) : Changes (valueOf a) :=
  changes_bind h fun _ => changes_pure _

theorem changes_momentOf {a : Action Moment} (h : Changes a) : Changes (momentOf a) :=
  changes_bind h fun _ => changes_pure _

/-- Whatever a step does, it makes no other changes. -/
theorem changes_perform (step : Step Value) : Changes step.perform := by
  cases step with
  | namedZone source => exact changes_bind (changes_namedZone source) fun _ => changes_pure _
  | lookup zone exactTimes localTimes =>
    cases zone with
    | zone z =>
      cases z with
      | named data => exact changes_pure _
      | _ => exact changes_throw _
    | _ => exact changes_throw _
  | ofReading fields microsecond zone choice =>
    exact changes_momentOf (changes_bind (changes_ofResult _) fun _ => changes_make _ _)
  | ofTimestamp seconds microsecond zone =>
    refine changes_momentOf (changes_bind (changes_ofResult _) fun ⟨epoch, microsecond⟩ => ?_)
    dsimp only
    split
    · exact changes_bind (changes_throw _) fun _ => changes_bind (changes_toZone _) fun _ =>
        changes_bind (changes_ofResult _) fun _ => changes_pure _
    · exact changes_bind (changes_toZone _) fun _ =>
        changes_bind (changes_ofResult _) fun _ => changes_pure _
  | inZone t zone =>
    refine changes_momentOf (changes_bind (changes_ofResult _) fun _ => ?_)
    exact changes_bind (changes_toZone _) fun _ => changes_ofResult _
  | replace fields t choice =>
    refine changes_momentOf ?_
    split
    · exact changes_bind (changes_ofResult _) fun _ => changes_make _ _
    · exact changes_throw _
  | diff a b form =>
    cases form with
    | function => exact changes_valueOf (changes_difference _ _)
    | method =>
      refine changes_valueOf (changes_bind (changes_ofResult _) fun _ => ?_)
      exact changes_difference _ _
    | operator => exact changes_valueOf (changes_minus _ _)
  | shift t delta mode direction form =>
    cases form with
    | function | method => exact changes_resultOf _
    | operator =>
      cases direction with
      | forward => exact changes_resultOf _
      | backward => exact changes_valueOf (changes_minus _ _)
  | equal a b => exact changes_pure _
  | write path content =>
    exact changes_bind (changes_update fun _ => .write path content) fun _ => changes_pure _
  | remove path => exact changes_bind (changes_update fun _ => .remove path) fun _ => changes_pure _
  | makeDirectory path =>
    exact changes_bind (changes_update fun _ => .makeDirectory path) fun _ => changes_pure _
  | setPackage present =>
    exact changes_bind (changes_update fun _ => .setPackage present) fun _ => changes_pure _
  | settings environment configured =>
    refine changes_bind (changes_update fun _ => ?_) fun _ => changes_pure _
    exact .settings environment configured
  | resetSearchPath paths =>
    cases paths with
    | null =>
      refine changes_bind (changes_update fun _ => .searchPath _) fun _ => ?_
      exact changes_bind changes_get fun _ => changes_pure _
    | _ =>
      refine changes_bind (changes_ofResult _) fun _ => ?_
      refine changes_bind (changes_update fun _ => .searchPath _) fun _ => ?_
      exact changes_bind changes_get fun _ => changes_pure _
  | clearCache keys =>
    cases keys with
    | null =>
      refine changes_bind (changes_report _) fun _ => ?_
      exact changes_bind (changes_update fun _ => .clear) fun _ => changes_pure _
    | _ =>
      refine changes_bind (changes_ofResult _) fun _ => changes_bind (changes_report _) fun _ => ?_
      exact changes_bind (changes_clearKeys _) fun _ => changes_pure _
  | getZone key => exact changes_bind (changes_zoneOfValue key) fun _ => changes_pure _
  | cached => exact changes_bind changes_get fun _ => changes_pure _
  | available =>
    refine changes_bind changes_get fun _ => ?_
    exact changes_bind (changes_ofResult _) fun _ => changes_pure _
  | _ => exact changes_resultOf _

/-! ## Scripts -/

namespace Session

/-- The session after the steps of a script. -/
def after (s : Session) (steps : List (Step Argument × Option String)) : Session :=
  steps.foldl (fun s step => (s.run step.1 step.2).1) s

/-- The replies of a script are those of its steps, each from the session before it. -/
theorem runAll_append (s : Session) (steps others : List (Step Argument × Option String)) :
    s.runAll (steps ++ others) = s.runAll steps ++ (s.after steps).runAll others := by
  induction steps generalizing s with
  | nil => rfl
  | cons step steps ih =>
    rw [List.cons_append, runAll, runAll]
    dsimp only
    rw [ih]
    rfl

@[simp] theorem assign_store (s : Session) (register : Option String) (answer : Answer) :
    (s.assign register answer).store = s.store := by
  cases register <;> rfl

theorem changes_run (s : Session) (step : Step Argument) (register : Option String) :
    Relation.ReflTransGen Change s.store (s.run step register).1.store := by
  rw [run]
  cases step.resolve s.registers with
  | error name => exact .refl
  | ok resolved =>
    have hperform := changes_perform resolved ⟨s.store, []⟩
    dsimp only
    cases hrun : resolved.perform.run.run ⟨s.store, []⟩ with
    | mk result effects =>
      rw [hrun] at hperform
      cases result with
      | error failure => exact hperform
      | ok answer =>
        dsimp only
        rw [assign_store]
        exact hperform

/-- What a script does to the store is a number of changes. -/
theorem changes_after (s : Session) (steps : List (Step Argument × Option String)) :
    Relation.ReflTransGen Change s.store (s.after steps).store := by
  induction steps generalizing s with
  | nil => exact .refl
  | cons step steps ih => exact (changes_run s step.1 step.2).trans (ih _)

/-- What a script does to the store is a run of events. -/
theorem exists_events (s : Session) (steps : List (Step Argument × Option String)) :
    ∃ events, (s.after steps).store = s.store.after events := by
  have hchanges := changes_after s steps
  generalize (s.after steps).store = t at *
  induction hchanges with
  | refl => exact ⟨[], rfl⟩
  | tail _ hchange ih =>
    obtain ⟨events, hevents⟩ := ih
    obtain ⟨event, hevent⟩ := hchange.exists_event
    refine ⟨events ++ [event], ?_⟩
    rw [Store.after_append, ← hevents, hevent]
    rfl

/-- The cache of a script is small, in order, and has zones with their own keys. -/
theorem kept_after (steps : List (Step Argument × Option String)) :
    ∃ requested, (initial.after steps).store.cache.Kept requested := by
  obtain ⟨events, hevents⟩ := exists_events initial steps
  rw [hevents]
  exact ⟨_, Store.kept_after rfl events⟩

/-- The files of a script are a well-formed tree. -/
theorem wellFormed_after (steps : List (Step Argument × Option String)) :
    (initial.after steps).store.root.WellFormed := by
  have hchanges := changes_after initial steps
  generalize (initial.after steps).store = t at *
  induction hchanges with
  | refl => trivial
  | tail _ hchange ih => exact hchange.wellFormed ih

end Session

end CivilTime.Script
