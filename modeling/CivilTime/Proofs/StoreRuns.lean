import CivilTime.Proofs.Success
import CivilTime.Store.Basic

/-!
# Runs of a store

What can happen to a store, one thing after the other: zones are requested, the cache is
cleared, and the files and settings change.

* `Store.Event` lists what can happen, and `Store.after` is the store after a list of events.
* `Store.get_answered` has the three cases of a request: the zone is cached, it is read and
  cached, or it is refused.
* `Store.requested` are the keys that were requested with success, and `Store.stepped` has what
  each event does to the cache.
* `Store.SameSources` says that two stores read zones from the same files, and `Store.ofNames`
  makes a store with files for a few keys.
-/

namespace CivilTime

/-- The zone of a file has the key that the file was read for. -/
theorem ZoneFile.key_of_decode {key : Option String} {bytes : List UInt8} {data : ZoneData}
    (h : decode key bytes = .ok data) : data.key = key := by
  have hzone : ∀ entries rule, zoneOf key entries rule = .ok data → data.key = key := by
    intro entries rule h
    rw [zoneOf] at h
    split at h
    · obtain rfl := Except.ok.inj h
      rfl
    · contradiction
  obtain ⟨⟨header, block, rest⟩, -, h⟩ := bind_eq_ok.1 h
  obtain ⟨entries, -, h⟩ := bind_eq_ok.1 h
  dsimp only at h
  split at h
  · exact hzone entries none h
  · obtain ⟨rule, -, h⟩ := bind_eq_ok.1 h
    exact hzone entries rule h

namespace Store

/-- What can happen to a store. -/
inductive Event where
  /-- The zone of a key is requested. -/
  | request (key : String)
  /-- All cached zones are dropped. -/
  | clear
  /-- The cached zones of some keys are dropped. -/
  | clearKeys (keys : List String)
  /-- Files, the package, the settings or the search path change, in any way. -/
  | change (f : Store → Store)

namespace Event

/-- The event drops cached zones. -/
def IsClear : Event → Prop
  | clear | clearKeys _ => True
  | request _ | change _ => False

/-- The event drops the cached zone of a key. -/
def Clears (key : String) : Event → Prop
  | clear => True
  | clearKeys keys => key ∈ keys
  | request _ | change _ => False

end Event

/-- The store after an event. -/
def step (s : Store) : Event → Store
  | .request key => (s.get key).1
  | .clear => s.clear
  | .clearKeys keys => s.clearKeys keys
  | .change f => { f s with cache := s.cache }

/-- The store after a list of events. -/
def after (s : Store) (events : List Event) : Store :=
  events.foldl step s

variable {s t : Store} {key : String}

theorem step_request (s : Store) (key : String) : s.step (.request key) = (s.get key).1 := rfl

@[simp] theorem after_nil (s : Store) : s.after [] = s := rfl

@[simp] theorem after_cons (s : Store) (event : Event) (events : List Event) :
    s.after (event :: events) = (s.step event).after events := rfl

@[simp] theorem after_append (s : Store) (events others : List Event) :
    s.after (events ++ others) = (s.after events).after others :=
  List.foldl_append

/-! ## Requests -/

/-- The ways in which a request is answered, and the store and the notes that it leaves. -/
inductive Answered (s : Store) (key : String) :
    Store × List Note × Except Failure ZoneData → Prop
  | cached {data : ZoneData} (hfound : s.cache.find? key = some data) :
    Answered s key ({ s with cache := s.cache.use key data }, [], .ok data)
  | loaded {notes : List Note} {data : ZoneData} (hmissing : s.cache.find? key = none)
    (hload : s.loadValid key = (notes, .ok data)) :
    Answered s key ({ s with cache := s.cache.use key data }, notes, .ok data)
  | refused {notes : List Note} {failure : Failure} (hmissing : s.cache.find? key = none)
    (hload : s.loadValid key = (notes, .error failure)) :
    Answered s key (s, notes, .error failure)

theorem get_answered (s : Store) (key : String) : s.Answered key (s.get key) := by
  unfold get
  cases hfound : s.cache.find? key with
  | some data => exact .cached hfound
  | none =>
    cases hload : s.loadValid key with
    | mk notes result =>
      cases result with
      | ok data => exact .loaded hfound hload
      | error failure => exact .refused hfound hload

/-- A zone that is cached is given as it is, without notes, and whatever the files. -/
theorem get_of_cached {data : ZoneData} (h : s.cache.find? key = some data) :
    s.get key = ({ s with cache := s.cache.use key data }, [], .ok data) := by
  rw [get, h]

/-- A zone that is not cached is loaded. -/
theorem get_of_missing (h : s.cache.find? key = none) : (s.get key).2 = s.loadValid key := by
  rw [get, h]
  dsimp only
  cases s.loadValid key with
  | mk notes result => cases result <;> rfl

/-- A request that fails leaves the store as it was. -/
theorem get_of_error {failure : Failure} (h : (s.get key).2.2 = .error failure) :
    (s.get key).1 = s := by
  have hanswer := s.get_answered key
  generalize s.get key = answer at *
  cases hanswer with
  | cached => contradiction
  | loaded => contradiction
  | refused => rfl

/-- A request leaves the files as they are. -/
theorem root_get (s : Store) (key : String) : (s.get key).1.root = s.root := by
  have hanswer := s.get_answered key
  generalize s.get key = answer at *
  cases hanswer with
  | cached => rfl
  | loaded => rfl
  | refused => rfl

/-- A request that succeeds uses the zone that it gives. -/
theorem cache_of_get {data : ZoneData} (h : (s.get key).2.2 = .ok data) :
    (s.get key).1.cache = s.cache.use key data := by
  have hanswer := s.get_answered key
  generalize s.get key = answer at *
  cases hanswer with
  | cached =>
    obtain rfl := Except.ok.inj h
    rfl
  | loaded =>
    obtain rfl := Except.ok.inj h
    rfl
  | refused => contradiction

/-- The keys that an event requests with success. -/
def requestedBy (s : Store) : Event → List String
  | .request key => if (s.get key).2.2.isOk then [key] else []
  | .clear | .clearKeys _ | .change _ => []

/-- The keys that are requested with success in a run, in order. -/
def requested (s : Store) : List Event → List String
  | [] => []
  | event :: events => s.requestedBy event ++ (s.step event).requested events

@[simp] theorem requested_nil (s : Store) : s.requested [] = [] := rfl

@[simp] theorem requested_cons (s : Store) (event : Event) (events : List Event) :
    s.requested (event :: events) = s.requestedBy event ++ (s.step event).requested events := rfl

/-- What an event does: the keys it requests with success, and the cache that it leaves. -/
inductive Stepped (s : Store) : Event → List String → Cache → Prop
  | used {key : String} {data : ZoneData}
    (hsource : s.cache.find? key = some data ∨
      s.cache.find? key = none ∧ (s.loadValid key).2 = .ok data) :
    Stepped s (.request key) [key] (s.cache.use key data)
  | refused {key : String} : Stepped s (.request key) [] s.cache
  | cleared : Stepped s .clear [] .empty
  | keysCleared {keys : List String} : Stepped s (.clearKeys keys) [] (s.cache.eraseAll keys)
  | changed {f : Store → Store} : Stepped s (.change f) [] s.cache

theorem stepped (s : Store) (event : Event) :
    s.Stepped event (s.requestedBy event) (s.step event).cache := by
  cases event with
  | request key =>
    have hanswer := s.get_answered key
    simp only [requestedBy, step]
    generalize s.get key = answer at hanswer ⊢
    cases hanswer with
    | cached hfound => exact .used (.inl hfound)
    | loaded hmissing hload => exact .used (.inr ⟨hmissing, congrArg Prod.snd hload⟩)
    | refused => exact .refused
  | clear => exact .cleared
  | clearKeys keys => exact .keysCleared
  | change f => exact .changed

/-! ## Sources of zones -/

/-- The zone that is loaded for a key has that key. -/
theorem key_of_loadValid {data : ZoneData} (h : (s.loadValid key).2 = .ok data) :
    data.key = some key := by
  unfold loadValid load at h
  split at h
  · split at h
    · contradiction
    · split at h
      · exact ZoneFile.key_of_decode h
      · contradiction
  · contradiction

/-- The stores read zones from the same files. -/
structure SameSources (s t : Store) : Prop where
  root : s.root = t.root
  hasPackage : s.hasPackage = t.hasPackage
  searchPath : s.searchPath = t.searchPath

/-- What is loaded depends on the files, the package and the search path alone. -/
theorem SameSources.loadValid_eq (h : s.SameSources t) (key : String) :
    s.loadValid key = t.loadValid key := by
  unfold loadValid load zoneFile searchFile packageFile
  rw [h.root, h.hasPackage, h.searchPath]

/-! ## Stores with a few zones -/

/-- A zone file in version 1 that records one offset, an hour ahead. -/
def hourAheadFile : List UInt8 :=
  ZoneFile.magic ++ List.replicate 35 0 ++ [1, 0, 0, 0, 0, 0, 0, 0x0e, 0x10, 0, 0]

/-- A store with a zone for each of some names, all of them an hour ahead. -/
def ofNames (names : List String) : Store :=
  { initial with
    root := .folder "zones" (names.foldr (.file · hourAheadFile) .empty) .empty
    searchPath := ["/zones"] }

end Store

end CivilTime
