import CivilTime.Proofs.RecentKeys
import Mathlib.Data.List.Induction

/-!
# The zones in the cache

A zone that is cached may be older than its file.  It is the zone that was loaded when its key
was last missing.

* `Store.LastMiss` is about a run with a request in it: the request found its key missing, and
  every later request found it cached.
* `Store.exists_lastMiss` is what holds along every run: each cached zone was loaded at such a
  request.
* `Store.cached_zones` has what follows for the answers.  While the sources of zones stay as they
  are, an answer does not show whether the zone was cached.
-/

namespace CivilTime

theorem Cache.find?_ne_none_of_mem {c : Cache} {entry : String × ZoneData}
    (h : entry ∈ c.entries) : c.find? entry.1 ≠ none := by
  intro hmissing
  rw [find?, List.lookup_eq_none_iff] at hmissing
  simpa using hmissing entry h

theorem Cache.mem_entries_use_self (c : Cache) (key : String) (data : ZoneData) :
    (key, data) ∈ (c.use key data).entries := by
  have hlast : (c.use key data).entries =
      (c.erase key).entries.rtake 7 ++ [(key, data)] := List.rtake_concat_succ _ 7 _
  rw [hlast]
  exact List.mem_append_right _ (List.mem_singleton_self _)

namespace Store

variable {start s : Store} {key : String} {before after : List Event}

/-! ## Where cached zones come from -/

/-- A zone that is cached after an event was cached before, or it has just been loaded. -/
theorem mem_entries_step {event : Event} {entry : String × ZoneData}
    (h : entry ∈ (s.step event).cache.entries) :
    entry ∈ s.cache.entries ∨
      event = .request entry.1 ∧ s.cache.find? entry.1 = none ∧
        (s.loadValid entry.1).2 = .ok entry.2 := by
  have hstep := s.stepped event
  generalize s.requestedBy event = keys, (s.step event).cache = cache at hstep h
  cases hstep with
  | @used key data hsource =>
    cases Cache.mem_entries_use h with
    | inl hold => exact .inl hold
    | inr hnew =>
      subst hnew
      cases hsource with
      | inl hfound => exact .inl (Cache.mem_of_find? hfound)
      | inr hloaded => exact .inr ⟨rfl, hloaded⟩
  | refused | changed => exact .inl h
  | cleared => exact absurd h List.not_mem_nil
  | keysCleared => exact .inl ((Cache.sublist_eraseAll _ _).subset h)

/-- A zone that is given is cached from then on. -/
theorem mem_entries_of_get {data : ZoneData} (h : (s.get key).2.2 = .ok data) :
    (key, data) ∈ (s.step (.request key)).cache.entries := by
  rw [step_request, cache_of_get h]
  exact Cache.mem_entries_use_self _ _ _

/-! ## The last request that missed -/

/-- The request between two parts of a run found its key missing, and every later request found
it cached. -/
structure LastMiss (start : Store) (key : String) (before after : List Event) : Prop where
  missing : (start.after before).cache.find? key = none
  cached : ∀ middle rest, after = middle ++ .request key :: rest →
    (start.after (before ++ .request key :: middle)).cache.find? key ≠ none

theorem LastMiss.of_missing (h : (start.after before).cache.find? key = none) :
    start.LastMiss key before [] where
  missing := h
  cached := by
    intro middle rest hsplit
    simp at hsplit

/-- One more event changes nothing, unless it is a request that misses. -/
theorem LastMiss.snoc {event : Event} (h : start.LastMiss key before after)
    (hcached : event = .request key →
      (start.after (before ++ .request key :: after)).cache.find? key ≠ none) :
    start.LastMiss key before (after ++ [event]) where
  missing := h.missing
  cached := by
    -- A request in the longer part is the new event, or it lies before it.
    intro middle rest hsplit
    cases rest using List.reverseRecOn with
    | nil =>
      obtain ⟨rfl, hlast⟩ := List.append_inj' hsplit rfl
      exact hcached (List.singleton_inj.1 hlast)
    | append_singleton rest last =>
      rw [← List.cons_append, ← List.append_assoc] at hsplit
      exact h.cached middle rest (List.append_inj' hsplit rfl).1

/-- Each cached zone was loaded at the last request that found its key missing. -/
theorem exists_lastMiss (hempty : start.cache = .empty) (events : List Event) :
    ∀ entry ∈ (start.after events).cache.entries, ∃ before after,
      events = before ++ .request entry.1 :: after ∧ start.LastMiss entry.1 before after ∧
        ((start.after before).loadValid entry.1).2 = .ok entry.2 := by
  -- Events are added at the end, where a run can miss again.
  induction events using List.reverseRecOn with
  | nil =>
    intro entry hmem
    rw [after_nil, hempty] at hmem
    exact absurd hmem List.not_mem_nil
  | append_singleton events event ih =>
    intro entry hmem
    rw [after_append] at hmem
    cases mem_entries_step hmem with
    | inl hold =>
      obtain ⟨before, after, hevents, hmiss, hload⟩ := ih entry hold
      refine ⟨before, after ++ [event], ?_, hmiss.snoc fun _ => ?_, hload⟩
      · rw [hevents, List.append_assoc, List.cons_append]
      · rw [← hevents]
        exact Cache.find?_ne_none_of_mem hold
    | inr hnew =>
      obtain ⟨hevent, hmissing, hload⟩ := hnew
      exact ⟨events, [], by rw [hevent], .of_missing hmissing, hload⟩

/-! ## Answers -/

/-- The answer does not show whether the zone was cached, while the sources stay as they are. -/
theorem get_eq_loadValid (hempty : start.cache = .empty) {events : List Event}
    (hsame : ∀ before, before <+: events → start.SameSources (start.after before)) (key : String) :
    ((start.after events).get key).2.2 = (start.loadValid key).2 := by
  cases hfound : (start.after events).cache.find? key with
  | none =>
    rw [get_of_missing hfound, (hsame events (List.prefix_refl _)).loadValid_eq]
  | some data =>
    obtain ⟨before, after, hevents, -, hload⟩ :=
      exists_lastMiss hempty events _ (Cache.mem_of_find? hfound)
    rw [get_of_cached hfound, (hsame before ⟨_, hevents.symm⟩).loadValid_eq, hload]

/-- What a request gives after any run from an empty cache.  A zone is the one that was loaded
when its key was last missing; a cached zone is given whatever the sources, and without a note;
and where the sources have not changed, the answer is that of loading. -/
theorem cached_zones (start : Store) (hempty : start.cache = .empty) (events : List Event)
    (key : String) :
    (∀ data, ((start.after events).get key).2.2 = .ok data →
      ∃ before after, events ++ [.request key] = before ++ .request key :: after ∧
        start.LastMiss key before after ∧ ((start.after before).loadValid key).2 = .ok data) ∧
    (∀ data, (start.after events).cache.find? key = some data →
      ∀ t : Store, t.cache = (start.after events).cache → (t.get key).2 = ([], .ok data)) ∧
    ((∀ before, before <+: events → start.SameSources (start.after before)) →
      ((start.after events).get key).2.2 = (start.loadValid key).2) := by
  refine ⟨fun data hget => ?_, fun data hfound t hcache => ?_,
    fun hsame => get_eq_loadValid hempty hsame key⟩
  · have hmem : (key, data) ∈ (start.after (events ++ [.request key])).cache.entries := by
      rw [after_append]
      exact mem_entries_of_get hget
    exact exists_lastMiss hempty _ _ hmem
  · rw [← hcache] at hfound
    rw [get_of_cached hfound]

/-- All files vanish. -/
def vanish : Event :=
  .change fun s => { s with root := .empty }

/-- A zone survives its file while it is cached. -/
theorem cached_zones_vanish :
    ∃ data, (((ofNames ["A"]).after [.request "A", vanish]).get "A").2 = ([], .ok data) ∧
      ∃ before after, [.request "A", vanish, .request "A"] = before ++ .request "A" :: after ∧
        (ofNames ["A"]).LastMiss "A" before after ∧
        (((ofNames ["A"]).after before).loadValid "A").2 = .ok data := by
  obtain ⟨data, hfound⟩ :
      ∃ data, ((ofNames ["A"]).after [.request "A", vanish]).cache.find? "A" = some data := ⟨_, rfl⟩
  obtain ⟨hfresh, hcached, -⟩ := cached_zones (ofNames ["A"]) rfl [.request "A", vanish] "A"
  have hget := hcached data hfound _ rfl
  exact ⟨data, hget, hfresh data (congrArg Prod.snd hget)⟩

end Store

end CivilTime
