import CivilTime.Proofs.StoreRuns
import Mathlib.Data.List.Dedup
import Mathlib.Data.List.DropRight
import Mathlib.Data.List.Perm.Subperm

/-!
# The keys in the cache

The cache holds the keys that were requested last, in the order of their last requests.

* `Cache.keys_use`, `Cache.keys_erase` and `Cache.keys_eraseAll` say what the operations do to
  the keys: a key that is used moves to the end, and the last `Cache.capacity` keys stay.
* `Cache.Kept` is what holds of a cache after some requests.  It survives every event
  (`Store.kept_step`), so that it holds along every run (`Store.kept_after`).
* `Cache.HoldsBefore` says that a key is cached, and which keys can come after it.  While fewer
  than `Cache.capacity` other keys are requested, no request drops the key.
* `Store.keys_after` has the keys of runs in which nothing is cleared.
* `Store.recent_keys` puts together what holds along every run.

`List.dedup` keeps the last of equal keys, so `requested.dedup` are the distinct keys that were
requested, in the order of their last requests, and `List.rtake` takes the last of them.
-/

/-! ## Last entries of lists -/

namespace List

variable {α : Type*}

theorem sublist_rtake (l : List α) (n : Nat) : (l.rtake n).Sublist l :=
  drop_sublist _ _

theorem rtake_of_length_le {l : List α} {n : Nat} (h : l.length ≤ n) : l.rtake n = l := by
  rw [rtake, Nat.sub_eq_zero_of_le h, drop_zero]

/-- The last entries of a longer list are those of its end, where that is long enough. -/
theorem rtake_append_of_le_length {l m : List α} {n : Nat} (h : n ≤ m.length) :
    (l ++ m).rtake n = m.rtake n := by
  have hlength : (l ++ m).length - n - l.length = m.length - n := by
    rw [length_append]
    omega
  rw [rtake, rtake, drop_append, hlength, drop_of_length_le, nil_append]
  rw [length_append]
  omega

/-- An end that is short enough stays whole. -/
theorem rtake_append_of_length_le {l m : List α} {n : Nat} (h : m.length ≤ n) :
    (l ++ m).rtake n = l.rtake (n - m.length) ++ m := by
  have hfront : (l ++ m).length - n = l.length - (n - m.length) := by
    rw [length_append]
    omega
  have hback : l.length - (n - m.length) - l.length = 0 := by omega
  rw [rtake, rtake, hfront, drop_append, hback, drop_zero]

variable [DecidableEq α]

theorem length_le_length_filter_ne_succ {l : List α} (hnodup : l.Nodup) (a : α) :
    l.length ≤ (l.filter (· ≠ a)).length + 1 := by
  have herase : l.filter (· ≠ a) = l.erase a := by
    rw [hnodup.erase_eq_filter]
    apply filter_congr
    intro b _
    by_cases hb : b = a <;> simp [hb]
  rw [herase, length_erase]
  split <;> omega

/-- The last entries determine what the last entries are once an entry has moved to the end. -/
theorem rtake_filter_ne_rtake {l : List α} (hnodup : l.Nodup) (a : α) (n : Nat) :
    ((l.rtake n).filter (· ≠ a) ++ [a]).rtake n = (l.filter (· ≠ a) ++ [a]).rtake n := by
  by_cases hshort : l.length ≤ n
  · rw [rtake_of_length_le hshort]
  cases n with
  | zero => simp
  | succ n =>
    have hlength : (l.rtake (n + 1)).length = n + 1 := by
      rw [rtake, length_drop]
      omega
    -- At most one of the last entries is dropped, so `n` of them are left, and no entry before
    -- them counts.
    have hkept : n ≤ ((l.rtake (n + 1)).filter (· ≠ a)).length := by
      have hdropped :=
        length_le_length_filter_ne_succ (hnodup.sublist (sublist_rtake l (n + 1))) a
      omega
    have hsplit : l = l.take (l.length - (n + 1)) ++ l.rtake (n + 1) := (take_append_drop _ l).symm
    rw [rtake_concat_succ, rtake_concat_succ]
    congr 1
    conv_rhs => rw [hsplit, filter_append, rtake_append_of_le_length hkept]

theorem dedup_append_singleton (l : List α) (a : α) :
    (l ++ [a]).dedup = l.dedup.filter (· ≠ a) ++ [a] := by
  induction l with
  | nil => rfl
  | cons b l ih =>
    rw [cons_append]
    by_cases hmem : b ∈ l
    · rw [dedup_cons_of_mem hmem, dedup_cons_of_mem (mem_append_left _ hmem), ih]
    · rw [dedup_cons_of_notMem hmem]
      by_cases hlast : b = a
      · rw [dedup_cons_of_mem (by simp [hlast]), ih, filter_cons_of_neg (by simp [hlast])]
      · rw [dedup_cons_of_notMem (by simp [hmem, hlast]), ih, filter_cons_of_pos (by simp [hlast]),
          cons_append]

end List

namespace CivilTime

namespace Cache

variable {c : Cache} {key : String} {data : ZoneData}

@[simp] theorem keys_erase (c : Cache) (key : String) :
    (c.erase key).keys = c.keys.filter (· ≠ key) := by
  rw [keys, keys, erase, List.filter_map]
  rfl

/-- The key that is used moves to the end, and the last keys stay. -/
theorem keys_use (c : Cache) (key : String) (data : ZoneData) :
    (c.use key data).keys = (c.keys.filter (· ≠ key) ++ [key]).rtake capacity := by
  have hmap : ((c.erase key).entries ++ [(key, data)]).map Prod.fst =
      c.keys.filter (· ≠ key) ++ [key] := by
    rw [List.map_append, ← keys_erase]
    rfl
  rw [← hmap, keys, use, trim, List.map_drop, List.rtake, List.length_map]

theorem keys_eraseAll (c : Cache) (keys : List String) :
    (c.eraseAll keys).keys = c.keys.filter (· ∉ keys) := by
  unfold eraseAll
  induction keys generalizing c with
  | nil => simp
  | cons key keys ih =>
    rw [List.foldl_cons, ih, keys_erase, List.filter_filter]
    apply List.filter_congr
    intro other _
    simp [Bool.and_comm]

theorem mem_of_find? (h : c.find? key = some data) : (key, data) ∈ c.entries := by
  obtain ⟨front, back, hsplit, -⟩ := List.lookup_eq_some_iff.1 h
  rw [hsplit]
  exact List.mem_append_right _ List.mem_cons_self

theorem sublist_eraseAll (c : Cache) (keys : List String) :
    (c.eraseAll keys).entries.Sublist c.entries := by
  unfold eraseAll
  induction keys generalizing c with
  | nil => exact .refl _
  | cons key keys ih => exact (ih (c.erase key)).trans List.filter_sublist

theorem mem_entries_use {entry : String × ZoneData} (h : entry ∈ (c.use key data).entries) :
    entry ∈ c.entries ∨ entry = (key, data) := by
  have hmem : entry ∈ (c.erase key).entries ++ [(key, data)] := List.mem_of_mem_drop h
  rw [List.mem_append, List.mem_singleton] at hmem
  exact hmem.imp_left List.mem_of_mem_filter

/-! ## What a cache keeps -/

/-- What holds of a cache after zones were requested: it is small, its keys are in the order of
their last requests, and each zone has its own key. -/
structure Kept (requested : List String) (c : Cache) : Prop where
  length_le : c.keys.length ≤ capacity
  sublist : c.keys.Sublist requested.dedup
  own_key : ∀ entry ∈ c.entries, entry.2.key = some entry.1

namespace Kept

variable {requested : List String}

theorem empty : Cache.empty.Kept [] where
  length_le := Nat.zero_le _
  sublist := .refl _
  own_key := fun _ hmem => absurd hmem List.not_mem_nil

theorem nodup (h : c.Kept requested) : c.keys.Nodup :=
  h.sublist.nodup requested.nodup_dedup

/-- Dropping entries does no harm. -/
theorem of_sublist {d : Cache} (h : c.Kept requested) (hsub : d.entries.Sublist c.entries) :
    d.Kept requested where
  length_le := (hsub.map _).length_le.trans h.length_le
  sublist := (hsub.map _).trans h.sublist
  own_key := fun entry hmem => h.own_key entry (hsub.subset hmem)

theorem use (h : c.Kept requested) (hkey : data.key = some key) :
    (c.use key data).Kept (requested ++ [key]) where
  length_le := (List.length_map _).trans_le (c.length_use_le key data)
  sublist := by
    rw [keys_use, List.dedup_append_singleton]
    exact (List.sublist_rtake _ _).trans ((h.sublist.filter _).append (.refl _))
  own_key := by
    intro entry hmem
    cases mem_entries_use hmem with
    | inl hold => exact h.own_key entry hold
    | inr hnew => rw [hnew, hkey]

end Kept

/-- A key is cached, and only some others come after it. -/
def HoldsBefore (key : String) (others : List String) (c : Cache) : Prop :=
  ∃ front back, c.keys = front ++ key :: back ∧ back ⊆ others

namespace HoldsBefore

variable {others : List String}

theorem mem_keys (h : c.HoldsBefore key others) : key ∈ c.keys := by
  obtain ⟨front, back, hkeys, -⟩ := h
  rw [hkeys]
  exact List.mem_append_right _ List.mem_cons_self

/-- A key that was just used comes last. -/
theorem of_use (c : Cache) (key : String) (data : ZoneData) (others : List String) :
    (c.use key data).HoldsBefore key others := by
  refine ⟨(c.keys.filter (· ≠ key)).rtake 7, [], ?_, List.nil_subset _⟩
  rw [keys_use]
  exact List.rtake_concat_succ _ 7 key

/-- Keys that are used come after it, but they are too few to displace it. -/
theorem use {other : String} (h : c.HoldsBefore key others) (hnodup : c.keys.Nodup)
    (hother : other ∈ others) (hne : other ≠ key) (hfew : others.dedup.length < capacity) :
    (c.use other data).HoldsBefore key others := by
  obtain ⟨front, back, hkeys, hback⟩ := h
  have hfilter : c.keys.filter (· ≠ other) ++ [other] =
      front.filter (· ≠ other) ++ key :: (back.filter (· ≠ other) ++ [other]) := by
    rw [hkeys, List.filter_append, List.filter_cons_of_pos (by simpa using hne.symm),
      List.append_assoc, List.cons_append]
  -- What comes after the key has no repetition and lies in `others`, so there is room for it.
  have hsub : back.filter (· ≠ other) ++ [other] ⊆ others.dedup := by
    intro k hk
    rw [List.mem_append, List.mem_singleton] at hk
    rw [List.mem_dedup]
    cases hk with
    | inl hk => exact hback (List.mem_of_mem_filter hk)
    | inr hk => exact hk ▸ hother
  have hapart : (back.filter (· ≠ other) ++ [other]).Nodup := by
    rw [hkeys] at hnodup
    have hold : back.Nodup := (List.nodup_append.1 hnodup).2.1.of_cons
    refine (hold.filter _).append (List.nodup_singleton _) ?_
    intro k hk hlast
    rw [List.mem_singleton] at hlast
    simp [hlast] at hk
  have hlength := (hapart.subperm hsub).length_le
  have hshort : (key :: (back.filter (· ≠ other) ++ [other])).length ≤ capacity := by
    rw [List.length_cons]
    omega
  have hnew := keys_use c other data
  rw [hfilter, List.rtake_append_of_length_le hshort] at hnew
  exact ⟨_, _, hnew, fun k hk => List.mem_dedup.1 (hsub hk)⟩

/-- Dropping other keys keeps it. -/
theorem eraseAll {keys : List String} (h : c.HoldsBefore key others) (hkey : key ∉ keys) :
    (c.eraseAll keys).HoldsBefore key others := by
  obtain ⟨front, back, hkeys, hback⟩ := h
  refine ⟨front.filter (· ∉ keys), back.filter (· ∉ keys), ?_, fun k hk => ?_⟩
  · rw [keys_eraseAll, hkeys, List.filter_append, List.filter_cons_of_pos (by simpa using hkey)]
  · exact hback (List.mem_of_mem_filter hk)

end HoldsBefore

end Cache

namespace Store

variable {s : Store} {key : String}

/-! ## What the cache keeps along a run -/

theorem kept_step {requested : List String} (h : s.cache.Kept requested) (event : Event) :
    (s.step event).cache.Kept (requested ++ s.requestedBy event) := by
  have hstep := s.stepped event
  generalize s.requestedBy event = keys, (s.step event).cache = cache at hstep ⊢
  cases hstep with
  | @used key data hsource =>
    refine h.use ?_
    cases hsource with
    | inl hfound => exact h.own_key _ (Cache.mem_of_find? hfound)
    | inr hloaded => exact key_of_loadValid hloaded.2
  | refused | changed => rwa [List.append_nil]
  | cleared =>
    rw [List.append_nil]
    exact h.of_sublist (List.nil_sublist _)
  | keysCleared =>
    rw [List.append_nil]
    exact h.of_sublist (Cache.sublist_eraseAll _ _)

theorem kept_after_append {requested : List String} (h : s.cache.Kept requested)
    (events : List Event) : (s.after events).cache.Kept (requested ++ s.requested events) := by
  induction events generalizing s requested with
  | nil => rwa [requested_nil, List.append_nil]
  | cons event events ih =>
    rw [requested_cons, ← List.append_assoc]
    exact ih (kept_step h event)

theorem kept_after (h : s.cache = .empty) (events : List Event) :
    (s.after events).cache.Kept (s.requested events) := by
  have hstart : s.cache.Kept [] := by
    rw [h]
    exact .empty
  exact kept_after_append hstart events

/-! ## How long a key stays -/

theorem holdsBefore_request {data : ZoneData} (h : (s.get key).2.2 = .ok data)
    (others : List String) : (s.step (.request key)).cache.HoldsBefore key others := by
  rw [step_request, cache_of_get h]
  exact .of_use _ _ _ _

theorem holdsBefore_step {others : List String} {event : Event}
    (h : s.cache.HoldsBefore key others) (hnodup : s.cache.keys.Nodup)
    (hothers : (s.requestedBy event).filter (· ≠ key) ⊆ others)
    (hfew : others.dedup.length < Cache.capacity) (hclear : ¬event.Clears key) :
    (s.step event).cache.HoldsBefore key others := by
  have hstep := s.stepped event
  generalize s.requestedBy event = keys, (s.step event).cache = cache at hstep hothers ⊢
  cases hstep with
  | @used other data hsource =>
    by_cases hne : other = key
    · rw [hne]
      exact .of_use _ _ _ _
    · exact h.use hnodup (hothers (by simpa using hne)) hne hfew
  | refused | changed => exact h
  | cleared => exact absurd trivial hclear
  | keysCleared => exact h.eraseAll hclear

theorem holdsBefore_after {others requested : List String} {events : List Event}
    (hkept : s.cache.Kept requested) (h : s.cache.HoldsBefore key others)
    (hothers : (s.requested events).filter (· ≠ key) ⊆ others)
    (hfew : others.dedup.length < Cache.capacity) (hclear : ∀ event ∈ events, ¬event.Clears key) :
    (s.after events).cache.HoldsBefore key others := by
  induction events generalizing s requested with
  | nil => exact h
  | cons event events ih =>
    rw [requested_cons, List.filter_append, List.append_subset] at hothers
    rw [List.forall_mem_cons] at hclear
    exact ih (kept_step hkept event)
      (holdsBefore_step h hkept.nodup hothers.1 hfew hclear.1) hothers.2 hclear.2

/-- A key stays while few other keys are requested and it is not cleared. -/
theorem mem_keys_after {requested : List String} {data : ZoneData} {later : List Event}
    (hkept : s.cache.Kept requested) (hget : (s.get key).2.2 = .ok data)
    (hclear : ∀ event ∈ later, ¬event.Clears key)
    (hfew : (((s.get key).1.requested later).filter (· ≠ key)).dedup.length < Cache.capacity) :
    key ∈ ((s.get key).1.after later).cache.keys := by
  have hcached := holdsBefore_request hget (((s.get key).1.requested later).filter (· ≠ key))
  have hnext := kept_step hkept (.request key)
  rw [step_request] at hcached hnext
  exact (holdsBefore_after hnext hcached (List.Subset.refl _) hfew hclear).mem_keys

/-! ## Runs without clearing -/

theorem keys_step {requested : List String} {event : Event}
    (h : s.cache.keys = requested.dedup.rtake Cache.capacity) (hclear : ¬event.IsClear) :
    (s.step event).cache.keys =
      (requested ++ s.requestedBy event).dedup.rtake Cache.capacity := by
  have hstep := s.stepped event
  generalize s.requestedBy event = keys, (s.step event).cache = cache at hstep ⊢
  cases hstep with
  | @used key data hsource =>
    rw [Cache.keys_use, h, List.rtake_filter_ne_rtake requested.nodup_dedup,
      List.dedup_append_singleton]
  | refused | changed => rwa [List.append_nil]
  | cleared | keysCleared => exact absurd trivial hclear

theorem keys_after_append {requested : List String} {events : List Event}
    (h : s.cache.keys = requested.dedup.rtake Cache.capacity)
    (hclear : ∀ event ∈ events, ¬event.IsClear) :
    (s.after events).cache.keys =
      (requested ++ s.requested events).dedup.rtake Cache.capacity := by
  induction events generalizing s requested with
  | nil => rwa [requested_nil, List.append_nil]
  | cons event events ih =>
    rw [List.forall_mem_cons] at hclear
    rw [requested_cons, ← List.append_assoc]
    exact ih (keys_step h hclear.1) hclear.2

theorem keys_after {events : List Event} (h : s.cache = .empty)
    (hclear : ∀ event ∈ events, ¬event.IsClear) :
    (s.after events).cache.keys = (s.requested events).dedup.rtake Cache.capacity := by
  have hstart : s.cache.keys = ([] : List String).dedup.rtake Cache.capacity := by
    rw [h]
    rfl
  have hkeys := keys_after_append hstart hclear
  rwa [List.nil_append] at hkeys

/-- The cache along every run from an empty one. -/
theorem recent_keys (start : Store) (hempty : start.cache = .empty) (events : List Event) :
    (start.after events).cache.keys.Nodup ∧
      (start.after events).cache.keys.length ≤ 8 ∧
      (start.after events).cache.keys.Sublist (start.requested events).dedup ∧
      (∀ entry ∈ (start.after events).cache.entries, entry.2.key = some entry.1) ∧
      (∀ key failure, ((start.after events).get key).2.2 = .error failure →
        ((start.after events).get key).1 = start.after events) ∧
      (∀ key data later, ((start.after events).get key).2.2 = .ok data →
        (∀ event ∈ later, ¬event.Clears key) →
        ((((start.after events).get key).1.requested later).filter (· ≠ key)).dedup.length ≤ 7 →
        key ∈ (start.after (events ++ .request key :: later)).cache.keys) ∧
      ((∀ event ∈ events, ¬event.IsClear) →
        (start.after events).cache.keys = (start.requested events).dedup.rtake 8) := by
  have hkept := kept_after hempty events
  refine ⟨hkept.nodup, hkept.length_le, hkept.sublist, hkept.own_key,
    fun key failure => get_of_error, ?_, keys_after hempty⟩
  intro key data later hget hclear hfew
  rw [after_append, after_cons, step_request]
  exact mem_keys_after hkept hget hclear (Nat.lt_succ_of_le hfew)

theorem not_isClear_of_requests {keys : List String} :
    ∀ event ∈ keys.map Event.request, ¬event.IsClear := by
  intro event hmem
  obtain ⟨key, -, rfl⟩ := List.mem_map.1 hmem
  exact id

theorem not_clears_of_requests {keys : List String} :
    ∀ event ∈ keys.map Event.request, ¬event.Clears key := by
  intro event hmem
  obtain ⟨key, -, rfl⟩ := List.mem_map.1 hmem
  exact id

/-- Nine keys, one more than are kept. -/
def letters : List String :=
  ["A", "B", "C", "D", "E", "F", "G", "H", "I"]

/-- The ninth key displaces the first, which seven more keys left in the cache. -/
theorem recent_keys_letters :
    "A" ∈ ((ofNames letters).after ((letters.take 8).map .request)).cache.keys ∧
      ((ofNames letters).after (letters.map .request)).cache.keys = letters.drop 1 := by
  obtain ⟨data, hget⟩ : ∃ data, ((ofNames letters).get "A").2.2 = .ok data := ⟨_, rfl⟩
  have hstart := recent_keys (ofNames letters) rfl []
  have hrun := recent_keys (ofNames letters) rfl (letters.map .request)
  constructor
  · exact hstart.2.2.2.2.2.1 "A" data (((letters.take 8).drop 1).map .request) hget
      not_clears_of_requests (by decide +kernel)
  · exact (hrun.2.2.2.2.2.2 not_isClear_of_requests).trans (by decide +kernel)

end Store

end CivilTime
