import Mathlib.Order.Bounds.Basic
import CivilTime.Proofs.CheckedLookups

/-!
# What a search of a table gives

Every lookup of a zone begins with the search of a table for the first entry after a time.

* `firstAfter_isLeast_iff` is about tables in order: the index found is the least one of an entry
  after the time, also where entries have the same key.
* `lt_of_checkedFirstAfter` and `exists_entryAt` are about all tables: the index found is in the
  table, and so is the one before it, the first of the table standing in where none is.
* `firstAfter_exact` puts that together, for the search that looks at each index before it reads.
-/

namespace CivilTime

variable {α : Type} {key : α → Int} {entries : Array α} {x : Int} {index : Nat}

/-- On a table in order, the search finds the least index of an entry after. -/
theorem firstAfter_isLeast_iff (h : KeysInOrder key entries) :
    (firstAfter key entries x).map Fin.val = some index ↔
      IsLeast {i : Nat | ∃ hi : i < entries.size, x < key entries[i]} index := by
  rw [Option.map_eq_some_iff]
  constructor
  · rintro ⟨found, hfound, rfl⟩
    obtain ⟨hafter, hbefore⟩ := (firstAfter_eq_some_iff h found).1 hfound
    refine ⟨⟨found.isLt, hafter⟩, ?_⟩
    rintro i ⟨hi, hx⟩
    refine Nat.not_lt.1 fun hlt => ?_
    exact absurd hx (Int.not_lt.2 (hbefore i hlt))
  · rintro ⟨⟨hindex, hafter⟩, hleast⟩
    refine ⟨⟨index, hindex⟩, (firstAfter_eq_some_iff h _).2 ⟨hafter, fun i hi => ?_⟩, rfl⟩
    refine Int.not_lt.1 fun hx => ?_
    exact absurd (hleast ⟨Nat.lt_trans hi hindex, hx⟩) (Nat.not_le.2 hi)

/-- In any table, an index that is found is one of the table. -/
theorem lt_of_checkedFirstAfter (h : checkedFirstAfter key entries x = .ok (some index)) :
    index < entries.size := by
  rw [checkedFirstAfter_eq, Except.ok.injEq, Option.map_eq_some_iff] at h
  obtain ⟨found, -, rfl⟩ := h
  exact found.isLt

/-- The entry at an index of the table can be read, and so can the one before it. -/
theorem exists_entryAt (h : index < entries.size) :
    (∃ entry, entryAt entries index = .ok entry) ∧
      ∃ entry, entryAt entries (max 0 ((index : Int) - 1)) = .ok entry :=
  ⟨⟨_, entryAt_eq (by omega) (by omega)⟩, ⟨_, entryAt_eq (by omega) (by omega)⟩⟩

/-- The search of a table is exact.  Whatever the table, it ends without reading past it, and what
it finds is an index of the table, at which and before which entries can be read.  On a table in
order it finds the least index of an entry after the time, and nothing exactly if no entry is. -/
theorem firstAfter_exact (key : α → Int) (entries : Array α) (x : Int) :
    checkedFirstAfter key entries x = .ok ((firstAfter key entries x).map Fin.val) ∧
      (∀ index : Nat, checkedFirstAfter key entries x = .ok (some index) →
        index < entries.size ∧ (∃ entry, entryAt entries index = .ok entry) ∧
          ∃ entry, entryAt entries (max 0 ((index : Int) - 1)) = .ok entry) ∧
      (KeysInOrder key entries →
        (∀ index : Nat, checkedFirstAfter key entries x = .ok (some index) ↔
          IsLeast {i : Nat | ∃ hi : i < entries.size, x < key entries[i]} index) ∧
        (checkedFirstAfter key entries x = .ok none ↔
          ∀ i (hi : i < entries.size), key entries[i] ≤ x)) := by
  refine ⟨checkedFirstAfter_eq, fun index h => ?inTable, fun h => ⟨fun index => ?least, ?nothing⟩⟩
  case inTable =>
    have hindex := lt_of_checkedFirstAfter h
    exact ⟨hindex, exists_entryAt hindex⟩
  case least =>
    rw [checkedFirstAfter_eq, Except.ok.injEq]
    exact firstAfter_isLeast_iff h
  case nothing =>
    rw [checkedFirstAfter_eq, Except.ok.injEq, Option.map_eq_none_iff]
    exact firstAfter_eq_none_iff h

-- Of several entries with the same key the last is passed, and behind the last entry is nothing.
example :
    (firstAfter id #[4, 6, 6, 9] 6).map Fin.val = some 3 ∧ firstAfter id #[4, 6] 6 = none := by
  cbv

end CivilTime
