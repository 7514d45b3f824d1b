import CivilTime.Zone.Search

/-!
# Binary search finds the first entry after

On a table in the order of its keys, the search of `firstAfter` gives what a
scan from the front would give.

* `searchWindow_partition` is the invariant of the search: what lies before
  the window is not after the number, and what lies behind it is.
* `firstAfter_eq_some_iff` and `firstAfter_eq_none_iff` say what is found.
* `firstAfter_findIdx?` and `firstAfter_find?` compare the search with the
  scan of a list.
-/

namespace CivilTime

variable {α : Type} {key : α → Int} {entries : Array α} {x : Int}

/-- The keys of a table do not decrease. -/
def KeysInOrder (key : α → Int) (entries : Array α) : Prop :=
  ∀ i j (hi : i < entries.size) (hj : j < entries.size), i ≤ j → key entries[i] ≤ key entries[j]

theorem keysInOrder_of_pairwise (h : entries.toList.Pairwise fun a b => key a ≤ key b) :
    KeysInOrder key entries := by
  intro i j hi hj hij
  rcases Nat.lt_or_eq_of_le hij with hlt | rfl
  · exact List.pairwise_iff_getElem.1 h i j hi hj hlt
  · exact Int.le_refl _

/-- The search splits the table where the keys pass the number, if its window
does so at both ends. -/
theorem searchWindow_partition (h : KeysInOrder key entries) (left right : Nat)
    (hright : right ≤ entries.size) (hwindow : left ≤ right)
    (hbefore : ∀ i (hi : i < entries.size), i < left → key entries[i] ≤ x)
    (hafter : ∀ i (hi : i < entries.size), right ≤ i → x < key entries[i]) :
    ∀ i (hi : i < entries.size),
      (i < searchWindow key entries x left right hright ↔ key entries[i] ≤ x) := by
  fun_induction searchWindow key entries x left right hright with
  | case1 left right hright hlt middle hmiddle hle ih =>
    refine ih (by omega) (fun i hi hlow => ?_) hafter
    have hkey := h i middle hi hmiddle (by omega)
    omega
  | case2 left right hright hlt middle hmiddle hgt ih =>
    refine ih (by omega) hbefore (fun i hi hhigh => ?_)
    have hkey := h middle i hmiddle hi hhigh
    omega
  | case3 left right hright hclosed =>
    intro i hi
    refine ⟨hbefore i hi, fun hle => Nat.not_le.1 fun hge => ?_⟩
    exact absurd (hafter i hi (by omega)) (Int.not_lt.2 hle)

/-- The search over the whole table. -/
theorem searchWindow_lt_iff (h : KeysInOrder key entries) (i : Nat) (hi : i < entries.size) :
    i < searchWindow key entries x 0 entries.size (Nat.le_refl _) ↔ key entries[i] ≤ x :=
  searchWindow_partition h 0 entries.size (Nat.le_refl _) (Nat.zero_le _)
    (fun _ _ hlow => absurd hlow (Nat.not_lt_zero _)) (fun _ hi' hhigh => by omega) i hi

theorem firstAfter_eq_some_iff (h : KeysInOrder key entries) (index : Fin entries.size) :
    firstAfter key entries x = some index ↔
      x < key entries[index] ∧ ∀ i (hi : i < index.val), key entries[i] ≤ x := by
  have hsearch := fun i hi => @searchWindow_lt_iff α key entries x h i hi
  unfold firstAfter
  dsimp only
  constructor
  · intro hfound
    split at hfound
    · cases hfound
      refine ⟨Int.not_le.1 fun hle => ?_, fun i hi => (hsearch i (by omega)).1 hi⟩
      exact absurd ((hsearch _ _).2 hle) (Nat.lt_irrefl _)
    · contradiction
  · rintro ⟨hgt, hbefore⟩
    have hle : searchWindow key entries x 0 entries.size (Nat.le_refl _) ≤ index.val := by
      refine Nat.not_lt.1 fun hlt => ?_
      exact absurd hgt (Int.not_lt.2 ((hsearch index.val index.isLt).1 hlt))
    have hge : index.val ≤ searchWindow key entries x 0 entries.size (Nat.le_refl _) := by
      refine Nat.not_lt.1 fun hlt => ?_
      exact absurd ((hsearch _ (by omega)).2 (hbefore _ hlt)) (Nat.lt_irrefl _)
    have hsame := Nat.le_antisymm hle hge
    rw [dif_pos (by rw [hsame]; exact index.isLt)]
    exact congrArg some (Fin.ext hsame)

theorem firstAfter_eq_none_iff (h : KeysInOrder key entries) :
    firstAfter key entries x = none ↔ ∀ i (hi : i < entries.size), key entries[i] ≤ x := by
  have hsearch := fun i hi => @searchWindow_lt_iff α key entries x h i hi
  have hbounds := searchWindow_bounds key entries x 0 entries.size (Nat.le_refl _) (Nat.zero_le _)
  unfold firstAfter
  dsimp only
  constructor
  · intro hnone i hi
    split at hnone
    · contradiction
    · exact (hsearch i hi).1 (by omega)
  · intro hall
    rw [dif_neg]
    intro hlt
    exact absurd ((hsearch _ hlt).2 (hall _ hlt)) (Nat.lt_irrefl _)

theorem firstAfter_empty : firstAfter key #[] x = none := by
  rw [firstAfter, searchWindow]
  rfl

/-! ## Scanning a list -/

/-- The search finds the index that a scan finds. -/
theorem firstAfter_findIdx? (h : entries.toList.Pairwise fun a b => key a ≤ key b) :
    (firstAfter key entries x).map Fin.val = entries.toList.findIdx? fun a => x < key a := by
  have horder := keysInOrder_of_pairwise h
  cases hfound : firstAfter key entries x with
  | none =>
    have hall := (firstAfter_eq_none_iff horder).1 hfound
    symm
    rw [Option.map_none, List.findIdx?_eq_none_iff]
    intro a ha
    obtain ⟨i, hi, rfl⟩ := List.getElem_of_mem ha
    exact decide_eq_false (Int.not_lt.2 (hall i hi))
  | some index =>
    obtain ⟨hgt, hbefore⟩ := (firstAfter_eq_some_iff horder index).1 hfound
    symm
    rw [Option.map_some, List.findIdx?_eq_some_iff_getElem]
    refine ⟨index.isLt, decide_eq_true hgt, fun j hj => ?_⟩
    rw [decide_eq_true_iff]
    exact Int.not_lt.2 (hbefore j hj)

/-- The search finds the entry that a scan finds. -/
theorem firstAfter_find? (h : entries.toList.Pairwise fun a b => key a ≤ key b) :
    (firstAfter key entries x).map (entries[·]) = entries.toList.find? fun a => x < key a := by
  have horder := keysInOrder_of_pairwise h
  cases hfound : firstAfter key entries x with
  | none =>
    have hall := (firstAfter_eq_none_iff horder).1 hfound
    symm
    rw [Option.map_none, List.find?_eq_none]
    intro a ha
    obtain ⟨i, hi, rfl⟩ := List.getElem_of_mem ha
    rw [decide_eq_true_iff]
    exact Int.not_lt.2 (hall i hi)
  | some index =>
    obtain ⟨hgt, hbefore⟩ := (firstAfter_eq_some_iff horder index).1 hfound
    symm
    rw [Option.map_some, List.find?_eq_some_iff_getElem]
    refine ⟨decide_eq_true hgt, index.val, index.isLt, rfl, fun j hj => ?_⟩
    rw [Bool.not_eq_true', decide_eq_false_iff_not]
    exact Int.not_lt.2 (hbefore j hj)

end CivilTime
