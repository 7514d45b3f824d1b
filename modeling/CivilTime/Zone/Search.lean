/-!
# Searching ordered tables

Binary search for the first entry of a table whose key lies after a given
number.  The result is an index into the table, whatever the order of its
entries; on a table in order of its keys it is the least such index.
-/

namespace CivilTime

/-- Search the window from `left` up to `right`. -/
def searchWindow {α : Type} (key : α → Int) (entries : Array α) (x : Int) (left right : Nat)
    (hright : right ≤ entries.size) : Nat :=
  if hlt : left < right then
    let middle := (left + right) / 2
    have hmiddle : middle < entries.size := by omega
    if key entries[middle] ≤ x then searchWindow key entries x (middle + 1) right hright
    else searchWindow key entries x left middle (by omega)
  else left
termination_by right - left

/-- The first entry whose key lies after `x`, if there is one. -/
def firstAfter {α : Type} (key : α → Int) (entries : Array α) (x : Int) :
    Option (Fin entries.size) :=
  let index := searchWindow key entries x 0 entries.size (Nat.le_refl _)
  if hindex : index < entries.size then some ⟨index, hindex⟩ else none

/-- The search stays in its window. -/
theorem searchWindow_bounds {α : Type} (key : α → Int) (entries : Array α) (x : Int)
    (left right : Nat) (hright : right ≤ entries.size) (hordered : left ≤ right) :
    left ≤ searchWindow key entries x left right hright ∧
      searchWindow key entries x left right hright ≤ right := by
  fun_induction searchWindow key entries x left right hright with
  | case1 left right hright hlt middle _ hle ih =>
    have hbounds := ih (by omega)
    omega
  | case2 left right hright hlt middle _ hgt ih =>
    have hbounds := ih (by omega)
    omega
  | case3 left right hright hclosed => exact ⟨Nat.le_refl _, hordered⟩

end CivilTime
