import CivilTime.Text.Quoted

/-!
# Notes

What an operation reports while it runs, beside its result: loads of zones,
clearings of the cache, and the corrections of differences for transitions.
-/

namespace CivilTime

/-- A report of an operation. -/
inductive Note where
  /-- A zone was read from a file of a number of bytes. -/
  | loaded (key : String) (size : Nat)
  /-- All cached zones were dropped. -/
  | clearedAll
  /-- The cached zones of some keys were dropped; the keys as they are
  written. -/
  | clearedKeys (shown : List String)
  /-- Hours and minutes taken off a difference across the end of daylight
  time. -/
  | backward (hours minutes : Int)
  /-- Hours and minutes taken off a difference across the begin of daylight
  time. -/
  | forward (hours minutes : Int)
  /-- A difference that ends some seconds before a transition counts its last
  day in hours. -/
  | endsBefore (seconds : Int)
  deriving DecidableEq, Repr

namespace Note

/-- Several texts between parentheses; a single one keeps a comma. -/
def groupText : List String → String
  | [single] => "(" ++ single ++ ",)"
  | texts => "(" ++ ", ".intercalate texts ++ ")"

/-- The wording of a note. -/
def text : Note → String
  | loaded key size =>
    "Loaded timezone " ++ Text.quoted key ++ " (" ++ toString size ++ " bytes)"
  | clearedAll => "Clearing the timezone cache"
  | clearedKeys shown => "Clearing timezone cache entries: " ++ groupText shown
  | backward hours minutes =>
    "Backward transition correction of " ++ Text.signed hours ++ ":" ++ Text.padded 2 minutes
  | forward hours minutes =>
    "Forward transition correction of " ++ Text.signed hours ++ ":" ++ Text.padded 2 minutes
  | endsBefore seconds =>
    "Span ends " ++ toString seconds ++ "s before a transition; counting 24 hours"

end Note

end CivilTime
