import CivilTime.Script.Number

/-!
# Plain values

Values of a script that are no zones, instants or deltas: numbers, texts,
lists and records.  Where an operation needs one kind of value and gets
another, its message shows the value, so every plain value has a written form
and a kind.

* `Plain.sameAs` compares numbers by their value, lists item by item, and
  records field by field in any order.
* `Plain.unordered?` finds out whether two values have an order, and if not,
  which two parts of them have none.
-/

namespace CivilTime.Script

/-- A value of a script that has no meaning in time by itself. -/
inductive Plain where
  | null
  | number (n : Number)
  | text (s : String)
  | list (items : List Plain)
  | record (fields : List (String × Plain))
  deriving Repr, Inhabited

namespace Plain

/-- A whole number. -/
@[match_pattern] abbrev int (n : Int) : Plain := .number (.whole n)

/-- A truth value. -/
@[match_pattern] abbrev bool (b : Bool) : Plain := .number (.truth b)

/-- The name of the kind of value. -/
def kind : Plain → String
  | null => "NoneType"
  | number n => n.kind
  | text _ => "str"
  | list _ => "list"
  | record _ => "dict"

/-- The texts of a list of texts. -/
def texts (names : List String) : Plain :=
  list (names.map text)

/-! ## Written form -/

mutual

/-- The written form. -/
def written : Plain → String
  | null => "None"
  | number n => n.written
  | text s => Text.quoted s
  | list items => "[" ++ ", ".intercalate (writtenItems items) ++ "]"
  | record fields => "\x7b" ++ ", ".intercalate (writtenFields fields) ++ "\x7d"

/-- The written forms of the items of a list. -/
def writtenItems : List Plain → List String
  | [] => []
  | item :: items => item.written :: writtenItems items

/-- The written forms of the fields of a record. -/
def writtenFields : List (String × Plain) → List String
  | [] => []
  | (name, value) :: fields =>
    (Text.quoted name ++ ": " ++ value.written) :: writtenFields fields

end

/-- Whether a value counts as true: all but null, zero and what is empty. -/
def isTruthy : Plain → Bool
  | null => false
  | number n => !n.isZero
  | text s => !s.isEmpty
  | list items => !items.isEmpty
  | record fields => !fields.isEmpty

/-! ## Comparing plain values -/

mutual

/-- Whether two values are equal: numbers by their value, and others part by
part. -/
def sameAs : Plain → Plain → Bool
  | null, null => true
  | number m, number n => m.sameAs n
  | text s, text t => s = t
  | list xs, list ys => sameItems xs ys
  | record xs, record ys => xs.length = ys.length && sameFields xs ys
  | _, _ => false

/-- Whether two lists are equal item by item. -/
def sameItems : List Plain → List Plain → Bool
  | [], [] => true
  | x :: xs, y :: ys => x.sameAs y && sameItems xs ys
  | _, _ => false

/-- Whether a record has the fields of another. -/
def sameFields : List (String × Plain) → List (String × Plain) → Bool
  | [], _ => true
  | (name, x) :: xs, ys =>
    (match ys.lookup name with
      | some y => x.sameAs y
      | none => false) && sameFields xs ys

end

mutual

/-- The kinds of two parts that keep two values from having an order.
Numbers have an order, and so have texts; lists are ordered by the first
items that differ. -/
def unordered? : Plain → Plain → Option (String × String)
  | number _, number _ => none
  | text _, text _ => none
  | list xs, list ys => unorderedItems? xs ys
  | x, y => some (x.kind, y.kind)

/-- The kinds of two parts that keep two lists from having an order. -/
def unorderedItems? : List Plain → List Plain → Option (String × String)
  | x :: xs, y :: ys => if x.sameAs y then unorderedItems? xs ys else unordered? x y
  | _, _ => none

end

end Plain

end CivilTime.Script
