import CivilTime.Binary.Nearest

/-!
# The shortest decimal

The decimal with the fewest digits to which a floating-point number is the
nearest one, and among those the decimal nearest to it.

For one digit, two digits and so on, only the two decimals around the number
can be the one (`neighbours`); the first count of digits at which one of them
reads back decides.  Seventeen digits are always enough.
-/

namespace CivilTime.Binary

/-- The decimal `digits * 10 ^ exponent`. -/
structure Decimal where
  digits : Nat
  exponent : Int
  deriving DecidableEq, Repr

namespace Decimal

/-- The word of the number nearest to a decimal. -/
def word (d : Decimal) : Nat :=
  nearestWord (d.digits * Nat.pow 10 d.exponent.toNat) (Nat.pow 10 (-d.exponent).toNat)

/-- Among two decimals of the same length, side by side around a number of
units, the nearer one, and the even one if both are equally near. -/
def nearer (low high : Decimal) (units : Nat) : Decimal :=
  let twice := 2 * units * Nat.pow 10 (-low.exponent).toNat
  let middle := (low.digits + high.digits) * unitsPerOne * Nat.pow 10 low.exponent.toNat
  if twice < middle ∨ (twice = middle ∧ low.digits % 2 = 0) then low else high

end Decimal

/-- The digits of a whole number. -/
def digitCount (n : Nat) : Nat :=
  (Nat.toDigits 10 n).length

/-- The least exponent of a power of ten above a positive number of units. -/
def decimalPosition (units : Nat) : Int :=
  if unitsPerOne ≤ units then digitCount (units / unitsPerOne)
  else 1 - (digitCount ((unitsPerOne - 1) / units) : Int)

/-- The two decimals with a given exponent around a number of units. -/
def neighbours (units : Nat) (exponent : Int) : Decimal × Decimal :=
  let low := units * Nat.pow 10 (-exponent).toNat / (unitsPerOne * Nat.pow 10 exponent.toNat)
  (⟨low, exponent⟩, ⟨low + 1, exponent⟩)

/-- The decimal with a given exponent that reads back as a word. -/
def readingBack? (word : Nat) (exponent : Int) : Option Decimal :=
  let units := magnitudeUnits word
  let (low, high) := neighbours units exponent
  if low.word = word then
    if high.word = word then some (low.nearer high units) else some low
  else if high.word = word then some high
  else none

/-- The shortest decimal that reads back as the word of a positive finite
number. -/
def shortest (word : Nat) : Decimal :=
  let units := magnitudeUnits word
  let position := decimalPosition units
  let found := (List.range 17).findSome? fun fewer : Nat =>
    readingBack? word (position - fewer - 1)
  found.getD ⟨units * Nat.pow 5 1074, -1074⟩

end CivilTime.Binary
