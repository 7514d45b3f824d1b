/-!
# The nearest binary fraction

Floating-point numbers of 64 bits as exact values, and the one of them that
is nearest to a fraction of whole numbers.

* Every finite number is a whole multiple of the smallest one, 2^-1074.
  `units` counts that multiple, so that numbers can be compared exactly.
* `roundedQuotient` is the whole number nearest to a quotient.
  `roundedQuotient_le` and `le_roundedQuotient` say that it is at most a half
  away, and `even_roundedQuotient` that a half goes to the even neighbour.
* `nearestWord` is the word of the number nearest to a fraction, and
  `nearest?` the number itself, where it is not too large.

The words of positive numbers are in the order of the numbers, and a
significand that rounds up to the next power of two carries into the
exponent.  This is why a word is the sum of its two parts.
-/

namespace CivilTime.Binary

/-- The least word above those of the finite positive numbers. -/
def infinityWord : Nat := 0x7ff0000000000000

/-- The bit that the word of a negative number has besides its magnitude. -/
def signWord : Nat := 0x8000000000000000

/-- The significands of one exponent. -/
def significands : Nat := 0x10000000000000

/-- The units in the number one. -/
def unitsPerOne : Nat := Nat.pow 2 1074

/-! ## Exact values -/

/-- Whether a number has the sign of negative numbers, which a zero may have
as well. -/
def isNegative (x : Float) : Bool :=
  signWord ≤ x.toBits.toNat

/-- The word of a number without its sign. -/
def magnitude (x : Float) : Nat :=
  x.toBits.toNat % signWord

/-- The units in the number of a word without sign. -/
def magnitudeUnits (word : Nat) : Nat :=
  let exponent := word / significands
  let fraction := word % significands
  if exponent = 0 then fraction else (significands + fraction) * Nat.pow 2 (exponent - 1)

/-- The units in a finite number. -/
def units (x : Float) : Int :=
  if isNegative x then -(magnitudeUnits (magnitude x) : Int) else magnitudeUnits (magnitude x)

/-! ## Rounding -/

/-- The whole number nearest to `num / den`, and of two that are equally near
the even one. -/
def roundedQuotient (num den : Nat) : Nat :=
  let quotient := num / den
  let rest := 2 * (num % den)
  if den < rest ∨ (den = rest ∧ quotient % 2 = 1) then quotient + 1 else quotient

/-- The greatest exponent of a power of two that is not above `num / den`,
for positive numbers. -/
def binaryLog (num den : Nat) : Int :=
  let guess : Int := (Nat.log2 num : Int) - Nat.log2 den
  if den * Nat.pow 2 guess.toNat ≤ num * Nat.pow 2 (-guess).toNat then guess else guess - 1

/-- The word of the number nearest to `num / den`, of two that are equally
near the one with the even significand.  A word that is not below
`infinityWord` says that the fraction is too large. -/
def nearestWord (num den : Nat) : Nat :=
  if num = 0 then 0
  else
    let unit : Int := max (binaryLog num den - 52) (-1074)
    (unit + 1074).toNat * significands +
      roundedQuotient (num * Nat.pow 2 (-unit).toNat) (den * Nat.pow 2 unit.toNat)

/-- The number nearest to `num / den`. -/
def nearest? (num : Int) (den : Nat) : Option Float :=
  let word := nearestWord num.natAbs den
  if infinityWord ≤ word then none
  else some (Float.ofBits (UInt64.ofNat (if num < 0 then signWord + word else word)))

/-! ## Laws of rounding -/

theorem roundedQuotient_le (num den : Nat) (hpositive : 0 < den) :
    2 * (den * roundedQuotient num den) ≤ 2 * num + den := by
  have hsplit := Nat.div_add_mod num den
  have hbelow := Nat.mod_lt num hpositive
  simp only [roundedQuotient]
  split
  · rw [Nat.mul_add]
    omega
  · omega

theorem le_roundedQuotient (num den : Nat) (hpositive : 0 < den) :
    2 * num ≤ 2 * (den * roundedQuotient num den) + den := by
  have hsplit := Nat.div_add_mod num den
  have hbelow := Nat.mod_lt num hpositive
  simp only [roundedQuotient]
  split
  · rw [Nat.mul_add]
    omega
  · omega

theorem even_roundedQuotient (num den : Nat) (hhalf : 2 * (num % den) = den) :
    roundedQuotient num den % 2 = 0 := by
  simp only [roundedQuotient, hhalf, Nat.lt_irrefl, true_and, false_or]
  split <;> omega

end CivilTime.Binary
