import CivilTime.Binary.Shortest
import CivilTime.Text.Padded

/-!
# Decimal fractions

The written form of a floating-point number: the fewest digits that read back
as the number, positional from 0.0001 up to below 10^16, with at least one
digit on both sides of the point, and else one digit before the point and an
exponent of ten.
-/

namespace CivilTime.Text

/-- The digits of a number without the zeros at its end. -/
def significantDigits (n : Nat) : List Char :=
  ((Nat.toDigits 10 n).reverse.dropWhile (· = '0')).reverse

/-- Digits with the point after the first `position` of them, zeros filling
up either side. -/
def positional (digits : List Char) (position : Int) : String :=
  if position ≤ 0 then
    "0." ++ String.ofList (List.replicate (-position).toNat '0' ++ digits)
  else
    let whole := digits.take position.toNat
    let zeros := List.replicate (position.toNat - whole.length) '0'
    let fraction := digits.drop position.toNat
    String.ofList (whole ++ zeros) ++ "." ++
      if fraction.isEmpty then "0" else String.ofList fraction

/-- Digits with the point after the first of them, and the exponent of ten
that makes up for it. -/
def scientific (digits : List Char) (exponent : Int) : String :=
  let fraction := digits.drop 1
  let sign := if exponent < 0 then "-" else "+"
  String.ofList (digits.take 1) ++
    (if fraction.isEmpty then "" else "." ++ String.ofList fraction) ++
    "e" ++ sign ++ paddedNat 2 exponent.natAbs

/-- The written form of a decimal. -/
def decimal (d : Binary.Decimal) : String :=
  let digits := significantDigits d.digits
  let position : Int := Binary.digitCount d.digits + d.exponent
  if -4 < position ∧ position ≤ 16 then positional digits position
  else scientific digits (position - 1)

/-- The written form of a floating-point number. -/
def binary (x : Float) : String :=
  let word := Binary.magnitude x
  let sign := if Binary.isNegative x then "-" else ""
  if Binary.infinityWord < word then "nan"
  else if word = Binary.infinityWord then sign ++ "inf"
  else if word = 0 then sign ++ "0.0"
  else sign ++ decimal (Binary.shortest word)

end CivilTime.Text
