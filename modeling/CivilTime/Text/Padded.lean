/-!
# Padded numbers

Whole numbers written with leading zeros up to a width.  A minus sign counts
toward the width.
-/

namespace CivilTime.Text

/-- The decimal digits of a number, with zeros in front up to `width`. -/
def paddedNat (width n : Nat) : String :=
  let digits := Nat.toDigits 10 n
  String.ofList (List.replicate (width - digits.length) '0' ++ digits)

/-- A whole number with zeros in front, up to `width` characters. -/
def padded (width : Nat) (n : Int) : String :=
  if n < 0 then "-" ++ paddedNat (width - 1) n.natAbs else paddedNat width n.natAbs

/-- The text of a number with zeros in front of its first digit, up to `width`
characters. -/
def zeroFilled (width : Nat) (text : String) : String :=
  let zeros := List.replicate (width - text.length) '0'
  match text.toList with
  | '-' :: digits => String.ofList ('-' :: (zeros ++ digits))
  | digits => String.ofList (zeros ++ digits)

/-- A whole number with its sign, a plus sign included. -/
def signed (n : Int) : String :=
  if n < 0 then "-" ++ paddedNat 0 n.natAbs else "+" ++ paddedNat 0 n.natAbs

/-- The hexadecimal digits of a number, with zeros in front up to `width`. -/
def paddedHex (width n : Nat) : String :=
  let digits := Nat.toDigits 16 n
  String.ofList (List.replicate (width - digits.length) '0' ++ digits)

end CivilTime.Text
