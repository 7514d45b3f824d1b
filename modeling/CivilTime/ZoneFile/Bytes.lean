/-!
# Reading bytes

Bytes taken from the front of what is left of a file, and whole numbers in
them with the highest byte first.
-/

namespace CivilTime.ZoneFile

/-- Take bytes from the front: as many as asked for, or as many as are left.
A negative count takes all. -/
def takeBytes (count : Int) (bytes : List UInt8) : List UInt8 × List UInt8 :=
  if count < 0 then (bytes, []) else bytes.splitAt count.toNat

/-- The number that bytes stand for, the highest byte first. -/
def unsignedValue (bytes : List UInt8) : Nat :=
  bytes.foldl (fun value byte => 256 * value + byte.toNat) 0

/-- The number that bytes stand for in two's complement. -/
def signedValue (bytes : List UInt8) : Int :=
  let value := unsignedValue bytes
  let range := Nat.pow 256 bytes.length
  if 2 * value < range then value else (value : Int) - range

/-- The numbers in bytes, `width` bytes to each. -/
def signedValues (width : Nat) : Nat → List UInt8 → List Int
  | 0, _ => []
  | count + 1, bytes =>
    signedValue (bytes.take width) :: signedValues width count (bytes.drop width)

theorem length_signedValues (width count : Nat) (bytes : List UInt8) :
    (signedValues width count bytes).length = count := by
  induction count generalizing bytes with
  | zero => rfl
  | succ count ih => simp [signedValues, ih]

end CivilTime.ZoneFile
