import CivilTime.Binary.Checked
import CivilTime.Text.Decimal
import CivilTime.Text.Quoted

/-!
# Numbers of scripts

The three kinds of number in a script: whole numbers of any size, truth
values, which count as one and zero, and floating-point numbers.

Numbers of all kinds are compared by their exact value (`Number.units`).
Arithmetic stays with whole numbers where it can; as soon as one operand is a
floating-point number, the other is rounded to one.
-/

namespace CivilTime.Script

/-- A number of a script. -/
inductive Number where
  | whole (n : Int)
  | truth (b : Bool)
  | binary (x : Float)
  deriving Repr, Inhabited

namespace Number

/-- The name of the kind of number. -/
def kind : Number → String
  | whole _ => "int"
  | truth _ => "bool"
  | binary _ => "float"

/-- The written form. -/
def written : Number → String
  | whole n => toString n
  | truth b => Text.truth b
  | binary x => Text.binary x

/-- The written form with zeros in front, up to `width` characters.  Truth
values are written as numbers here. -/
def padded (width : Nat) : Number → String
  | whole n => Text.padded width n
  | truth b => Text.padded width b.toNat
  | binary x => Text.zeroFilled width (Text.binary x)

/-- The whole number that a number of another kind than floating-point
stands for. -/
def whole? : Number → Option Int
  | whole n => some n
  | truth b => some b.toNat
  | binary _ => none

/-- The fault of a floating-point number where a whole number is needed, also
if it has no fraction. -/
def notWhole : Failure :=
  .integerKind "float"

/-- The whole number that a number stands for. -/
def index (n : Number) : Except Failure Int :=
  match n.whole? with
  | some n => .ok n
  | none => .error notWhole

/-! ## Exact values -/

/-- The exact value, counted in the smallest floating-point number. -/
def units : Number → Int
  | whole n => n * Binary.unitsPerOne
  | truth b => b.toNat * Binary.unitsPerOne
  | binary x => Binary.units x

/-- Whether two numbers have the same value. -/
def sameAs (m n : Number) : Bool :=
  m.units = n.units

/-- Whether a number is less than another. -/
def before (m n : Number) : Bool :=
  m.units < n.units

/-- Whether a number is zero. -/
def isZero (n : Number) : Bool :=
  n.units = 0

/-- The greatest whole number that is not above a number. -/
def floor (n : Number) : Int :=
  n.units / Binary.unitsPerOne

/-! ## Arithmetic -/

/-- The nearest floating-point number. -/
def toBinary : Number → Except Failure Float
  | binary x => .ok x
  | whole n => Binary.ofWhole n
  | truth b => Binary.ofWhole b.toNat

/-- Combine two numbers, by one operation if both are whole and else by
another. -/
def combine (wholes : Int → Int → Int) (binaries : Float → Float → Float) (m n : Number) :
    Except Failure Number :=
  match m.whole?, n.whole? with
  | some m, some n => .ok (.whole (wholes m n))
  | _, _ => do
    let x ← m.toBinary
    return .binary (binaries x (← n.toBinary))

/-- The sum of two numbers. -/
def add : Number → Number → Except Failure Number :=
  combine (· + ·) (· + ·)

/-- The difference of two numbers. -/
def subtract : Number → Number → Except Failure Number :=
  combine (· - ·) (· - ·)

/-- The product of two numbers. -/
def multiply : Number → Number → Except Failure Number :=
  combine (· * ·) (· * ·)

/-- The opposite of a number. -/
def opposite : Number → Number
  | whole n => .whole (-n)
  | truth b => .whole (-(b.toNat : Int))
  | binary x => .binary (-x)

end Number

end CivilTime.Script
