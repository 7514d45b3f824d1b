import CivilTime.Failure
import CivilTime.ZoneFile.Bytes

/-!
# Headers of zone files

A block of a zone file begins with four letters, a version and the counts of
what follows.
-/

namespace CivilTime.ZoneFile

/-- The header of a block.  The counts are those of the file, negative ones
included. -/
structure Header where
  version : Nat
  utcMarks : Int
  standardMarks : Int
  leapSeconds : Int
  times : Int
  types : Int
  nameBytes : Int
  deriving DecidableEq, Repr

namespace Header

/-- The bytes of a version-1 block after its header. -/
def blockSize (h : Header) : Int :=
  h.times * 5 + h.types * 6 + h.nameBytes + h.leapSeconds * 8 + h.standardMarks + h.utcMarks

/-- The bytes between the zone names and the rule at the end of the file:
leap seconds with 64-bit times, the marks, and a line feed. -/
def tailSize (h : Header) : Int :=
  h.utcMarks + h.standardMarks + h.leapSeconds * 12 + 1

end Header

/-- The four letters at the start of a zone file. -/
def magic : List UInt8 := [0x54, 0x5a, 0x69, 0x66]

/-- The version that a byte stands for: a zero byte is version 1, and a digit
is its own version. -/
def versionOf (byte : UInt8) : Option Nat :=
  if byte = 0 then some 1
  else if 0x30 ≤ byte ∧ byte ≤ 0x39 then some (byte.toNat - 0x30)
  else none

/-- Read a header. -/
def readHeader (bytes : List UInt8) : Except Failure (Header × List UInt8) := do
  let (start, rest) := takeBytes 4 bytes
  if start ≠ magic then .error .fileHeader
  match rest with
  | [] => .error .fileHeader
  | byte :: rest =>
    match versionOf byte with
    | none => .error .fileHeader
    | some version =>
      let (counts, rest) := takeBytes 24 (takeBytes 15 rest).2
      if counts.length ≠ 24 then .error .fileHeader
      match signedValues 4 6 counts with
      | [utcMarks, standardMarks, leapSeconds, times, types, nameBytes] =>
        return ({ version, utcMarks, standardMarks, leapSeconds, times, types, nameBytes }, rest)
      | _ => .error .fileHeader

end CivilTime.ZoneFile
