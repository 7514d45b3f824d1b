import CivilTime.Zone.Data
import CivilTime.ZoneFile.Header
import CivilTime.ZoneRule.Reader

/-!
# Decoding zone files

The binary form of zone data.  A file is a block with 32-bit times; from
version 2 on, a second block with 64-bit times follows and replaces it, and
after that a zone rule on a line of its own.

* `Block` is what a block records: its times, for each time the index of its
  type, and the types.
* `exactEntries` and `wallEntries` are the two tables of the zone.
* `decode` reads a whole file.

Counts that do not fit the data are faults of the layout, except for the
indices: transitions without one are left out.
-/

namespace CivilTime.ZoneFile

/-- A kind of local time in a zone: its offset, and whether it is daylight
time. -/
structure TimeType where
  offset : Int
  isDaylight : Bool
  deriving DecidableEq, Repr

/-- The contents of a block. -/
structure Block where
  times : List Int
  indices : List UInt8
  types : List TimeType
  deriving DecidableEq, Repr

/-- Read a number of times, each `width` bytes long. -/
def readTimes (width : Nat) (count : Int) (bytes : List UInt8) :
    Except Failure (List Int × List UInt8) :=
  if count < 0 then .error .fileLayout
  else
    let (block, rest) := takeBytes (width * count) bytes
    if (block.length : Int) ≠ width * count then .error .fileLayout
    else .ok (signedValues width count.toNat block, rest)

/-- Read types, six bytes to each: the offset, the daylight mark, and the
index of a name, which is not used. -/
def typesOf : List UInt8 → Except Failure (List TimeType)
  | [] => .ok []
  | a :: b :: c :: d :: daylight :: _ :: rest => do
    let types ← typesOf rest
    return ⟨signedValue [a, b, c, d], daylight ≠ 0⟩ :: types
  | _ => .error .fileLayout

/-- Read the contents of a block after its header, up to the names. -/
def readBlock (width : Nat) (h : Header) (bytes : List UInt8) :
    Except Failure (Block × List UInt8) := do
  let (times, rest) ← readTimes width h.times bytes
  let (indices, rest) := takeBytes h.times rest
  let (typeBytes, rest) := takeBytes (6 * h.types) rest
  let types ← typesOf typeBytes
  return ({ times, indices, types }, (takeBytes h.nameBytes rest).2)

/-- The transitions of a block by exact time, each with the type that its
index names. -/
def transitions (types : List TimeType) : List (Int × UInt8) → Except Failure (List ExactEntry)
  | [] => .ok []
  | (since, index) :: rest =>
    match types[index.toNat]? with
    | none => .error .fileType
    | some type => do
      let entries ← transitions types rest
      return ⟨since, type.offset, type.isDaylight⟩ :: entries

/-- The table of a block by exact time.  The first type holds before the
first transition; without types there is no table. -/
def exactEntries (block : Block) : Except Failure (List ExactEntry) :=
  match block.types with
  | [] => .ok []
  | first :: _ => do
    let entries ← transitions block.types (block.times.zip block.indices)
    return ⟨firstSecond, first.offset, first.isDaylight⟩ :: entries

/-- The table by local time of the entries after one with the offset
`before`. -/
def wallEntriesAfter (before : Int) : List ExactEntry → List WallEntry
  | [] => []
  | entry :: rest =>
    { limit := clampSecond (entry.since + max before entry.offset)
      offset := before
      change := entry.offset - before } :: wallEntriesAfter entry.offset rest

/-- The table by local time that belongs to a table by exact time. -/
def wallEntries : List ExactEntry → List WallEntry
  | [] => []
  | first :: rest => wallEntriesAfter first.offset rest

/-- The characters of ASCII bytes. -/
def asciiText (bytes : List UInt8) : Except Failure (List Char) :=
  if bytes.all (· < 128) then .ok (bytes.map fun byte => Char.ofNat byte.toNat)
  else .error .fileRuleBytes

/-- Read the rule on the last line of a file.  An empty line is none. -/
def readRule (h : Header) (bytes : List UInt8) : Except Failure (Option ZoneRule) := do
  let line := (takeBytes h.tailSize bytes).2.takeWhile (· ≠ 0x0a)
  if line.isEmpty then return none
  let text ← asciiText line
  let rule ← (ZoneRule.read text).mapError Failure.rule
  return some rule

/-- The zone of a table by exact time and a rule, if there is either. -/
def zoneOf (key : Option String) (entries : List ExactEntry) (rule : Option ZoneRule) :
    Except Failure ZoneData :=
  if hknown : entries.toArray.size ≠ 0 ∨ rule.isSome then
    .ok
      { key
        exactTable := entries.toArray
        wallTable := (wallEntries entries).toArray
        rule
        known := hknown }
  else .error .fileEmpty

/-- Read the block that counts: the first one in version 1, and else the one
after it, with its times brought into the calendar. -/
def readZone (bytes : List UInt8) : Except Failure (Header × Block × List UInt8) := do
  let (first, rest) ← readHeader bytes
  if first.version < 2 then
    let (block, rest) ← readBlock 4 first rest
    return (first, block, rest)
  else
    let (second, rest) ← readHeader (takeBytes first.blockSize rest).2
    let (block, rest) ← readBlock 8 second rest
    return (second, { block with times := block.times.map clampSecond }, rest)

/-- The zone in the bytes of a file. -/
def decode (key : Option String) (bytes : List UInt8) : Except Failure ZoneData := do
  let (header, block, rest) ← readZone bytes
  let entries ← exactEntries block
  let rule ← if header.version < 2 then pure none else readRule header rest
  zoneOf key entries rule

end CivilTime.ZoneFile
