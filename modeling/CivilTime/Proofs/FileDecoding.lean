import CivilTime.Proofs.FileLayout

/-!
# Decoding inverts the layout of zone files

The tables of a zone are made from the block that counts: the first one of a
version-1 file, and else the second one, whose times are brought into the calendar.

* `FileBlock.exactTable` and `wallTableOf` are the two tables that a block stands
  for, if it is `Covered`: it has types, and every index names one.
* `exactEntries_contents` and `wallEntries_eq` say that these tables are computed.
* `decode_bytes` is the result.  Every file is decoded, whatever stands in the
  sections that are not used.
-/

namespace CivilTime.ZoneFile

/-! ## The tables of a block -/

/-- The entry of a period of a type. -/
def entryOf (since : Int) (type : TimeType) : ExactEntry :=
  ⟨since, type.offset, type.isDaylight⟩

/-- The table by local time that belongs to a table by exact time: for each entry
but the first, what it changes in the one before it. -/
def wallTableOf (table : List ExactEntry) : List WallEntry :=
  List.zipWith (fun before entry =>
    { limit := clampSecond (entry.since + max before.offset entry.offset)
      offset := before.offset
      change := entry.offset - before.offset }) table table.tail

namespace FileBlock

variable {width : Nat}

/-- The block has types, and every index of a transition names one. -/
structure Covered (b : FileBlock width) : Prop where
  types : b.types ≠ []
  indices : ∀ t ∈ b.transitions, t.2.toNat < b.types.length

/-- The table by exact time that a block stands for, with a place for each of its
times: the first type, and then the transitions in order. -/
def exactTable (b : FileBlock width) (h : b.Covered) (place : Int → Int) : List ExactEntry :=
  entryOf firstSecond (b.types.head h.types).1 ::
    b.transitions.pmap (fun t (_ : t.2.toNat < b.types.length) =>
      entryOf (place t.1) b.types[t.2.toNat].1) h.indices

end FileBlock

theorem transitions_eq {types : List (TimeType × UInt8)} {ts : List (Int × UInt8)}
    (h : ∀ t ∈ ts, t.2.toNat < types.length) (place : Int → Int) :
    transitions (types.map Prod.fst) (((ts.map Prod.fst).map place).zip (ts.map Prod.snd)) =
      .ok (ts.pmap (fun t (_ : t.2.toNat < types.length) =>
        entryOf (place t.1) types[t.2.toNat].1) h) := by
  induction ts with
  | nil => rfl
  | cons t ts ih =>
    obtain ⟨ht, hts⟩ := List.forall_mem_cons.1 h
    have htype : (types.map Prod.fst)[t.2.toNat]? = some types[t.2.toNat].1 := by
      rw [List.getElem?_map, List.getElem?_eq_getElem ht]
      rfl
    simp only [List.map_cons, List.zip_cons_cons]
    rw [transitions, htype]
    exact bind_eq_ok.2 ⟨_, ih hts, rfl⟩

theorem exactEntries_contents {width : Nat} {b : FileBlock width} (h : b.Covered)
    (place : Int → Int) :
    exactEntries { b.contents with times := b.contents.times.map place } =
      .ok (b.exactTable h place) := by
  have htypes : b.types.map Prod.fst = (b.types.head h.types).1 :: b.types.tail.map Prod.fst := by
    rw [← List.map_cons, List.cons_head_tail]
  have hentries := transitions_eq h.indices place
  unfold exactEntries
  split
  · next hnone => exact absurd (htypes.symm.trans hnone) (List.cons_ne_nil _ _)
  · next first others hfirst =>
    obtain ⟨rfl, -⟩ := List.cons.inj (htypes.symm.trans hfirst)
    exact bind_eq_ok.2 ⟨_, hentries, rfl⟩

theorem wallEntriesAfter_eq (before : ExactEntry) (rest : List ExactEntry) :
    wallEntriesAfter before.offset rest = wallTableOf (before :: rest) := by
  induction rest generalizing before with
  | nil => rfl
  | cons entry rest ih => exact congrArg (List.cons _) (ih entry)

theorem wallEntries_eq (table : List ExactEntry) : wallEntries table = wallTableOf table := by
  cases table with
  | nil => rfl
  | cons first rest => exact wallEntriesAfter_eq first rest

/-! ## Whole files -/

namespace FileContents

/-- The block that counts is covered. -/
def Covered : FileContents → Prop
  | version1 block => block.Covered
  | later _ _ block _ => block.Covered

/-- The table by exact time that a file stands for.  Times of 64 bits are brought
into the calendar. -/
def exactTable : (file : FileContents) → file.Covered → List ExactEntry
  | version1 block, h => block.exactTable h id
  | later _ _ block _, h => block.exactTable h clampSecond

/-- The rule at the end of a file. -/
def endRule : FileContents → Option ZoneRule
  | version1 _ => none
  | later _ _ _ footer => footer.endRule

end FileContents

/-- A table with an entry and a rule make a zone. -/
theorem zoneOf_cons (key : Option String) (first : ExactEntry) (rest : List ExactEntry)
    (rule : Option ZoneRule) :
    ∃ z, zoneOf key (first :: rest) rule = .ok z ∧ z.key = key ∧
      z.exactTable.toList = first :: rest ∧
      z.wallTable.toList = wallTableOf (first :: rest) ∧ z.rule = rule := by
  have hknown : (first :: rest).toArray.size ≠ 0 ∨ rule.isSome := Or.inl (Nat.succ_ne_zero _)
  refine ⟨_, dif_pos hknown, rfl, rfl, ?_, rfl⟩
  exact wallEntries_eq (first :: rest)

/-- Every file whose block that counts is covered is decoded, to the tables that
the block stands for and the rule at the end of the file. -/
theorem decode_bytes (key : Option String) {file : FileContents} (h : file.Covered) :
    ∃ z, decode key file.bytes = .ok z ∧ z.key = key ∧
      z.exactTable.toList = file.exactTable h ∧
      z.wallTable.toList = wallTableOf (file.exactTable h) ∧ z.rule = file.endRule := by
  cases file with
  | version1 block =>
    have hentries : exactEntries block.contents = .ok (block.exactTable h id) := by
      rw [← exactEntries_contents h id, List.map_id]
    obtain ⟨z, hz, hzone⟩ := zoneOf_cons key _ _ none
    refine ⟨z, bind_eq_ok.2 ⟨_, readZone_version1 block, ?_⟩, hzone⟩
    exact bind_eq_ok.2 ⟨_, hentries, bind_eq_ok.2 ⟨none, rfl, hz⟩⟩
  | later version front block footer =>
    obtain ⟨n, hversion, hlater⟩ := exists_versionOf version
    have hwide : ¬ (block.header n).version < 2 := Nat.not_lt.2 hlater
    obtain ⟨z, hz, hzone⟩ := zoneOf_cons key _ _ footer.endRule
    refine ⟨z, bind_eq_ok.2 ⟨_, readZone_later hversion hlater front block _, ?_⟩, hzone⟩
    refine bind_eq_ok.2 ⟨_, exactEntries_contents h clampSecond, ?_⟩
    dsimp only
    rw [if_neg hwide]
    exact bind_eq_ok.2 ⟨_, readRule_footer block n footer, hz⟩

/-- A block that stands in front, with a transition of a type that it does not
have. -/
def frontBlock : FileBlock 4 where
  reserved := List.replicate 15 0
  transitions := [(-1, 7)]
  types := []
  names := [0x58, 0]
  leapSeconds := [[1, 2, 3, 4, 5, 6, 7, 8]]
  standardMarks := [1]
  utcMarks := []
  length_reserved := rfl
  length_leapSecond := by decide
  times_fit := by decide
  offsets_fit := by decide
  counts_fit := by decide

/-- Two transitions, the first long before the calendar, two leap seconds, and marks
of both kinds. -/
def leapBlock : FileBlock 8 where
  reserved := List.replicate 15 0xff
  transitions := [(-9223372036854775808, 1), (1699164000, 0)]
  types := [(⟨-18000, false⟩, 0), (⟨-14400, true⟩, 4)]
  names := [0x45, 0x53, 0x54, 0, 0x45, 0x44, 0x54, 0]
  leapSeconds := [List.replicate 12 0x0a, List.replicate 12 0x54]
  standardMarks := [0, 1]
  utcMarks := [0x0a, 1]
  length_reserved := rfl
  length_leapSecond := by decide
  times_fit := by decide
  offsets_fit := by decide
  counts_fit := by decide

/-- A file of version 3 with these blocks and a rule. -/
def leapFile : FileContents :=
  .later ⟨0x33, by decide⟩ frontBlock leapBlock (.rule "EST5" ⟨-18000, none⟩ rfl (by decide))

theorem decode_bytes_leapFile :
    leapFile.Covered ∧ ∃ z, decode (some "Lost/Leap") leapFile.bytes = .ok z ∧
      z.key = some "Lost/Leap" ∧
      z.exactTable.toList = [⟨firstSecond, -18000, false⟩, ⟨firstSecond, -14400, true⟩,
        ⟨1699164000, -18000, false⟩] ∧
      z.wallTable.toList = [⟨firstSecond, -18000, 3600⟩, ⟨1699149600, -14400, -3600⟩] ∧
      z.rule = some ⟨-18000, none⟩ := by
  have hcovered : leapFile.Covered := ⟨by decide, by decide⟩
  exact ⟨hcovered, decode_bytes (some "Lost/Leap") hcovered⟩

end CivilTime.ZoneFile
