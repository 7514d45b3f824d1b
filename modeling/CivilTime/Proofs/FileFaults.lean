import CivilTime.Proofs.FileLayout
import CivilTime.Proofs.RuleReading

/-!
# What malformed zone files are reported as

A file that cannot be read is reported as a malformed value, with two exceptions:
data that does not fit the counts in front of it, and a transition to a type that the
file does not have.

* `BlockAt` is where a file holds the block that is read: behind the first header in
  version 1, and behind the second one else.
* `BlockFits` says that the times and the types of that block are complete, and
  `TypesKnown` that its transitions are to types it has.
* `readBlock_of_fits` and `readBlock_of_not_fits` read a block, `exactEntries_of_fit`
  and `exactEntries_of_not_fit` look its types up.
* `DecodeOutcome` has one case for each way in which reading a file can end, and
  `decode_reports_iff` says which of them are no malformed values.
-/

namespace CivilTime.ZoneFile

/-! ## Headers -/

/-- A header that cannot be read has one cause. -/
theorem readHeader_eq_error {bytes : List UInt8} {failure : Failure}
    (h : readHeader bytes = .error failure) : failure = .fileHeader := by
  unfold readHeader at h
  dsimp only [Bind.bind, Except.bind] at h
  split at h
  · cases h
    rfl
  split at h
  · cases h
    rfl
  split at h
  · cases h
    rfl
  split at h
  · cases h
    rfl
  split at h
  · cases h
  · cases h
    rfl

/-- The block that is read: its width, its header, and the bytes behind that. -/
inductive BlockAt (bytes : List UInt8) : Nat → Header → List UInt8 → Prop
  | first {header : Header} {rest : List UInt8} (hheader : readHeader bytes = .ok (header, rest))
    (hearly : header.version < 2) : BlockAt bytes 4 header rest
  | second {front header : Header} {afterFront rest : List UInt8}
    (hfront : readHeader bytes = .ok (front, afterFront)) (hlate : ¬front.version < 2)
    (hheader : readHeader (takeBytes front.blockSize afterFront).2 = .ok (header, rest)) :
    BlockAt bytes 8 header rest

/-- A file has one block that is read. -/
theorem BlockAt.unique {bytes rest rest' : List UInt8} {width width' : Nat}
    {header header' : Header} (h : BlockAt bytes width header rest)
    (h' : BlockAt bytes width' header' rest') :
    width = width' ∧ header = header' ∧ rest = rest' := by
  cases h with
  | first hheader hearly =>
    cases h' with
    | first hheader' hearly' =>
      cases hheader.symm.trans hheader'
      exact ⟨rfl, rfl, rfl⟩
    | second hfront' hlate' hheader' =>
      cases hheader.symm.trans hfront'
      exact absurd hearly hlate'
  | second hfront hlate hheader =>
    cases h' with
    | first hheader' hearly' =>
      cases hfront.symm.trans hheader'
      exact absurd hearly' hlate
    | second hfront' hlate' hheader' =>
      cases hfront.symm.trans hfront'
      cases hheader.symm.trans hheader'
      exact ⟨rfl, rfl, rfl⟩

/-- What is said of every block is said of that one. -/
theorem BlockAt.forall_iff {bytes rest : List UInt8} {width : Nat} {header : Header}
    (h : BlockAt bytes width header rest) {P : Nat → Header → List UInt8 → Prop} :
    (∀ width header rest, BlockAt bytes width header rest → P width header rest) ↔
      P width header rest := by
  constructor
  · intro hall
    exact hall _ _ _ h
  · intro hp width' header' rest' h'
    obtain ⟨rfl, rfl, rfl⟩ := h.unique h'
    exact hp

theorem BlockAt.exists_iff {bytes rest : List UInt8} {width : Nat} {header : Header}
    (h : BlockAt bytes width header rest) {P : Nat → Header → List UInt8 → Prop} :
    (∃ width header rest, BlockAt bytes width header rest ∧ P width header rest) ↔
      P width header rest := by
  constructor
  · rintro ⟨width', header', rest', h', hp⟩
    obtain ⟨rfl, rfl, rfl⟩ := h.unique h'
    exact hp
  · intro hp
    exact ⟨_, _, _, h, hp⟩

/-! ## Blocks -/

section Sections

variable (width : Nat) (header : Header) (bytes : List UInt8)

/-- The bytes behind the times. -/
def afterTimes : List UInt8 :=
  bytes.drop (width * header.times.toNat)

/-- The indices of the types, one byte for each time, or as many as there are. -/
def indexBytes : List UInt8 :=
  (afterTimes width header bytes).take header.times.toNat

/-- The types, or as many bytes of them as there are. -/
def typeBytes : List UInt8 :=
  (takeBytes (6 * header.types) ((afterTimes width header bytes).drop header.times.toNat)).1

/-- The times are complete, and so is every type that is begun. -/
structure BlockFits : Prop where
  counted : 0 ≤ header.times
  times : width * header.times ≤ bytes.length
  types : (typeBytes width header bytes).length % 6 = 0

/-- Every transition is to a type of the block, unless there are no types and none is
looked up. -/
def TypesKnown : Prop :=
  typeBytes width header bytes = [] ∨
    ∀ index ∈ indexBytes width header bytes,
      index.toNat < (typeBytes width header bytes).length / 6

end Sections

theorem takeBytes_of_nonneg {count : Int} (h : 0 ≤ count) (bytes : List UInt8) :
    takeBytes count bytes = (bytes.take count.toNat, bytes.drop count.toNat) := by
  rw [takeBytes, if_neg (by omega), List.splitAt_eq]

theorem readTimes_of_fits {width : Nat} {count : Int} {bytes : List UInt8} (hcount : 0 ≤ count)
    (hlength : width * count ≤ bytes.length) :
    ∃ times, readTimes width count bytes = .ok (times, bytes.drop (width * count.toNat)) ∧
      times.length = count.toNat := by
  have hproduct : 0 ≤ (width : Int) * count := Int.mul_nonneg (Int.natCast_nonneg _) hcount
  have hwidth : ((width : Int) * count).toNat = width * count.toNat := by
    rw [Int.toNat_mul (Int.natCast_nonneg _) hcount, Int.toNat_natCast]
  refine ⟨_, ?_, length_signedValues width count.toNat (bytes.take (width * count.toNat))⟩
  rw [readTimes, if_neg (by omega), takeBytes_of_nonneg hproduct, hwidth]
  dsimp only
  rw [if_neg (by rw [List.length_take]; omega)]

theorem readTimes_of_not_fits {width : Nat} {count : Int} {bytes : List UInt8}
    (h : ¬(0 ≤ count ∧ width * count ≤ bytes.length)) :
    readTimes width count bytes = .error .fileLayout := by
  rw [readTimes]
  split
  · rfl
  · next hcount =>
    have hproduct : 0 ≤ (width : Int) * count :=
      Int.mul_nonneg (Int.natCast_nonneg _) (by omega)
    rw [takeBytes_of_nonneg hproduct]
    dsimp only
    rw [if_pos (by rw [List.length_take]; omega)]

/-- Types are six bytes each, and an incomplete one does not fit the layout. -/
theorem typesOf_length (bytes : List UInt8) :
    (bytes.length % 6 = 0 ∧
        ∃ types, typesOf bytes = .ok types ∧ types.length = bytes.length / 6) ∨
      bytes.length % 6 ≠ 0 ∧ typesOf bytes = .error .fileLayout := by
  induction bytes using typesOf.induct with
  | case1 => exact Or.inl ⟨rfl, [], rfl, rfl⟩
  | case2 a b c d daylight name rest ih =>
    have hlength : (a :: b :: c :: d :: daylight :: name :: rest).length = rest.length + 6 := rfl
    rw [typesOf, hlength]
    rcases ih with ⟨hwhole, types, htypes, hcount⟩ | ⟨hbroken, hfailed⟩
    · refine Or.inl ⟨by omega, ?_⟩
      rw [htypes]
      exact ⟨_, rfl, by rw [List.length_cons]; omega⟩
    · refine Or.inr ⟨by omega, ?_⟩
      rw [hfailed]
      rfl
  | case3 bytes hshort hlong =>
    refine Or.inr ⟨fun hwhole => ?_, ?_⟩
    · -- Fewer than six bytes, and not none.
      rcases bytes with _ | ⟨a, _ | ⟨b, _ | ⟨c, _ | ⟨d, _ | ⟨daylight, _ | ⟨name, rest⟩⟩⟩⟩⟩⟩
      · exact hshort rfl
      all_goals first | exact hlong _ _ _ _ _ _ _ rfl | simp at hwhole
    · rw [typesOf]
      · exact hshort
      · exact hlong

section Block

variable {width : Nat} {header : Header} {bytes : List UInt8}

/-- If the times of a block are complete, the rest depends on the types alone. -/
theorem exists_readBlock_eq {times : List Int} (hcount : 0 ≤ header.times)
    (htimes : readTimes width header.times bytes = .ok (times, afterTimes width header bytes)) :
    ∃ rest, readBlock width header bytes =
      (typesOf (typeBytes width header bytes)).map fun types =>
        ({ times, indices := indexBytes width header bytes, types }, rest) := by
  refine ⟨(takeBytes header.nameBytes (takeBytes (6 * header.types)
    ((afterTimes width header bytes).drop header.times.toNat)).2).2, ?_⟩
  rw [readBlock, htimes]
  dsimp only [Bind.bind, Except.bind]
  rw [takeBytes_of_nonneg hcount, typeBytes]
  dsimp only
  cases typesOf (takeBytes (6 * header.types)
      ((afterTimes width header bytes).drop header.times.toNat)).1 with
  | error failure => rfl
  | ok types => rfl

/-- A block that fits its counts is read. -/
theorem readBlock_of_fits (h : BlockFits width header bytes) :
    ∃ block rest, readBlock width header bytes = .ok (block, rest) ∧
      block.indices = indexBytes width header bytes ∧
      block.times.length = header.times.toNat ∧
      block.types.length = (typeBytes width header bytes).length / 6 := by
  obtain ⟨times, htimes, hcount⟩ := readTimes_of_fits h.counted h.times
  obtain ⟨rest, hread⟩ := exists_readBlock_eq h.counted htimes
  rcases typesOf_length (typeBytes width header bytes) with
    ⟨-, types, htypes, hlength⟩ | ⟨hbroken, -⟩
  · rw [htypes] at hread
    exact ⟨_, rest, hread, rfl, hcount, hlength⟩
  · exact absurd h.types hbroken

/-- A block that does not fit its counts is a fault of the layout. -/
theorem readBlock_of_not_fits (h : ¬BlockFits width header bytes) :
    readBlock width header bytes = .error .fileLayout := by
  by_cases hfits : 0 ≤ header.times ∧ width * header.times ≤ bytes.length
  · obtain ⟨times, htimes, -⟩ := readTimes_of_fits hfits.1 hfits.2
    obtain ⟨rest, hread⟩ := exists_readBlock_eq hfits.1 htimes
    rcases typesOf_length (typeBytes width header bytes) with ⟨hwhole, -⟩ | ⟨-, hfailed⟩
    · exact absurd ⟨hfits.1, hfits.2, hwhole⟩ h
    · rw [hread, hfailed]
      rfl
  · rw [readBlock, readTimes_of_not_fits hfits]
    rfl

/-! ## Transitions -/

theorem transitions_of_fit {types : List TimeType} {records : List (Int × UInt8)}
    (h : ∀ record ∈ records, record.2.toNat < types.length) :
    ∃ entries, transitions types records = .ok entries := by
  induction records with
  | nil => exact ⟨[], rfl⟩
  | cons record records ih =>
    obtain ⟨hindex, hrest⟩ := List.forall_mem_cons.1 h
    obtain ⟨entries, hentries⟩ := ih hrest
    rw [transitions, List.getElem?_eq_getElem hindex]
    exact ⟨_, bind_eq_ok.2 ⟨entries, hentries, rfl⟩⟩

theorem transitions_of_not_fit {types : List TimeType} {records : List (Int × UInt8)}
    (h : ¬∀ record ∈ records, record.2.toNat < types.length) :
    transitions types records = .error .fileType := by
  induction records with
  | nil => exact absurd (fun _ hmem => absurd hmem List.not_mem_nil) h
  | cons record records ih =>
    rw [transitions]
    by_cases hindex : record.2.toNat < types.length
    · have hrest : transitions types records = .error .fileType :=
        ih fun hall => h (List.forall_mem_cons.2 ⟨hindex, hall⟩)
      rw [List.getElem?_eq_getElem hindex, hrest]
      rfl
    · rw [List.getElem?_eq_none (by omega)]

/-- The types that a block looks up. -/
def Block.IndicesFit (block : Block) : Prop :=
  block.types = [] ∨ ∀ index ∈ block.indices, index.toNat < block.types.length

/-- A transition has a time and an index, and there are no more indices than times. -/
theorem forall_mem_zip_iff {block : Block} (hshort : block.indices.length ≤ block.times.length)
    (count : Nat) :
    (∀ record ∈ block.times.zip block.indices, record.2.toNat < count) ↔
      ∀ index ∈ block.indices, index.toNat < count := by
  have hindices := List.map_snd_zip hshort
  rw [← List.forall_mem_map (f := Prod.snd) (P := fun index : UInt8 => index.toNat < count),
    hindices]

theorem exactEntries_of_fit {block : Block} (hshort : block.indices.length ≤ block.times.length)
    (h : block.IndicesFit) : ∃ entries, exactEntries block = .ok entries := by
  rw [exactEntries]
  cases htypes : block.types with
  | nil => exact ⟨[], rfl⟩
  | cons first others =>
    rcases h with hnone | hall
    · rw [htypes] at hnone
      contradiction
    · rw [htypes, ← forall_mem_zip_iff hshort] at hall
      obtain ⟨entries, hentries⟩ := transitions_of_fit hall
      exact ⟨_, bind_eq_ok.2 ⟨entries, hentries, rfl⟩⟩

theorem exactEntries_of_not_fit {block : Block}
    (hshort : block.indices.length ≤ block.times.length) (h : ¬block.IndicesFit) :
    exactEntries block = .error .fileType := by
  rw [exactEntries]
  cases htypes : block.types with
  | nil => exact absurd (Or.inl htypes) h
  | cons first others =>
    have hmissing : ¬∀ record ∈ block.times.zip block.indices,
        record.2.toNat < (first :: others).length := by
      rw [forall_mem_zip_iff hshort, ← htypes]
      exact fun hall => h (Or.inr hall)
    dsimp only
    rw [transitions_of_not_fit hmissing]
    rfl

end Block

/-! ## Whole files -/

section File

variable {key : Option String} {bytes rest : List UInt8} {width : Nat} {header : Header}

/-- A rule that cannot be read is a malformed value. -/
theorem isValue_of_readRule {failure : Failure} (h : readRule header bytes = .error failure) :
    failure.category.isValue = true := by
  rw [readRule] at h
  split at h
  · contradiction
  rcases bind_eq_error.1 h with h | ⟨text, -, h⟩
  · rw [asciiText] at h
    split at h
    · contradiction
    · cases h
      rfl
  · rcases bind_eq_error.1 h with h | ⟨rule, -, h⟩
    · cases hread : ZoneRule.read text with
      | error fault =>
        rw [hread] at h
        cases h
        rfl
      | ok rule =>
        rw [hread] at h
        contradiction
    · contradiction

theorem isValue_of_zoneOf {entries : List ExactEntry} {rule : Option ZoneRule} {failure : Failure}
    (h : zoneOf key entries rule = .error failure) : failure.category.isValue = true := by
  rw [zoneOf] at h
  split at h
  · contradiction
  · cases h
    rfl

/-- Once the tables of a file are read, what may still fail is a malformed value. -/
theorem isValue_of_decode {block : Block} {entries : List ExactEntry} {failure : Failure}
    (hread : readZone bytes = .ok (header, block, rest))
    (hentries : exactEntries block = .ok entries) (h : decode key bytes = .error failure) :
    failure.category.isValue = true := by
  rw [decode, hread] at h
  dsimp only [Bind.bind, Except.bind] at h
  rw [hentries] at h
  dsimp only at h
  split at h
  · exact isValue_of_zoneOf h
  · cases hrule : readRule header rest with
    | error fault =>
      rw [hrule] at h
      cases h
      exact isValue_of_readRule hrule
    | ok rule =>
      rw [hrule] at h
      exact isValue_of_zoneOf h

/-- Without a block there is a header that cannot be read. -/
theorem readZone_of_no_block (h : ∀ width header rest, ¬BlockAt bytes width header rest) :
    readZone bytes = .error .fileHeader := by
  rw [readZone]
  cases hfirst : readHeader bytes with
  | error failure =>
    rw [readHeader_eq_error hfirst]
    rfl
  | ok found =>
    obtain ⟨front, afterFront⟩ := found
    by_cases hearly : front.version < 2
    · exact absurd (.first hfirst hearly) (h _ _ _)
    · dsimp only [Bind.bind, Except.bind]
      rw [if_neg hearly]
      cases hsecond : readHeader (takeBytes front.blockSize afterFront).2 with
      | error failure =>
        rw [readHeader_eq_error hsecond]
      | ok found => exact absurd (.second hfirst hearly hsecond) (h _ _ _)

theorem readZone_of_not_fits (hblock : BlockAt bytes width header rest)
    (h : ¬BlockFits width header rest) : readZone bytes = .error .fileLayout := by
  have hread := readBlock_of_not_fits h
  cases hblock with
  | first hheader hearly =>
    rw [readZone, hheader]
    dsimp only [Bind.bind, Except.bind]
    rw [if_pos hearly, hread]
  | second hfront hlate hheader =>
    rw [readZone, hfront]
    dsimp only [Bind.bind, Except.bind]
    rw [if_neg hlate, hheader]
    dsimp only
    rw [hread]

/-- A block that fits is what is known of the file. -/
theorem readZone_of_fits (hblock : BlockAt bytes width header rest)
    (h : BlockFits width header rest) :
    ∃ block after, readZone bytes = .ok (header, block, after) ∧
      block.indices = indexBytes width header rest ∧
      block.times.length = header.times.toNat ∧
      block.types.length = (typeBytes width header rest).length / 6 := by
  obtain ⟨block, after, hread, hindices, htimes, htypes⟩ := readBlock_of_fits h
  cases hblock with
  | first hheader hearly =>
    refine ⟨block, after, ?_, hindices, htimes, htypes⟩
    rw [readZone, hheader]
    dsimp only [Bind.bind, Except.bind]
    rw [if_pos hearly, hread]
    rfl
  | second hfront hlate hheader =>
    refine ⟨{ block with times := block.times.map clampSecond }, after, ?_, hindices,
      (List.length_map _).trans htimes, htypes⟩
    rw [readZone, hfront]
    dsimp only [Bind.bind, Except.bind]
    rw [if_neg hlate, hheader]
    dsimp only
    rw [hread]
    rfl

/-- How reading a file can end. -/
inductive DecodeOutcome (key : Option String) (bytes : List UInt8) : Prop
  | noBlock (hnone : ∀ width header rest, ¬BlockAt bytes width header rest)
    (hfailed : decode key bytes = .error .fileHeader)
  | layout {width : Nat} {header : Header} {rest : List UInt8}
    (hblock : BlockAt bytes width header rest) (hbroken : ¬BlockFits width header rest)
    (hfailed : decode key bytes = .error .fileLayout)
  | unknownType {width : Nat} {header : Header} {rest : List UInt8}
    (hblock : BlockAt bytes width header rest) (hfits : BlockFits width header rest)
    (hunknown : ¬TypesKnown width header rest) (hfailed : decode key bytes = .error .fileType)
  | read {width : Nat} {header : Header} {rest : List UInt8}
    (hblock : BlockAt bytes width header rest) (hfits : BlockFits width header rest)
    (hknown : TypesKnown width header rest)
    (hreported : ∀ failure, decode key bytes = .error failure → failure.category.isValue = true)

theorem decodeOutcome (key : Option String) (bytes : List UInt8) : DecodeOutcome key bytes := by
  by_cases hblock : ∃ width header rest, BlockAt bytes width header rest
  · obtain ⟨width, header, rest, hblock⟩ := hblock
    by_cases hfits : BlockFits width header rest
    · obtain ⟨block, after, hread, hindices, htimes, htypes⟩ := readZone_of_fits hblock hfits
      have hshort : block.indices.length ≤ block.times.length := by
        rw [hindices, htimes, indexBytes, List.length_take]
        exact Nat.min_le_left _ _
      have hwhole := hfits.types
      have hnone : block.types = [] ↔ typeBytes width header rest = [] := by
        rw [← List.length_eq_zero_iff, ← List.length_eq_zero_iff, htypes]
        omega
      have hknown : block.IndicesFit ↔ TypesKnown width header rest := by
        rw [Block.IndicesFit, TypesKnown, hnone, hindices, htypes]
      by_cases hfit : block.IndicesFit
      · obtain ⟨entries, hentries⟩ := exactEntries_of_fit hshort hfit
        exact .read hblock hfits (hknown.1 hfit) fun failure => isValue_of_decode hread hentries
      · refine .unknownType hblock hfits (fun h => hfit (hknown.2 h)) ?_
        rw [decode, hread]
        dsimp only [Bind.bind, Except.bind]
        rw [exactEntries_of_not_fit hshort hfit]
    · refine .layout hblock hfits ?_
      rw [decode, readZone_of_not_fits hblock hfits]
      rfl
  · have hnone : ∀ width header rest, ¬BlockAt bytes width header rest :=
      fun width header rest h => hblock ⟨width, header, rest, h⟩
    refine .noBlock hnone ?_
    rw [decode, readZone_of_no_block hnone]
    rfl

/-- A file that cannot be read is reported as a malformed value, unless a block that is
read does not fit its counts or has a transition to a type it does not have.  These two
are reported as faults of the layout and of the index. -/
theorem decode_reports_iff (key : Option String) (bytes : List UInt8) :
    ((∀ failure, decode key bytes = .error failure → failure.category.isValue = true) ↔
      ∀ width header rest, BlockAt bytes width header rest →
        BlockFits width header rest ∧ TypesKnown width header rest) ∧
    (decode key bytes = .error .fileLayout ↔
      ∃ width header rest, BlockAt bytes width header rest ∧ ¬BlockFits width header rest) ∧
    (decode key bytes = .error .fileType ↔
      ∃ width header rest, BlockAt bytes width header rest ∧ BlockFits width header rest ∧
        ¬TypesKnown width header rest) := by
  cases decodeOutcome key bytes with
  | noBlock hnone hfailed =>
    have hvalue : Failure.fileHeader.category.isValue = true := rfl
    simp [hfailed, hnone, hvalue]
  | layout hblock hbroken hfailed =>
    have hlayout : Failure.fileLayout.category.isValue = false := rfl
    rw [hblock.forall_iff, hblock.exists_iff, hblock.exists_iff]
    simp [hfailed, hbroken, hlayout]
  | unknownType hblock hfits hunknown hfailed =>
    have hindex : Failure.fileType.category.isValue = false := rfl
    rw [hblock.forall_iff, hblock.exists_iff, hblock.exists_iff]
    simp [hfailed, hfits, hunknown, hindex]
  | read hblock hfits hknown hreported =>
    rw [hblock.forall_iff, hblock.exists_iff, hblock.exists_iff]
    refine ⟨⟨fun _ => ⟨hfits, hknown⟩, fun _ => hreported⟩,
      ⟨fun hfailed => ?_, fun h => absurd hfits h⟩, ⟨fun hfailed => ?_, fun h => absurd hknown h.2⟩⟩
    · exact Bool.noConfusion (hreported _ hfailed)
    · exact Bool.noConfusion (hreported _ hfailed)

/-- A version-1 file that ends where its one transition should stand. -/
def cutFile : List UInt8 :=
  magic ++ 0 :: (List.replicate 15 0 ++ numberBytes 4 [0, 0, 0, 1, 1, 0])

/-- The end of the data is not reported as a malformed value. -/
theorem not_decode_reports_cutFile :
    ∃ failure, decode none cutFile = .error failure ∧ failure.category.isValue = false :=
  ⟨.fileLayout, by rfl, rfl⟩

end File

end CivilTime.ZoneFile
