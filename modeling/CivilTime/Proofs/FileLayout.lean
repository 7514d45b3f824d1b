import Mathlib.Algebra.Ring.Int.Defs
import Mathlib.Algebra.Ring.Nat
import CivilTime.Proofs.Success
import CivilTime.ZoneFile.Decoder

/-!
# The layout of zone files

A zone file is a row of sections, and none of them says where it ends: a header
counts the elements of all that follow.  This module writes the sections in their
order, and reads them back one by one.

* `signedBytes` writes a number with the highest byte first, and
  `signedValue_signedBytes` reads it back.
* `FileBlock` is what a block holds, times of one width and all counts small enough
  for a header.  `FileBlock.bytes` writes it, and `readHeader_headerBytes` and
  `readBlock_recordBytes` read it back up to the sections that are not used.
* `FileContents` is a file: a block, or from version 2 on two of them and a
  `Footer`.  `readZone_version1`, `readZone_later` and `readRule_footer` take the
  three parts of a file off its bytes.
-/

namespace CivilTime.ZoneFile

/-! ## Numbers in bytes -/

/-- The lowest `width` bytes of a number, the highest of them first. -/
def unsignedBytes : Nat → Nat → List UInt8
  | 0, _ => []
  | width + 1, n => unsignedBytes width (n / 256) ++ [UInt8.ofNat (n % 256)]

/-- A number in two's complement, the highest byte first. -/
def signedBytes (width : Nat) (n : Int) : List UInt8 :=
  unsignedBytes width (n % 256 ^ width).toNat

/-- A number has a two's complement of `width` bytes. -/
def Fits (width : Nat) (n : Int) : Prop :=
  -256 ^ width ≤ 2 * n ∧ 2 * n < 256 ^ width

instance (width : Nat) (n : Int) : Decidable (Fits width n) :=
  inferInstanceAs (Decidable (_ ∧ _))

theorem length_unsignedBytes (width n : Nat) : (unsignedBytes width n).length = width := by
  induction width generalizing n with
  | zero => rfl
  | succ width ih => simp [unsignedBytes, ih]

theorem length_signedBytes (width : Nat) (n : Int) : (signedBytes width n).length = width :=
  length_unsignedBytes width _

theorem unsignedValue_unsignedBytes (width n : Nat) :
    unsignedValue (unsignedBytes width n) = n % 256 ^ width := by
  induction width generalizing n with
  | zero => simp [unsignedBytes, unsignedValue, Nat.mod_one]
  | succ width ih =>
    have hfold : ∀ bytes byte,
        unsignedValue (bytes ++ [byte]) = 256 * unsignedValue bytes + byte.toNat := by
      intro bytes byte
      simp [unsignedValue, List.foldl_append]
    have hbyte : (UInt8.ofNat (n % 256)).toNat = n % 256 := by simp
    rw [unsignedBytes, hfold, ih, hbyte, Nat.pow_succ, Nat.mul_comm (256 ^ width), Nat.mod_mul]
    omega

/-- A number that fits is read back from its bytes. -/
theorem signedValue_signedBytes {width : Nat} {n : Int} (h : Fits width n) :
    signedValue (signedBytes width n) = n := by
  obtain ⟨hlow, hhigh⟩ := h
  have hcast : ((256 ^ width : Nat) : Int) = 256 ^ width := Int.natCast_pow 256 width
  have hpos : 0 < 256 ^ width := Nat.pow_pos (by decide)
  have hvalue : (unsignedValue (signedBytes width n) : Int) = n % 256 ^ width := by
    have hmod : 0 ≤ n % 256 ^ width := Int.emod_nonneg n (by omega)
    have hlt : n % 256 ^ width < 256 ^ width := Int.emod_lt_of_pos n (by omega)
    rw [signedBytes, unsignedValue_unsignedBytes, Nat.mod_eq_of_lt (by omega)]
    exact Int.toNat_of_nonneg hmod
  have hrange : Nat.pow 256 (signedBytes width n).length = 256 ^ width := by
    rw [length_signedBytes]
    rfl
  rw [signedValue, hrange]
  by_cases hsign : 0 ≤ n
  · rw [Int.emod_eq_of_lt hsign (by omega)] at hvalue
    rw [if_pos (by omega), hvalue]
  · have hwrap : n % 256 ^ width = n + 256 ^ width := by
      rw [← Int.add_emod_right, Int.emod_eq_of_lt (by omega) (by omega)]
    rw [if_neg (by omega), hvalue, hcast, hwrap]
    omega

/-- Numbers in two's complement, one after the other. -/
def numberBytes (width : Nat) (ns : List Int) : List UInt8 :=
  ns.flatMap (signedBytes width)

/-- Elements of one length, one after the other. -/
theorem length_flatMap_of_length {α : Type} {f : α → List UInt8} {length : Nat} {xs : List α}
    (h : ∀ x ∈ xs, (f x).length = length) : (xs.flatMap f).length = length * xs.length := by
  induction xs with
  | nil => rfl
  | cons x xs ih =>
    obtain ⟨hx, hxs⟩ := List.forall_mem_cons.1 h
    rw [List.flatMap_cons, List.length_append, hx, ih hxs, List.length_cons, Nat.mul_succ,
      Nat.add_comm]

theorem length_numberBytes (width : Nat) (ns : List Int) :
    (numberBytes width ns).length = width * ns.length :=
  length_flatMap_of_length fun n _ => length_signedBytes width n

theorem signedValues_numberBytes {width : Nat} {ns : List Int} (h : ∀ n ∈ ns, Fits width n) :
    signedValues width ns.length (numberBytes width ns) = ns := by
  induction ns with
  | nil => rfl
  | cons n ns ih =>
    obtain ⟨hn, hns⟩ := List.forall_mem_cons.1 h
    have hlength := length_signedBytes width n
    show signedValue ((signedBytes width n ++ numberBytes width ns).take width) ::
      signedValues width ns.length ((signedBytes width n ++ numberBytes width ns).drop width) = _
    rw [List.take_left' hlength, List.drop_left' hlength, signedValue_signedBytes hn, ih hns]

/-- The bytes in front are split off by their count. -/
theorem takeBytes_append {front : List UInt8} {count : Int} (h : (front.length : Int) = count)
    (rest : List UInt8) : takeBytes count (front ++ rest) = (front, rest) := by
  rw [takeBytes, if_neg (by omega), List.splitAt_eq, ← h, Int.toNat_natCast, List.take_left,
    List.drop_left]

/-! ## Blocks -/

/-- The contents of a block.  Times take `width` bytes each.  A count takes four
bytes, and is read as a signed number like the offsets. -/
structure FileBlock (width : Nat) where
  reserved : List UInt8
  /-- The times of the transitions, each with the index of its type. -/
  transitions : List (Int × UInt8)
  /-- The types, each with the index of its name. -/
  types : List (TimeType × UInt8)
  names : List UInt8
  /-- The leap seconds, a record of bytes for each. -/
  leapSeconds : List (List UInt8)
  standardMarks : List UInt8
  utcMarks : List UInt8
  length_reserved : reserved.length = 15
  length_leapSecond : ∀ record ∈ leapSeconds, record.length = width + 4
  times_fit : ∀ t ∈ transitions, Fits width t.1
  offsets_fit : ∀ t ∈ types, Fits 4 t.1.offset
  counts_fit : ∀ count ∈ [(utcMarks.length : Int), standardMarks.length, leapSeconds.length,
    transitions.length, types.length, names.length], Fits 4 count

namespace FileBlock

variable {width : Nat} (b : FileBlock width)

/-- The counts of the sections, in the order of a header. -/
def counts : List Int :=
  [b.utcMarks.length, b.standardMarks.length, b.leapSeconds.length, b.transitions.length,
    b.types.length, b.names.length]

/-- The header of the block. -/
def header (version : Nat) : Header where
  version
  utcMarks := b.utcMarks.length
  standardMarks := b.standardMarks.length
  leapSeconds := b.leapSeconds.length
  times := b.transitions.length
  types := b.types.length
  nameBytes := b.names.length

/-- The header as it is written, with the byte for the version. -/
def headerBytes (version : UInt8) : List UInt8 :=
  magic ++ version :: (b.reserved ++ numberBytes 4 b.counts)

/-- A type as it is written: the offset, the daylight mark and the index of the
name. -/
def typeBytes (t : TimeType × UInt8) : List UInt8 :=
  signedBytes 4 t.1.offset ++ [if t.1.isDaylight then 1 else 0, t.2]

/-- The sections up to the names. -/
def recordBytes : List UInt8 :=
  numberBytes width (b.transitions.map Prod.fst) ++
    (b.transitions.map Prod.snd ++ (b.types.flatMap typeBytes ++ b.names))

/-- The sections after the names. -/
def tailBytes : List UInt8 :=
  b.leapSeconds.flatMap id ++ (b.standardMarks ++ b.utcMarks)

/-- The block as it is written. -/
def bytes (version : UInt8) : List UInt8 :=
  b.headerBytes version ++ (b.recordBytes ++ b.tailBytes)

/-- What is read of the block. -/
def contents : Block where
  times := b.transitions.map Prod.fst
  indices := b.transitions.map Prod.snd
  types := b.types.map Prod.fst

theorem length_typeBytes (t : TimeType × UInt8) : (typeBytes t).length = 6 := by
  rw [typeBytes, List.length_append, length_signedBytes]
  rfl

/-- The sections before the names take a fixed number of bytes for each element. -/
theorem length_recordBytes : b.recordBytes.length =
    width * b.transitions.length + b.transitions.length + 6 * b.types.length + b.names.length := by
  have htypes : (b.types.flatMap typeBytes).length = 6 * b.types.length :=
    length_flatMap_of_length fun t _ => length_typeBytes t
  simp only [recordBytes, List.length_append, length_numberBytes, List.length_map, htypes]
  omega

theorem length_tailBytes : b.tailBytes.length =
    (width + 4) * b.leapSeconds.length + b.standardMarks.length + b.utcMarks.length := by
  have hleap : (b.leapSeconds.flatMap id).length = (width + 4) * b.leapSeconds.length :=
    length_flatMap_of_length b.length_leapSecond
  simp only [tailBytes, List.length_append, hleap]
  omega

/-! ### Reading a block back -/

theorem readHeader_headerBytes {byte : UInt8} {version : Nat} (h : versionOf byte = some version)
    (rest : List UInt8) :
    readHeader (b.headerBytes byte ++ rest) = .ok (b.header version, rest) := by
  have hreserved : (b.reserved.length : Int) = 15 := by rw [b.length_reserved]; rfl
  have hcounts : ((numberBytes 4 b.counts).length : Int) = 24 := by
    rw [length_numberBytes]
    rfl
  have hvalues : signedValues 4 6 (numberBytes 4 b.counts) = b.counts :=
    signedValues_numberBytes b.counts_fit
  rw [headerBytes, List.append_assoc, List.cons_append, List.append_assoc, readHeader,
    takeBytes_append (show (magic.length : Int) = 4 from rfl)]
  dsimp only
  rw [if_neg (not_not_intro rfl), h]
  dsimp only
  rw [takeBytes_append hreserved, takeBytes_append hcounts]
  dsimp only
  rw [if_neg (by omega), hvalues]
  rfl

theorem typesOf_typeBytes {types : List (TimeType × UInt8)} (h : ∀ t ∈ types, Fits 4 t.1.offset) :
    typesOf (types.flatMap typeBytes) = .ok (types.map Prod.fst) := by
  induction types with
  | nil => rfl
  | cons t types ih =>
    obtain ⟨ht, htypes⟩ := List.forall_mem_cons.1 h
    have hoffset := signedValue_signedBytes ht
    have hmark : decide ((if t.1.isDaylight then (1 : UInt8) else 0) ≠ 0) = t.1.isDaylight := by
      cases t.1.isDaylight <;> rfl
    show (typesOf (types.flatMap typeBytes) >>= fun rest =>
      pure (TimeType.mk (signedValue (signedBytes 4 t.1.offset)) _ :: rest)) = _
    rw [ih htypes, hoffset, hmark]
    rfl

theorem readTimes_numberBytes (rest : List UInt8) :
    readTimes width b.transitions.length
        (numberBytes width (b.transitions.map Prod.fst) ++ rest) =
      .ok (b.transitions.map Prod.fst, rest) := by
  have hfit : ∀ n ∈ b.transitions.map Prod.fst, Fits width n := List.forall_mem_map.2 b.times_fit
  have hvalues := signedValues_numberBytes hfit
  have hlength : ((numberBytes width (b.transitions.map Prod.fst)).length : Int) =
      width * b.transitions.length := by
    rw [length_numberBytes, List.length_map, Int.natCast_mul]
  rw [List.length_map] at hvalues
  rw [readTimes, if_neg (by omega), takeBytes_append hlength]
  dsimp only
  rw [if_neg (not_not_intro hlength), Int.toNat_natCast, hvalues]

/-- Reading a block takes the sections up to the names, and leaves the others. -/
theorem readBlock_recordBytes (version : Nat) (rest : List UInt8) :
    readBlock width (b.header version) (b.recordBytes ++ rest) = .ok (b.contents, rest) := by
  have hindices : ((b.transitions.map Prod.snd).length : Int) = (b.header version).times := by
    rw [List.length_map]
    rfl
  have htypes : ((b.types.flatMap typeBytes).length : Int) = 6 * (b.header version).types := by
    rw [length_flatMap_of_length fun t _ => length_typeBytes t, Int.natCast_mul]
    rfl
  have hnames : (b.names.length : Int) = (b.header version).nameBytes := rfl
  rw [recordBytes, List.append_assoc, List.append_assoc, List.append_assoc]
  refine bind_eq_ok.2 ⟨_, b.readTimes_numberBytes _, ?_⟩
  dsimp only
  rw [takeBytes_append hindices]
  dsimp only
  rw [takeBytes_append htypes]
  refine bind_eq_ok.2 ⟨_, typesOf_typeBytes b.offsets_fit, ?_⟩
  dsimp only
  rw [takeBytes_append hnames]
  rfl

/-- The size that a version-1 header tells is that of its sections. -/
theorem blockSize_header (b : FileBlock 4) (version : Nat) :
    ((b.recordBytes ++ b.tailBytes).length : Int) = (b.header version).blockSize := by
  rw [List.length_append, length_recordBytes, length_tailBytes]
  simp only [header, Header.blockSize]
  omega

/-- Between the names and the end of a file lie the sections that are not used, and
a line feed. -/
theorem tailSize_header (b : FileBlock 8) (version : Nat) :
    ((b.tailBytes ++ [0x0a]).length : Int) = (b.header version).tailSize := by
  rw [List.length_append, length_tailBytes]
  simp only [header, Header.tailSize, List.length_singleton]
  omega

end FileBlock

/-! ## The line at the end -/

/-- The line that ends a file: an empty one, or a rule. -/
inductive Footer where
  | empty
  | rule (text : String) (rule : ZoneRule) (hparsed : ZoneRule.parse text = .ok rule)
    (honeLine : '\n' ∉ text.toList)

namespace Footer

/-- The line as it is written. -/
def bytes : Footer → List UInt8
  | empty => []
  | rule text _ _ _ => text.toList.map fun c => UInt8.ofNat c.toNat

/-- The rule on the line. -/
def endRule : Footer → Option ZoneRule
  | empty => none
  | rule _ found _ _ => some found

end Footer

/-- A text that is not ASCII is no rule. -/
theorem lt_of_parse {text : String} {rule : ZoneRule} (h : ZoneRule.parse text = .ok rule) :
    ∀ c ∈ text.toList, c.toNat < 128 := by
  have hascii : text.toList.all ZoneRule.isAscii = true := by
    cases hall : text.toList.all ZoneRule.isAscii with
    | true => rfl
    | false =>
      rw [ZoneRule.parse, ZoneRule.read, hall] at h
      contradiction
  intro c hc
  exact of_decide_eq_true (List.all_eq_true.1 hascii c hc)

/-- The bytes of ASCII characters are read back. -/
theorem asciiText_map {text : List Char} (h : ∀ c ∈ text, c.toNat < 128) :
    asciiText (text.map fun c => UInt8.ofNat c.toNat) = .ok text := by
  have hbyte : ∀ c ∈ text, (UInt8.ofNat c.toNat).toNat = c.toNat := by
    intro c hc
    have hlt := h c hc
    rw [UInt8.toNat_ofNat']
    omega
  have hall : (text.map fun c => UInt8.ofNat c.toNat).all (· < 128) = true := by
    rw [List.all_map, List.all_eq_true]
    intro c hc
    refine decide_eq_true (UInt8.lt_iff_toNat_lt.2 ?_)
    rw [hbyte c hc]
    exact h c hc
  rw [asciiText, if_pos hall, List.map_map]
  refine congrArg Except.ok ((List.map_congr_left fun c hc => ?_).trans (List.map_id text))
  show Char.ofNat (UInt8.ofNat c.toNat).toNat = c
  rw [hbyte c hc, Char.ofNat_toNat]

/-- No byte of the line is a line feed. -/
theorem ne_lineFeed_of_mem {footer : Footer} : ∀ byte ∈ footer.bytes, byte ≠ 0x0a := by
  cases footer with
  | empty => exact fun _ h => nomatch h
  | rule text rule hparsed honeLine =>
    intro byte hbyte hfeed
    obtain ⟨c, hc, rfl⟩ := List.mem_map.1 hbyte
    have hlt := lt_of_parse hparsed c hc
    have hcode : (UInt8.ofNat c.toNat).toNat = 10 := congrArg UInt8.toNat hfeed
    rw [UInt8.toNat_ofNat'] at hcode
    have hnewline : c = '\n' := by
      rw [← Char.ofNat_toNat c, show c.toNat = 10 by omega]
    exact honeLine (hnewline ▸ hc)

/-- After the sections that are not used, the line up to the line feed gives the
rule. -/
theorem readRule_footer (b : FileBlock 8) (version : Nat) (footer : Footer) :
    readRule (b.header version) (b.tailBytes ++ 0x0a :: (footer.bytes ++ [0x0a])) =
      .ok footer.endRule := by
  have hline : (footer.bytes ++ [0x0a]).takeWhile (· ≠ 0x0a) = footer.bytes := by
    have hpassed : ∀ byte ∈ footer.bytes, decide (byte ≠ 0x0a) = true :=
      fun byte hbyte => decide_eq_true (ne_lineFeed_of_mem byte hbyte)
    rw [List.takeWhile_append_of_pos hpassed]
    exact List.append_nil _
  have hskipped : (takeBytes (b.header version).tailSize
      (b.tailBytes ++ 0x0a :: (footer.bytes ++ [0x0a]))).2 = footer.bytes ++ [0x0a] := by
    rw [List.append_cons, takeBytes_append (b.tailSize_header version)]
  rw [readRule, hskipped]
  rw [hline]
  cases footer with
  | empty => rfl
  | rule text rule hparsed honeLine =>
    have hfilled : (Footer.rule text rule hparsed honeLine).bytes.isEmpty = false := by
      cases htext : text.toList with
      | nil =>
        rw [ZoneRule.parse, htext] at hparsed
        contradiction
      | cons c rest => rw [Footer.bytes, htext, List.map_cons, List.isEmpty_cons]
    rw [hfilled, if_neg Bool.false_ne_true]
    refine bind_eq_ok.2 ⟨_, asciiText_map (lt_of_parse hparsed), ?_⟩
    exact bind_eq_ok.2 ⟨rule, hparsed, rfl⟩

/-! ## Files -/

/-- The byte of a version with 64-bit times. -/
abbrev LaterVersion := { byte : UInt8 // 0x32 ≤ byte ∧ byte ≤ 0x39 }

/-- A zone file: a block, or from version 2 on a block that stands in front, one
that counts, and a line at the end. -/
inductive FileContents where
  | version1 (block : FileBlock 4)
  | later (version : LaterVersion) (front : FileBlock 4) (block : FileBlock 8) (footer : Footer)

/-- The file as it is written. -/
def FileContents.bytes : FileContents → List UInt8
  | version1 block => block.bytes 0
  | later version front block footer =>
    front.bytes version ++ (block.bytes version ++ 0x0a :: (footer.bytes ++ [0x0a]))

theorem readZone_version1 (block : FileBlock 4) :
    readZone (block.bytes 0) = .ok (block.header 1, block.contents, block.tailBytes) := by
  refine bind_eq_ok.2 ⟨_, block.readHeader_headerBytes rfl _, ?_⟩
  exact bind_eq_ok.2 ⟨_, block.readBlock_recordBytes 1 _, rfl⟩

theorem exists_versionOf (version : LaterVersion) :
    ∃ n, versionOf version = some n ∧ 2 ≤ n := by
  obtain ⟨byte, hlow, hhigh⟩ := version
  have hdigit : 0x30 ≤ byte ∧ byte ≤ 0x39 := ⟨Nat.le_trans (by decide) hlow, hhigh⟩
  have hnonzero : byte ≠ 0 := by
    rintro rfl
    contradiction
  refine ⟨byte.toNat - 0x30, ?_, Nat.le_sub_of_add_le hlow⟩
  rw [versionOf, if_neg hnonzero, if_pos hdigit]

theorem readZone_later {version : LaterVersion} {n : Nat} (hversion : versionOf version = some n)
    (hlater : 2 ≤ n) (front : FileBlock 4) (block : FileBlock 8) (rest : List UInt8) :
    readZone (front.bytes version ++ (block.bytes version ++ rest)) =
      .ok (block.header n, { block.contents with times := block.contents.times.map clampSecond },
        block.tailBytes ++ rest) := by
  rw [FileBlock.bytes, List.append_assoc]
  refine bind_eq_ok.2 ⟨_, front.readHeader_headerBytes hversion _, ?_⟩
  dsimp only
  rw [if_neg (show ¬ (front.header n).version < 2 by exact Nat.not_lt.2 hlater),
    takeBytes_append (front.blockSize_header n)]
  dsimp only
  rw [FileBlock.bytes, List.append_assoc, List.append_assoc]
  refine bind_eq_ok.2 ⟨_, block.readHeader_headerBytes hversion _, ?_⟩
  exact bind_eq_ok.2 ⟨_, block.readBlock_recordBytes n _, rfl⟩

end CivilTime.ZoneFile
