import CivilTime.Proofs.FileTrees
import CivilTime.Proofs.StoreRuns
import CivilTime.Proofs.TextLines
import CivilTime.Store.Basic
import Mathlib

/-!
# Listed zones

Which names of zones a store lists.

* `Directory.mem_zonePaths_iff` and `Directory.mem_zoneNames_iff` say which files of a directory are
  listed, and under which names: one walk goes through the directories at the top, and another
  through all those inside.
* `Store.ListsZone` and `Store.NamedInPackage` are the two sources of names.
* `Store.sortedNames_congr` says that only the names count, not how often and in which order they
  come.
* `Store.available_exact` is the result.
-/

namespace CivilTime

namespace Directory

variable {d : Directory} {name base : String} {path : List String} {content : List UInt8}

/-! ## Files of a directory -/

theorem isZoneFile_iff : isZoneFile content = true ↔ ZoneFile.magic <+: content := by
  rw [isZoneFile, decide_eq_true_eq, List.prefix_iff_eq_take]
  exact eq_comm

/-- A zone file below a directory, by the names that lead to it. -/
def HoldsZone (d : Directory) (path : List String) : Prop :=
  ∃ content, d.HoldsFile path content ∧ ZoneFile.magic <+: content

theorem HoldsZone.ne_nil (h : d.HoldsZone path) : path ≠ [] := by
  obtain ⟨content, hfile, -⟩ := h
  exact hfile.ne_nil

theorem holdsZone_file_iff {n : String} {c : List UInt8} {others : Directory} :
    HoldsZone (.file n c others) path ↔
      path = [n] ∧ isZoneFile c = true ∨ others.HoldsZone path := by
  unfold HoldsZone
  simp only [holdsFile_file_iff, isZoneFile_iff]
  constructor
  · rintro ⟨content, ⟨hpath, rfl⟩ | hfile, hzone⟩
    · exact Or.inl ⟨hpath, hzone⟩
    · exact Or.inr ⟨content, hfile, hzone⟩
  · rintro (⟨hpath, hzone⟩ | ⟨content, hfile, hzone⟩)
    · exact ⟨c, Or.inl ⟨hpath, rfl⟩, hzone⟩
    · exact ⟨content, Or.inr hfile, hzone⟩

theorem holdsZone_folder_iff {n : String} {inside others : Directory} :
    HoldsZone (.folder n inside others) path ↔
      (∃ rest, path = n :: rest ∧ inside.HoldsZone rest) ∨ others.HoldsZone path := by
  unfold HoldsZone
  simp only [holdsFile_folder_iff]
  constructor
  · rintro ⟨content, ⟨rest, hpath, hfile⟩ | hfile, hzone⟩
    · exact Or.inl ⟨rest, hpath, content, hfile, hzone⟩
    · exact Or.inr ⟨content, hfile, hzone⟩
  · rintro (⟨rest, hpath, content, hfile, hzone⟩ | ⟨content, hfile, hzone⟩)
    · exact ⟨content, Or.inl ⟨rest, hpath, hfile⟩, hzone⟩
    · exact ⟨content, Or.inr hfile, hzone⟩

theorem not_holdsZone_empty : ¬HoldsZone .empty path := by
  rintro ⟨content, hfile, -⟩
  exact not_holdsFile_empty hfile

/-- A file is listed under its name, if it is a zone file. -/
theorem mem_listed_iff {listed : String} {rest : List String} :
    name ∈ (if isZoneFile content then listed :: rest else rest) ↔
      isZoneFile content = true ∧ name = listed ∨ name ∈ rest := by
  split
  · next hzone => simp [hzone]
  · next hzone => simp [hzone]

theorem intercalate_slash_cons (name : String) (h : path ≠ []) :
    "/".intercalate (name :: path) = name ++ "/" ++ "/".intercalate path :=
  String.intercalate_cons_of_ne_nil h

/-- The walk at any depth lists the zone files by their names with slashes between them. -/
theorem mem_zonePaths_iff : name ∈ d.zonePaths base ↔
    ∃ path, d.HoldsZone path ∧ name = base ++ "/".intercalate path := by
  induction d generalizing base with
  | empty => simp [zonePaths, not_holdsZone_empty]
  | file n c others ih =>
    rw [zonePaths, mem_listed_iff, ih]
    constructor
    · rintro (⟨hzone, rfl⟩ | ⟨path, hothers, rfl⟩)
      · exact ⟨[n], holdsZone_file_iff.2 (Or.inl ⟨rfl, hzone⟩),
          by rw [String.intercalate_singleton]⟩
      · exact ⟨path, holdsZone_file_iff.2 (Or.inr hothers), rfl⟩
    · rintro ⟨path, hpath, rfl⟩
      rcases holdsZone_file_iff.1 hpath with ⟨rfl, hzone⟩ | hothers
      · exact Or.inl ⟨hzone, by rw [String.intercalate_singleton]⟩
      · exact Or.inr ⟨path, hothers, rfl⟩
  | folder n inside others ihinside ihothers =>
    rw [zonePaths, List.mem_append, ihinside, ihothers]
    have hlead : ∀ {rest : List String}, inside.HoldsZone rest →
        base ++ n ++ "/" ++ "/".intercalate rest = base ++ "/".intercalate (n :: rest) := by
      intro rest hrest
      rw [intercalate_slash_cons n hrest.ne_nil, String.append_assoc, String.append_assoc,
        String.append_assoc]
    constructor
    · rintro (⟨rest, hinside, rfl⟩ | ⟨path, hothers, rfl⟩)
      · exact ⟨n :: rest, holdsZone_folder_iff.2 (Or.inl ⟨rest, rfl, hinside⟩), hlead hinside⟩
      · exact ⟨path, holdsZone_folder_iff.2 (Or.inr hothers), rfl⟩
    · rintro ⟨path, hpath, rfl⟩
      rcases holdsZone_folder_iff.1 hpath with ⟨rest, rfl, hinside⟩ | hothers
      · exact Or.inl ⟨rest, hinside, (hlead hinside).symm⟩
      · exact Or.inr ⟨path, hothers, rfl⟩

/-- The names lead through one of the directories of variants, at the top. -/
def IsVariantPath : List String → Prop
  | top :: _ :: _ => top = "right" ∨ top = "posix"
  | _ => False

theorem isVariantPath_cons_iff (h : path ≠ []) :
    IsVariantPath (name :: path) ↔ isVariantFolder name = true := by
  cases path with
  | nil => contradiction
  | cons next path => rw [IsVariantPath, isVariantFolder, Bool.or_eq_true, decide_eq_true_eq,
      decide_eq_true_eq]

/-- The walk from the top lists the zone files, but those that are variants. -/
theorem mem_zoneNames_iff : name ∈ d.zoneNames ↔
    ∃ path, d.HoldsZone path ∧ ¬IsVariantPath path ∧ name = "/".intercalate path := by
  induction d with
  | empty => simp [zoneNames, not_holdsZone_empty]
  | file n c others ih =>
    rw [zoneNames, mem_listed_iff, ih]
    constructor
    · rintro (⟨hzone, rfl⟩ | ⟨path, hothers, hvariant, rfl⟩)
      · exact ⟨[name], holdsZone_file_iff.2 (Or.inl ⟨rfl, hzone⟩), id,
          by rw [String.intercalate_singleton]⟩
      · exact ⟨path, holdsZone_file_iff.2 (Or.inr hothers), hvariant, rfl⟩
    · rintro ⟨path, hpath, hvariant, rfl⟩
      rcases holdsZone_file_iff.1 hpath with ⟨rfl, hzone⟩ | hothers
      · exact Or.inl ⟨hzone, by rw [String.intercalate_singleton]⟩
      · exact Or.inr ⟨path, hothers, hvariant, rfl⟩
  | folder n inside others _ ih =>
    have hmem : name ∈ (folder n inside others).zoneNames ↔
        (∃ rest, inside.HoldsZone rest ∧ ¬isVariantFolder n = true ∧
          name = "/".intercalate (n :: rest)) ∨ name ∈ others.zoneNames := by
      have hrest : ∀ rest, inside.HoldsZone rest →
          n ++ "/" ++ "/".intercalate rest = "/".intercalate (n :: rest) :=
        fun rest hrest => (intercalate_slash_cons n hrest.ne_nil).symm
      rw [zoneNames]
      split
      · next hfolder => simp [hfolder]
      · next hfolder =>
        rw [List.mem_append, mem_zonePaths_iff]
        refine or_congr_left (exists_congr fun rest => and_congr_right fun hinside => ?_)
        rw [hrest rest hinside]
        exact (and_iff_right hfolder).symm
    rw [hmem, ih]
    constructor
    · rintro (⟨rest, hinside, hfolder, rfl⟩ | ⟨path, hothers, hvariant, rfl⟩)
      · exact ⟨n :: rest, holdsZone_folder_iff.2 (Or.inl ⟨rest, rfl, hinside⟩),
          fun hvariant => hfolder ((isVariantPath_cons_iff hinside.ne_nil).1 hvariant), rfl⟩
      · exact ⟨path, holdsZone_folder_iff.2 (Or.inr hothers), hvariant, rfl⟩
    · rintro ⟨path, hpath, hvariant, rfl⟩
      rcases holdsZone_folder_iff.1 hpath with ⟨rest, rfl, hinside⟩ | hothers
      · rw [isVariantPath_cons_iff hinside.ne_nil] at hvariant
        exact Or.inl ⟨rest, hinside, hvariant, rfl⟩
      · exact Or.inr ⟨path, hothers, hvariant, rfl⟩

end Directory

namespace Store

variable {s : Store} {name : String} {names : List String}

/-! ## Sets of names -/

theorem nodup_eraseDups {α : Type} [DecidableEq α] : ∀ xs : List α, xs.eraseDups.Nodup
  | [] => by simp
  | x :: xs => by
    rw [List.eraseDups_cons, List.nodup_cons]
    refine ⟨?_, nodup_eraseDups _⟩
    rw [List.mem_eraseDups, List.mem_filter]
    simp
  termination_by xs => xs.length
  decreasing_by exact Nat.lt_succ_of_le (List.length_filter_le _ _)

theorem mem_sortedNames_iff : name ∈ sortedNames names ↔ name ∈ names := by
  rw [sortedNames, List.mem_mergeSort, List.mem_eraseDups]

/-- Each name comes once, the smaller ones first. -/
theorem pairwise_sortedNames (names : List String) : (sortedNames names).Pairwise (· < ·) := by
  have hle : ∀ a b : String, (!decide (b < a)) = true ↔ a ≤ b := by
    intro a b
    rw [Bool.not_eq_true', decide_eq_false_iff_not, String.not_lt]
  have hordered : (sortedNames names).Pairwise fun a b => (!decide (b < a)) = true := by
    refine List.pairwise_mergeSort (fun a b c hab hbc => ?_) (fun a b => ?_) _
    · rw [hle] at *
      exact String.le_trans hab hbc
    · rw [Bool.or_eq_true, hle, hle]
      exact String.le_total a b
  have hnodup : (sortedNames names).Nodup :=
    (List.mergeSort_perm _ _).nodup_iff.2 (nodup_eraseDups names)
  refine hordered.imp₂ (fun a b hab hne => ?_) hnodup
  rw [hle] at hab
  refine Decidable.not_not.1 fun hless => hne ?_
  exact String.le_antisymm hab (String.not_lt.1 hless)

/-- The order of names and their repetition do not matter. -/
theorem sortedNames_congr {others : List String} (h : ∀ name, name ∈ names ↔ name ∈ others) :
    sortedNames names = sortedNames others := by
  refine (pairwise_sortedNames names).eq_of_mem_iff (pairwise_sortedNames others) fun name => ?_
  rw [mem_sortedNames_iff, mem_sortedNames_iff, h]

/-! ## Sources of names -/

/-- A zone file below a directory of the search path is listed under the name. -/
def ListsZone (s : Store) (directory name : String) : Prop :=
  ∃ folder path, s.root.folderAt (Directory.pathParts directory) = some folder ∧
    folder.HoldsZone path ∧ ¬Directory.IsVariantPath path ∧ name = "/".intercalate path

theorem mem_searchNames_iff :
    name ∈ s.searchNames ↔ ∃ directory ∈ s.searchPath, s.ListsZone directory name := by
  rw [searchNames, List.mem_flatMap]
  refine exists_congr fun directory => and_congr_right fun _ => ?_
  unfold ListsZone
  cases hfolder : s.root.folderAt (Directory.pathParts directory) with
  | none => simp
  | some folder =>
    dsimp only
    rw [Directory.mem_zoneNames_iff]
    simp

/-- The bytes of the package's file of zone names, if both are there. -/
def NamesBytes (s : Store) (bytes : List UInt8) : Prop :=
  s.hasPackage = true ∧ s.root.fileAt (keyPath packageFolder "zones") = some bytes

/-- The bytes are those of a text. -/
def IsTextOf (bytes : List UInt8) (text : String) : Prop :=
  String.fromUTF8? (ByteArray.mk bytes.toArray) = some text

/-- A line of the package's file of zone names, without the blanks at its ends, is the name. -/
def NamedInPackage (s : Store) (name : String) : Prop :=
  ∃ bytes text lines line, s.NamesBytes bytes ∧ IsTextOf bytes text ∧
    Text.CutsInto text.toList lines ∧ line ∈ lines ∧ Text.Strips line name.toList

/-- The package's file of zone names is there, and is no text. -/
def NamesGarbled (s : Store) : Prop :=
  ∃ bytes, s.NamesBytes bytes ∧ ∀ text, ¬IsTextOf bytes text

theorem namesBytes_iff {bytes : List UInt8} : s.NamesBytes bytes ↔
    (if s.hasPackage then s.root.fileAt (keyPath packageFolder "zones") else none) =
      some bytes := by
  unfold NamesBytes
  split
  · next h => simp [h]
  · next h => simp [h]

theorem NamesBytes.unique {bytes other : List UInt8} (h : s.NamesBytes bytes)
    (hother : s.NamesBytes other) : other = bytes :=
  Option.some.inj (hother.2.symm.trans h.2)

/-- The lines of a text, without the blanks at their ends. -/
theorem mem_trimmedLines_iff {text : String} :
    name ∈ (Text.lines text.toList).map (fun line => String.ofList (Text.trim line)) ↔
      ∃ lines line, Text.CutsInto text.toList lines ∧ line ∈ lines ∧
        Text.Strips line name.toList := by
  rw [List.mem_map]
  constructor
  · rintro ⟨line, hline, rfl⟩
    refine ⟨_, line, Text.cutsInto_iff.2 rfl, hline, ?_⟩
    rw [String.toList_ofList]
    exact Text.strips_trim line
  · rintro ⟨lines, line, hlines, hline, hname⟩
    rw [Text.cutsInto_iff.1 hlines] at hline
    exact ⟨line, hline, by rw [← Text.strips_iff.1 hname, String.ofList_toList]⟩

theorem namedInPackage_iff {bytes : List UInt8} {text : String} (hbytes : s.NamesBytes bytes)
    (htext : IsTextOf bytes text) : s.NamedInPackage name ↔
      ∃ lines line, Text.CutsInto text.toList lines ∧ line ∈ lines ∧
        Text.Strips line name.toList := by
  constructor
  · rintro ⟨other, otherText, lines, line, hother, hotherText, hline⟩
    obtain rfl := hbytes.unique hother
    obtain rfl : otherText = text := Option.some.inj (hotherText.symm.trans htext)
    exact ⟨lines, line, hline⟩
  · rintro ⟨lines, line, hline⟩
    exact ⟨bytes, text, lines, line, hbytes, htext, hline⟩

/-- The package names zones, unless its file of names is no text. -/
theorem packageNames_cases (s : Store) :
    s.NamesGarbled ∧ s.packageNames = .error .namesEncoding ∨
      ¬s.NamesGarbled ∧ ∃ names, s.packageNames = .ok names ∧
        ∀ name, name ∈ names ↔ s.NamedInPackage name := by
  unfold packageNames
  cases hfile : (if s.hasPackage then s.root.fileAt (keyPath packageFolder "zones") else none) with
  | none =>
    have hnone : ∀ bytes, ¬s.NamesBytes bytes := by
      intro bytes hbytes
      rw [namesBytes_iff, hfile] at hbytes
      contradiction
    refine Or.inr ⟨fun ⟨bytes, hbytes, _⟩ => hnone bytes hbytes, [], rfl, fun name => ?_⟩
    refine iff_of_false List.not_mem_nil ?_
    rintro ⟨bytes, -, -, -, hbytes, -⟩
    exact hnone bytes hbytes
  | some bytes =>
    have hbytes : s.NamesBytes bytes := namesBytes_iff.2 hfile
    dsimp only
    cases htext : String.fromUTF8? (ByteArray.mk bytes.toArray) with
    | none =>
      refine Or.inl ⟨⟨bytes, hbytes, fun text h => ?_⟩, rfl⟩
      rw [IsTextOf, htext] at h
      contradiction
    | some text =>
      refine Or.inr ⟨?_, _, rfl, fun name => ?_⟩
      · rintro ⟨other, hother, hgarbled⟩
        obtain rfl := hbytes.unique hother
        exact hgarbled text htext
      · rw [mem_trimmedLines_iff, namedInPackage_iff hbytes htext]

/-! ## The result -/

/-- A directory to search that is there. -/
def HasFolder (s : Store) (directory : String) : Prop :=
  ∃ folder, s.root.folderAt (Directory.pathParts directory) = some folder

theorem ListsZone.hasFolder {directory : String} (h : s.ListsZone directory name) :
    s.HasFolder directory := by
  obtain ⟨folder, path, hfolder, -⟩ := h
  exact ⟨folder, hfolder⟩

theorem available_of_packageNames {listed : List String} (h : s.packageNames = .ok listed) :
    s.available = .ok (sortedNames ((listed ++ s.searchNames).filter (· ≠ rulesName))) := by
  rw [available, h]
  rfl

theorem available_eq_ok (h : s.available = .ok names) :
    ∃ listed, s.packageNames = .ok listed ∧
      names = sortedNames ((listed ++ s.searchNames).filter (· ≠ rulesName)) := by
  obtain ⟨listed, hlisted, h⟩ := bind_eq_ok.1 h
  exact ⟨listed, hlisted, (pure_eq_ok.1 h).symm⟩

/-- Each listed name comes once, the smaller ones first. -/
theorem pairwise_available (h : s.available = .ok names) : names.Pairwise (· < ·) := by
  obtain ⟨listed, -, rfl⟩ := available_eq_ok h
  exact pairwise_sortedNames _

/-- The names that are listed. -/
theorem mem_available_iff (h : s.available = .ok names) : name ∈ names ↔
    name ≠ "posixrules" ∧
      (s.NamedInPackage name ∨ ∃ directory ∈ s.searchPath, s.ListsZone directory name) := by
  obtain ⟨listed, hlisted, rfl⟩ := available_eq_ok h
  have hmem : name ∈ listed ↔ s.NamedInPackage name := by
    rcases s.packageNames_cases with ⟨-, herror⟩ | ⟨-, names, hnames, hmem⟩
    · rw [hlisted] at herror
      contradiction
    · obtain rfl := Except.ok.inj (hlisted.symm.trans hnames)
      exact hmem name
  rw [mem_sortedNames_iff, List.mem_filter, List.mem_append, hmem, mem_searchNames_iff,
    decide_eq_true_eq, and_comm]
  rfl

/-- Only the directories that are there matter, in any order and any number of times. -/
theorem available_congr {paths : List String}
    (h : ∀ directory, s.HasFolder directory → (directory ∈ paths ↔ directory ∈ s.searchPath)) :
    { s with searchPath := paths }.available = s.available := by
  have hpackage : { s with searchPath := paths }.packageNames = s.packageNames := rfl
  rcases s.packageNames_cases with ⟨-, hlisted⟩ | ⟨-, listed, hlisted, -⟩
  · rw [available, available, hpackage, hlisted]
    rfl
  · rw [available_of_packageNames hlisted, available_of_packageNames (hpackage.trans hlisted)]
    refine congrArg Except.ok (sortedNames_congr fun name => ?_)
    rw [List.mem_filter, List.mem_filter, List.mem_append, List.mem_append, mem_searchNames_iff,
      mem_searchNames_iff]
    refine and_congr_left fun _ => or_congr_right (exists_congr fun directory => ?_)
    exact and_congr_left fun hlists => h directory (ListsZone.hasFolder (s := s) hlists)

/-- The names that a store lists, unless the package's file of names is no text, each of them once.
They are the names in that file, and those of the zone files at any depth below the directories of
the search path, without the variants at the top of a directory and without the file of rules.  The
order of the search path does not matter, nor does it matter which directories it repeats and which
of its directories are not there. -/
theorem available_exact (s : Store) :
    ((∃ names, s.available = .ok names) ↔ ¬s.NamesGarbled) ∧
      (∀ names, s.available = .ok names → names.Pairwise (· < ·) ∧
        ∀ name, name ∈ names ↔ name ≠ "posixrules" ∧
          (s.NamedInPackage name ∨ ∃ directory ∈ s.searchPath, s.ListsZone directory name)) ∧
      ∀ paths, (∀ directory, s.HasFolder directory →
          (directory ∈ paths ↔ directory ∈ s.searchPath)) →
        { s with searchPath := paths }.available = s.available := by
  refine ⟨?_, fun names h => ⟨pairwise_available h, fun name => mem_available_iff h⟩,
    fun paths => available_congr⟩
  rcases s.packageNames_cases with ⟨hgarbled, hlisted⟩ | ⟨hgarbled, listed, hlisted, -⟩
  · refine iff_of_false ?_ (not_not_intro hgarbled)
    rintro ⟨names, hnames⟩
    rw [available, hlisted] at hnames
    contradiction
  · exact iff_of_true ⟨_, available_of_packageNames hlisted⟩ hgarbled

/-- A store that has one zone of its own, beside a file of rules and a variant.  Its package names
another zone, with a blank behind the name. -/
def withVariant : Store :=
  { initial with
    root := .folder "zones" (.file "A" hourAheadFile (.file "posixrules" hourAheadFile
      (.folder "right" (.file "C" hourAheadFile .empty) .empty)))
      (.folder "tzdata" (.file "zones" [0x42, 0x20, 0x0d, 0x0a] .empty) .empty)
    searchPath := ["/zones"] }

/-- The two zones are listed, also for a search path with a directory that is not there. -/
theorem available_withVariant :
    withVariant.available = .ok ["A", "B"] ∧ ["A", "B"].Pairwise (· < ·) ∧
      (withVariant.NamedInPackage "B" ∨ ∃ directory ∈ ["/zones"],
        withVariant.ListsZone directory "B") ∧
      { withVariant with searchPath := ["/zones", "/none", "/zones"] }.available =
        withVariant.available := by
  have havailable : withVariant.available = .ok ["A", "B"] := by cbv
  have hnone : withVariant.root.folderAt (Directory.pathParts "/none") = none := by decide +kernel
  obtain ⟨-, hnames, hpath⟩ := available_exact withVariant
  obtain ⟨hordered, hmem⟩ := hnames ["A", "B"] havailable
  refine ⟨havailable, hordered, ((hmem "B").1 (by simp)).2, hpath _ fun directory hfolder => ?_⟩
  have hne : directory ≠ "/none" := by
    rintro rfl
    obtain ⟨folder, hfolder⟩ := hfolder
    rw [hnone] at hfolder
    contradiction
  simp [withVariant, hne]

end Store

end CivilTime
