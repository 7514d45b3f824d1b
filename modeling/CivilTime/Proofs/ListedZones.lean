import CivilTime.Proofs.KeyPaths
import CivilTime.Proofs.ZoneListing

/-!
# Loading listed zones

A name is listed for any zone file on the search path, and a zone is loaded from the first file
there, whatever it is.

* `Store.ReachesZone` says when that is a zone file: the first file for the key is one, or it is
  empty and the package has one.
* `Store.zoneFile_of_listsZone` finds some file for a listed key, and `Store.get_zone_iff` says that
  a request succeeds if the file that is read is a zone file.
* `Store.listed_loads_iff` is the result.
-/

namespace CivilTime

namespace Store

variable {s : Store} {directory key : String} {bytes : List UInt8}

/-! ## The file of a key -/

/-- The file comes first on the search path, of those for the key. -/
def FirstFile (s : Store) (key : String) (bytes : List UInt8) : Prop :=
  ∃ before directory after, s.searchPath = before ++ directory :: after ∧
    s.root.fileAt (keyPath directory key) = some bytes ∧
    ∀ other ∈ before, s.root.fileAt (keyPath other key) = none

theorem searchFile_eq_some_iff : s.searchFile key = some bytes ↔ s.FirstFile key bytes :=
  List.findSome?_eq_some_iff

/-- The first file for the key is a zone file, or it is empty and there is a zone file in the
package. -/
def ReachesZone (s : Store) (key : String) : Prop :=
  ∃ bytes, s.FirstFile key bytes ∧
    (ZoneFile.magic <+: bytes ∨
      bytes = [] ∧ ∃ packed, s.packageFile key = some packed ∧ ZoneFile.magic <+: packed)

/-- A directory has a file for every key that is listed for it. -/
theorem exists_fileAt_of_listsZone (hroot : s.root.WellFormed) (h : s.ListsZone directory key) :
    ∃ bytes, s.root.fileAt (keyPath directory key) = some bytes ∧ ZoneFile.magic <+: bytes := by
  obtain ⟨folder, path, hfolder, ⟨bytes, hfile, hzone⟩, -, rfl⟩ := h
  have hnames := Directory.isEntryName_of_holdsFile (hroot.folderAt hfolder) hfile
  refine ⟨bytes, ?_, hzone⟩
  rw [keyPath, Directory.pathParts_intercalate hfile.ne_nil fun name hname => (hnames name hname).2]
  exact Directory.fileAt_of_folderAt hroot hfolder hfile

theorem exists_searchFile (hroot : s.root.WellFormed) (hmem : directory ∈ s.searchPath)
    (h : s.ListsZone directory key) : ∃ bytes, s.searchFile key = some bytes := by
  obtain ⟨bytes, hfile, -⟩ := exists_fileAt_of_listsZone hroot h
  rw [← Option.isSome_iff_exists, searchFile, List.findSome?_isSome_iff]
  exact ⟨directory, hmem, by rw [hfile]; rfl⟩

/-- If the search path has a file for the key, the file that is read is a zone file just if the key
reaches one. -/
theorem reachesZone_iff (h : ∃ bytes, s.searchFile key = some bytes) :
    s.ReachesZone key ↔ ∃ bytes, s.zoneFile key = some bytes ∧ ZoneFile.magic <+: bytes := by
  obtain ⟨first, hfirst⟩ := h
  have honly : ∀ bytes, s.FirstFile key bytes ↔ bytes = first := by
    intro bytes
    rw [← searchFile_eq_some_iff, hfirst, Option.some_inj]
    exact eq_comm
  have hempty : ¬ZoneFile.magic <+: [] := by decide
  unfold ReachesZone zoneFile
  simp only [honly, exists_eq_left, hfirst]
  cases first with
  | nil => simp [hempty]
  | cons byte bytes => simp

/-- If every file for the key is a zone file, the first one is. -/
theorem reachesZone_of_forall (h : ∃ bytes, s.searchFile key = some bytes)
    (hzones : ∀ other ∈ s.searchPath, ∀ bytes, s.root.fileAt (keyPath other key) = some bytes →
      ZoneFile.magic <+: bytes) : s.ReachesZone key := by
  obtain ⟨bytes, hfirst⟩ := h
  obtain ⟨before, directory, after, hpath, hfile, hbefore⟩ := searchFile_eq_some_iff.1 hfirst
  have hmem : directory ∈ s.searchPath := by
    rw [hpath]
    exact List.mem_append_right _ List.mem_cons_self
  exact ⟨bytes, ⟨before, directory, after, hpath, hfile, hbefore⟩,
    Or.inl (hzones directory hmem bytes hfile)⟩

/-! ## Loading -/

/-- Every zone file of the store can be read as the zone of the key. -/
def ReadsZones (s : Store) (key : String) : Prop :=
  ∀ path content, s.root.HoldsFile path content → ZoneFile.magic <+: content →
    ∃ data, ZoneFile.decode (some key) content = .ok data

/-- The file that is read for a key is a file of the store. -/
theorem exists_holdsFile_of_zoneFile (h : s.zoneFile key = some bytes) :
    ∃ path, s.root.HoldsFile path bytes := by
  have hpackage : s.packageFile key = some bytes → ∃ path, s.root.HoldsFile path bytes := by
    intro h
    rw [packageFile] at h
    split at h
    · exact Directory.exists_holdsFile_of_fileAt h
    · contradiction
  rw [zoneFile] at h
  split at h
  · next first rest hfirst =>
    obtain rfl := Option.some.inj h
    obtain ⟨before, directory, after, -, hfile, -⟩ := searchFile_eq_some_iff.1 hfirst
    exact Directory.exists_holdsFile_of_fileAt hfile
  · exact hpackage h

/-- A request for a key is granted if the file that is read for it is a zone file, and else the zone
is not found. -/
theorem get_zone_cases (hempty : s.cache = .empty) (hvalid : ZoneKey.isValid key = true)
    (hreads : s.ReadsZones key) :
    (∃ bytes, s.zoneFile key = some bytes ∧ ZoneFile.magic <+: bytes) ∧
        (∃ data, (s.get key).2.2 = .ok data) ∨
      (¬∃ bytes, s.zoneFile key = some bytes ∧ ZoneFile.magic <+: bytes) ∧
        (s.get key).2.2 = .error (.zoneNotFound (Text.quoted key)) := by
  have hmissing : s.cache.find? key = none := by
    rw [hempty]
    rfl
  rw [get_of_missing hmissing, loadValid, if_pos hvalid, load]
  cases hfile : s.zoneFile key with
  | none => exact Or.inr ⟨by simp, rfl⟩
  | some bytes =>
    dsimp only
    by_cases hzone : ZoneFile.magic <+: bytes
    · obtain ⟨path, hholds⟩ := exists_holdsFile_of_zoneFile hfile
      rw [if_pos (Directory.isZoneFile_iff.2 hzone)]
      exact Or.inl ⟨⟨bytes, rfl, hzone⟩, hreads path bytes hholds hzone⟩
    · rw [if_neg fun h => hzone (Directory.isZoneFile_iff.1 h)]
      refine Or.inr ⟨?_, rfl⟩
      rintro ⟨other, hother, hmagic⟩
      obtain rfl := Option.some.inj hother
      exact hzone hmagic

/-! ## The result -/

/-- A key that is listed for a directory of the search path, in a store with readable zone files and
an empty cache.  It is loaded if the first file for it is a zone file, or is empty and the package
has one; so it is if all files for it are zone files.  Else the zone is not found, although it is
listed. -/
theorem listed_loads_iff (hroot : s.root.WellFormed) (hempty : s.cache = .empty)
    (hreads : s.ReadsZones key) (hmem : directory ∈ s.searchPath)
    (hlists : s.ListsZone directory key) (hvalid : ZoneKey.isValid key = true) :
    (∀ names, s.available = .ok names → (key ∈ names ↔ key ≠ "posixrules")) ∧
      ((∃ data, (s.get key).2.2 = .ok data) ↔ s.ReachesZone key) ∧
      (¬s.ReachesZone key → (s.get key).2.2 = .error (.zoneNotFound (Text.quoted key))) ∧
      ((∀ other ∈ s.searchPath, ∀ bytes, s.root.fileAt (keyPath other key) = some bytes →
        ZoneFile.magic <+: bytes) → s.ReachesZone key) := by
  have hfile := exists_searchFile hroot hmem hlists
  have hcases := get_zone_cases hempty hvalid hreads
  rw [← reachesZone_iff hfile] at hcases
  refine ⟨fun names hnames => ?_, ?_, fun hreaches => ?_, reachesZone_of_forall hfile⟩
  · rw [mem_available_iff hnames]
    exact and_iff_left (Or.inr ⟨directory, hmem, hlists⟩)
  · rcases hcases with ⟨hreaches, hdata⟩ | ⟨hreaches, herror⟩
    · exact iff_of_true hdata hreaches
    · refine iff_of_false ?_ hreaches
      rintro ⟨data, hdata⟩
      rw [herror] at hdata
      contradiction
  · rcases hcases with ⟨hreaches', -⟩ | ⟨-, herror⟩
    · exact absurd hreaches' hreaches
    · exact herror

/-- A store with two directories.  One has a file that is no zone file, and an empty file; the other
one has zone files with the same names. -/
def twoDirectories (searchPath : List String) : Store :=
  { initial with
    root := .folder "a" (.file "A" [0x68] (.file "B" [] .empty))
      (.folder "b" (.file "A" hourAheadFile (.file "B" hourAheadFile .empty)) .empty)
    searchPath }

theorem readsZones_twoDirectories (searchPath : List String) (key : String) :
    (twoDirectories searchPath).ReadsZones key := by
  intro path content hfile hzone
  simp only [twoDirectories, Directory.holdsFile_folder_iff, Directory.holdsFile_file_iff,
    Directory.not_holdsFile_empty, or_false] at hfile
  rcases hfile with ⟨-, -, ⟨-, rfl⟩ | ⟨-, rfl⟩⟩ | ⟨-, -, ⟨-, rfl⟩ | ⟨-, rfl⟩⟩
  · exact absurd hzone (by decide)
  · exact absurd hzone (by decide)
  · exact ⟨_, rfl⟩
  · exact ⟨_, rfl⟩

theorem listsZone_twoDirectories (searchPath : List String) :
    (twoDirectories searchPath).ListsZone "/b" "A" ∧
      (twoDirectories searchPath).ListsZone "/b" "B" :=
  ⟨⟨_, ["A"], rfl, ⟨_, .file _ _ _, List.prefix_append _ _⟩, id, rfl⟩,
    ⟨_, ["B"], rfl, ⟨_, .besideFile _ _ (.file _ _ _), List.prefix_append _ _⟩, id, rfl⟩⟩

/-- With the zone files first, a zone is loaded. -/
theorem loads_zoneFileFirst :
    (∃ data, ((twoDirectories ["/b", "/a"]).get "A").2.2 = .ok data) ∧
      (twoDirectories ["/b", "/a"]).available = .ok ["A", "B"] := by
  have hreaches : (twoDirectories ["/b", "/a"]).ReachesZone "A" :=
    ⟨hourAheadFile, ⟨[], "/b", ["/a"], rfl, by decide +kernel, List.forall_mem_nil _⟩,
      Or.inl (List.prefix_append _ _)⟩
  obtain ⟨-, hloads, -⟩ := listed_loads_iff (by decide +kernel) rfl
    (readsZones_twoDirectories ["/b", "/a"] "A") List.mem_cons_self
    (listsZone_twoDirectories ["/b", "/a"]).1 (by decide +kernel)
  exact ⟨hloads.2 hreaches, by cbv⟩

/-- With the other files first, both zones are listed and neither is found. -/
theorem not_loads_otherFileFirst :
    (twoDirectories ["/a", "/b"]).root.WellFormed ∧
      (twoDirectories ["/a", "/b"]).cache = .empty ∧
      (∀ key, (twoDirectories ["/a", "/b"]).ReadsZones key) ∧
      (twoDirectories ["/a", "/b"]).ListsZone "/b" "A" ∧
      (twoDirectories ["/a", "/b"]).ListsZone "/b" "B" ∧
      ZoneKey.isValid "A" = true ∧ ZoneKey.isValid "B" = true ∧
      (twoDirectories ["/a", "/b"]).available = .ok ["A", "B"] ∧
      ((twoDirectories ["/a", "/b"]).get "A").2.2 = .error (.zoneNotFound (Text.quoted "A")) ∧
      ((twoDirectories ["/a", "/b"]).get "B").2.2 = .error (.zoneNotFound (Text.quoted "B")) :=
  ⟨by decide +kernel, rfl, readsZones_twoDirectories _, (listsZone_twoDirectories _).1,
    (listsZone_twoDirectories _).2, by decide +kernel, by decide +kernel, by cbv, by cbv, by cbv⟩

end Store

end CivilTime
