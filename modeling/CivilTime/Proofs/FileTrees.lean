import CivilTime.Proofs.Paths

/-!
# Trees of files

What is in a tree of directories, apart from the paths that lead there.

* `Directory.HoldsFile` says that a file is somewhere in a tree, and `Directory.WellFormed` that
  all entries have names that a path can have, different ones in one directory.
* In such a tree the names that lead to a file are a path to it (`Directory.fileAt_of_holdsFile`),
  and every path to a file leads to one of the tree (`Directory.exists_holdsFile_of_fileAt`).
  Both rest on `Directory.findFrom_induction`: what passes from a directory to those inside it
  holds wherever a path leads.
* A written path has the parts that it is written from (`Directory.pathParts_intercalate`).
* Changes leave trees well-formed: `Directory.wellFormed_write`,
  `Directory.wellFormed_makeDirectory` and `Directory.wellFormed_remove`.
-/

namespace CivilTime

/-- Texts without the separator are the parts of the text that is put together from them. -/
theorem Text.splitAt_intercalate {separator : Char} {parts : List (List Char)} (hne : parts ≠ [])
    (habsent : ∀ part ∈ parts, separator ∉ part) :
    splitAt separator ([separator].intercalate parts) = parts := by
  induction parts with
  | nil => contradiction
  | cons part parts ih =>
    rw [List.forall_mem_cons] at habsent
    obtain ⟨hpart, hparts⟩ := habsent
    cases parts with
    | nil => rw [List.intercalate_singleton, splitAt_of_notMem hpart]
    | cons next parts =>
      rw [List.intercalate_cons_cons, List.append_assoc, List.singleton_append,
        splitAt_append_cons, splitAt_of_notMem hpart, ih (by simp) hparts, List.singleton_append]

namespace Directory

variable {d inside others root : Directory} {name n : String} {path parts : List String}
  {content c : List UInt8}

/-! ## Files of a tree -/

/-- A file of a tree, by the names that lead to it. -/
inductive HoldsFile : Directory → List String → List UInt8 → Prop
  | file (name : String) (content : List UInt8) (others : Directory) :
    HoldsFile (.file name content others) [name] content
  | inside {inside : Directory} {path : List String} {content : List UInt8} (name : String)
    (others : Directory) (hfound : HoldsFile inside path content) :
    HoldsFile (.folder name inside others) (name :: path) content
  | besideFile {others : Directory} {path : List String} {content : List UInt8} (name : String)
    (other : List UInt8) (hfound : HoldsFile others path content) :
    HoldsFile (.file name other others) path content
  | besideFolder {others : Directory} {path : List String} {content : List UInt8} (name : String)
    (inside : Directory) (hfound : HoldsFile others path content) :
    HoldsFile (.folder name inside others) path content

theorem not_holdsFile_empty : ¬HoldsFile .empty path content := nofun

theorem holdsFile_file_iff :
    HoldsFile (.file n c others) path content ↔
      path = [n] ∧ content = c ∨ others.HoldsFile path content := by
  constructor
  · intro h
    cases h with
    | file => exact Or.inl ⟨rfl, rfl⟩
    | besideFile _ _ hfound => exact Or.inr hfound
  · rintro (⟨rfl, rfl⟩ | hfound)
    · exact .file _ _ _
    · exact .besideFile _ _ hfound

theorem holdsFile_folder_iff :
    HoldsFile (.folder n inside others) path content ↔
      (∃ rest, path = n :: rest ∧ inside.HoldsFile rest content) ∨
        others.HoldsFile path content := by
  constructor
  · intro h
    cases h with
    | inside _ _ hfound => exact Or.inl ⟨_, rfl, hfound⟩
    | besideFolder _ _ hfound => exact Or.inr hfound
  · rintro (⟨rest, rfl, hfound⟩ | hfound)
    · exact .inside _ _ hfound
    · exact .besideFolder _ _ hfound

theorem HoldsFile.ne_nil (h : d.HoldsFile path content) : path ≠ [] := by
  induction h with
  | file => simp
  | inside => simp
  | besideFile _ _ _ ih => exact ih
  | besideFolder _ _ _ ih => exact ih

/-- A file of a directory is among its files. -/
theorem holdsFile_of_child? (h : d.child? name = some (.file content)) :
    d.HoldsFile [name] content := by
  induction d with
  | empty => contradiction
  | file n c others ih =>
    rw [child?] at h
    split at h
    · next heq =>
      obtain rfl := Entry.file.inj (Option.some.inj h)
      exact heq ▸ .file _ _ _
    · exact .besideFile _ _ (ih h)
  | folder n inside others _ ih =>
    rw [child?] at h
    split at h
    · simp at h
    · exact .besideFolder _ _ (ih h)

/-- The files of a directory inside another are among the files of that one. -/
theorem holdsFile_of_child?_folder (h : d.child? name = some (.folder inside))
    (hfile : inside.HoldsFile path content) : d.HoldsFile (name :: path) content := by
  induction d with
  | empty => contradiction
  | file n c others ih =>
    rw [child?] at h
    split at h
    · simp at h
    · exact .besideFile _ _ (ih h)
  | folder n inside' others _ ih =>
    rw [child?] at h
    split at h
    · next heq =>
      obtain rfl := Entry.folder.inj (Option.some.inj h)
      exact heq ▸ .inside _ _ hfile
    · exact .besideFolder _ _ (ih h)

/-! ## Well-formed trees -/

/-- The name can stand in a path, as the name of an entry. -/
def IsEntryName (name : String) : Prop :=
  IsName name ∧ '/' ∉ name.toList

instance : DecidablePred IsEntryName := fun name =>
  inferInstanceAs (Decidable (IsName name ∧ '/' ∉ name.toList))

/-- The entries of every directory in a tree have names, and no two of them the same. -/
def WellFormed : Directory → Prop
  | empty => True
  | file name _ others => IsEntryName name ∧ others.child? name = none ∧ others.WellFormed
  | folder name inside others =>
    IsEntryName name ∧ others.child? name = none ∧ inside.WellFormed ∧ others.WellFormed

instance decidableWellFormed : (d : Directory) → Decidable d.WellFormed
  | empty => inferInstanceAs (Decidable True)
  | file name _ others =>
    have := decidableWellFormed others
    inferInstanceAs (Decidable (IsEntryName name ∧ others.child? name = none ∧ others.WellFormed))
  | folder name inside others =>
    have := decidableWellFormed inside
    have := decidableWellFormed others
    inferInstanceAs (Decidable
      (IsEntryName name ∧ others.child? name = none ∧ inside.WellFormed ∧ others.WellFormed))

/-- An entry of a well-formed tree has a name, and is a file or a well-formed tree itself. -/
theorem WellFormed.child? (hd : d.WellFormed) {entry : Entry} (h : d.child? name = some entry) :
    IsEntryName name ∧ ∀ inside, entry = .folder inside → inside.WellFormed := by
  induction d with
  | empty => contradiction
  | file n c others ih =>
    rw [Directory.child?] at h
    split at h
    · next heq =>
      obtain rfl := Option.some.inj h
      refine ⟨heq ▸ hd.1, fun inside hfolder => ?_⟩
      contradiction
    · exact ih hd.2.2 h
  | folder n inside others _ ih =>
    rw [Directory.child?] at h
    split at h
    · next heq =>
      obtain rfl := Option.some.inj h
      refine ⟨heq ▸ hd.1, fun inside' hinside => ?_⟩
      obtain rfl := Entry.folder.inj hinside
      exact hd.2.2.1
    · exact ih hd.2.2.2 h

theorem WellFormed.folderOrEmpty (hd : d.WellFormed) (name : String) :
    (d.folderOrEmpty name).WellFormed := by
  unfold Directory.folderOrEmpty
  split
  · next inside h => exact (hd.child? h).2 inside rfl
  · trivial

/-- An entry after the first one of a directory has another name. -/
theorem child?_others {entry : Entry} (hfree : others.child? n = none)
    (h : others.child? name = some entry) : n ≠ name := by
  rintro rfl
  rw [hfree] at h
  contradiction

/-- The first of the names that lead to a file is that of an entry: of the file itself, or of a
directory from which the others lead on. -/
theorem exists_child?_of_holdsFile (hd : d.WellFormed) (h : d.HoldsFile path content) :
    ∃ name rest entry, path = name :: rest ∧ d.child? name = some entry ∧
      (entry = .file content ∧ rest = [] ∨
        ∃ inside, entry = .folder inside ∧ inside.HoldsFile rest content) := by
  induction h with
  | file name content others =>
    exact ⟨name, [], _, rfl, if_pos rfl, Or.inl ⟨rfl, rfl⟩⟩
  | inside name others hfound => exact ⟨name, _, _, rfl, if_pos rfl, Or.inr ⟨_, rfl, hfound⟩⟩
  | besideFile n c hfound ih =>
    obtain ⟨name, rest, entry, hpath, hchild, hentry⟩ := ih hd.2.2
    exact ⟨name, rest, entry, hpath, (if_neg (child?_others hd.2.1 hchild)).trans hchild, hentry⟩
  | besideFolder n inside hfound ih =>
    obtain ⟨name, rest, entry, hpath, hchild, hentry⟩ := ih hd.2.2.2
    exact ⟨name, rest, entry, hpath, (if_neg (child?_others hd.2.1 hchild)).trans hchild, hentry⟩

/-- The names that lead to a file are names of entries. -/
theorem isEntryName_of_holdsFile (hd : d.WellFormed) (h : d.HoldsFile path content) :
    ∀ name ∈ path, IsEntryName name := by
  induction h with
  | file name content others => exact List.forall_mem_singleton.2 hd.1
  | inside name others hfound ih => exact List.forall_mem_cons.2 ⟨hd.1, ih hd.2.2.1⟩
  | besideFile n c hfound ih => exact ih hd.2.2
  | besideFolder n inside hfound ih => exact ih hd.2.2.2

/-! ## Paths to files -/

theorem fileAt_cons (hname : IsName name) (habove : ".." ∉ parts) (d : Directory) :
    d.fileAt (name :: parts) =
      match d.child? name with
      | some (.folder inside) => inside.fileAt parts
      | some (.file content) => if parts.isEmpty then some content else none
      | none => none := by
  rw [fileAt, find, findFrom_cons, if_neg (not_or.2 ⟨hname.1, hname.2.1⟩), if_neg hname.2.2]
  cases d.child? name with
  | none => rfl
  | some entry =>
    cases entry with
    | folder inside =>
      dsimp only
      rw [findFrom_of_noAbove habove]
      rfl
    | file content =>
      dsimp only
      cases parts.isEmpty <;> rfl

theorem noAbove_of_isEntryName (h : ∀ name ∈ path, IsEntryName name) : ".." ∉ path :=
  fun hmem => (h _ hmem).1.2.2 rfl

/-- The names that lead to a file of a well-formed tree are a path to it. -/
theorem fileAt_of_holdsFile (hd : d.WellFormed) (h : d.HoldsFile path content) :
    d.fileAt path = some content := by
  induction path generalizing d with
  | nil => exact absurd rfl h.ne_nil
  | cons name rest ih =>
    obtain ⟨hname, hrest⟩ := List.forall_mem_cons.1 (isEntryName_of_holdsFile hd h)
    obtain ⟨_, _, entry, hpath, hchild, hentry⟩ := exists_child?_of_holdsFile hd h
    obtain ⟨rfl, rfl⟩ := List.cons.inj hpath
    rw [fileAt_cons hname.1 (noAbove_of_isEntryName hrest), hchild]
    rcases hentry with ⟨rfl, rfl⟩ | ⟨inside, rfl, hinside⟩
    · rfl
    · exact ih ((hd.child? hchild).2 inside rfl) hinside

/-- What passes from a directory to those inside it holds of every directory to which a path leads,
and of the directory of every file. -/
theorem findFrom_induction {P : Directory → Prop}
    (hinside : ∀ d name inside, P d → d.child? name = some (.folder inside) → P inside)
    {above : List Directory} {d : Directory} {entry : Entry} (habove : ∀ outer ∈ above, P outer)
    (hd : P d) (h : findFrom above d parts = some entry) :
    (∃ inside, entry = .folder inside ∧ P inside) ∨
      ∃ content folder name, entry = .file content ∧ P folder ∧
        folder.child? name = some (.file content) := by
  induction parts generalizing above d with
  | nil => exact Or.inl ⟨d, (Option.some.inj h).symm, hd⟩
  | cons part parts ih =>
    rw [findFrom_cons] at h
    split at h
    · exact ih habove hd h
    · split at h
      · -- The directory above is one of those around, or the root again.
        refine ih (fun outer hmem => habove outer (List.mem_of_mem_tail hmem)) ?_ h
        cases above with
        | nil => exact hd
        | cons outer above => exact habove outer List.mem_cons_self
      · split at h
        · next inside hchild =>
          exact ih (List.forall_mem_cons.2 ⟨hd, habove⟩) (hinside d part inside hd hchild) h
        · next content hchild =>
          split at h
          · exact Or.inr ⟨content, d, part, (Option.some.inj h).symm, hd, hchild⟩
          · contradiction
        · contradiction

theorem fileAt_eq_some_iff : root.fileAt parts = some content ↔
    findFrom [] root parts = some (.file content) := by
  unfold fileAt find
  split
  · next c heq => simp [heq]
  · next hne => simpa using fun h => hne content h

theorem folderAt_eq_some_iff : root.folderAt parts = some inside ↔
    findFrom [] root parts = some (.folder inside) := by
  unfold folderAt find
  split
  · next c heq => simp [heq]
  · next hne => simpa using fun h => hne inside h

/-- What passes from a directory to those inside it holds of every directory of a path. -/
theorem folderAt_induction {P : Directory → Prop}
    (hinside : ∀ d name inside, P d → d.child? name = some (.folder inside) → P inside)
    (hroot : P root) (h : root.folderAt parts = some inside) : P inside := by
  rcases findFrom_induction hinside (List.forall_mem_nil _) hroot (folderAt_eq_some_iff.1 h) with
    ⟨inside', heq, hP⟩ | ⟨content, folder, name, heq, -⟩
  · exact Entry.folder.inj heq ▸ hP
  · contradiction

theorem WellFormed.folderAt (hroot : root.WellFormed) (h : root.folderAt parts = some inside) :
    inside.WellFormed :=
  folderAt_induction (fun _ _ inside hd hchild => (hd.child? hchild).2 inside rfl) hroot h

/-- All files of a directory are among the files of another. -/
def FilesOf (root d : Directory) : Prop :=
  ∀ path content, d.HoldsFile path content → ∃ path, root.HoldsFile path content

theorem FilesOf.child? (h : FilesOf root d) (hchild : d.child? name = some (.folder inside)) :
    FilesOf root inside :=
  fun _ _ hfile => h _ _ (holdsFile_of_child?_folder hchild hfile)

/-- Every path to a file leads to a file of the tree. -/
theorem exists_holdsFile_of_fileAt (h : root.fileAt parts = some content) :
    ∃ path, root.HoldsFile path content := by
  have hroot : FilesOf root root := fun path _ hfile => ⟨path, hfile⟩
  rcases findFrom_induction (fun _ _ _ hd hchild => FilesOf.child? hd hchild)
    (List.forall_mem_nil _) hroot
    (fileAt_eq_some_iff.1 h) with ⟨inside, heq, -⟩ | ⟨content', folder, name, heq, hfiles, hchild⟩
  · contradiction
  · obtain rfl := Entry.file.inj heq
    exact hfiles _ _ (holdsFile_of_child? hchild)

/-- The files of a directory that a path leads to, by their names in it, are files of the whole
tree behind that path. -/
theorem fileAt_of_folderAt (hroot : root.WellFormed) (h : root.folderAt parts = some inside)
    (hfile : inside.HoldsFile path content) : root.fileAt (parts ++ path) = some content := by
  have hinside := hroot.folderAt h
  rw [fileAt_append hfile.ne_nil (noAbove_of_isEntryName (isEntryName_of_holdsFile hinside hfile)),
    h]
  exact fileAt_of_holdsFile hinside hfile

/-! ## Written paths -/

/-- The parts of a written path are those that it is written from. -/
theorem pathParts_intercalate (hne : parts ≠ []) (h : ∀ part ∈ parts, '/' ∉ part.toList) :
    pathParts ("/".intercalate parts) = parts := by
  rw [pathParts, Text.split, String.toList_intercalate]
  have hslash : "/".toList = ['/'] := rfl
  rw [hslash, Text.splitAt_intercalate (by simpa using hne) (by simpa using h), List.map_map]
  simp [Function.comp_def, String.ofList_toList]

theorem isName_of_mem_foldl_enter {names : List String} (h : name ∈ parts.foldl enter names) :
    name ∈ names ∨ name ∈ parts ∧ IsName name := by
  induction parts generalizing names with
  | nil => exact Or.inl h
  | cons part parts ih =>
    rcases ih h with hmem | ⟨hmem, hname⟩
    · rw [enter] at hmem
      split at hmem
      · exact Or.inl hmem
      · next hne =>
        split at hmem
        · exact Or.inl (List.mem_of_mem_drop hmem)
        · next hdots =>
          rcases List.mem_cons.1 hmem with rfl | hmem
          · exact Or.inr ⟨List.mem_cons_self, (not_or.1 hne).1, (not_or.1 hne).2, hdots⟩
          · exact Or.inl hmem
    · exact Or.inr ⟨List.mem_cons_of_mem _ hmem, hname⟩

/-- The names in a path are names that entries can have. -/
theorem isEntryName_of_mem_pathNames {path : String} (h : name ∈ pathNames path) :
    IsEntryName name := by
  rw [pathNames_eq, List.mem_reverse] at h
  rcases isName_of_mem_foldl_enter h with hmem | ⟨hmem, hname⟩
  · contradiction
  · obtain ⟨part, hpart, rfl⟩ := List.mem_map.1 hmem
    refine ⟨hname, ?_⟩
    rw [String.toList_ofList]
    exact Text.notMem_of_mem_splitAt hpart

/-! ## Changes -/

theorem child?_erase_self (hd : d.WellFormed) (name : String) :
    (d.erase name).child? name = none := by
  induction d with
  | empty => rfl
  | file n c others ih =>
    rw [erase]
    split
    · next heq => exact heq ▸ hd.2.1
    · next hne => exact (if_neg hne).trans (ih hd.2.2)
  | folder n inside others _ ih =>
    rw [erase]
    split
    · next heq => exact heq ▸ hd.2.1
    · next hne => exact (if_neg hne).trans (ih hd.2.2.2)

theorem WellFormed.erase (hd : d.WellFormed) (name : String) : (d.erase name).WellFormed := by
  induction d with
  | empty => trivial
  | file n c others ih =>
    rw [Directory.erase]
    split
    · exact hd.2.2
    · next hne => exact ⟨hd.1, (child?_erase_ne _ (Ne.symm hne)).trans hd.2.1, ih hd.2.2⟩
  | folder n inside others _ ih =>
    rw [Directory.erase]
    split
    · exact hd.2.2.2
    · next hne =>
      exact ⟨hd.1, (child?_erase_ne _ (Ne.symm hne)).trans hd.2.1, hd.2.2.1, ih hd.2.2.2⟩

theorem WellFormed.append (hd : d.WellFormed) {entry : Entry} (hname : IsEntryName name)
    (hfree : d.child? name = none) (hentry : ∀ inside, entry = .folder inside → inside.WellFormed) :
    (d.append name entry).WellFormed := by
  -- An entry that is there keeps its name to itself.
  have hother : ∀ {others : Directory} {n : String}, others.child? n = none → n ≠ name →
      (others.append name entry).child? n = none := by
    intro others n hnone hne
    rw [child?_append, hnone, if_neg (Ne.symm hne), Option.none_or]
  induction d with
  | empty =>
    cases entry with
    | file content => exact ⟨hname, rfl, trivial⟩
    | folder inside => exact ⟨hname, rfl, hentry inside rfl, trivial⟩
  | file n c others ih =>
    rw [Directory.child?] at hfree
    split at hfree
    · contradiction
    · next hne => exact ⟨hd.1, hother hd.2.1 hne, ih hd.2.2 hfree⟩
  | folder n inside others _ ih =>
    rw [Directory.child?] at hfree
    split at hfree
    · contradiction
    · next hne => exact ⟨hd.1, hother hd.2.1 hne, hd.2.2.1, ih hd.2.2.2 hfree⟩

theorem WellFormed.put (hd : d.WellFormed) {entry : Entry} (hname : IsEntryName name)
    (hentry : ∀ inside, entry = .folder inside → inside.WellFormed) :
    (d.put name entry).WellFormed :=
  (hd.erase name).append hname (child?_erase_self hd name) hentry

theorem WellFormed.putFolder (hd : d.WellFormed) (hname : IsEntryName name)
    (hinside : inside.WellFormed) : (d.put name (.folder inside)).WellFormed :=
  hd.put hname fun _ heq => Entry.folder.inj heq ▸ hinside

/-- Writing a file keeps a tree well-formed, the directories on the way included. -/
theorem wellFormed_write (content : List UInt8) (hpath : ∀ name ∈ path, IsEntryName name)
    (hd : d.WellFormed) : (d.write content path).WellFormed := by
  fun_induction write content path d with
  | case1 d => exact hd
  | case2 name d => exact hd.put (hpath name List.mem_cons_self) nofun
  | case3 name names d hne ih =>
    obtain ⟨hname, hnames⟩ := List.forall_mem_cons.1 hpath
    exact hd.putFolder hname (ih hnames (hd.folderOrEmpty name))

/-- So does making a directory. -/
theorem wellFormed_makeDirectory (hpath : ∀ name ∈ path, IsEntryName name) (hd : d.WellFormed) :
    (makeDirectory path d).WellFormed := by
  fun_induction makeDirectory path d with
  | case1 d => exact hd
  | case2 name names d ih =>
    obtain ⟨hname, hnames⟩ := List.forall_mem_cons.1 hpath
    exact hd.putFolder hname (ih hnames (hd.folderOrEmpty name))

/-- So does removing a file. -/
theorem wellFormed_remove (hpath : ∀ name ∈ path, IsEntryName name) (hd : d.WellFormed) :
    (remove path d).WellFormed := by
  fun_induction remove path d with
  | case1 d => exact hd
  | case2 name d => exact hd.erase name
  | case3 name names d hne inside hchild ih =>
    obtain ⟨hname, hnames⟩ := List.forall_mem_cons.1 hpath
    exact hd.putFolder hname (ih hnames ((hd.child? hchild).2 inside rfl))
  | case4 name names d hne hchild => exact hd

end Directory

end CivilTime
