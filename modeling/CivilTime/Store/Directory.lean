import CivilTime.Text.Split

/-!
# Directories

A tree of directories with files, and the places in it that paths name.

* A `Directory` lists its entries in the order in which they were made.  Each
  is a file with its bytes or a directory.
* `Directory.find` follows a path part by part.  Empty parts and `.` stay
  where they are, `..` goes to the directory above, and only a directory can
  be gone through.
* `Directory.write`, `Directory.makeDirectory` and `Directory.remove` change
  the tree, making the directories on the way.  An entry that is put into a
  directory leaves those of other names as they are (`Directory.child?_put_ne`).
-/

namespace CivilTime

/-- A directory, as the list of its entries. -/
inductive Directory where
  | empty
  | file (name : String) (content : List UInt8) (others : Directory)
  | folder (name : String) (inside : Directory) (others : Directory)
  deriving DecidableEq, Repr

/-- What a path can name. -/
inductive Entry where
  | file (content : List UInt8)
  | folder (inside : Directory)
  deriving DecidableEq, Repr

namespace Directory

/-- The entry of a name. -/
def child? (d : Directory) (name : String) : Option Entry :=
  match d with
  | empty => none
  | file n content others => if n = name then some (.file content) else others.child? name
  | folder n inside others => if n = name then some (.folder inside) else others.child? name

/-- A directory with one more entry at its end. -/
def append (d : Directory) (name : String) (entry : Entry) : Directory :=
  match d with
  | empty =>
    match entry with
    | .file content => .file name content .empty
    | .folder inside => .folder name inside .empty
  | file n content others => .file n content (others.append name entry)
  | folder n inside others => .folder n inside (others.append name entry)

/-- A directory without the entry of a name. -/
def erase (d : Directory) (name : String) : Directory :=
  match d with
  | empty => .empty
  | file n content others => if n = name then others else .file n content (others.erase name)
  | folder n inside others => if n = name then others else .folder n inside (others.erase name)

/-- A directory with an entry of a name, in place of any it had. -/
def put (d : Directory) (name : String) (entry : Entry) : Directory :=
  (d.erase name).append name entry

/-- The directory of a name, or an empty one. -/
def folderOrEmpty (d : Directory) (name : String) : Directory :=
  match d.child? name with
  | some (.folder inside) => inside
  | _ => .empty

/-! ## Paths -/

/-- The parts of a path. -/
def pathParts (path : String) : List String :=
  Text.split '/' path

/-- The names in a path from the root: its parts without empty ones and `.`,
and without those that `..` takes back. -/
def pathNames (path : String) : List String :=
  ((pathParts path).foldl (fun names part =>
    if part = "" ∨ part = "." then names
    else if part = ".." then names.drop 1
    else part :: names) []).reverse

/-- What a path names from a directory on, `above` being the directories
around it, the nearest first. -/
def findFrom (above : List Directory) (d : Directory) : List String → Option Entry
  | [] => some (.folder d)
  | part :: parts =>
    if part = "" ∨ part = "." then findFrom above d parts
    else if part = ".." then
      match above with
      | [] => findFrom [] d parts
      | outer :: rest => findFrom rest outer parts
    else
      match d.child? part with
      | some (.folder inside) => findFrom (d :: above) inside parts
      | some (.file content) => if parts.isEmpty then some (.file content) else none
      | none => none

/-- What a path names. -/
def find (root : Directory) (parts : List String) : Option Entry :=
  findFrom [] root parts

/-- The bytes of the file that a path names. -/
def fileAt (root : Directory) (parts : List String) : Option (List UInt8) :=
  match root.find parts with
  | some (.file content) => some content
  | _ => none

/-- The directory that a path names. -/
def folderAt (root : Directory) (parts : List String) : Option Directory :=
  match root.find parts with
  | some (.folder inside) => some inside
  | _ => none

/-! ## Changes -/

/-- Write a file, making the directories on the way. -/
def write (content : List UInt8) : List String → Directory → Directory
  | [], d => d
  | [name], d => d.put name (.file content)
  | name :: names, d => d.put name (.folder (write content names (d.folderOrEmpty name)))

/-- Make a directory and the directories on the way. -/
def makeDirectory : List String → Directory → Directory
  | [], d => d
  | name :: names, d => d.put name (.folder (makeDirectory names (d.folderOrEmpty name)))

/-- Remove a file. -/
def remove : List String → Directory → Directory
  | [], d => d
  | [name], d => d.erase name
  | name :: names, d =>
    match d.child? name with
    | some (.folder inside) => d.put name (.folder (remove names inside))
    | _ => d

/-! ## Entries after a change -/

theorem child?_append (d : Directory) (name other : String) (entry : Entry) :
    (d.append name entry).child? other =
      (d.child? other).or (if name = other then some entry else none) := by
  induction d with
  | empty => cases entry <;> simp [append, child?]
  | file n content others ih =>
    simp only [append, child?, ih]
    split <;> simp
  | folder n inside others _ ih =>
    simp only [append, child?, ih]
    split <;> simp

theorem child?_erase_ne (d : Directory) {name other : String} (hdifferent : name ≠ other) :
    (d.erase name).child? other = d.child? other := by
  induction d with
  | empty => rfl
  | file n content others ih =>
    simp only [erase, child?]
    split
    · next hsame => rw [if_neg (hsame ▸ hdifferent)]
    · simp only [child?, ih]
  | folder n inside others _ ih =>
    simp only [erase, child?]
    split
    · next hsame => rw [if_neg (hsame ▸ hdifferent)]
    · simp only [child?, ih]

theorem child?_put_ne (d : Directory) {name other : String} (entry : Entry)
    (hdifferent : name ≠ other) : (d.put name entry).child? other = d.child? other := by
  rw [put, child?_append, if_neg hdifferent, Option.or_none, child?_erase_ne d hdifferent]

end Directory

end CivilTime
