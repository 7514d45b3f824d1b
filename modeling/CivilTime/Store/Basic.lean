import CivilTime.Note
import CivilTime.Store.Cache
import CivilTime.Store.Key
import CivilTime.Store.Listing
import CivilTime.Store.SearchPath
import CivilTime.Text.Blank
import CivilTime.ZoneFile.Decoder

/-!
# The zone store

Where zones come from: the directories of a search path, then the zone files
of an installed package, with a cache in front.

* `Store` holds all of that as one value: the tree of files, whether the
  package is installed, the settings that the search path is taken from, the
  search path, and the cache.
* `Store.load` reads a zone from its file, and `Store.get` asks the cache
  first.  Only a zone that was read in full is cached.
* `Store.available` lists the names of all zones that files are there for.

An empty file on the search path counts as no file.
-/

namespace CivilTime

/-- The files, the settings and the cache behind zone keys. -/
structure Store where
  root : Directory
  /-- Whether the package with zone files is installed. -/
  hasPackage : Bool
  /-- The search path set in the environment. -/
  environment : Option String
  /-- The search path set when the system was built. -/
  configured : Option String
  searchPath : List String
  cache : Cache
  deriving DecidableEq

namespace Store

/-- A store without files, settings and cached zones. -/
def initial : Store where
  root := .empty
  hasPackage := true
  environment := none
  configured := none
  searchPath := []
  cache := .empty

/-! ## Loading zones -/

/-- The path of a key below a directory. -/
def keyPath (directory key : String) : List String :=
  Directory.pathParts directory ++ Directory.pathParts key

/-- The directory of the package. -/
def packageFolder : String := "/tzdata"

/-- The directory of the package's zone files. -/
def packageZones : String := "/tzdata/zoneinfo"

/-- The first file for a key on the search path. -/
def searchFile (s : Store) (key : String) : Option (List UInt8) :=
  s.searchPath.findSome? fun directory => s.root.fileAt (keyPath directory key)

/-- The file for a key in the package. -/
def packageFile (s : Store) (key : String) : Option (List UInt8) :=
  if s.hasPackage then s.root.fileAt (keyPath packageZones key) else none

/-- The file for a key: from the search path, unless there is none or it is
empty, and else from the package. -/
def zoneFile (s : Store) (key : String) : Option (List UInt8) :=
  match s.searchFile key with
  | some (byte :: bytes) => some (byte :: bytes)
  | _ => s.packageFile key

/-- Read the zone of a key from its file, and report that. -/
def load (s : Store) (key : String) : List Note × Except Failure ZoneData :=
  match s.zoneFile key with
  | none => ([], .error (.zoneNotFound (Text.quoted key)))
  | some bytes =>
    if Directory.isZoneFile bytes then
      ([.loaded key bytes.length], ZoneFile.decode (some key) bytes)
    else ([], .error (.zoneNotFound (Text.quoted key)))

/-- Read the zone of a key, if it can be a key. -/
def loadValid (s : Store) (key : String) : List Note × Except Failure ZoneData :=
  if ZoneKey.isValid key then s.load key
  else ([], .error (.zoneNotFound (Text.quoted key)))

/-- The zone of a key, from the cache or from its file, and the store after
that. -/
def get (s : Store) (key : String) : Store × List Note × Except Failure ZoneData :=
  match s.cache.find? key with
  | some data => ({ s with cache := s.cache.use key data }, [], .ok data)
  | none =>
    match s.loadValid key with
    | (notes, .ok data) => ({ s with cache := s.cache.use key data }, notes, .ok data)
    | (notes, .error failure) => (s, notes, .error failure)

/-- Drop all cached zones. -/
def clear (s : Store) : Store :=
  { s with cache := .empty }

/-- Drop the cached zones of some keys. -/
def clearKeys (s : Store) (keys : List String) : Store :=
  { s with cache := s.cache.eraseAll keys }

/-! ## Settings -/

/-- The search path that the settings say, the environment first. -/
def defaultSearchPath (s : Store) : List String :=
  match s.environment with
  | some text => SearchPath.ofText text
  | none =>
    match s.configured with
    | some text => SearchPath.ofText text
    | none => []

/-- The store with the search path that the settings say. -/
def resetSearchPath (s : Store) : Store :=
  { s with searchPath := s.defaultSearchPath }

/-! ## Listing zones -/

/-- The names in the package's file of zone names. -/
def packageNames (s : Store) : Except Failure (List String) :=
  match if s.hasPackage then s.root.fileAt (keyPath packageFolder "zones") else none with
  | none => .ok []
  | some bytes =>
    match String.fromUTF8? (ByteArray.mk bytes.toArray) with
    | none => .error .namesEncoding
    | some text =>
      .ok ((Text.lines text.toList).map fun line => String.ofList (Text.trim line))

/-- The names of the zones in the directories of the search path. -/
def searchNames (s : Store) : List String :=
  s.searchPath.flatMap fun directory =>
    match s.root.folderAt (Directory.pathParts directory) with
    | some folder => folder.zoneNames
    | none => []

/-- A file of rules, which is not the name of a zone. -/
def rulesName : String := "posixrules"

/-- Names without repetition, in the order of their code points. -/
def sortedNames (names : List String) : List String :=
  names.eraseDups.mergeSort fun a b => !decide (b < a)

/-- The names of all zones that there are files for. -/
def available (s : Store) : Except Failure (List String) := do
  let listed ← s.packageNames
  return sortedNames ((listed ++ s.searchNames).filter (· ≠ rulesName))

end Store

end CivilTime
