import CivilTime.Failure
import CivilTime.Text.Split

/-!
# Search paths

The directories in which zones are looked for, in order.

* `SearchPath.ofText` takes them from one text, with colons between them.
  Relative directories in it are left out, and the others stay as written.
* `SearchPath.ofPaths` takes a list of directories, all of which have to be
  absolute, and puts them into their normal form.
-/

namespace CivilTime.SearchPath

/-- Whether a path starts at the root. -/
def isAbsolute (path : String) : Bool :=
  path.toList.head? = some '/'

/-- The root that an absolute path starts with.  Two slashes, and no more,
are a root of their own. -/
def rootOf : List Char → String
  | '/' :: '/' :: '/' :: _ => "/"
  | '/' :: '/' :: _ => "//"
  | _ => "/"

/-- The normal form of an absolute path: without empty parts, without `.`,
and without a slash at its end. -/
def normal (path : String) : String :=
  let parts := (Text.split '/' path).filter fun part => part ≠ "" && part ≠ "."
  rootOf path.toList ++ "/".intercalate parts

/-- The absolute directories in a text. -/
def ofText (text : String) : List String :=
  if text.isEmpty then [] else (Text.split ':' text).filter isAbsolute

/-- A search path of given directories. -/
def ofPaths (paths : List String) : Except Failure (List String) :=
  if paths.all isAbsolute then .ok (paths.map normal) else .error .relativePath

end CivilTime.SearchPath
