import CivilTime.Store.Directory
import CivilTime.ZoneFile.Header

/-!
# Listing zones

The zones found below a directory: every file that begins like a zone file,
named by its path from that directory.  Two directories at the top hold
variants of the other zones and are not looked into.
-/

namespace CivilTime.Directory

/-- Whether a file begins like a zone file. -/
def isZoneFile (content : List UInt8) : Bool :=
  content.take 4 = ZoneFile.magic

/-- The directories at the top that hold variants of the other zones. -/
def isVariantFolder (name : String) : Bool :=
  name = "right" || name = "posix"

/-- The paths of the zone files at any depth, `base` being the path of the
directory itself up to its last slash. -/
def zonePaths (base : String) : Directory → List String
  | empty => []
  | file name content others =>
    if isZoneFile content then (base ++ name) :: others.zonePaths base
    else others.zonePaths base
  | folder name inside others =>
    inside.zonePaths (base ++ name ++ "/") ++ others.zonePaths base

/-- The names of the zones below a directory. -/
def zoneNames : Directory → List String
  | empty => []
  | file name content others =>
    if isZoneFile content then name :: others.zoneNames else others.zoneNames
  | folder name inside others =>
    if isVariantFolder name then others.zoneNames
    else inside.zonePaths (name ++ "/") ++ others.zoneNames

end CivilTime.Directory
