import CivilTime.Zone.Data

/-!
# The cache of zones

The zones in use most recently, at most eight of them, the least recent
first.  A zone that is used moves to the end; a ninth zone displaces the
first.
-/

namespace CivilTime

/-- Cached zones with their keys, the least recently used first. -/
structure Cache where
  entries : List (String × ZoneData)
  deriving DecidableEq

namespace Cache

/-- The number of zones that are kept. -/
def capacity : Nat := 8

/-- A cache without zones. -/
def empty : Cache := ⟨[]⟩

/-- The keys of the cached zones, the least recently used first. -/
def keys (c : Cache) : List String :=
  c.entries.map Prod.fst

/-- The cached zone of a key. -/
def find? (c : Cache) (key : String) : Option ZoneData :=
  c.entries.lookup key

/-- The cache without the zone of a key. -/
def erase (c : Cache) (key : String) : Cache :=
  ⟨c.entries.filter fun entry => entry.1 ≠ key⟩

/-- The cache without its first entries, down to its capacity. -/
def trim (c : Cache) : Cache :=
  ⟨c.entries.drop (c.entries.length - capacity)⟩

/-- The cache after the use of a zone. -/
def use (c : Cache) (key : String) (data : ZoneData) : Cache :=
  trim ⟨(c.erase key).entries ++ [(key, data)]⟩

/-- The cache without the zones of some keys. -/
def eraseAll (c : Cache) (keys : List String) : Cache :=
  keys.foldl erase c

theorem length_use_le (c : Cache) (key : String) (data : ZoneData) :
    (c.use key data).entries.length ≤ capacity := by
  simp only [use, trim, List.length_drop]
  omega

end Cache

end CivilTime
