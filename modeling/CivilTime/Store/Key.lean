import CivilTime.Text.Split

/-!
# Zone keys

The keys under which zones are stored, such as `Europe/Amsterdam`.  A key
becomes part of a path, so the rule for keys leaves no way to name a file
outside the directories that are searched.
-/

namespace CivilTime.ZoneKey

/-- The characters of keys: ASCII letters and digits, and five signs. -/
def isKeyChar (c : Char) : Bool :=
  c.isAlphanum || c = '-' || c = '_' || c = '+' || c = '/' || c = '.'

/-- The characters that no key begins with. -/
def isRefusedStart (c : Char) : Bool :=
  c = '.' || c = '-' || c = '+' || c = '/'

/-- Whether a text can be a key. -/
def isValidText (text : List Char) : Bool :=
  0 < text.length && text.length < 100 && text.all isKeyChar &&
    !Text.occursIn ['.', '.'] text && !Text.occursIn ['/', '/'] text &&
    !Text.occursIn ['/', '.', '/'] text && !text.head?.any isRefusedStart &&
    !text.getLast?.any (· = '/')

/-- Whether a string can be a key. -/
def isValid (key : String) : Bool :=
  isValidText key.toList

end CivilTime.ZoneKey
