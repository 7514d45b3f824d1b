/-!
# Blanks and lines

The blank characters, trimming them from both ends of a text, and cutting a
text into lines.  A line ends at a line feed, at a carriage return, or at the
two together.
-/

namespace CivilTime.Text

/-- The blank characters: spaces, tabs, line and paragraph ends, and the
four information separators. -/
def isBlank (c : Char) : Bool :=
  let n := c.toNat
  (0x9 ≤ n && n ≤ 0xd) || (0x1c ≤ n && n ≤ 0x20) || n = 0x85 || n = 0xa0 || n = 0x1680 ||
    (0x2000 ≤ n && n ≤ 0x200a) || n = 0x2028 || n = 0x2029 || n = 0x202f || n = 0x205f ||
    n = 0x3000

/-- A text without the blanks at its ends. -/
def trim (text : List Char) : List Char :=
  ((text.dropWhile isBlank).reverse.dropWhile isBlank).reverse

/-- The lines of a text, without their ends.  Nothing follows the last line
end, so a text that ends with one has no empty line after it. -/
def lines (text : List Char) : List (List Char) :=
  go [] text
where
  /-- `current` holds the line being read, last character first. -/
  go (current : List Char) : List Char → List (List Char)
    | [] => if current.isEmpty then [] else [current.reverse]
    | '\r' :: '\n' :: rest => current.reverse :: go [] rest
    | c :: rest =>
      if c = '\n' || c = '\r' then current.reverse :: go [] rest else go (c :: current) rest

end CivilTime.Text
