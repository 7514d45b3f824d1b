import CivilTime.Text.Padded
import CivilTime.Text.Printable

/-!
# Quoted text

Text between quotes, as it stands in messages.  Single quotes are used
unless the text has a single quote and no double quote.  The backslash, the
quote in use, line feed, carriage return and tab are written with a
backslash, and other unprintable characters as their hexadecimal code in two,
four or eight digits.
-/

namespace CivilTime.Text

/-- The quote that a text is written in. -/
def quoteFor (text : List Char) : Char :=
  if text.contains '\'' && !text.contains '"' then '"' else '\''

/-- An unprintable character as its code: `\xhh`, `\uhhhh` or `\Uhhhhhhhh`. -/
def codeEscape (c : Char) : String :=
  if c.toNat < 0x100 then "\\x" ++ paddedHex 2 c.toNat
  else if c.toNat < 0x10000 then "\\u" ++ paddedHex 4 c.toNat
  else "\\U" ++ paddedHex 8 c.toNat

/-- One character inside the given quotes. -/
def quotedChar (quote c : Char) : String :=
  if c = '\\' || c = quote then String.ofList ['\\', c]
  else if c = '\n' then "\\n"
  else if c = '\r' then "\\r"
  else if c = '\t' then "\\t"
  else if isPrintable c then c.toString
  else codeEscape c

/-- A text between quotes. -/
def quoted (text : String) : String :=
  let quote := quoteFor text.toList
  quote.toString ++ String.join (text.toList.map (quotedChar quote)) ++ quote.toString

/-- A text between quotes, or `None` where there is no text. -/
def quotedOption : Option String → String
  | some text => quoted text
  | none => "None"

/-- The two truth values as they are written. -/
def truth (b : Bool) : String :=
  if b then "True" else "False"

end CivilTime.Text
