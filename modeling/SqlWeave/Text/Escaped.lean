import SqlWeave.Text.CharRanges
import SqlWeave.Text.Hex

/-!
# Escaped text

A text between double quotes that shows every character : the usual escapes for the
common ones, `\u{…}` with the code point for what would not print, would show nothing or
would attach to the character before it, and every other character as it is. A single quote
needs no escape.
-/

namespace SqlWeave.Text

/-- Whether a character is shown by itself. -/
def showsItself (c : Char) : Bool :=
  (' ' ≤ c && c ≤ '~') ||
    !(inRanges unprintable c.toNat || inRanges extendingMarks c.toNat ||
      inRanges fillers c.toNat)

/-- A character as it stands in an escaped text. -/
def escapedChar (c : Char) : List Char :=
  if c == '\x00' then ['\\', '0']
  else if c == '\t' then ['\\', 't']
  else if c == '\n' then ['\\', 'n']
  else if c == '\r' then ['\\', 'r']
  else if c == '"' then ['\\', '"']
  else if c == '\\' then ['\\', '\\']
  else if showsItself c then [c]
  else '\\' :: 'u' :: '{' :: ((lowerHex c.toNat).toList ++ ['}'])

/-- A text between double quotes with its characters escaped. -/
def escaped (s : String) : String :=
  .ofList ('"' :: (s.toList.flatMap escapedChar ++ ['"']))

end SqlWeave.Text
