import SqlWeave.Decimal.Notation
import SqlWeave.Dialect
import SqlWeave.RenderError
import SqlWeave.Text.Hex
import SqlWeave.Value

/-!
# Literals

Every value written out in a dialect's own syntax. SQLite doubles a single quote inside a
text and has no other escape. The other dialects share one table of backslash escapes;
PostgreSQL marks such a text with an `E` in front. Byte strings are written in hexadecimal,
each dialect with a wrapper of its own, and moments as quoted local times, rounded to the
microsecond. A floating-point number has a literal only if it is finite.
-/

namespace SqlWeave.Dialect

/-- A character inside a text literal with backslash escapes. -/
def escapedChar (c : Char) : List Char :=
  if c == '\x00' then ['\\', '0']
  else if c == '\x08' then ['\\', 'b']
  else if c == '\n' then ['\\', 'n']
  else if c == '\r' then ['\\', 'r']
  else if c == '\t' then ['\\', 't']
  else if c == '\x1a' then ['\\', 'Z']
  else if c == '\'' || c == '"' || c == '\\' then ['\\', c]
  else [c]

/-- A character inside a text literal whose only escape is the doubled quote. -/
def doubledChar (c : Char) : List Char := if c == '\'' then ['\'', '\''] else [c]

/-- The characters between the quotes of a text literal. -/
def textBody (d : Dialect) (cs : List Char) : List Char :=
  match d with
  | .sqlite => cs.flatMap doubledChar
  | .mysql | .postgres | .clickhouse => cs.flatMap escapedChar

/-- What stands before the opening quote of a text literal. -/
def textMark : Dialect → List Char
  | .postgres => ['E']
  | .mysql | .sqlite | .clickhouse => []

/-- The literal of a text. -/
def text (d : Dialect) (s : String) : String :=
  .ofList (d.textMark ++ '\'' :: (d.textBody s.toList ++ ['\'']))

/-- What stands before and after the digits of a byte string. -/
def bytesWrapper : Dialect → String × String
  | .mysql | .sqlite => ("X'", "'")
  | .postgres => ("'\\x", "'::bytea")
  | .clickhouse => ("unhex('", "')")

/-- The literal of a byte string. -/
def bytes (d : Dialect) (data : List UInt8) : String :=
  d.bytesWrapper.1 ++ .ofList (Text.hexPairs data) ++ d.bytesWrapper.2

/-- What stands between the quotes of a moment : the rounded local time to the microsecond,
to the millisecond in SQLite, and with the offset in PostgreSQL. -/
def momentBody (d : Dialect) (t : Time.DateTime) : List Char :=
  let rounded := t.roundedUp
  match d with
  | .mysql | .clickhouse => rounded.clockText 6
  | .sqlite => rounded.clockText 3
  | .postgres => rounded.clockText 6 ++ rounded.offsetText

/-- The literal of a moment. -/
def moment (d : Dialect) (t : Time.DateTime) : String :=
  .ofList ('\'' :: (d.momentBody t ++ ['\'']))

/-- The literal of a value. -/
def literal (d : Dialect) : Value → Except RenderError String
  | .null => .ok d.null
  | .bool b => .ok (d.bool b)
  | .signed n => .ok (toString n.toInt)
  | .unsigned n => .ok (toString n.toNat)
  | .float x =>
    if x.isFinite then .ok (x.render .positional)
    else .error (.unsupportedValue (x.render .positional))
  | .text s => .ok (d.text s)
  | .bytes data => .ok (d.bytes data)
  | .dateTime t => .ok (d.moment t)

end SqlWeave.Dialect
