import SqlWeave.Dialect
import SqlWeave.Text.Pieces

/-!
# Quoted identifiers

A name is cut at its dots. A segment that is a lone star stays bare, every other one
stands between the dialect's quote characters, with each quote character inside it
written twice, and each backslash too where a backslash would hide what follows.
-/

namespace SqlWeave.Dialect

/-- A character as it is written inside a quoted identifier. -/
def identifierChar (d : Dialect) (c : Char) : List Char :=
  let quote := d.identifierQuote
  if c == quote || (c == '\\' && d.backslashHides quote) then [c, c] else [c]

/-- One segment of a name : a lone star, or the segment between quotes. -/
def identifierSegment (d : Dialect) (segment : List Char) : List Char :=
  if segment = ['*'] then ['*']
  else d.identifierQuote :: (segment.flatMap d.identifierChar ++ [d.identifierQuote])

/-- A name as it is written in a statement, segment by segment. -/
def quoteIdent (d : Dialect) (name : String) : String :=
  .ofList (['.'].intercalate ((Text.splitAt '.' name.toList).map d.identifierSegment))

end SqlWeave.Dialect
