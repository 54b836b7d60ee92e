import SqlWeave.Inline.Marked
import SqlWeave.Inline.Numbered
import SqlWeave.Interpolation

/-!
# Inlining

A query with its values written out in place of the placeholders. Such texts are for
people, never for a database. PostgreSQL numbers its placeholders, the other dialects take
the values in order.
-/

namespace SqlWeave

namespace Dialect

/-- A text with literals in place of its placeholders. -/
def inline (d : Dialect) (text : String) (values : List Value) : Except RenderError String :=
  match d with
  | .postgres => (Inline.numbered values text.toList).map .ofList
  | .mysql | .sqlite | .clickhouse => (Inline.marked d values text.toList).map .ofList

/-- A template with its arguments written out. -/
def inlineTemplate (d : Dialect) (template : String) (args : List Arg) :
    Except RenderError String :=
  match (({} : Query).interpolate ⟨d, false⟩ template args).result with
  | .error e => .error e
  | .ok q => d.inline q.text q.binds

end Dialect

end SqlWeave
