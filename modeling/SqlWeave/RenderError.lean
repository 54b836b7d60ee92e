/-!
# Why a statement cannot be rendered

The causes for which a node cannot be written, or its arguments cannot be put into its
text, and the words for each.
-/

namespace SqlWeave

/-- A reason for which rendering stops. -/
inductive RenderError where
  /-- A text has `expected` places for values and there are `actual` values. -/
  | placeholderCount (expected actual : Nat)
  | emptyCondition
  | emptyList
  | notEnumerable
  | tableMissing
  | columnMissing
  | valueMissing
  /-- A row to insert has `actual` values for `expected` columns. -/
  | rowWidth (expected actual : Nat)
  /-- A value, given by its text, has no literal. -/
  | unsupportedValue (what : String)
  /-- The computation of a late-bound value failed. -/
  | lateValue (cause : String)
  deriving DecidableEq, Repr

/-- The reason in words. -/
def RenderError.message : RenderError → String
  | .placeholderCount expected actual =>
    "wrong placeholder count: " ++ toString expected ++ " in template, " ++ toString actual ++
      " args"
  | .emptyCondition => "condition combinator has no children"
  | .emptyList => "empty list cannot be interpolated"
  | .notEnumerable => "IN requires a list or a subquery"
  | .tableMissing => "table not specified"
  | .columnMissing => "column not specified"
  | .valueMissing => "value not specified"
  | .rowWidth expected actual =>
    "column count mismatch: " ++ toString expected ++ " columns, " ++ toString actual ++
      " values"
  | .unsupportedValue what => "unsupported value: " ++ what
  | .lateValue cause => "sql valuer error: " ++ cause

end SqlWeave
