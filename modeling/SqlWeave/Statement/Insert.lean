import SqlWeave.Statement.Body

/-!
# INSERT

A table, its columns, and rows with one argument for each column. `Insert.Edit.pair` adds
a column together with its value in the first row.
-/

namespace SqlWeave

/-- The clauses of an insertion. -/
structure Insert where
  table : String := ""
  columns : List String := []
  rows : List (List Arg) := []
  /-- Whether rows that are there already are skipped. -/
  ignoresDuplicates : Bool := false
  returning : List String := []

namespace Insert

/-! ## Layout -/

/-- The verb of the insertion. -/
def verb (d : Dialect) (s : Insert) : String :=
  if s.ignoresDuplicates then d.insertIgnore else "INSERT"

/-- A failure unless the row has an argument for each column. -/
def requireWidth (s : Insert) (row : List Arg) : Layout :=
  .require (row.length == s.columns.length) (.rowWidth s.columns.length row.length)

def rowLayout (row : List Arg) : Layout := .parenthesised (.joined ", " (row.map .slot))

/-- Rows with commas between them. A row of the wrong width fails before its comma. -/
def rowsLayout (s : Insert) : List (List Arg) → Layout
  | [] => .empty
  | first :: rest =>
    s.requireWidth first ++ rowLayout first ++
      .concat (rest.map fun row => s.requireWidth row ++ .word ", " ++ rowLayout row)

/-- The clause by which PostgreSQL skips rows that are there already. -/
def conflictLayout (d : Dialect) (s : Insert) : Layout :=
  .onlyIf (s.ignoresDuplicates && d == .postgres) (.word " ON CONFLICT DO NOTHING")

def returningLayout (s : Insert) : Layout :=
  .onlyIf (!s.returning.isEmpty) (.word " RETURNING " ++ namesLayout s.returning)

/-- An insertion laid out; it needs a table, a column and a row. -/
def layout (d : Dialect) (s : Insert) : Layout :=
  .require (!s.table.isEmpty) .tableMissing ++
  .require (!s.columns.isEmpty) .columnMissing ++
  .require (!s.rows.isEmpty) .valueMissing ++
  .word (s.verb d) ++ .word " INTO " ++ .name s.table ++
  .word " (" ++ namesLayout s.columns ++ .word ") VALUES " ++
  s.rowsLayout s.rows ++
  s.conflictLayout d ++
  s.returningLayout

/-! ## Edits -/

/-- An insertion into a table. -/
def into (table : String) : Insert := { table }

/-- One step in composing an insertion. -/
inductive Edit where
  | columns (names : List String)
  | row (args : List Arg)
  | pair (column : String) (arg : Arg)
  | ignoreDuplicates
  | returning (names : List String)

/-- Rows with one more argument at the end of the first. -/
def extendFirstRow (arg : Arg) : List (List Arg) → List (List Arg)
  | [] => [[arg]]
  | first :: rest => (first ++ [arg]) :: rest

/-- The insertion after one edit. -/
def apply (s : Insert) : Edit → Insert
  | .columns names => { s with columns := s.columns ++ names }
  | .row args => { s with rows := s.rows ++ [args] }
  | .pair column arg =>
    { s with columns := s.columns ++ [column], rows := extendFirstRow arg s.rows }
  | .ignoreDuplicates => { s with ignoresDuplicates := true }
  | .returning names => { s with returning := s.returning ++ names }

/-- The insertion after edits in order. -/
def applyAll (s : Insert) (edits : List Edit) : Insert := edits.foldl apply s

end Insert

/-- The layout of an insertion. -/
def Body.insertLayout (d : Dialect) (b : Body Insert) : Layout := b.layout (Insert.layout d)

/-- An insertion as a node. -/
def Body.insertNode (b : Body Insert) : Node := ⟨true, fun d => (b.insertLayout d).rendering d⟩

instance : ToArg (Body Insert) := ⟨fun b => b.insertNode.arg⟩

end SqlWeave
