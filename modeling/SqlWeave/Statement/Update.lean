import SqlWeave.Statement.Select

/-!
# UPDATE and DELETE

The statements that change or remove the rows of one table. Both take filters, which add
up to one conjunction, and a row limit, which is written only where the dialect has one.
-/

namespace SqlWeave

/-- The row limit of a change, where the dialect has one. -/
def mutationLimitLayout (d : Dialect) (limit : Option UInt64) : Layout :=
  .onlyIf d.limitsMutations (countLayout " LIMIT " limit)

/-- The clauses of an update. -/
structure Update where
  table : String := ""
  assignments : List (String × Arg) := []
  filters : List Condition := []
  limit : Option UInt64 := none

namespace Update

def assignmentLayout (assignment : String × Arg) : Layout :=
  .name assignment.1 ++ .word " = " ++ .slot assignment.2

/-- An update laid out; it needs a table and an assignment. -/
def layout (d : Dialect) (s : Update) : Layout :=
  .require (!s.table.isEmpty) .tableMissing ++
  .require (!s.assignments.isEmpty) .valueMissing ++
  .word "UPDATE " ++ .name s.table ++
  .word " SET " ++ .joined ", " (s.assignments.map assignmentLayout) ++
  Select.filterLayout " WHERE " s.filters ++
  mutationLimitLayout d s.limit

/-- An update of a table. -/
def of (table : String) : Update := { table }

/-- One step in composing an update. -/
inductive Edit where
  | set (column : String) (arg : Arg)
  | setAll (assignments : List (String × Arg))
  | filter (c : Condition)
  | limit (count : UInt64)

/-- The update after one edit. -/
def apply (s : Update) : Edit → Update
  | .set column arg => { s with assignments := s.assignments ++ [(column, arg)] }
  | .setAll assignments => { s with assignments := s.assignments ++ assignments }
  | .filter c => { s with filters := s.filters ++ [c] }
  | .limit count => { s with limit := some count }

/-- The update after edits in order. -/
def applyAll (s : Update) (edits : List Edit) : Update := edits.foldl apply s

end Update

/-- The clauses of a deletion. -/
structure Delete where
  table : String := ""
  filters : List Condition := []
  limit : Option UInt64 := none

namespace Delete

/-- A deletion laid out; it needs a table. -/
def layout (d : Dialect) (s : Delete) : Layout :=
  .require (!s.table.isEmpty) .tableMissing ++
  .word "DELETE FROM " ++ .name s.table ++
  Select.filterLayout " WHERE " s.filters ++
  mutationLimitLayout d s.limit

/-- A deletion from a table. -/
def of (table : String) : Delete := { table }

/-- One step in composing a deletion. -/
inductive Edit where
  | filter (c : Condition)
  | limit (count : UInt64)

/-- The deletion after one edit. -/
def apply (s : Delete) : Edit → Delete
  | .filter c => { s with filters := s.filters ++ [c] }
  | .limit count => { s with limit := some count }

/-- The deletion after edits in order. -/
def applyAll (s : Delete) (edits : List Edit) : Delete := edits.foldl apply s

end Delete

/-- The layout of an update. -/
def Body.updateLayout (d : Dialect) (b : Body Update) : Layout := b.layout (Update.layout d)

/-- An update as a node. -/
def Body.updateNode (b : Body Update) : Node := ⟨true, fun d => (b.updateLayout d).rendering d⟩

instance : ToArg (Body Update) := ⟨fun b => b.updateNode.arg⟩

/-- The layout of a deletion. -/
def Body.deleteLayout (d : Dialect) (b : Body Delete) : Layout := b.layout (Delete.layout d)

/-- A deletion as a node. -/
def Body.deleteNode (b : Body Delete) : Node := ⟨true, fun d => (b.deleteLayout d).rendering d⟩

instance : ToArg (Body Delete) := ⟨fun b => b.deleteNode.arg⟩

end SqlWeave
