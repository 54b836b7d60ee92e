import SqlWeave.Interpolation
import SqlWeave.Statement.Insert
import SqlWeave.Statement.Update

/-!
# Statements

The four kinds of statement under one type, and one type for the edits of all of them. An
edit of another kind of statement changes nothing.
-/

namespace SqlWeave

/-- A statement of one of the four kinds. -/
inductive Statement where
  | select (body : Body Select)
  | insert (body : Body Insert)
  | update (body : Body Update)
  | delete (body : Body Delete)

namespace Statement

/-- One step in composing a statement. -/
inductive Edit where
  | select (e : Select.Edit)
  | insert (e : Insert.Edit)
  | update (e : Update.Edit)
  | delete (e : Delete.Edit)

/-- The statement after one edit. -/
def apply : Statement → Edit → Statement
  | .select body, .select e => .select (body.edit (·.apply e))
  | .insert body, .insert e => .insert (body.edit (·.apply e))
  | .update body, .update e => .update (body.edit (·.apply e))
  | .delete body, .delete e => .delete (body.edit (·.apply e))
  | s, _ => s

/-- The statement after edits in order. -/
def applyAll (s : Statement) (edits : List Edit) : Statement := edits.foldl apply s

/-- A statement as a node. -/
def node : Statement → Node
  | .select body => body.selectNode
  | .insert body => body.insertNode
  | .update body => body.updateNode
  | .delete body => body.deleteNode

instance : ToArg Statement := ⟨fun s => s.node.arg⟩

end Statement

end SqlWeave
