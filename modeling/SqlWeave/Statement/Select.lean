import SqlWeave.Condition
import SqlWeave.Statement.Body

/-!
# SELECT

The clauses of a query and the edits that set them. The layout puts the clauses in the
order of the language, whatever the order of the edits was. Filters add up to one
conjunction; a later source, limit or offset replaces an earlier one.
-/

namespace SqlWeave

/-- How a table is joined. -/
inductive JoinKind where
  | inner
  | left
  | right
  | full
  deriving DecidableEq, Repr

/-- The keyword of a join. -/
def JoinKind.keyword : JoinKind → String
  | .inner => "JOIN"
  | .left => "LEFT JOIN"
  | .right => "RIGHT JOIN"
  | .full => "FULL JOIN"

/-- A joined table. -/
structure Join where
  kind : JoinKind
  table : String
  on : Condition

/-- What rows are ordered by. -/
inductive OrderKey where
  /-- An expression as it is. -/
  | expression (text : String)
  | ascending (column : String)
  | descending (column : String)
  deriving DecidableEq, Repr

/-- Where rows come from : a table, or a query with a label. -/
structure Source where
  node : Arg
  label : Option String := none

/-- The clauses of a query. -/
structure Select where
  distinct : Bool := false
  columns : List Arg := []
  source : Option Source := none
  joins : List Join := []
  filters : List Condition := []
  groups : List String := []
  groupFilters : List Condition := []
  order : List OrderKey := []
  limit : Option UInt64 := none
  offset : Option UInt64 := none
  locked : Bool := false

namespace Select

/-! ## Layout -/

def columnsLayout (s : Select) : Layout :=
  .word "SELECT " ++ .onlyIf s.distinct (.word "DISTINCT ") ++
    .joined ", " (s.columns.map .slot)

def sourceLayout (s : Select) : Layout :=
  match s.source with
  | none => .empty
  | some ⟨node, none⟩ => .word " FROM " ++ .slot node
  | some ⟨node, some label⟩ => .word " FROM " ++ .slot node ++ .word " AS " ++ .name label

def joinLayout (j : Join) : Layout :=
  .word (" " ++ j.kind.keyword ++ " ") ++ .name j.table ++ .word " ON " ++ j.on.layout

def joinsLayout (s : Select) : Layout := .concat (s.joins.map joinLayout)

/-- The conjunction of the conditions after a keyword, or nothing if there are none. -/
def filterLayout (keyword : String) (conditions : List Condition) : Layout :=
  .onlyIf (!conditions.isEmpty) (.word keyword ++ Condition.conjunctionLayout conditions)

def groupsLayout (s : Select) : Layout :=
  .onlyIf (!s.groups.isEmpty) (.word " GROUP BY " ++ namesLayout s.groups)

def orderKeyLayout : OrderKey → Layout
  | .expression text => .slot (.fragment text [])
  | .ascending column => .name column ++ .word " ASC"
  | .descending column => .name column ++ .word " DESC"

def orderLayout (s : Select) : Layout :=
  .onlyIf (!s.order.isEmpty) (.word " ORDER BY " ++ .joined ", " (s.order.map orderKeyLayout))

/-- The row lock. SQLite has none. -/
def lockLayout (d : Dialect) (s : Select) : Layout :=
  .onlyIf (s.locked && d != .sqlite) (.word " FOR UPDATE")

/-- A query laid out; it needs a column. -/
def layout (d : Dialect) (s : Select) : Layout :=
  .require (!s.columns.isEmpty) .columnMissing ++
  s.columnsLayout ++
  s.sourceLayout ++
  s.joinsLayout ++
  filterLayout " WHERE " s.filters ++
  s.groupsLayout ++
  filterLayout " HAVING " s.groupFilters ++
  s.orderLayout ++
  countLayout " LIMIT " s.limit ++
  countLayout " OFFSET " s.offset ++
  s.lockLayout d

/-! ## Edits -/

/-- Names as columns. -/
def namedColumns (names : List String) : List Arg := names.map fun name => toArg (Ident.mk name)

/-- The query of the named columns. -/
def ofColumns {α : Type} [ToNames α] (names : α) : Select :=
  { columns := namedColumns (toNames names) }

/-- The largest number of rows that can be counted. -/
def countMax : Nat := UInt64.size - 1

/-- How many rows come before a page, pages being counted from one; the count stops at its
maximum. -/
def rowsBefore (page size : UInt64) : UInt64 :=
  .ofNat (min countMax ((page.toNat - 1) * size.toNat))

/-- One step in composing a query. -/
inductive Edit where
  | columns (names : List String)
  | expression (arg : Arg)
  | distinct
  | table (name : String)
  | subquery (query : Body Select) (label : String)
  | join (j : Join)
  | filter (c : Condition)
  | groupBy (names : List String)
  | filterGroups (c : Condition)
  | orderBy (key : OrderKey)
  | limit (count : UInt64)
  | offset (count : UInt64)
  /-- The rows of one page, pages being counted from one. -/
  | page (page size : UInt64)
  | lock

end Select

/-- The layout of a query. -/
def Body.selectLayout (d : Dialect) (b : Body Select) : Layout := b.layout (Select.layout d)

/-- A query as a node. -/
def Body.selectNode (b : Body Select) : Node := ⟨true, fun d => (b.selectLayout d).rendering d⟩

instance : ToArg (Body Select) := ⟨fun b => b.selectNode.arg⟩

namespace Select

/-- The query after one edit. -/
def apply (s : Select) : Edit → Select
  | .columns names => { s with columns := s.columns ++ namedColumns names }
  | .expression arg => { s with columns := s.columns ++ [arg] }
  | .distinct => { s with distinct := true }
  | .table name => { s with source := some { node := toArg (Ident.mk name) } }
  | .subquery query label => { s with source := some ⟨toArg query, some label⟩ }
  | .join j => { s with joins := s.joins ++ [j] }
  | .filter c => { s with filters := s.filters ++ [c] }
  | .groupBy names => { s with groups := s.groups ++ names }
  | .filterGroups c => { s with groupFilters := s.groupFilters ++ [c] }
  | .orderBy key => { s with order := s.order ++ [key] }
  | .limit count => { s with limit := some count }
  | .offset count => { s with offset := some count }
  | .page page size => { s with limit := some size, offset := some (rowsBefore page size) }
  | .lock => { s with locked := true }

/-- The query after edits in order. -/
def applyAll (s : Select) (edits : List Edit) : Select := edits.foldl apply s

end Select

end SqlWeave
