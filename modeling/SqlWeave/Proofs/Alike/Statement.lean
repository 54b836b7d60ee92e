import SqlWeave.Proofs.Alike.Layout

/-!
# Statements of alike arguments

The clauses of two statements are alike if they differ at most in their arguments
(`Select.Alike`, `Insert.Alike`, `Update.Alike`, `Delete.Alike`). Alike clauses have alike
layouts. An edit with alike arguments keeps clauses alike, so statements that are composed
by the same edits of alike arguments are alike, in whatever order the edits come.
-/

namespace SqlWeave

variable {R : Value → Value → Prop}

/-! ## SELECT -/

/-- Sources with one label and alike arguments. -/
structure Source.Alike (R : Value → Value → Prop) (s s' : Source) : Prop where
  node : s.node.Alike R s'.node
  label : s.label = s'.label

/-- Joins of one table under alike conditions. -/
structure Join.Alike (R : Value → Value → Prop) (j j' : Join) : Prop where
  kind : j.kind = j'.kind
  table : j.table = j'.table
  on : j.on.Alike R j'.on

/-- Clauses of queries that differ at most in their arguments. -/
structure Select.Alike (R : Value → Value → Prop) (s s' : Select) : Prop where
  distinct : s.distinct = s'.distinct
  columns : List.Forall₂ (Arg.Alike R) s.columns s'.columns
  source : Option.Rel (Source.Alike R) s.source s'.source
  joins : List.Forall₂ (Join.Alike R) s.joins s'.joins
  filters : List.Forall₂ (Condition.Alike R) s.filters s'.filters
  groups : s.groups = s'.groups
  groupFilters : List.Forall₂ (Condition.Alike R) s.groupFilters s'.groupFilters
  order : s.order = s'.order
  limit : s.limit = s'.limit
  offset : s.offset = s'.offset
  locked : s.locked = s'.locked

namespace Select

/-- Named columns have no arguments that could differ. -/
theorem namedColumns_alike (names : List String) :
    List.Forall₂ (Arg.Alike R) (namedColumns names) (namedColumns names) :=
  forall₂_map_same (fun name => Ident.alike ⟨name⟩) names

theorem ofColumns_alike (names : List String) :
    (ofColumns names).Alike R (ofColumns names) where
  distinct := rfl
  columns := namedColumns_alike names
  source := .none
  joins := .nil
  filters := .nil
  groups := rfl
  groupFilters := .nil
  order := rfl
  limit := rfl
  offset := rfl
  locked := rfl

namespace Alike

variable {s s' : Select}

/-- Sources are laid out by whether there is a label, and queries with alike sources agree in that.
-/
theorem sourceLayout (h : s.Alike R s') : s.sourceLayout.Alike R s'.sourceLayout := by
  have hsource := h.source
  unfold Select.sourceLayout
  generalize s.source = source at hsource ⊢
  generalize s'.source = source' at hsource ⊢
  cases hsource with
  | none => exact .empty
  | @some x y hxy =>
    obtain ⟨node, label⟩ := x
    obtain ⟨node', label'⟩ := y
    obtain ⟨hnode, rfl⟩ := hxy
    cases label with
    | none => exact (Layout.Alike.word _).append (.slot hnode)
    | some label =>
      exact (((Layout.Alike.word _).append (.slot hnode)).append (.word _)).append (.name _)

theorem joinsLayout (h : s.Alike R s') : s.joinsLayout.Alike R s'.joinsLayout := by
  refine .concat (List.rel_map (fun j j' hj => ?_) h.joins)
  rw [joinLayout, joinLayout, hj.kind, hj.table]
  exact (((Layout.Alike.word _).append (.name _)).append (.word _)).append hj.on.layout

/-- A key of an order has no arguments. -/
theorem orderKeyLayout (key : OrderKey) :
    (Select.orderKeyLayout key).Alike R (Select.orderKeyLayout key) := by
  cases key with
  | expression text => exact .slot (.fragment text .nil)
  | ascending column => exact (Layout.Alike.name _).append (.word _)
  | descending column => exact (Layout.Alike.name _).append (.word _)

theorem orderLayout (h : s.Alike R s') : s.orderLayout.Alike R s'.orderLayout := by
  rw [Select.orderLayout, Select.orderLayout, h.order]
  exact .onlyIf _ ((Layout.Alike.word _).append
    (.joined _ (forall₂_map_same orderKeyLayout s'.order)))

theorem columnsLayout (h : s.Alike R s') : s.columnsLayout.Alike R s'.columnsLayout := by
  rw [Select.columnsLayout, Select.columnsLayout, h.distinct]
  exact ((Layout.Alike.word _).append (.onlyIf _ (.word _))).append
    (.joined _ (List.rel_map (fun _ _ ha => .slot ha) h.columns))

/-- Every clause of alike queries is alike, so the queries are laid out alike. -/
theorem layout (h : s.Alike R s') (d : Dialect) : (s.layout d).Alike R (s'.layout d) := by
  unfold Select.layout groupsLayout lockLayout
  rw [isEmpty_eq_of_forall₂ h.columns, h.groups, h.limit, h.offset, h.locked]
  refine .append (.append (.append (.append (.append (.append (.append (.append (.append
    (.append ?_ ?_) ?_) ?_) ?_) ?_) ?_) ?_) ?_) ?_) ?_
  · exact .require _ _
  · exact h.columnsLayout
  · exact h.sourceLayout
  · exact h.joinsLayout
  · exact .filter _ h.filters
  · exact .onlyIf _ ((Layout.Alike.word _).append (.names _))
  · exact .filter _ h.groupFilters
  · exact h.orderLayout
  · exact .count _ _
  · exact .count _ _
  · exact .onlyIf _ (.word _)

end Alike

/-- Whether an edit has no argument. -/
def Edit.argless : Edit → Bool
  | .expression _ | .subquery .. | .join _ | .filter _ | .filterGroups _ => false
  | .columns _ | .distinct | .table _ | .groupBy _ | .orderBy _ | .limit _ | .offset _
  | .page .. | .lock => true

namespace Alike

variable {s s' : Select}

/-- An edit without arguments keeps queries alike. -/
theorem apply (h : s.Alike R s') {e : Edit} (he : e.argless = true) :
    (s.apply e).Alike R (s'.apply e) := by
  cases e with
  | columns names =>
    exact { h with columns := List.rel_append h.columns (namedColumns_alike names) }
  | distinct => exact { h with distinct := rfl }
  | table name => exact { h with source := .some ⟨Ident.alike ⟨name⟩, rfl⟩ }
  | groupBy names => exact { h with groups := congrArg (· ++ names) h.groups }
  | orderBy key => exact { h with order := congrArg (· ++ [key]) h.order }
  | limit count => exact { h with limit := rfl }
  | offset count => exact { h with offset := rfl }
  | page page size => exact { h with limit := rfl, offset := rfl }
  | lock => exact { h with locked := rfl }
  | expression | subquery | join | filter | filterGroups => cases he

/-- A column that is an expression brings one argument. -/
theorem apply_expression (h : s.Alike R s') {a b : Arg} (hab : a.Alike R b) :
    (s.apply (.expression a)).Alike R (s'.apply (.expression b)) :=
  { h with columns := List.rel_append h.columns (.cons hab .nil) }

/-- A query that others select from brings all of its arguments at once. -/
theorem apply_subquery (h : s.Alike R s') {b b' : Body Select}
    (hb : b.selectNode.arg.Alike R b'.selectNode.arg) (label : String) :
    (s.apply (.subquery b label)).Alike R (s'.apply (.subquery b' label)) :=
  { h with source := .some ⟨hb, rfl⟩ }

/-- Joins are alike if their conditions are. -/
theorem apply_join (h : s.Alike R s') {j j' : Join} (hj : j.Alike R j') :
    (s.apply (.join j)).Alike R (s'.apply (.join j')) :=
  { h with joins := List.rel_append h.joins (.cons hj .nil) }

theorem apply_filter (h : s.Alike R s') {c c' : Condition} (hc : c.Alike R c') :
    (s.apply (.filter c)).Alike R (s'.apply (.filter c')) :=
  { h with filters := List.rel_append h.filters (.cons hc .nil) }

theorem apply_filterGroups (h : s.Alike R s') {c c' : Condition} (hc : c.Alike R c') :
    (s.apply (.filterGroups c)).Alike R (s'.apply (.filterGroups c')) :=
  { h with groupFilters := List.rel_append h.groupFilters (.cons hc .nil) }

end Alike

end Select

/-! ## INSERT -/

/-- Clauses of insertions that differ at most in their arguments. -/
structure Insert.Alike (R : Value → Value → Prop) (s s' : Insert) : Prop where
  table : s.table = s'.table
  columns : s.columns = s'.columns
  rows : List.Forall₂ (List.Forall₂ (Arg.Alike R)) s.rows s'.rows
  ignoresDuplicates : s.ignoresDuplicates = s'.ignoresDuplicates
  returning : s.returning = s'.returning

namespace Insert

/-- Insertions into one table begin alike. -/
theorem into_alike (table : String) : (into table).Alike R (into table) :=
  ⟨rfl, rfl, .nil, rfl, rfl⟩

/-- Whether an edit has no argument. -/
def Edit.argless : Edit → Bool
  | .row _ | .pair .. => false
  | .columns _ | .ignoreDuplicates | .returning _ => true

namespace Alike

variable {s s' : Insert}

/-- Rows alike are as wide as each other, and fit or not alike. -/
theorem requireWidth (h : s.Alike R s') {row row' : List Arg}
    (hrow : List.Forall₂ (Arg.Alike R) row row') :
    (s.requireWidth row).Alike R (s'.requireWidth row') := by
  rw [Insert.requireWidth, Insert.requireWidth, h.columns, hrow.length_eq]
  exact .require _ _

theorem rowLayout {row row' : List Arg} (hrow : List.Forall₂ (Arg.Alike R) row row') :
    (Insert.rowLayout row).Alike R (Insert.rowLayout row') :=
  .parenthesised (.joined _ (List.rel_map (fun _ _ ha => .slot ha) hrow))

/-- Lists of alike rows are written alike, of one row as of many. -/
theorem rowsLayout (h : s.Alike R s') {rows rows' : List (List Arg)}
    (hrows : List.Forall₂ (List.Forall₂ (Arg.Alike R)) rows rows') :
    (s.rowsLayout rows).Alike R (s'.rowsLayout rows') := by
  cases hrows with
  | nil => exact .empty
  | cons hfirst hrest =>
    refine ((h.requireWidth hfirst).append (rowLayout hfirst)).append
      (.concat (List.rel_map (fun row row' hrow => ?_) hrest))
    exact ((h.requireWidth hrow).append (.word _)).append (rowLayout hrow)

/-- Insertions alike are laid out alike. -/
theorem layout (h : s.Alike R s') (d : Dialect) : (s.layout d).Alike R (s'.layout d) := by
  unfold Insert.layout verb conflictLayout returningLayout
  rw [isEmpty_eq_of_forall₂ h.rows, h.table, h.columns, h.ignoresDuplicates, h.returning]
  refine .append (.append (.append (.append (.append (.append (.append (.append (.append
    (.append (.append ?_ ?_) ?_) ?_) ?_) ?_) ?_) ?_) ?_) ?_) ?_) ?_
  · exact .require _ _
  · exact .require _ _
  · exact .require _ _
  · exact .word _
  · exact .word _
  · exact .name _
  · exact .word _
  · exact .names _
  · exact .word _
  · exact h.rowsLayout h.rows
  · exact .onlyIf _ (.word _)
  · exact .onlyIf _ ((Layout.Alike.word _).append (.names _))

/-- An edit without arguments keeps insertions alike. -/
theorem apply (h : s.Alike R s') {e : Edit} (he : e.argless = true) :
    (s.apply e).Alike R (s'.apply e) := by
  cases e with
  | columns names => exact { h with columns := congrArg (· ++ names) h.columns }
  | ignoreDuplicates => exact { h with ignoresDuplicates := rfl }
  | returning names => exact { h with returning := congrArg (· ++ names) h.returning }
  | row | pair => cases he

theorem apply_row (h : s.Alike R s') {row row' : List Arg}
    (hrow : List.Forall₂ (Arg.Alike R) row row') :
    (s.apply (.row row)).Alike R (s'.apply (.row row')) :=
  { h with rows := List.rel_append h.rows (.cons hrow .nil) }

/-- Values alike at the end of the first of alike rows keep the rows alike, or make alike rows where
there were none. -/
theorem extendFirstRow {rows rows' : List (List Arg)} {a b : Arg}
    (hrows : List.Forall₂ (List.Forall₂ (Arg.Alike R)) rows rows') (hab : a.Alike R b) :
    List.Forall₂ (List.Forall₂ (Arg.Alike R)) (Insert.extendFirstRow a rows)
      (Insert.extendFirstRow b rows') := by
  cases hrows with
  | nil => exact .cons (.cons hab .nil) .nil
  | cons hfirst hrest => exact .cons (List.rel_append hfirst (.cons hab .nil)) hrest

/-- A pair adds one column, and values alike to the first row. -/
theorem apply_pair (h : s.Alike R s') (column : String) {a b : Arg} (hab : a.Alike R b) :
    (s.apply (.pair column a)).Alike R (s'.apply (.pair column b)) :=
  { h with columns := congrArg (· ++ [column]) h.columns, rows := extendFirstRow h.rows hab }

end Alike

end Insert

/-! ## UPDATE and DELETE -/

/-- Assignments of alike arguments to one column. -/
structure Update.Assigned (R : Value → Value → Prop) (p q : String × Arg) : Prop where
  column : p.1 = q.1
  arg : p.2.Alike R q.2

/-- Clauses of updates that differ at most in their arguments. -/
structure Update.Alike (R : Value → Value → Prop) (s s' : Update) : Prop where
  table : s.table = s'.table
  assignments : List.Forall₂ (Assigned R) s.assignments s'.assignments
  filters : List.Forall₂ (Condition.Alike R) s.filters s'.filters
  limit : s.limit = s'.limit

namespace Update

theorem of_alike (table : String) : (of table).Alike R (of table) :=
  ⟨rfl, .nil, .nil, rfl⟩

/-- Alike arguments for the same columns are alike assignments. -/
theorem zip_assigned (columns : List String) {args args' : List Arg}
    (h : List.Forall₂ (Arg.Alike R) args args') :
    List.Forall₂ (Assigned R) (columns.zip args) (columns.zip args') := by
  induction h generalizing columns with
  | nil => simp
  | cons hab _ ih =>
    cases columns with
    | nil => exact .nil
    | cons column columns => exact .cons ⟨rfl, hab⟩ (ih columns)

namespace Alike

variable {s s' : Update}

/-- Updates alike are laid out alike. -/
theorem layout (h : s.Alike R s') (d : Dialect) : (s.layout d).Alike R (s'.layout d) := by
  unfold Update.layout
  rw [isEmpty_eq_of_forall₂ h.assignments, h.table, h.limit]
  refine .append (.append (.append (.append (.append (.append (.append ?_ ?_) ?_) ?_) ?_) ?_)
    ?_) ?_
  · exact .require _ _
  · exact .require _ _
  · exact .word _
  · exact .name _
  · exact .word _
  · refine .joined _ (List.rel_map (fun p q hpq => ?_) h.assignments)
    rw [assignmentLayout, assignmentLayout, hpq.column]
    exact ((Layout.Alike.name _).append (.word _)).append (.slot hpq.arg)
  · exact .filter _ h.filters
  · exact .onlyIf _ (.count _ _)

theorem apply_limit (h : s.Alike R s') (count : UInt64) :
    (s.apply (.limit count)).Alike R (s'.apply (.limit count)) :=
  { h with limit := rfl }

theorem apply_set (h : s.Alike R s') (column : String) {a b : Arg} (hab : a.Alike R b) :
    (s.apply (.set column a)).Alike R (s'.apply (.set column b)) :=
  { h with assignments := List.rel_append h.assignments (.cons ⟨rfl, hab⟩ .nil) }

theorem apply_setAll (h : s.Alike R s') (columns : List String) {args args' : List Arg}
    (hargs : List.Forall₂ (Arg.Alike R) args args') :
    (s.apply (.setAll (columns.zip args))).Alike R (s'.apply (.setAll (columns.zip args'))) :=
  { h with assignments := List.rel_append h.assignments (zip_assigned columns hargs) }

theorem apply_filter (h : s.Alike R s') {c c' : Condition} (hc : c.Alike R c') :
    (s.apply (.filter c)).Alike R (s'.apply (.filter c')) :=
  { h with filters := List.rel_append h.filters (.cons hc .nil) }

end Alike

end Update

/-- Clauses of deletions that differ at most in their arguments. -/
structure Delete.Alike (R : Value → Value → Prop) (s s' : Delete) : Prop where
  table : s.table = s'.table
  filters : List.Forall₂ (Condition.Alike R) s.filters s'.filters
  limit : s.limit = s'.limit

namespace Delete

theorem of_alike (table : String) : (of table).Alike R (of table) :=
  ⟨rfl, .nil, rfl⟩

namespace Alike

variable {s s' : Delete}

/-- Deletions alike are laid out alike. -/
theorem layout (h : s.Alike R s') (d : Dialect) : (s.layout d).Alike R (s'.layout d) := by
  unfold Delete.layout
  rw [h.table, h.limit]
  refine .append (.append (.append (.append ?_ ?_) ?_) ?_) ?_
  · exact .require _ _
  · exact .word _
  · exact .name _
  · exact .filter _ h.filters
  · exact .onlyIf _ (.count _ _)

theorem apply_limit (h : s.Alike R s') (count : UInt64) :
    (s.apply (.limit count)).Alike R (s'.apply (.limit count)) :=
  { h with limit := rfl }

theorem apply_filter (h : s.Alike R s') {c c' : Condition} (hc : c.Alike R c') :
    (s.apply (.filter c)).Alike R (s'.apply (.filter c')) :=
  { h with filters := List.rel_append h.filters (.cons hc .nil) }

end Alike

end Delete

/-! ## Statements by clauses or by text -/

/-- Alike texts, or clauses that are alike in the sense of `C`. -/
inductive Body.Alike {α : Type} (R : Value → Value → Prop) (C : α → α → Prop) :
    Body α → Body α → Prop
  | text {f f' : Fragment} : f.arg.Alike R f'.arg → Alike R C (.text f) (.text f')
  | clauses {c c' : α} : C c c' → Alike R C (.clauses c) (.clauses c')

namespace Body.Alike

variable {α : Type} {C : α → α → Prop} {b b' : Body α}

/-- What alike changes make of alike clauses is alike, in a body that has clauses as in one that has
failed. -/
theorem edit (h : Body.Alike R C b b') {change change' : α → α}
    (hchange : ∀ c c', C c c' → C (change c) (change' c')) :
    Body.Alike R C (b.edit change) (b'.edit change') := by
  cases h with
  | text hf => exact .text hf
  | clauses hc => exact .clauses (hchange _ _ hc)

/-- Bodies are laid out alike if their clauses are. -/
theorem layout (h : Body.Alike R C b b') {ofClauses : α → Layout}
    (hlayout : ∀ c c', C c c' → (ofClauses c).Alike R (ofClauses c')) :
    (b.layout ofClauses).Alike R (b'.layout ofClauses) := by
  cases h with
  | text hf => exact .slot hf
  | clauses hc => exact hlayout _ _ hc

/-- Bodies render alike in a dialect where their clauses are laid out alike. -/
theorem rendering (h : Body.Alike R C b b') {ofClauses : Dialect → α → Layout}
    (hlayout : ∀ d c c', C c c' → (ofClauses d c).Alike R (ofClauses d c')) (d : Dialect) :
    ((b.layout (ofClauses d)).rendering d).Alike R ((b'.layout (ofClauses d)).rendering d) :=
  (h.layout (hlayout d)).rendering d

end Body.Alike

end SqlWeave
