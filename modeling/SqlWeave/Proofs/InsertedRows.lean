import SqlWeave.Proofs.Builtin
import SqlWeave.Proofs.PairedColumns

/-!
# The rows of an insertion

An insertion writes all of its rows or fails. It fails for the first thing that is missing, and
if nothing is, for the first row that is not as wide as the columns (`Insert.Refused`). Otherwise
each row is written as a group of markers, one under each column, and the statement has no other
marker (`Insert.RowsWritten`).

Whether rows that are there already are skipped and which columns are returned has no part in
this, wherever the calls come that say so (`Insert.rows_written`).
-/

namespace SqlWeave

namespace Layout

/-- Layouts one after the other fail like the first of them that fails. -/
theorem failure_append (l m : Layout) : (l ++ m).failure = l.failure.or m.failure := by
  cases h : l.failure with
  | some e => rw [append_of_failure m h, h, Option.some_or]
  | none => rw [append_of_ok m h, Option.none_or]

/-- Layouts one after the other fail like the first of them that fails. -/
theorem failure_concat (ls : List Layout) : (concat ls).failure = ls.findSome? failure := by
  induction ls with
  | nil => rfl
  | cons l ls ih =>
    rw [concat_cons, failure_append, ih, List.findSome?_cons]
    cases l.failure <;> rfl

theorem failure_require (condition : Bool) (e : RenderError) :
    (require condition e).failure = if condition then none else some e := by
  cases condition <;> rfl

end Layout

namespace Insert

variable {s t : Insert} {d : Dialect} {e : RenderError}

/-! ## Why an insertion is refused -/

/-- Why an insertion cannot be written : it has no table, or no column, or no row, or else there
is a first row that is not as wide as the columns. -/
inductive Refused (s : Insert) : RenderError → Prop
  | table (htable : s.table = "") : Refused s .tableMissing
  | columns (htable : s.table ≠ "") (hcolumns : s.columns = []) : Refused s .columnMissing
  | rows (htable : s.table ≠ "") (hcolumns : s.columns ≠ []) (hrows : s.rows = []) :
    Refused s .valueMissing
  | width (htable : s.table ≠ "") (hcolumns : s.columns ≠ []) {before : List (List Arg)}
    {row : List Arg} {after : List (List Arg)} (hrows : s.rows = before ++ row :: after)
    (hbefore : ∀ r ∈ before, r.length = s.columns.length)
    (hrow : row.length ≠ s.columns.length) :
    Refused s (.rowWidth s.columns.length row.length)

/-- What is wrong with the width of a row, if anything is. -/
def widthFailure? (s : Insert) (row : List Arg) : Option RenderError :=
  if row.length = s.columns.length then none
  else some (.rowWidth s.columns.length row.length)

theorem widthFailure?_eq_none_iff {row : List Arg} :
    s.widthFailure? row = none ↔ row.length = s.columns.length := by
  simp [widthFailure?]

/-- Requiring the width of a row fails with what is wrong with it. -/
theorem failure_requireWidth (row : List Arg) :
    (s.requireWidth row).failure = s.widthFailure? row := by
  simp [requireWidth, Layout.failure_require, widthFailure?]

/-- Rows fail like the first of them that is not as wide as the columns. -/
theorem failure_rowsLayout (rows : List (List Arg)) :
    (s.rowsLayout rows).failure = rows.findSome? s.widthFailure? := by
  cases rows with
  | nil => rfl
  | cons first rest =>
    have hrest : (rest.map fun row => s.requireWidth row ++ .word ", " ++ rowLayout row).findSome?
        Layout.failure = rest.findSome? s.widthFailure? := by
      rw [List.findSome?_map]
      congr 1
      funext row
      simp [Layout.failure_append, failure_requireWidth, failure_rowLayout]
    rw [rowsLayout, Layout.failure_append, Layout.failure_append, Layout.failure_concat, hrest,
      failure_requireWidth, failure_rowLayout, Option.or_none, List.findSome?_cons]
    cases s.widthFailure? first <;> rfl

/-- An insertion fails for what is missing, and otherwise like its rows. -/
theorem failure_layout (s : Insert) (d : Dialect) :
    (s.layout d).failure =
      if s.table = "" then some .tableMissing
      else if s.columns = [] then some .columnMissing
      else if s.rows = [] then some .valueMissing
      else s.rows.findSome? s.widthFailure? := by
  simp only [layout, Layout.failure_append, Layout.failure_require, failure_rowsLayout,
    failure_conflictLayout, failure_returningLayout, failure_namesLayout, Layout.failure_word,
    Layout.failure_name, Option.or_none]
  by_cases htable : s.table = "" <;> by_cases hcolumns : s.columns = [] <;>
    by_cases hrows : s.rows = [] <;> simp [htable, hcolumns, hrows]

/-- An insertion fails exactly for the reason for which it is refused. -/
theorem failure_layout_eq_some_iff : (s.layout d).failure = some e ↔ s.Refused e := by
  rw [failure_layout]
  constructor
  · intro h
    split at h
    · obtain rfl := Option.some.inj h
      exact .table ‹_›
    split at h
    · obtain rfl := Option.some.inj h
      exact .columns ‹_› ‹_›
    split at h
    · obtain rfl := Option.some.inj h
      exact .rows ‹_› ‹_› ‹_›
    obtain ⟨before, row, after, hrows, hrow, hbefore⟩ := List.findSome?_eq_some_iff.mp h
    rw [widthFailure?] at hrow
    split at hrow
    · cases hrow
    · obtain rfl := Option.some.inj hrow
      exact .width ‹_› ‹_› hrows (fun r hr => widthFailure?_eq_none_iff.mp (hbefore r hr)) ‹_›
  · intro h
    cases h with
    | table htable => simp [htable]
    | columns htable hcolumns => simp [htable, hcolumns]
    | rows htable hcolumns hrows => simp [htable, hcolumns, hrows]
    | width htable hcolumns hrows hbefore hrow =>
      rw [if_neg htable, if_neg hcolumns, if_neg (by simp [hrows])]
      exact List.findSome?_eq_some_iff.mpr ⟨_, _, _, hrows, by rw [widthFailure?, if_neg hrow],
        fun r hr => widthFailure?_eq_none_iff.mpr (hbefore r hr)⟩

/-! ## The groups of markers -/

/-- The rows as they are written, one group of markers for each. -/
def rowsText (s : Insert) : String := ", ".intercalate (s.rows.map markers)

/-- The rows of an insertion are written in full : one group for each row with one marker for each
column, standing for the arguments of the row, and no marker besides. -/
structure RowsWritten (s : Insert) (d : Dialect) (r : Rendering Arg) : Prop extends
    Written s d r where
  groups : ∀ row ∈ s.rows, Template.markers d (markers row) = s.columns.length
  noOther : Template.markers d r.text = s.rows.length * s.columns.length

/-- A group has as many markers as its row has arguments. -/
theorem markers_markers (d : Dialect) (row : List Arg) :
    Template.markers d (markers row) = row.length := by
  have hsound : (rowLayout row).Sound d := (regular_rowLayout row).sound d
  rw [← text_rowLayout (d := d), hsound.markers_text, args_rowLayout]

/-- An insertion that does not fail writes its rows in order, under its columns. -/
theorem rowsWritten (h : (s.layout d).failure = none) :
    s.RowsWritten d ((s.layout d).rendering d) := by
  have hwritten := written_layout h
  refine ⟨hwritten, fun row hrow => ?_, ?_⟩
  · rw [markers_markers, hwritten.width row hrow]
  · have hsound : (s.layout d).Sound d := (s.regular_layout d).sound d
    have hcount : Template.markers d ((s.layout d).rendering d).text =
        ((s.layout d).rendering d).args.length := hsound.markers_text
    have hlengths : s.rows.map List.length = List.replicate s.rows.length s.columns.length :=
      List.map_eq_replicate_iff.mpr hwritten.width
    rw [hcount, hwritten.args, List.length_flatten, hlengths, List.sum_replicate_nat]

/-! ## Calls that have no part in the rows -/

/-- Whether a call adds columns or rows. -/
def Edit.fills : Edit → Bool
  | .columns _ | .row _ | .pair _ _ => true
  | .ignoreDuplicates | .returning _ => false

/-- Two insertions into the same columns of the same table, of the same rows. -/
structure SameRows (s t : Insert) : Prop where
  table : s.table = t.table
  columns : s.columns = t.columns
  rows : s.rows = t.rows

/-- An edit of insertions with the same rows leaves them the same. -/
theorem SameRows.apply (h : SameRows s t) (e : Edit) : SameRows (s.apply e) (t.apply e) := by
  obtain ⟨htable, hcolumns, hrows⟩ := h
  cases e <;> exact ⟨htable, by simp [Insert.apply, hcolumns], by simp [Insert.apply, hrows]⟩

/-- An edit that fills nothing in leaves the rows as they are. -/
theorem SameRows.apply_left (h : SameRows s t) {e : Edit} (he : e.fills = false) :
    SameRows (s.apply e) t := by
  cases e with
  | columns | row | pair => cases he
  | ignoreDuplicates | returning => exact ⟨h.table, h.columns, h.rows⟩

/-- The calls that fill an insertion decide its rows. -/
theorem sameRows_filter (h : SameRows s t) (edits : List Edit) :
    SameRows (s.applyAll edits) (t.applyAll (edits.filter Edit.fills)) := by
  induction edits generalizing s t with
  | nil => exact h
  | cons e edits ih =>
    cases he : e.fills with
    | true =>
      rw [List.filter_cons_of_pos he]
      exact ih (h.apply e)
    | false =>
      rw [List.filter_cons_of_neg (by simp [he])]
      exact ih (h.apply_left he)

/-- Insertions with the same rows are refused alike. -/
theorem SameRows.failure_layout (h : SameRows s t) (d : Dialect) :
    (s.layout d).failure = (t.layout d).failure := by
  have hwidth : s.widthFailure? = t.widthFailure? := by
    funext row
    rw [widthFailure?, widthFailure?, h.columns]
  rw [Insert.failure_layout, Insert.failure_layout, h.table, h.columns, h.rows, hwidth]

/-- Whatever the calls and the dialect, an insertion that has a table, a column and rows that are
all as wide as the columns is written with all its rows, and any other is refused for the first
thing that is wrong with it. Calls that do not fill the insertion change neither its failure nor
its groups nor its arguments. -/
theorem rows_written (start : Insert) (edits : List Edit) (d : Dialect) :
    let s := start.applyAll edits
    let r := (Body.clauses s).insertNode.render d
    (r.failure = none ↔ s.table ≠ "" ∧ s.columns ≠ [] ∧ s.rows ≠ [] ∧
      ∀ row ∈ s.rows, row.length = s.columns.length) ∧
    (∀ e, r.failure = some e ↔ s.Refused e) ∧
    (r.failure = none → s.RowsWritten d r) ∧
    let t := start.applyAll (edits.filter Edit.fills)
    let r' := (Body.clauses t).insertNode.render d
    r.failure = r'.failure ∧ (r.failure = none → s.rowsText = t.rowsText ∧ r.args = r'.args) := by
  intro s r
  refine ⟨failure_layout_eq_none_iff, fun e => failure_layout_eq_some_iff, rowsWritten, ?_⟩
  intro t r'
  have hsame : SameRows s t := sameRows_filter ⟨rfl, rfl, rfl⟩ edits
  have hfailure : r.failure = r'.failure := hsame.failure_layout d
  refine ⟨hfailure, fun h => ⟨by rw [rowsText, rowsText, hsame.rows], ?_⟩⟩
  have hs : r.args = s.rows.flatten := (written_layout h).args
  have ht : r'.args = t.rows.flatten := (written_layout (hfailure.symm.trans h)).args
  rw [hs, ht, hsame.rows]

/-- Two rows of two columns, among calls that have no part in them. -/
def mixedCalls : List Edit :=
  [.columns ["a"], .returning ["id"], .row [toArg (1 : Int64)], .pair "b" (toArg (2 : Int64)),
    .ignoreDuplicates, .row [toArg (3 : Int64), .value .null]]

/-- Calls of every kind between two rows. -/
theorem rows_written_two_rows :
    let s := (into "t").applyAll mixedCalls
    let r := (Body.clauses s).insertNode.render .postgres
    r.failure = none ∧
    r.text = "INSERT INTO \"t\" (\"a\", \"b\") VALUES (?, ?), (?, ?)" ++
      " ON CONFLICT DO NOTHING RETURNING \"id\"" ∧
    s.RowsWritten .postgres r ∧
    s.rowsText = ((into "t").applyAll (mixedCalls.filter Edit.fills)).rowsText :=
  have h := rows_written (into "t") mixedCalls .postgres
  ⟨rfl, rfl, h.2.2.1 rfl, (h.2.2.2.2 rfl).1⟩

end Insert

end SqlWeave
