import SqlWeave.Proofs.LayoutParts
import SqlWeave.Statement.Insert

/-!
# Columns and the arguments under them

An insertion is written as its columns and its rows, and what a database puts into a column is
the argument at the same place in a row (`Insert.Written`, `Insert.cell`). For an insertion with
a table, a column and a row to be written it is enough that every row is as wide as the columns
(`Insert.failure_layout_eq_none_iff`).

Calls only ever add to the end of the columns and of the rows, so a place once given is kept
(`Insert.Grows`). What a row gives therefore stands under the column with the same place. What
a pair adds does so unless the first row was already wider than the columns : then later columns
make up for the difference, and the pair has been torn (`Insert.pairs_together_iff`).
-/

namespace SqlWeave.Insert

variable {s t : Insert} {d : Dialect}

/-! ## What is written -/

/-- As many markers as arguments, between parentheses. -/
def markers (row : List Arg) : String := "(" ++ ", ".intercalate (row.map fun _ => "?") ++ ")"

/-- An insertion is written with its columns in order and, for each row, with one marker under each
column; the markers stand for the arguments of the rows in their order. -/
structure Written (s : Insert) (d : Dialect) (r : Rendering Arg) : Prop where
  text : r.text = s.verb d ++ " INTO " ++ d.quoteIdent s.table ++
    " (" ++ ", ".intercalate (s.columns.map d.quoteIdent) ++ ") VALUES " ++
    ", ".intercalate (s.rows.map markers) ++
    (s.conflictLayout d).text d ++ s.returningLayout.text d
  args : r.args = s.rows.flatten
  width : ∀ row ∈ s.rows, row.length = s.columns.length

theorem failure_rowLayout (row : List Arg) : (rowLayout row).failure = none := by
  simp [rowLayout]

/-- Rows fit if each of them is as wide as the columns. -/
theorem failure_rowsLayout_eq_none_iff (rows : List (List Arg)) :
    (s.rowsLayout rows).failure = none ↔ ∀ row ∈ rows, row.length = s.columns.length := by
  cases rows with
  | nil => simp [rowsLayout]
  | cons first rest => simp [rowsLayout, requireWidth, failure_rowLayout]

/-- Rows of the right width have only commas between them. -/
theorem rowsLayout_of_width {rows : List (List Arg)}
    (h : ∀ row ∈ rows, row.length = s.columns.length) :
    s.rowsLayout rows = .joined ", " (rows.map rowLayout) := by
  have hrequire : ∀ row ∈ rows, s.requireWidth row = .empty := fun row hrow => by
    simp [requireWidth, Layout.require, h row hrow]
  cases rows with
  | nil => rfl
  | cons first rest =>
    rw [List.forall_mem_cons] at hrequire
    rw [rowsLayout, hrequire.1, Layout.empty_append, List.map_cons, Layout.joined, List.map_map]
    congr 2
    refine List.map_congr_left fun row hrow => ?_
    rw [hrequire.2 row hrow, Layout.empty_append]
    rfl

theorem failure_conflictLayout : (s.conflictLayout d).failure = none := by
  simp [conflictLayout]

theorem failure_returningLayout : s.returningLayout.failure = none := by
  simp [returningLayout]

/-- An insertion can be written exactly if it has a table, a column and a row, and each row an
argument for each column. -/
theorem failure_layout_eq_none_iff :
    (s.layout d).failure = none ↔ s.table ≠ "" ∧ s.columns ≠ [] ∧ s.rows ≠ [] ∧
      ∀ row ∈ s.rows, row.length = s.columns.length := by
  simp [layout, failure_rowsLayout_eq_none_iff, failure_conflictLayout,
    failure_returningLayout, and_assoc]

/-- A row is written as one marker for each argument. -/
theorem text_rowLayout (row : List Arg) :
    (rowLayout row).text d = markers row := by
  rw [rowLayout, Layout.text_parenthesised d (by simp), Layout.text_joined d (by simp)]
  simp [markers, Function.comp_def]

theorem args_rowLayout (row : List Arg) : (rowLayout row).args = row := by
  rw [rowLayout, Layout.args_parenthesised (by simp), Layout.args_joined (by simp)]
  simp [List.flatMap_map]

theorem args_conflictLayout : (s.conflictLayout d).args = [] := by
  cases h : s.ignoresDuplicates && d == .postgres <;> simp [conflictLayout, Layout.onlyIf, h]

theorem args_returningLayout : s.returningLayout.args = [] := by
  cases h : s.returning.isEmpty <;>
    simp [returningLayout, Layout.onlyIf, h]

/-- An insertion that does not fail writes what it has, row by row. -/
theorem written_layout (h : (s.layout d).failure = none) :
    s.Written d ((s.layout d).rendering d) := by
  obtain ⟨htable, hcolumns, hrows, hwidth⟩ := failure_layout_eq_none_iff.mp h
  have hlayout : s.layout d = .word (s.verb d) ++ .word " INTO " ++ .name s.table ++
      .word " (" ++ namesLayout s.columns ++ .word ") VALUES " ++
      .joined ", " (s.rows.map rowLayout) ++ s.conflictLayout d ++ s.returningLayout := by
    rw [layout, rowsLayout_of_width hwidth]
    simp [Layout.require, htable, hcolumns, hrows]
  have hrowLayouts : ∀ l ∈ s.rows.map rowLayout, l.failure = none := by
    simp [failure_rowLayout]
  simp only [Layout.append_assoc] at hlayout
  refine ⟨?_, ?_, hwidth⟩
  · rw [Layout.rendering, hlayout]
    simp only [Layout.text_word_append, Layout.text_name_append]
    rw [Layout.text_append d (failure_namesLayout _), Layout.text_word_append,
      Layout.text_append d (by simpa using hrowLayouts), Layout.text_joined d hrowLayouts,
      Layout.text_append d failure_conflictLayout, text_namesLayout, List.map_map]
    simp only [Function.comp_def, text_rowLayout, String.append_assoc]
  · rw [Layout.rendering, hlayout]
    simp only [Layout.args_word_append, Layout.args_name_append]
    rw [Layout.args_append (failure_namesLayout _), Layout.args_word_append,
      Layout.args_append (by simpa using hrowLayouts), Layout.args_joined hrowLayouts,
      Layout.args_append failure_conflictLayout, args_namesLayout, args_conflictLayout,
      args_returningLayout, List.flatMap_map]
    simp [args_rowLayout, List.flatMap_id']

/-! ## Places -/

/-- The first row. -/
def firstRow (s : Insert) : List Arg := s.rows.headD []

/-- What one place of a row says : a column and the argument that is put into it. -/
def cell (s : Insert) (row place : Nat) : Option (String × Arg) :=
  s.rows[row]?.bind fun args => (s.columns.zip args)[place]?

/-- Columns and rows of one insertion are the beginnings of those of another, and the first row,
once there is one, has grown only together with the columns. -/
structure Grows (s t : Insert) : Prop where
  columns : s.columns <+: t.columns
  rows : ∀ (k : Nat) (row : List Arg), s.rows[k]? = some row →
    ∃ row', t.rows[k]? = some row' ∧ row <+: row'
  gap : s.rows ≠ [] →
    s.columns.length + t.firstRow.length ≤ t.columns.length + s.firstRow.length

theorem Grows.refl (s : Insert) : s.Grows s :=
  ⟨List.prefix_refl _, fun _ row h => ⟨row, h, List.prefix_refl _⟩, fun _ => Nat.le_refl _⟩

theorem Grows.trans {s t u : Insert} (h : s.Grows t) (h' : t.Grows u) : s.Grows u := by
  refine ⟨h.columns.trans h'.columns, fun k row hrow => ?_, fun hs => ?_⟩
  · obtain ⟨row', hrow', hprefix⟩ := h.rows k row hrow
    obtain ⟨row'', hrow'', hprefix'⟩ := h'.rows k row' hrow'
    exact ⟨row'', hrow'', hprefix.trans hprefix'⟩
  · have ht : t.rows ≠ [] := by
      obtain ⟨first, rest, hrows⟩ := List.exists_cons_of_ne_nil hs
      obtain ⟨row', hrow', -⟩ := h.rows 0 first (by simp [hrows])
      intro hnil
      simp [hnil] at hrow'
    have := h.gap hs
    have := h'.gap ht
    omega

/-- One call adds at the end of the columns or of the rows, or at both ends of a pair. -/
theorem grows_apply (s : Insert) (e : Edit) : s.Grows (s.apply e) := by
  cases e with
  | columns names =>
    exact ⟨List.prefix_append .., (Grows.refl s).rows, fun _ => by simp [apply, firstRow]⟩
  | row args =>
    refine ⟨List.prefix_refl _, fun k row hrow => ⟨row, ?_, List.prefix_refl _⟩, fun hs => ?_⟩
    · rw [apply, List.getElem?_append_left (List.getElem?_eq_some_iff.mp hrow).1, hrow]
    · obtain ⟨first, rest, hrows⟩ := List.exists_cons_of_ne_nil hs
      simp [apply, firstRow, hrows]
  | pair column arg =>
    refine ⟨List.prefix_append .., fun k row hrow => ?_, fun hs => ?_⟩
    · match hrows : s.rows, k with
      | [], _ => simp [hrows] at hrow
      | first :: rest, 0 =>
        obtain rfl : first = row := by simpa [hrows] using hrow
        exact ⟨first ++ [arg], by simp [apply, extendFirstRow, hrows], List.prefix_append ..⟩
      | first :: rest, k + 1 =>
        exact ⟨row, by simpa [apply, extendFirstRow, hrows] using hrow, List.prefix_refl _⟩
    · obtain ⟨first, rest, hrows⟩ := List.exists_cons_of_ne_nil hs
      simp [apply, firstRow, extendFirstRow, hrows]
      omega
  | ignoreDuplicates => exact ⟨List.prefix_refl _, (Grows.refl s).rows, fun _ => Nat.le_refl _⟩
  | returning names => exact ⟨List.prefix_refl _, (Grows.refl s).rows, fun _ => Nat.le_refl _⟩

/-- Every sequence of edits leaves the columns and rows that were there at the beginnings of what
they are then. -/
theorem grows_applyAll (s : Insert) (edits : List Edit) : s.Grows (s.applyAll edits) := by
  induction edits generalizing s with
  | nil => exact Grows.refl s
  | cons e edits ih => exact (grows_apply s e).trans (ih (s.apply e))

/-! ## Where calls put their arguments -/

/-- Where the column and the argument of a pair are found in `s` if the pair was added to `t`. They
are together unless the first row was wider than the columns. -/
structure PairPlaced (t s : Insert) (column : String) (arg : Arg) : Prop where
  columnPlace : s.columns[t.columns.length]? = some column
  argPlace : s.firstRow[t.firstRow.length]? = some arg
  together_iff : t.columns.length = t.firstRow.length ↔ t.firstRow.length ≤ t.columns.length
  cell : t.firstRow.length ≤ t.columns.length → s.cell 0 t.columns.length = some (column, arg)

/-- Where the arguments of a row are found in `s` if the row was added to `t` : in a row of its
own, each under the column at its own place. -/
def RowPlaced (t s : Insert) (args : List Arg) : Prop :=
  ∀ i arg, args[i]? = some arg →
    ∃ column, s.columns[i]? = some column ∧ s.cell t.rows.length i = some (column, arg)

/-- What stands at a place of a beginning stands there in the whole. -/
theorem getElem?_of_prefix {α : Type} {xs ys : List α} (h : xs <+: ys) {i : Nat} {a : α}
    (ha : xs[i]? = some a) : ys[i]? = some a := by
  obtain ⟨hi, rfl⟩ := List.getElem?_eq_some_iff.mp ha
  exact List.prefix_iff_getElem?.mp h i hi

/-- A place of a row that is no wider than the columns. -/
theorem cell_of_getElem? {k i : Nat} {row : List Arg} {column : String} {arg : Arg}
    (hrow : s.rows[k]? = some row) (hcolumn : s.columns[i]? = some column)
    (harg : row[i]? = some arg) : s.cell k i = some (column, arg) := by
  simp [cell, hrow, List.getElem?_zip_eq_some, hcolumn, harg]

/-- If all rows fit in the end, a row that was added is found under the columns of its places. -/
theorem rowPlaced (t : Insert) (args : List Arg) (edits : List Edit)
    (hwidth : ∀ row ∈ ((t.apply (.row args)).applyAll edits).rows,
      row.length = ((t.apply (.row args)).applyAll edits).columns.length) :
    RowPlaced t ((t.apply (.row args)).applyAll edits) args := by
  intro i arg harg
  obtain ⟨row, hrow, hprefix⟩ := (grows_applyAll (t.apply (.row args)) edits).rows t.rows.length
    args (by simp [apply])
  have harg' : row[i]? = some arg := getElem?_of_prefix hprefix harg
  obtain ⟨column, hcolumn⟩ : ∃ column,
      ((t.apply (.row args)).applyAll edits).columns[i]? = some column := by
    have := (List.getElem?_eq_some_iff.mp harg').1
    rw [hwidth row (List.mem_of_getElem? hrow)] at this
    exact ⟨_, List.getElem?_eq_getElem this⟩
  exact ⟨column, hcolumn, cell_of_getElem? hrow hcolumn harg'⟩

theorem firstRow_eq {row : List Arg} (h : s.rows[0]? = some row) : s.firstRow = row := by
  rw [firstRow, List.headD_eq_head?_getD, List.head?_eq_getElem?, h, Option.getD_some]

/-- The argument of a pair is at the end of the first row. -/
theorem rows_apply_pair (t : Insert) (column : String) (arg : Arg) :
    (t.apply (.pair column arg)).rows[0]? = some (t.firstRow ++ [arg]) := by
  cases hrows : t.rows <;> simp [apply, extendFirstRow, firstRow, hrows]

/-- If all rows fit in the end, the column and the argument of a pair are found where they were
added. -/
theorem pairPlaced (t : Insert) (column : String) (arg : Arg) (edits : List Edit)
    (hwidth : ∀ row ∈ ((t.apply (.pair column arg)).applyAll edits).rows,
      row.length = ((t.apply (.pair column arg)).applyAll edits).columns.length) :
    PairPlaced t ((t.apply (.pair column arg)).applyAll edits) column arg := by
  have hgrows := grows_applyAll (t.apply (.pair column arg)) edits
  generalize (t.apply (.pair column arg)).applyAll edits = s at hgrows hwidth ⊢
  obtain ⟨row, hrow, hprefix⟩ := hgrows.rows 0 _ (rows_apply_pair t column arg)
  have hfirst : s.firstRow = row := firstRow_eq hrow
  have hcolumn : s.columns[t.columns.length]? = some column :=
    getElem?_of_prefix hgrows.columns (by simp [apply])
  have harg : row[t.firstRow.length]? = some arg :=
    getElem?_of_prefix hprefix (by simp)
  -- a first row that is behind the columns stays behind, and could not be written in the end
  have hle : t.columns.length ≤ t.firstRow.length := by
    have hgap := hgrows.gap (by rintro hnil; simpa [hnil] using rows_apply_pair t column arg)
    rw [hfirst, firstRow_eq (rows_apply_pair t column arg),
      hwidth row (List.mem_of_getElem? hrow)] at hgap
    simp only [apply, List.length_append, List.length_singleton] at hgap
    omega
  exact ⟨hcolumn, hfirst ▸ harg, ⟨fun h => Nat.le_of_eq h.symm, Nat.le_antisymm hle⟩,
    fun h => cell_of_getElem? hrow hcolumn (Nat.le_antisymm hle h ▸ harg)⟩

theorem applyAll_append_cons (start : Insert) (before : List Edit) (e : Edit) (after : List Edit) :
    start.applyAll (before ++ e :: after) = ((start.applyAll before).apply e).applyAll after := by
  simp [applyAll, List.foldl_append]

/-- Whatever the calls, if the insertion can be written then it is written with its columns and
rows in order, each argument of a row under the column at its own place, and the column and the
argument of each pair at the ends of the columns and of the first row as they were. These two
places are one exactly if the first row was not wider than the columns then. -/
theorem pairs_together_iff (start : Insert) (edits : List Edit)
    (h : ((Body.clauses (start.applyAll edits)).insertNode.render d).failure = none) :
    (start.applyAll edits).Written d
        ((Body.clauses (start.applyAll edits)).insertNode.render d) ∧
      (∀ before args after, edits = before ++ .row args :: after →
        RowPlaced (start.applyAll before) (start.applyAll edits) args) ∧
      ∀ before column arg after, edits = before ++ .pair column arg :: after →
        PairPlaced (start.applyAll before) (start.applyAll edits) column arg := by
  have hwritten : (start.applyAll edits).Written d
      ((Body.clauses (start.applyAll edits)).insertNode.render d) := written_layout h
  refine ⟨hwritten, ?_, ?_⟩
  · rintro before args after rfl
    have hwidth := hwritten.width
    rw [applyAll_append_cons] at hwidth ⊢
    exact rowPlaced _ args after hwidth
  · rintro before column arg after rfl
    have hwidth := hwritten.width
    rw [applyAll_append_cons] at hwidth ⊢
    exact pairPlaced _ column arg after hwidth

/-- Two columns filled by a row and a pair, and a second row. -/
theorem pairs_together_iff_two_rows :
    let s := (into "t").applyAll [.columns ["a"], .row [toArg (1 : Int64)],
      .pair "b" (toArg (2 : Int64)), .row [toArg (3 : Int64), toArg (4 : Int64)]]
    ((Body.clauses s).insertNode.render .mysql).failure = none ∧
    s.Written .mysql ((Body.clauses s).insertNode.render .mysql) ∧
    PairPlaced ((into "t").applyAll [.columns ["a"], .row [toArg (1 : Int64)]]) s "b"
      (toArg (2 : Int64)) := by
  have h := pairs_together_iff (d := .mysql) (into "t") [.columns ["a"], .row [toArg (1 : Int64)],
    .pair "b" (toArg (2 : Int64)), .row [toArg (3 : Int64), toArg (4 : Int64)]] rfl
  exact ⟨rfl, h.1, h.2.2 [.columns ["a"], .row [toArg (1 : Int64)]] _ _ _ rfl⟩

/-- A row that is wider than the columns tears the pair after it : the column `b` is the first, and
its argument the second of the row. -/
theorem not_pairs_together :
    ¬ ∀ (start : Insert) (edits : List Edit) (d : Dialect),
      ((Body.clauses (start.applyAll edits)).insertNode.render d).failure = none →
      ∀ before column arg after, edits = before ++ .pair column arg :: after →
        (start.applyAll before).columns.length = (start.applyAll before).firstRow.length := by
  intro h
  have := h (into "t") [.row [toArg (1 : Int64)], .pair "b" (toArg (2 : Int64)), .columns ["a"]]
    .mysql rfl [.row [toArg (1 : Int64)]] "b" (toArg (2 : Int64)) [.columns ["a"]] rfl
  simp [applyAll, apply, into, firstRow] at this

end SqlWeave.Insert
