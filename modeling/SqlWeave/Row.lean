import SqlWeave.Error

/-!
# Rows and loading

A row is a list of values under the column names of its result. A `Cursor` is a result as
a driver hands it out, one read after the other, each a row or a failure.

`Load.load` reads a cursor into a destination and counts what it stored. A list takes all
rows up to the first failure, an optional member takes one row. What was stored before a
failure stays.
-/

namespace SqlWeave

/-- A row of a result. -/
structure Row where
  columns : List String
  values : List Value
  deriving DecidableEq, Repr

namespace Row

/-- Whether two rows represent the same. -/
def same (r s : Row) : Bool :=
  r.columns == s.columns && r.values.length == s.values.length &&
    (r.values.zip s.values).all fun (v, w) => v.same w

/-- The value at an index, decoded. -/
def getIndex (α : Type) [FromValue α] (r : Row) (index : Nat) : Except LoadError α :=
  match r.values[index]? with
  | none => .error (.columnIndex index)
  | some v => (fromValue v).mapError (.decode (r.columns[index]?.getD ""))

/-- The value of a column, decoded; of columns with one name, the first. -/
def get (α : Type) [FromValue α] (r : Row) (column : String) : Except LoadError α :=
  match r.columns.idxOf? column with
  | none => .error (.columnName column)
  | some index => r.getIndex α index

end Row

/-- Types that rows are read as. -/
class FromRow (α : Type) where
  fromRow : Row → Except LoadError α

export FromRow (fromRow)

/-- A row itself. -/
instance : FromRow Row := ⟨.ok⟩

/-- A single value is read from the first column. -/
instance (priority := low) {α : Type} [FromValue α] : FromRow α := ⟨fun r => r.getIndex α 0⟩

/-- A result as a driver hands it out. -/
structure Cursor where
  columns : List String
  reads : List (Except DriverError (List Value))

namespace Cursor

/-- The rows before the first read that fails. -/
def rows (c : Cursor) : List (List Value) :=
  (c.reads.takeWhile (·.isOk)).filterMap (·.toOption)

/-- One read as a member of a type. -/
def decodeRead {α : Type} [FromRow α] (columns : List String) :
    Except DriverError (List Value) → Except LoadError α
  | .error e => .error (.rows e)
  | .ok values => fromRow ⟨columns, values⟩

/-- The members of a type that reads give up to the first failure, and the failure. -/
def decodeReads {α : Type} [FromRow α] (columns : List String) :
    List (Except DriverError (List Value)) → List α × Option LoadError
  | [] => ([], none)
  | read :: rest =>
    match decodeRead columns read with
    | .error e => ([], some e)
    | .ok a =>
      let (as, failure) := decodeReads columns rest
      (a :: as, failure)

end Cursor

/-- Destinations of a result. -/
class Load (δ : Type) where
  /-- The destination after loading, and how many rows were stored or why loading ended. -/
  load : δ → Cursor → δ × Except LoadError Nat

/-- A list takes every row at its end. -/
instance {α : Type} [FromRow α] : Load (List α) where
  load dest c :=
    match Cursor.decodeReads c.columns c.reads with
    | (rows, none) => (dest ++ rows, .ok rows.length)
    | (rows, some e) => (dest ++ rows, .error e)

/-- An optional member takes the first row, and is left alone if there is none. -/
instance {α : Type} [FromRow α] : Load (Option α) where
  load dest c :=
    match c.reads with
    | [] => (dest, .ok 0)
    | read :: _ =>
      match Cursor.decodeRead c.columns read with
      | .error e => (dest, .error e)
      | .ok a => (some a, .ok 1)

end SqlWeave
