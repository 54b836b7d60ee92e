/-!
# Dialects

The four database dialects and the decisions in which they differ : how a placeholder
is written, which words stand for truth values, which character quotes an identifier,
and where a backslash hides the character after it.

Everything here is a finite table. Rules that read or write whole texts by these tables
live with the texts : identifiers in `Dialect.Identifier`, literals in `Literal`,
templates in `Template`.
-/

namespace SqlWeave

/-- A database dialect. -/
inductive Dialect where
  | mysql
  | postgres
  | sqlite
  | clickhouse
  deriving DecidableEq, Repr

namespace Dialect

/-- Every dialect, in the order of declaration. -/
def all : List Dialect := [.mysql, .postgres, .sqlite, .clickhouse]

/-- The name that a dialect goes by in reports. -/
def name : Dialect → String
  | .mysql => "MySQL"
  | .postgres => "PostgreSQL"
  | .sqlite => "SQLite"
  | .clickhouse => "ClickHouse"

/-- The name of the driver that speaks a dialect. -/
def driver : Dialect → String
  | .mysql => "mysql"
  | .postgres => "postgres"
  | .sqlite => "sqlite3"
  | .clickhouse => "clickhouse"

/-- The dialect that a driver speaks, if the driver is known. -/
def ofDriver? (driver : String) : Option Dialect := all.find? (·.driver == driver)

/-- The character around a quoted identifier. -/
def identifierQuote : Dialect → Char
  | .mysql | .clickhouse => '`'
  | .postgres | .sqlite => '"'

/-- Whether, between two `quote` characters, a backslash hides the character after it. -/
def backslashHides : Dialect → Char → Bool
  | .mysql, quote => quote == '\'' || quote == '"'
  | .clickhouse, quote => quote == '\'' || quote == '"' || quote == '`'
  | .postgres, _ | .sqlite, _ => false

/-- The placeholder of the `n`-th bound value, counted from one. -/
def placeholder : Dialect → Nat → String
  | .postgres, n => "$" ++ toString n
  | .mysql, _ | .sqlite, _ | .clickhouse, _ => "?"

/-- The literal of a missing value, the same in every dialect. -/
def null (_ : Dialect) : String := "NULL"

/-- The literal of a truth value. -/
def bool : Dialect → Bool → String
  | .postgres, true => "TRUE"
  | .postgres, false => "FALSE"
  | _, true => "1"
  | _, false => "0"

/-- The verb of an insertion that skips rows already there. PostgreSQL says so at the end
of the statement, and ClickHouse cannot say it. -/
def insertIgnore : Dialect → String
  | .mysql => "INSERT IGNORE"
  | .sqlite => "INSERT OR IGNORE"
  | .postgres | .clickhouse => "INSERT"

/-- Whether an update or a deletion may carry a row limit. -/
def limitsMutations : Dialect → Bool
  | .mysql | .sqlite => true
  | .postgres | .clickhouse => false

theorem placeholder_of_ne_postgres {d : Dialect} (h : d ≠ .postgres) (n : Nat) :
    d.placeholder n = "?" := by
  cases d with
  | postgres => exact absurd rfl h
  | mysql | sqlite | clickhouse => rfl

@[simp] theorem ofDriver?_driver (d : Dialect) : ofDriver? d.driver = some d := by
  cases d <;> decide

end Dialect

end SqlWeave
