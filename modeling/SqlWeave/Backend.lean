import SqlWeave.Interpolation
import SqlWeave.Receiver
import SqlWeave.Row
import SqlWeave.Trace

/-!
# What lies outside

Databases and receivers are not part of the library. A `Backend` says, in a monad of its
own, what they do when they are called. The rest of the library is written for any backend,
so it holds for every way in which a database may answer.
-/

namespace SqlWeave

/-- What executes statements. -/
inductive Handle where
  | database (number : Nat)
  | transaction (number : Nat)
  deriving DecidableEq, Repr

/-- The result of a statement that changes rows. -/
structure ExecResult where
  rowsAffected : UInt64
  lastInsertId : Option Int64
  deriving DecidableEq, Repr

/-- How databases, receivers, the clock and the trace behave. -/
structure Backend (m : Type → Type) where
  /-- Open the database of a driver and a source name. -/
  connect : (driver source : String) → m (Except DriverError Nat)
  execute : Handle → Context → Query → m (Except DriverError ExecResult)
  query : Handle → Context → Query → m (Except DriverError Cursor)
  /-- Begin a transaction on a database. -/
  begin : Nat → Context → m (Except DriverError Nat)
  /-- Commit a transaction. -/
  commit : Nat → m (Except DriverError Unit)
  /-- Roll a transaction back. -/
  rollback : Nat → m (Except DriverError Unit)
  /-- A new receiver that ignores all it is told. -/
  silentReceiver : m Receiver
  notify : Receiver → Signal → m Unit
  /-- Open a span for an event and its statement, and derive a context that carries it. -/
  startSpan : Receiver → Context → (event sql : String) → m Context
  /-- Note a failure in the span of a context. -/
  failSpan : Receiver → Context → (error : String) → m Unit
  /-- Close the span of a context. -/
  finishSpan : Receiver → Context → m Unit
  /-- Write a record to the trace. -/
  record : Record → m Unit
  /-- The time in nanoseconds. -/
  clock : m Nat

end SqlWeave
