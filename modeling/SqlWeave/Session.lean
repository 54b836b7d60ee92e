import SqlWeave.Pipeline
import SqlWeave.Statement

/-!
# Connections, sessions and transactions

A connection is a database with its dialect and a receiver. A session is a unit of work on
a connection, with a context, and with the connection's receiver unless it has one of its
own; a transaction is begun in a session and ends with the first commit or rollback. Both
bind statements : a bound statement runs on the handle, and reports to the receiver, of
what it was bound by.
-/

namespace SqlWeave

/-- A record in braces, as far as it is shown. -/
def describeRecord (name : String) (fields : List (String × String)) : String :=
  name ++ " \x7b " ++ String.join (fields.map fun (key, value) => key ++ ": " ++ value ++ ", ") ++
    ".. \x7d"

/-- A database with its dialect and the receiver for what happens on it. -/
structure Connection where
  database : Nat
  dialect : Dialect
  receiver : Receiver
  deriving DecidableEq, Repr

/-- A unit of work on a connection. -/
structure Session where
  connection : Connection
  receiver : Receiver
  context : Context
  deriving DecidableEq, Repr

/-- A transaction, open until it is done. -/
structure Transaction where
  number : Nat
  receiver : Receiver
  dialect : Dialect
  context : Context
  done : Bool := false
  deriving DecidableEq, Repr

namespace Connection

/-- Open a database. The dialect is found first : for an unknown driver nothing is opened. -/
def connect {m : Type → Type} [Monad m] (b : Backend m) (driver source : String)
    (receiver : Option Receiver) : m (Except Error Connection) := do
  match Dialect.ofDriver? driver with
  | none => return .error (.notSupported driver)
  | some dialect =>
    match ← b.connect driver source with
    | .error e => return .error (.driver e)
    | .ok database =>
      b.record <| .event .debug traceTarget none
        [("message", "connection opened"), ("driver", driver), ("dialect", dialect.name)]
      let receiver ← match receiver with
        | some r => pure r
        | none => b.silentReceiver
      return .ok ⟨database, dialect, receiver⟩

/-- A session with a context. -/
def session (c : Connection) (receiver : Option Receiver) (context : Context := .background) :
    Session :=
  ⟨c, receiver.getD c.receiver, context⟩

def describe (c : Connection) : String :=
  describeRecord "Connection"
    [("dialect", c.dialect.name), ("receiver", c.receiver.describe)]

end Connection

namespace Session

variable {m : Type → Type} [Monad m]

def dialect (s : Session) : Dialect := s.connection.dialect

/-- The receivers that a session holds, in the order in which it lets go of them : that of
its connection before its own. -/
def receivers (s : Session) : List Receiver := [s.connection.receiver, s.receiver]

/-- Another session on the same connection, with the same receiver unless one is given. -/
def fork (s : Session) (receiver : Option Receiver) : Session :=
  { s with receiver := receiver.getD s.receiver }

/-- How the statements of a session are run. -/
def route (s : Session) : Route :=
  ⟨.database s.connection.database, s.context, s.receiver, s.dialect⟩

/-- Begin a transaction. -/
def begin (b : Backend m) (s : Session) : m (Except Error Transaction) := do
  match ← b.begin s.connection.database s.context with
  | .ok number =>
    b.notify s.receiver (.event "dbr.begin")
    return .ok { number, receiver := s.receiver, dialect := s.dialect, context := s.context }
  | .error e =>
    b.notify s.receiver (.failure "dbr.begin.error" e.message)
    return .error (.driver e)

end Session

namespace Transaction

variable {m : Type → Type} [Monad m]

/-- How the statements of a transaction are run. -/
def route (t : Transaction) : Route :=
  ⟨.transaction t.number, t.context, t.receiver, t.dialect⟩

/-- End a transaction that is not done, and report how that went. It is done afterwards
even if the database failed. -/
def finish (b : Backend m) (t : Transaction) (call : m (Except DriverError Unit))
    (success failure : String) : m (Except Error Unit × Transaction) := do
  if t.done then return (.error .transactionDone, t)
  else
    let ended := { t with done := true }
    match ← call with
    | .ok () =>
      b.notify t.receiver (.event success)
      return (.ok (), ended)
    | .error e =>
      b.notify t.receiver (.failure failure e.message)
      return (.error (.driver e), ended)

def commit (b : Backend m) (t : Transaction) : m (Except Error Unit × Transaction) :=
  t.finish b (b.commit t.number) "dbr.commit" "dbr.commit.error"

def rollback (b : Backend m) (t : Transaction) : m (Except Error Unit × Transaction) :=
  t.finish b (b.rollback t.number) "dbr.rollback" "dbr.rollback.error"

/-- Roll back what was not committed, at the end of a unit of work. Failures are reported
and not returned, and a transaction that is done is left alone. -/
def rollbackUnlessCommitted (b : Backend m) (t : Transaction) : m Transaction := do
  let (_, ended) ←
    t.finish b (b.rollback t.number) "dbr.rollback" "dbr.rollback_unless_committed"
  return ended

def describe (t : Transaction) : String :=
  describeRecord "Tx" [("dialect", t.dialect.name), ("done", toString t.done)]

end Transaction

/-! ## Bound statements -/

/-- How a binding is shown. -/
def Route.describe (r : Route) : String :=
  describeRecord "Binding"
    [("dialect", r.dialect.name), ("receiver", r.receiver.describe)]

/-- A statement with the way to run it, if it was made by a session or a transaction. -/
structure BoundStatement where
  statement : Statement
  route : Option Route

namespace BoundStatement

variable {m : Type → Type} [Monad m]

/-- The statement after edits in order, bound as before. -/
def applyAll (s : BoundStatement) (edits : List Statement.Edit) : BoundStatement :=
  { s with statement := s.statement.applyAll edits }

/-- The way to run a statement, in another context if one is given. -/
def routeIn (s : BoundStatement) (context : Option Context) : Except Error Route :=
  match s.route with
  | none => .error .unbound
  | some r => .ok { r with context := context.getD r.context }

/-- Run a statement that changes rows, in its own context unless one is given. -/
def exec (b : Backend m) (s : BoundStatement) (context : Option Context := none) :
    m (Except Error ExecResult) :=
  match s.routeIn context with
  | .error e => pure (.error e)
  | .ok r => r.exec b s.statement.node

/-- Run a query and load its rows, in its own context unless one is given. -/
def load {δ : Type} [Load δ] (b : Backend m) (s : BoundStatement) (dest : δ)
    (context : Option Context := none) : m (δ × Except Error Nat) :=
  match s.routeIn context with
  | .error e => pure (dest, .error e)
  | .ok r => r.load b s.statement.node dest

/-- The first row of a query. -/
def loadOne (α : Type) [FromRow α] (b : Backend m) (s : BoundStatement)
    (context : Option Context := none) : m (Except Error α) := do
  match ← s.load b (none : Option α) context with
  | (_, .error e) => return .error e
  | (some a, .ok _) => return .ok a
  | (none, .ok _) => return .error .notFound

end BoundStatement

end SqlWeave
