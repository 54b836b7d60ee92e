import SqlWeave.Backend

/-!
# Running a statement

A statement is interpolated, handed to a database, and if it is a query its rows are
loaded. The receiver is told of every failure where it happens, and of the time of
everything after interpolation, as the last thing. A traced receiver has a span around the
call of the database and nothing else.
-/

namespace SqlWeave

/-- The names under which one kind of call is reported. -/
structure CallNames where
  /-- The call itself : its timing and its span. -/
  call : String
  /-- A failure to interpolate. -/
  interpolate : String
  /-- A failure of the database. -/
  database : String

/-- The names of statements that change rows. -/
def CallNames.exec : CallNames :=
  ⟨"dbr.exec", "dbr.exec.interpolate", "dbr.exec.exec"⟩

/-- The names of queries. -/
def CallNames.select : CallNames :=
  ⟨"dbr.select", "dbr.select.interpolate", "dbr.select.load.query"⟩

/-- The name of a failure to load the rows of a query. -/
def loadFailureName : String := "dbr.select.load.scan"

/-- Where a statement is run : on which handle, in which context, for whom, and how. -/
structure Route where
  handle : Handle
  context : Context
  receiver : Receiver
  dialect : Dialect

namespace Route

variable {m : Type → Type} [Monad m]

/-- The text and values of a node. A failure is reported with what there was of both. -/
def prepare (b : Backend m) (r : Route) (names : CallNames) (n : Node) :
    m (Except Error Query) := do
  let progress := ({} : Query).interpolateNode ⟨r.dialect, true⟩ n
  match progress.failure with
  | none => return .ok progress.query
  | some e =>
    let q := progress.query
    b.notify r.receiver <| .failureWith names.interpolate e.message <|
      .ofList [("sql", q.text), ("args", Value.listing q.binds)]
    return .error (.render e)

/-- A database call with a span around it if the receiver is traced. -/
def inSpan {α : Type} (b : Backend m) (r : Route) (names : CallNames) (q : Query)
    (call : Context → m (Except DriverError α)) : m (Except DriverError α) := do
  if r.receiver.traced then
    let inner ← b.startSpan r.receiver r.context names.call q.text
    let reply ← call inner
    match reply with
    | .error e => b.failSpan r.receiver inner e.message
    | .ok _ => pure ()
    b.finishSpan r.receiver inner
    return reply
  else call r.context

/-- A call whose time is reported when it is over, however it ends. -/
def timed {α : Type} (b : Backend m) (r : Route) (names : CallNames) (q : Query)
    (call : m α) : m α := do
  let start ← b.clock
  let reply ← call
  let stop ← b.clock
  b.notify r.receiver (.timingWith names.call (stop - start) (.sql q.text))
  return reply

/-- A database call; a failure is reported and passed on. -/
def reported {α : Type} (b : Backend m) (r : Route) (names : CallNames) (q : Query)
    (call : Context → m (Except DriverError α)) : m (Except Error α) := do
  match ← r.inSpan b names q call with
  | .ok a => return .ok a
  | .error e =>
    b.notify r.receiver (.failureWith names.database e.message (.sql q.text))
    return .error (.driver e)

/-- Run a statement that changes rows. -/
def exec (b : Backend m) (r : Route) (n : Node) : m (Except Error ExecResult) := do
  match ← r.prepare b .exec n with
  | .error e => return .error e
  | .ok q =>
    r.timed b .exec q <| r.reported b .exec q fun ctx => b.execute r.handle ctx q

/-- Run a query and load its rows. -/
def load {δ : Type} [Load δ] (b : Backend m) (r : Route) (n : Node) (dest : δ) :
    m (δ × Except Error Nat) := do
  match ← r.prepare b .select n with
  | .error e => return (dest, .error e)
  | .ok q =>
    r.timed b .select q do
      match ← r.reported b .select q fun ctx => b.query r.handle ctx q with
      | .error e => return (dest, .error e)
      | .ok cursor =>
        match Load.load dest cursor with
        | (dest, .ok count) => return (dest, .ok count)
        | (dest, .error e) =>
          b.notify r.receiver (.failureWith loadFailureName e.message (.sql q.text))
          return (dest, .error (.load e))

end Route

end SqlWeave
