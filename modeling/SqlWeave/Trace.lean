/-!
# Traces

A trace is what a subscriber to structured logging sees : spans that open and close, and
events, some of them inside a span. Records stand in the order in which they were emitted,
and spans are numbered from one in the order in which they opened.
-/

namespace SqlWeave

/-- How much an event matters. -/
inductive Level where
  | error
  | warn
  | info
  | debug
  | trace
  deriving DecidableEq, Repr

namespace Level

def name : Level → String
  | .error => "ERROR"
  | .warn => "WARN"
  | .info => "INFO"
  | .debug => "DEBUG"
  | .trace => "TRACE"

/-- The level with a name, in upper or lower case. -/
def ofName? (name : String) : Option Level :=
  [error, warn, info, debug, trace].find? (·.name == name.toUpper)

end Level

/-- Named texts, in the order in which they were given. -/
abbrev Fields := List (String × String)

/-- What a subscriber sees. -/
inductive Record where
  | spanOpened (span : Nat) (name target : String) (level : Level) (fields : Fields)
  | spanClosed (span : Nat)
  /-- An event, inside a span or outside all. -/
  | event (level : Level) (target : String) (span : Option Nat) (fields : Fields)
  deriving DecidableEq, Repr

/-- The records so far, and how many spans have opened. -/
structure Trace where
  opened : Nat := 0
  records : List Record := []
  deriving Repr

namespace Trace

/-- The trace with one more record. -/
def add (t : Trace) (r : Record) : Trace := { t with records := t.records ++ [r] }

/-- The trace with a new span, and the number of the span. -/
def openSpan (t : Trace) (name target : String) (level : Level) (fields : Fields) :
    Trace × Nat :=
  let span := t.opened + 1
  ({ t with opened := span }.add (.spanOpened span name target level fields), span)

end Trace

/-- The target under which all of this library's records stand. -/
def traceTarget : String := "halo_dbr"

end SqlWeave
