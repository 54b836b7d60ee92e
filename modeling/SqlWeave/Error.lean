import SqlWeave.Context
import SqlWeave.RenderError
import SqlWeave.Row.Decode

/-!
# Failures of calls

What can go wrong between a statement and its result. The failure of a database driver is
passed on as it is; failures of rendering and loading keep their own words.
-/

namespace SqlWeave

/-- A failure that a database driver reports. -/
inductive DriverError where
  /-- The call's context had ended. -/
  | interrupted (cause : Interruption)
  /-- A failure of the driver's own, in its words. -/
  | failed (text : String)
  deriving DecidableEq, Repr

def DriverError.message : DriverError → String
  | .interrupted cause => cause.message
  | .failed text => text

/-- A failure to load a result. -/
inductive LoadError where
  /-- A row could not be read. -/
  | rows (cause : DriverError)
  /-- A column could not be decoded. -/
  | decode (column : String) (cause : DecodeError)
  | columnIndex (index : Nat)
  | columnName (name : String)
  deriving DecidableEq, Repr

def LoadError.message : LoadError → String
  | .rows cause => "reading rows: " ++ cause.message
  | .decode column cause => "decode column '" ++ column ++ "': " ++ cause.message
  | .columnIndex index => "column index " ++ toString index ++ " out of range"
  | .columnName name => "no such column '" ++ name ++ "'"

/-- A failure of a call. -/
inductive Error where
  /-- No dialect is known for the driver. -/
  | notSupported (driver : String)
  | render (cause : RenderError)
  | driver (cause : DriverError)
  | load (cause : LoadError)
  /-- A row was asked for and there was none. -/
  | notFound
  /-- The statement was made outside any session. -/
  | unbound
  /-- The transaction has ended. -/
  | transactionDone
  deriving DecidableEq, Repr

namespace Error

def message : Error → String
  | .notSupported name => "no dialect for driver '" ++ name ++ "'"
  | .render cause => cause.message
  | .driver cause => cause.message
  | .load cause => cause.message
  | .notFound => "not found"
  | .unbound => "statement is not bound to a session"
  | .transactionDone => "transaction has already been committed or rolled back"

/-- Whether the failure is that there was no row. -/
def isNotFound : Error → Bool
  | .notFound => true
  | _ => false

/-- The driver's own failure, if it is one. -/
def driverError? : Error → Option DriverError
  | .driver cause => some cause
  | _ => none

end Error

end SqlWeave
