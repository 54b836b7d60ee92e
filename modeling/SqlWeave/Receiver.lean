import SqlWeave.Context

/-!
# Receivers and what they are told

A receiver is told what calls do : events, failures, and how long a call took, some with
details. A traced receiver also keeps a span around each call to a database driver.

A receiver is known by its number; two are the same one exactly when their numbers agree.
-/

namespace SqlWeave

/-- Details of an event, by key, in the order of the keys. -/
structure Details where
  entries : List (String × String) := []
  deriving DecidableEq, Repr

namespace Details

/-- Entries in order with the one for `key` set. -/
def insertEntry (key value : String) : List (String × String) → List (String × String)
  | [] => [(key, value)]
  | (k, v) :: rest =>
    if key < k then (key, value) :: (k, v) :: rest
    else if key = k then (key, value) :: rest
    else (k, v) :: insertEntry key value rest

/-- The details with the entry for `key` set. -/
def insert (details : Details) (key value : String) : Details :=
  ⟨insertEntry key value details.entries⟩

/-- The details with the given entries; of two for one key the later. -/
def ofList (entries : List (String × String)) : Details :=
  entries.foldl (fun details (key, value) => details.insert key value) {}

/-- The text of a statement as the only detail. -/
def sql (text : String) : Details := ofList [("sql", text)]

end Details

/-- What a receiver is told. Times are in nanoseconds. -/
inductive Signal where
  | event (name : String)
  | eventWith (name : String) (details : Details)
  | failure (name error : String)
  | failureWith (name error : String) (details : Details)
  | timing (name : String) (elapsed : Nat)
  | timingWith (name : String) (elapsed : Nat) (details : Details)
  deriving DecidableEq, Repr

/-- A receiver. -/
structure Receiver where
  number : Nat
  /-- Whether it keeps spans. -/
  traced : Bool
  deriving DecidableEq, Repr

namespace Receiver

/-- Whether two receivers are the same one. -/
def sameInstance (r s : Receiver) : Bool := r.number == s.number

/-- The kind of a receiver in words. -/
def describe (r : Receiver) : String :=
  if r.traced then "Receiver::Traced" else "Receiver::Plain"

end Receiver

end SqlWeave
