import Mathlib.Data.List.Basic
import SqlWeave.Statement

/-!
# What edits come to

An edit of a statement adds something to one of its clauses, or else takes the place of what
was there. A statement after edits can therefore be told from the edits clause by clause,
without the statements in between : lists are what was there and what the edits add, in their
order, and the rest is what the last edit gives that gives anything (`latest`).
-/

namespace SqlWeave

/-- What the last of the edits gives that gives anything, or else what was there before. -/
def latest {ε α : Type} (given? : ε → Option α) (edits : List ε) (before : Option α) : Option α :=
  (edits.filterMap given?).getLast?.or before

/-- Without edits, what was there before is the latest. -/
@[simp] theorem latest_nil {ε α : Type} (given? : ε → Option α) (before : Option α) :
    latest given? [] before = before := by
  simp [latest]

/-- What an edit gives counts until a later one gives something. -/
@[simp] theorem latest_cons {ε α : Type} (given? : ε → Option α) (e : ε) (edits : List ε)
    (before : Option α) :
    latest given? (e :: edits) before = latest given? edits ((given? e).or before) := by
  cases h : given? e with
  | none => simp [latest, h]
  | some a =>
    rw [latest, latest, List.filterMap_cons_some h, List.getLast?_cons]
    cases (edits.filterMap given?).getLast? <;> simp

namespace Select

namespace Edit

/-- The columns that an edit adds. -/
def newColumns : Edit → List Arg
  | .columns names => namedColumns names
  | .expression arg => [arg]
  | _ => []

def isDistinct : Edit → Bool
  | .distinct => true
  | _ => false

/-- The source that an edit sets. -/
def source? : Edit → Option Source
  | .table name => some { node := toArg (Ident.mk name) }
  | .subquery query label => some ⟨toArg query, some label⟩
  | _ => none

def join? : Edit → Option Join
  | .join j => some j
  | _ => none

def filter? : Edit → Option Condition
  | .filter c => some c
  | _ => none

/-- The names that an edit groups by. -/
def newGroups : Edit → List String
  | .groupBy names => names
  | _ => []

def groupFilter? : Edit → Option Condition
  | .filterGroups c => some c
  | _ => none

def orderKey? : Edit → Option OrderKey
  | .orderBy key => some key
  | _ => none

/-- The limit that an edit sets; a page has its size for one. -/
def limit? : Edit → Option UInt64
  | .limit count => some count
  | .page _ size => some size
  | _ => none

/-- The offset that an edit sets; a page has one for the pages before it. -/
def offset? : Edit → Option UInt64
  | .offset count => some count
  | .page number size => some (rowsBefore number size)
  | _ => none

def isLock : Edit → Bool
  | .lock => true
  | _ => false

end Edit

/-- The query with what edits give, clause by clause. -/
def collected (s : Select) (edits : List Edit) : Select where
  distinct := s.distinct || edits.any Edit.isDistinct
  columns := s.columns ++ edits.flatMap Edit.newColumns
  source := latest Edit.source? edits s.source
  joins := s.joins ++ edits.filterMap Edit.join?
  filters := s.filters ++ edits.filterMap Edit.filter?
  groups := s.groups ++ edits.flatMap Edit.newGroups
  groupFilters := s.groupFilters ++ edits.filterMap Edit.groupFilter?
  order := s.order ++ edits.filterMap Edit.orderKey?
  limit := latest Edit.limit? edits s.limit
  offset := latest Edit.offset? edits s.offset
  locked := s.locked || edits.any Edit.isLock

theorem collected_nil (s : Select) : s.collected [] = s := by
  simp [collected]

/-- The edits that follow build on what the first of them came to. -/
theorem collected_cons (s : Select) (e : Edit) (edits : List Edit) :
    s.collected (e :: edits) = (s.apply e).collected edits := by
  cases e <;>
    simp [collected, apply, List.filterMap_cons, Edit.newColumns, Edit.isDistinct, Edit.source?,
      Edit.join?, Edit.filter?, Edit.newGroups, Edit.groupFilter?, Edit.orderKey?, Edit.limit?,
      Edit.offset?, Edit.isLock]

/-- Applying edits one by one comes to what they come to clause by clause. -/
theorem applyAll_eq_collected (s : Select) (edits : List Edit) :
    s.applyAll edits = s.collected edits := by
  induction edits generalizing s with
  | nil => exact s.collected_nil.symm
  | cons e edits ih => exact (ih (s.apply e)).trans (s.collected_cons e edits).symm

end Select

namespace Update

namespace Edit

/-- The assignments that an edit adds. -/
def newAssignments : Edit → List (String × Arg)
  | .set column arg => [(column, arg)]
  | .setAll assignments => assignments
  | _ => []

def filter? : Edit → Option Condition
  | .filter c => some c
  | _ => none

def limit? : Edit → Option UInt64
  | .limit count => some count
  | _ => none

end Edit

/-- The update with what edits give, clause by clause. -/
def collected (s : Update) (edits : List Edit) : Update where
  table := s.table
  assignments := s.assignments ++ edits.flatMap Edit.newAssignments
  filters := s.filters ++ edits.filterMap Edit.filter?
  limit := latest Edit.limit? edits s.limit

/-- The edits that follow build on what the first of them came to. -/
theorem collected_cons (s : Update) (e : Edit) (edits : List Edit) :
    s.collected (e :: edits) = (s.apply e).collected edits := by
  cases e <;>
    simp [collected, apply, List.filterMap_cons, Edit.newAssignments, Edit.filter?, Edit.limit?]

/-- Applying edits one by one comes to what they come to clause by clause. -/
theorem applyAll_eq_collected (s : Update) (edits : List Edit) :
    s.applyAll edits = s.collected edits := by
  induction edits generalizing s with
  | nil => simp [applyAll, collected]
  | cons e edits ih => exact (ih (s.apply e)).trans (s.collected_cons e edits).symm

end Update

namespace Delete

namespace Edit

def filter? : Edit → Option Condition
  | .filter c => some c
  | _ => none

def limit? : Edit → Option UInt64
  | .limit count => some count
  | _ => none

end Edit

/-- The deletion with what edits give, clause by clause. -/
def collected (s : Delete) (edits : List Edit) : Delete where
  table := s.table
  filters := s.filters ++ edits.filterMap Edit.filter?
  limit := latest Edit.limit? edits s.limit

/-- The edits that follow build on what the first of them came to. -/
theorem collected_cons (s : Delete) (e : Edit) (edits : List Edit) :
    s.collected (e :: edits) = (s.apply e).collected edits := by
  cases e <;> simp [collected, apply, List.filterMap_cons, Edit.filter?, Edit.limit?]

/-- Applying edits one by one comes to what they come to clause by clause. -/
theorem applyAll_eq_collected (s : Delete) (edits : List Edit) :
    s.applyAll edits = s.collected edits := by
  induction edits generalizing s with
  | nil => simp [applyAll, collected]
  | cons e edits ih => exact (ih (s.apply e)).trans (s.collected_cons e edits).symm

end Delete

end SqlWeave
