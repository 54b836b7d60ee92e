import SqlWeave.Layout

/-!
# Statements by clauses or by text

A statement is composed of clauses, or it is a fragment of text that a caller wrote. The
edits that set clauses leave a text as it is.
-/

namespace SqlWeave

/-- A statement whose clauses are an `α`, or its text. -/
inductive Body (α : Type) where
  | text (fragment : Fragment)
  | clauses (c : α)

namespace Body

variable {α : Type}

/-- The statement with its clauses changed. -/
def edit (change : α → α) : Body α → Body α
  | .text fragment => .text fragment
  | .clauses c => .clauses (change c)

/-- The layout of a statement, given that of its clauses. A text is one slot. -/
def layout (ofClauses : α → Layout) : Body α → Layout
  | .text fragment => .slot fragment.arg
  | .clauses c => ofClauses c

end Body

/-- Types whose members give one name or several. -/
class ToNames (α : Type) where
  toNames : α → List String

export ToNames (toNames)

instance : ToNames String := ⟨fun name => [name]⟩
instance : ToNames (List String) := ⟨id⟩

/-- Names laid out with commas between them. -/
def namesLayout (names : List String) : Layout := .joined ", " (names.map .name)

/-- A clause with a row count. -/
def countLayout (keyword : String) (count : Option UInt64) : Layout :=
  match count with
  | some n => .word (keyword ++ toString n.toNat)
  | none => .empty

end SqlWeave
