import SqlWeave.Dialect
import SqlWeave.Text.Pieces

/-!
# Templates

A template is text in which each `?` outside quotes is a marker. A quoted section runs
from a quote character to the next occurrence of the same one, or to the end of the text;
other quote characters inside it are plain, and where the dialect says so a backslash
hides the character after it. `Quoting` is the state of a reader of the text, and
`Template.pieces` cuts the text at its markers.

Joined with `?`, the pieces are the text again (`intercalate_cut`).
-/

namespace SqlWeave

/-- Where a reader of a text stands. -/
inductive Quoting where
  | outside
  /-- After an opening `quote`. -/
  | inside (quote : Char)
  /-- After a backslash between two `quote`s that hides the next character. -/
  | hidden (quote : Char)
  deriving DecidableEq, Repr

/-- Whether a character opens a quoted section. -/
def isQuote (c : Char) : Bool := c == '\'' || c == '"' || c == '`'

/-- Where a reader stands after one more character. -/
def Quoting.next (d : Dialect) : Quoting → Char → Quoting
  | .outside, c => if isQuote c then .inside c else .outside
  | .inside quote, c =>
    if c == '\\' && d.backslashHides quote then .hidden quote
    else if c = quote then .outside
    else .inside quote
  | .hidden quote, _ => .inside quote

/-- Where a reader stands after a text. -/
def Quoting.after (d : Dialect) (state : Quoting) (cs : List Char) : Quoting :=
  cs.foldl (Quoting.next d) state

namespace Template

/-- Whether a character read in a state is a marker. -/
def isMarker (state : Quoting) (c : Char) : Bool := state == .outside && c == '?'

/-- The pieces of a text between its markers, for a reader who starts in `state`. -/
def cut (d : Dialect) (state : Quoting) : List Char → List (List Char)
  | [] => [[]]
  | c :: cs =>
    if isMarker state c then [] :: cut d .outside cs
    else Text.extendFirst c (cut d (state.next d c) cs)

/-- The pieces of a template between its markers. -/
def pieces (d : Dialect) (template : String) : List String :=
  (cut d .outside template.toList).map .ofList

/-- How many markers a template has. -/
def markers (d : Dialect) (template : String) : Nat := (pieces d template).length - 1

theorem eq_of_isMarker {state : Quoting} {c : Char} (h : isMarker state c = true) : c = '?' := by
  simp only [isMarker, Bool.and_eq_true, beq_iff_eq] at h
  exact h.2

theorem cut_ne_nil (d : Dialect) (state : Quoting) (cs : List Char) : cut d state cs ≠ [] := by
  cases cs with
  | nil => simp [cut]
  | cons c cs => by_cases h : isMarker state c <;> simp [cut, h]

/-- Joined with `?`, the pieces are the text again. -/
theorem intercalate_cut (d : Dialect) (state : Quoting) (cs : List Char) :
    ['?'].intercalate (cut d state cs) = cs := by
  induction cs generalizing state with
  | nil => simp [cut]
  | cons c cs ih =>
    by_cases h : isMarker state c
    · obtain rfl := eq_of_isMarker h
      obtain ⟨p, ps, hp⟩ := List.exists_cons_of_ne_nil (cut_ne_nil d .outside cs)
      have ih := ih .outside
      rw [hp] at ih
      simp [cut, h, hp, List.intercalate_cons_cons, ih]
    · simp [cut, h, Text.intercalate_extendFirst _ _ (cut_ne_nil d _ cs), ih]

end Template

end SqlWeave
