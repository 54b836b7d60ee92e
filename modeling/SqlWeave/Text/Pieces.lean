/-!
# Cutting a text into pieces

A text cut at a separator has one piece more than it has separators, so the list of
pieces is never empty. `extendFirst` puts a character in front of the first piece, and
`splitAt` cuts at every occurrence of one character.
-/

namespace SqlWeave.Text

variable {α : Type}

/-- The pieces with `c` in front of the first one. -/
def extendFirst (c : α) : List (List α) → List (List α)
  | [] => [[c]]
  | piece :: rest => (c :: piece) :: rest

/-- The pieces of a text between the occurrences of `separator`. -/
def splitAt (separator : Char) : List Char → List (List Char)
  | [] => [[]]
  | c :: cs =>
    if c = separator then [] :: splitAt separator cs
    else extendFirst c (splitAt separator cs)

@[simp] theorem extendFirst_ne_nil (c : α) (pieces : List (List α)) :
    extendFirst c pieces ≠ [] := by
  cases pieces <;> simp [extendFirst]

theorem splitAt_ne_nil (separator : Char) (cs : List Char) : splitAt separator cs ≠ [] := by
  cases cs with
  | nil => simp [splitAt]
  | cons c cs => by_cases h : c = separator <;> simp [splitAt, h]

theorem intercalate_extendFirst (sep : List α) (c : α) {pieces : List (List α)}
    (h : pieces ≠ []) :
    sep.intercalate (extendFirst c pieces) = c :: sep.intercalate pieces := by
  match pieces with
  | [] => exact absurd rfl h
  | [_] => simp [extendFirst]
  | _ :: _ :: _ => simp [extendFirst, List.intercalate_cons_cons]

end SqlWeave.Text
