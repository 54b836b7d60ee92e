import Mathlib.Data.List.Basic
import SqlWeave.Literal
import SqlWeave.Text.Hex

/-!
# Escape strings of PostgreSQL

A server of PostgreSQL reads a text literal with an `E` in front by rules of its own
(`EscapeString.read`). A backslash before one of five letters stands for a control character, and
before octal digits, before an `x`, a `u` or a `U` with hexadecimal digits for the character with
that code. Before any other character it stands for that character. A quote that is not part of an
escape closes the literal.

The library writes such texts with the escapes of MySQL. The server does not know the one for the
character with code 26, and it cannot store the character with code 0. A text without the latter is
read to the last character of its literal, and what is read is the text, with a `Z` for each
character with code 26 (`Dialect.readLiteral_text`).
-/

namespace SqlWeave

namespace EscapeString

/-! ## The reader of a server -/

/-- The control characters that letters stand for. -/
def control? : Char → Option Char
  | 'b' => some '\x08'
  | 'f' => some '\x0c'
  | 'n' => some '\n'
  | 'r' => some '\r'
  | 't' => some '\t'
  | _ => none

/-- The digits of a base at the start of a text, `most` of them at the most. -/
def leadingDigits (base most : Nat) (cs : List Char) : List Nat :=
  ((cs.take most).takeWhile fun c => (Text.hexValue? c).any (· < base)).filterMap Text.hexValue?

/-- The character with the code that digits spell, if it is the code of one. -/
def ofCode? (base : Nat) (digits : List Nat) : Option Char :=
  let code := digits.foldl (base * · + ·) 0
  if code.isValidChar then some (.ofNat code) else none

/-- What stands for a character after a backslash : the character, and how many characters spell
it. -/
def escape? : List Char → Option (Char × Nat)
  | [] => none
  | c :: cs =>
    let octal := leadingDigits 8 3 (c :: cs)
    let hex := leadingDigits 16 (if c = 'x' then 2 else if c = 'u' then 4 else 8) cs
    match control? c with
    | some a => some (a, 1)
    | none =>
      if octal ≠ [] then (ofCode? 8 octal).map (·, octal.length)
      else if c = 'x' ∧ hex ≠ [] ∨ c = 'u' ∧ hex.length = 4 ∨ c = 'U' ∧ hex.length = 8 then
        (ofCode? 16 hex).map (·, hex.length + 1)
      else some (c, 1)

/-- The text that is read up to the quote that closes a literal, and what stands after it. -/
def read : List Char → Option (List Char × List Char)
  | [] => none
  | c :: cs =>
    if c = '\'' then some ([], cs)
    else if c = '\\' then
      (escape? cs).bind fun (a, width) => (read (cs.drop width)).map (Prod.map (a :: ·) id)
    else (read cs).map (Prod.map (c :: ·) id)
termination_by cs => cs.length
decreasing_by all_goals (simp only [List.length_cons, List.length_drop]; omega)

/-- The text that a literal stands for, and what stands after the literal. -/
def readLiteral : List Char → Option (List Char × List Char)
  | 'E' :: '\'' :: cs => read cs
  | _ => none

/-- Letters, octal and hexadecimal codes, and a character that has no need of its backslash. -/
example : readLiteral "E'\\t\\101\\x42\\u0043\\U00000044\\q' rest".toList =
    some ("\tABCDq".toList, " rest".toList) := by
  decide +kernel

/-! ## Texts -/

/-- An escape is read as the character that it stands for, as many characters as it is wide. -/
theorem read_escape {cs : List Char} {a : Char} {width : Nat} (h : escape? cs = some (a, width)) :
    read ('\\' :: cs) = (read (cs.drop width)).map (Prod.map (a :: ·) id) := by
  rw [read, if_neg (by decide), if_pos rfl, h, Option.bind_some]

/-- Where an escape is one character after the backslash. -/
theorem read_escape_one {e a : Char} {cs : List Char} (h : escape? (e :: cs) = some (a, 1)) :
    read ('\\' :: e :: cs) = (read cs).map (Prod.map (a :: ·) id) :=
  read_escape h

/-- A character that neither closes nor escapes is read as itself. -/
theorem read_plain {c : Char} (hquote : c ≠ '\'') (hback : c ≠ '\\') (cs : List Char) :
    read (c :: cs) = (read cs).map (Prod.map (c :: ·) id) := by
  rw [read, if_neg hquote, if_neg hback]

/-- What is read for a character of a text. -/
def reading (c : Char) : Char := if c = '\x1a' then 'Z' else c

/-- Each character of a text but the one with code 0 is read off what is written for it, whatever
follows. -/
theorem read_escapedChar {c : Char} (hc : c ≠ '\x00') (rest : List Char) :
    read (Dialect.escapedChar c ++ rest) = (read rest).map (Prod.map (reading c :: ·) id) := by
  by_cases hescaped : c ∈ ['\x08', '\n', '\r', '\t', '\x1a', '\'', '"', '\\']
  · simp only [List.mem_cons, List.not_mem_nil, or_false] at hescaped
    rcases hescaped with rfl | rfl | rfl | rfl | rfl | rfl | rfl | rfl <;>
      exact read_escape_one rfl
  · simp only [List.mem_cons, List.not_mem_nil, or_false, not_or] at hescaped
    have hwritten : Dialect.escapedChar c = [c] := by simp [Dialect.escapedChar, hc, hescaped]
    have hreading : reading c = c := by simp [reading, hescaped]
    rw [hwritten, hreading]
    exact read_plain hescaped.2.2.2.2.2.1 hescaped.2.2.2.2.2.2.2 rest

/-- An escaped text is read up to the quote after it, without a null character in it. -/
theorem read_flatMap {cs : List Char} (h : '\x00' ∉ cs) (rest : List Char) :
    read (cs.flatMap Dialect.escapedChar ++ '\'' :: rest) = some (cs.map reading, rest) := by
  induction cs with
  | nil => rw [List.flatMap_nil, List.nil_append, read, if_pos rfl, List.map_nil]
  | cons c cs ih =>
    rw [List.mem_cons, not_or] at h
    rw [List.flatMap_cons, List.append_assoc, read_escapedChar (Ne.symm h.1), ih h.2]
    rfl

/-- A text is read as itself unless it has the character that is written as a `Z`. -/
theorem map_reading_eq_self_iff {cs : List Char} : cs.map reading = cs ↔ '\x1a' ∉ cs := by
  induction cs with
  | nil => simp
  | cons c cs ih =>
    have hc : reading c = c ↔ '\x1a' ≠ c := by
      by_cases hc : c = '\x1a'
      · subst hc
        decide
      · simp [reading, hc, Ne.symm hc]
    rw [List.map_cons, List.cons.injEq, hc, ih, List.mem_cons, not_or]

end EscapeString

open EscapeString in
/-- The literal of a text without the character with code 0 is closed by its last character. It is
read as the text with a `Z` for each character with code 26, so it keeps exactly the texts without
one. -/
theorem Dialect.readLiteral_text {s : String} (h : '\x00' ∉ s.toList) :
    readLiteral (text .postgres s).toList = some (s.toList.map reading, []) ∧
      (readLiteral (text .postgres s).toList = some (s.toList, []) ↔ '\x1a' ∉ s.toList) := by
  have hliteral : (text .postgres s).toList =
      'E' :: '\'' :: (s.toList.flatMap escapedChar ++ ['\'']) := by
    simp [text, textMark, textBody]
  have hread : readLiteral (text .postgres s).toList = some (s.toList.map reading, []) := by
    rw [hliteral, readLiteral, read_flatMap h]
  refine ⟨hread, ?_⟩
  rw [hread, ← map_reading_eq_self_iff]
  simp

/-- Quotes, a backslash before a digit, and a line end. -/
theorem Dialect.readLiteral_text_escapes :
    '\x00' ∉ "it's \\x41\n".toList ∧
      EscapeString.readLiteral (text .postgres "it's \\x41\n").toList =
        some ("it's \\x41\n".toList, []) := by
  have h : '\x00' ∉ "it's \\x41\n".toList := by decide
  exact ⟨h, (readLiteral_text h).2.mpr (by decide)⟩

/-- The server does not know what MySQL writes for the character with code 26. -/
theorem Dialect.not_readLiteral_text :
    '\x00' ∉ "\x1a".toList ∧ text .postgres "\x1a" = "E'\\Z'" ∧
      EscapeString.readLiteral (text .postgres "\x1a").toList = some (['Z'], []) := by
  decide +kernel

end SqlWeave
