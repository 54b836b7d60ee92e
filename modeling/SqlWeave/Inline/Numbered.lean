import SqlWeave.Inline.Marked

/-!
# Inlining at numbered placeholders

A text is read as copied characters and ordinals. A `$` outside quotes before a number
without leading zero is an ordinal and stands for the value of that number, counted from
one. Single and double quotes enclose sections that are copied, and so do two equal tags,
a tag being ASCII letters, or none, between two `$`. A backslash is a plain character.

Reading (`tokens`) and replacing (`numbered`) are separate : the tokens of a text spell it
again, whatever the values are.
-/

namespace SqlWeave.Inline

/-- A part of a text with numbered placeholders. -/
inductive Token where
  /-- Characters to copy. -/
  | copied (cs : List Char)
  /-- A `$` with the digits of an ordinal. -/
  | ordinal (digits : List Char)
  deriving DecidableEq, Repr

/-- The characters that a token was read from. -/
def Token.spelling : Token → List Char
  | .copied cs => cs
  | .ordinal digits => '$' :: digits

/-- Where a reader of such a text stands. -/
inductive Section where
  | outside
  | quoted (quote : Char)
  /-- After an opening tag, of which `rest` is all but the first `$`. -/
  | tagged (rest : List Char)
  deriving DecidableEq, Repr

/-- Whether digits begin an ordinal. -/
def startsOrdinal : List Char → Bool
  | c :: _ => c.isDigit && c != '0'
  | [] => false

/-- What follows the first `$` of a tag at the start of a text, if a tag stands there. -/
def tagRest? (cs : List Char) : Option (List Char) :=
  match cs.dropWhile Char.isAlpha with
  | '$' :: _ => some (cs.takeWhile Char.isAlpha ++ ['$'])
  | _ => none

/-- The tokens of a text, for a reader who stands in a section. -/
def tokensFrom (s : Section) : List Char → List Token
  | [] => []
  | c :: cs =>
    match s with
    | .quoted quote =>
      .copied [c] :: tokensFrom (if c = quote then .outside else .quoted quote) cs
    | .tagged rest =>
      if c = '$' ∧ rest.isPrefixOf cs then
        .copied (c :: rest) :: tokensFrom .outside (cs.drop rest.length)
      else .copied [c] :: tokensFrom (.tagged rest) cs
    | .outside =>
      if c = '\'' ∨ c = '"' then .copied [c] :: tokensFrom (.quoted c) cs
      else if c ≠ '$' then .copied [c] :: tokensFrom .outside cs
      else if startsOrdinal cs then
        let digits := cs.takeWhile Char.isDigit
        .ordinal digits :: tokensFrom .outside (cs.drop digits.length)
      else
        match tagRest? cs with
        | some rest => .copied (c :: rest) :: tokensFrom (.tagged rest) (cs.drop rest.length)
        | none => .copied [c] :: tokensFrom .outside cs
termination_by cs => cs.length
decreasing_by all_goals (simp only [List.length_cons, List.length_drop]; omega)

/-- The tokens of a text. -/
def tokens (text : List Char) : List Token := tokensFrom .outside text

/-- The number that decimal digits spell. -/
def numberOf (digits : List Char) : Nat :=
  digits.foldl (fun n c => 10 * n + (c.toNat - '0'.toNat)) 0

/-- What replaces a token. An ordinal must be the number of a value; any other is refused as
one value too many, or by its text if it does not even fit into 64 bits. -/
def Token.replacement (values : List Value) : Token → Except RenderError (List Char)
  | .copied cs => .ok cs
  | .ordinal digits =>
    let n := numberOf digits
    if n ≤ values.length ∨ n < UInt64.size then literalAt .postgres values (n - 1)
    else .error (.unsupportedValue (.ofList ('$' :: digits)))

/-- The replacements of tokens one after the other. -/
def replaceAll (values : List Value) : List Token → Except RenderError (List Char)
  | [] => .ok []
  | token :: rest =>
    match token.replacement values with
    | .error e => .error e
    | .ok cs => (replaceAll values rest).map (cs ++ ·)

/-- The text with a literal for each ordinal. -/
def numbered (values : List Value) (text : List Char) : Except RenderError (List Char) :=
  replaceAll values (tokens text)

end SqlWeave.Inline
