import SqlWeave.Literal
import SqlWeave.Template

/-!
# Inlining at question marks

Each `?` outside quotes is replaced by the literal of the next value, and every other
character is copied. The first marker without a value, or whose value has no literal,
decides the failure.
-/

namespace SqlWeave.Inline

/-- The literal of value number `index`, counted from zero. -/
def literalAt (d : Dialect) (values : List Value) (index : Nat) :
    Except RenderError (List Char) :=
  match values[index]? with
  | none => .error (.placeholderCount (index + 1) values.length)
  | some v => (d.literal v).map String.toList

/-- The text for a reader who stands in `state` and has passed `index` markers. -/
def markedFrom (d : Dialect) (values : List Value) (state : Quoting) (index : Nat) :
    List Char → Except RenderError (List Char)
  | [] => .ok []
  | c :: cs =>
    if Template.isMarker state c then
      match literalAt d values index with
      | .error e => .error e
      | .ok literal => (markedFrom d values .outside (index + 1) cs).map (literal ++ ·)
    else (markedFrom d values (state.next d c) index cs).map (c :: ·)

/-- The text with a literal for each marker. -/
def marked (d : Dialect) (values : List Value) (text : List Char) :
    Except RenderError (List Char) :=
  markedFrom d values .outside 0 text

end SqlWeave.Inline
