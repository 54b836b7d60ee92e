import SqlWeave.Arg
import SqlWeave.Value.Text

/-!
# The text of an argument

An argument with its kind and what it holds. What a node or a late-bound value holds is not
shown.
-/

namespace SqlWeave.Arg

mutual

/-- The argument with its kind. -/
def tagged : Arg → String
  | .value v => "Value(" ++ v.tagged ++ ")"
  | .late _ => "Valuer(..)"
  | .list items => "List(" ++ Value.bracketed ", " (taggedItems items) ++ ")"
  | .fragment text args =>
    "Raw(Raw \x7b query: " ++ Text.escaped text ++ ", args: " ++
      Value.bracketed ", " (taggedItems args) ++ " \x7d)"
  | .node _ _ => "Builder(..)"
termination_by structural a => a

/-- Arguments, each with its kind. -/
def taggedItems : List Arg → List String
  | [] => []
  | a :: as => tagged a :: taggedItems as
termination_by structural as => as

end

end SqlWeave.Arg
