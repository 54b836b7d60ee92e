import SqlWeave.Arg

/-!
# Nodes that callers write

A caller's own node is a sequence of writes : text, texts with a separator, an argument
registered without text, or a marker with its argument.
-/

namespace SqlWeave

/-- One write of a caller's node. -/
inductive Writing where
  | text (s : String)
  | joined (items : List String) (separator : String)
  | register (arg : Arg)
  | slot (arg : Arg)

namespace Writing

/-- What one write renders to. -/
def rendering : Writing → Rendering Arg
  | .text s => .ofText s
  | .joined items separator => .ofText (separator.intercalate items)
  | .register arg => .register arg
  | .slot arg => .slot arg

/-- What writes render to, one after the other. -/
def renderAll (writes : List Writing) : Rendering Arg := .concat (writes.map rendering)

/-- A node that writes and then, if `failure` is given, fails. -/
def node (parens : Bool) (writes : List Writing) (failure : Option RenderError) : Node where
  parens
  render _ :=
    match failure with
    | some e => renderAll writes ++ .fail e
    | none => renderAll writes

end Writing

end SqlWeave
