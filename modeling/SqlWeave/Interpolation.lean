import SqlWeave.Arg
import SqlWeave.Literal
import SqlWeave.Template

/-!
# Interpolation

Interpolation puts arguments in the place of a template's markers and yields a `Query`,
the text that a database driver is given with the values it binds. A value becomes the
dialect's placeholder and is bound; the missing value is written out and not bound, and so
is a byte string when the target writes bytes out. A list becomes its items in
parentheses. A fragment is put in with its own arguments, and a node is rendered and then
treated like a fragment, in parentheses where it asks for them and is not the whole
statement.

A query is built from left to right and is not rolled back : when something fails, the
text and the values so far remain (`Progress`), so that a report can show them, and
placeholders number all values bound before them.
-/

namespace SqlWeave

/-- A text for a database driver with the values that it binds. -/
structure Query where
  text : String := ""
  binds : List Value := []
  deriving DecidableEq, Repr

/-- What queries are made for. -/
structure Target where
  dialect : Dialect
  /-- Whether byte strings are bound; if not, they are written out. -/
  bindsBytes : Bool := true

/-- A query so far, with the failure, if any, that ended it there. -/
structure Progress where
  query : Query
  failure : Option RenderError := none
  deriving DecidableEq, Repr

namespace Query

/-- The query with more text. -/
def write (q : Query) (s : String) : Query := { q with text := q.text ++ s }

/-- The query with a placeholder for `v`, bound. -/
def bind (q : Query) (d : Dialect) (v : Value) : Query :=
  { text := q.text ++ d.placeholder (q.binds.length + 1), binds := q.binds ++ [v] }

/-- The query with a value in place of a marker. -/
def addValue (t : Target) (q : Query) : Value → Query
  | .null => q.write t.dialect.null
  | .bytes data =>
    if t.bindsBytes then q.bind t.dialect (.bytes data) else q.write (t.dialect.bytes data)
  | v => q.bind t.dialect v

end Query

namespace Progress

/-- Go on from a query unless there was a failure. -/
def andThen (p : Progress) (next : Query → Progress) : Progress :=
  match p.failure with
  | some _ => p
  | none => next p.query

/-- More text unless there was a failure. -/
def write (p : Progress) (s : String) : Progress := p.andThen fun q => ⟨q.write s, none⟩

/-- The finished query, or the failure. -/
def result (p : Progress) : Except RenderError Query :=
  match p.failure with
  | some e => .error e
  | none => .ok p.query

end Progress

namespace Query

/-- What `fill` makes of a template's pieces if it has `count` markers, and a failure before
anything is written if not. -/
def cutInto (t : Target) (q : Query) (template : String) (count : Nat)
    (fill : List String → Progress) : Progress :=
  if Template.markers t.dialect template = count then
    fill (Template.pieces t.dialect template)
  else ⟨q, some (.placeholderCount (Template.markers t.dialect template) count)⟩

mutual

/-- The query with an argument in place of a marker. `top` says that the argument is the
whole statement. -/
def addArg (t : Target) (top : Bool) (q : Query) : Arg → Progress
  | .value v => ⟨q.addValue t v, none⟩
  | .late (.ok v) => ⟨q.addValue t v, none⟩
  | .late (.error cause) => ⟨q, some (.lateValue cause)⟩
  | .list items => addList t q items
  | .fragment text args => q.cutInto t text args.length fun pieces =>
    addPieces t false q pieces args
  | .node parens render => addRendering t (parens && !top) q (render t.dialect)
termination_by structural a => a

/-- The query with the items of a list in parentheses. -/
def addList (t : Target) (q : Query) : List Arg → Progress
  | [] => ⟨q, some .emptyList⟩
  | item :: items =>
    ((addArg t false (q.write "(") item).andThen fun q => addItems t q items).write ")"
termination_by structural items => items

/-- The query with the later items of a list, each after a comma. -/
def addItems (t : Target) (q : Query) : List Arg → Progress
  | [] => ⟨q, none⟩
  | item :: items =>
    (addArg t false (q.write ", ") item).andThen fun q => addItems t q items
termination_by structural items => items

/-- The query with pieces of text and an argument between each two of them. -/
def addPieces (t : Target) (top : Bool) (q : Query) (pieces : List String) :
    List Arg → Progress
  | [] => ⟨q.write (pieces.headD ""), none⟩
  | arg :: args =>
    (addArg t top (q.write (pieces.headD "")) arg).andThen fun q =>
      addPieces t top q pieces.tail args
termination_by structural args => args

/-- The query with what a node rendered to, in parentheses if asked for. A rendering that
failed leaves no trace. -/
def addRendering (t : Target) (parens : Bool) (q : Query) : Rendering Arg → Progress
  | ⟨text, args, failure⟩ =>
    match failure with
    | some e => ⟨q, some e⟩
    | none =>
      let q := if parens then q.write "(" else q
      (q.cutInto t text args.length fun pieces => addPieces t false q pieces args).write
        (if parens then ")" else "")
termination_by structural r => r

end

/-- The query with a template and its arguments. An argument that is the whole template
needs no parentheses. -/
def interpolate (t : Target) (q : Query) (template : String) (args : List Arg) : Progress :=
  q.cutInto t template args.length fun pieces => q.addPieces t (template == "?") pieces args

/-- The query with a node as a whole statement. -/
def interpolateNode (t : Target) (q : Query) (n : Node) : Progress :=
  q.addRendering t false (n.render t.dialect)

end Query

/-- The query that a node is in a dialect. -/
def Node.toQuery (n : Node) (d : Dialect) : Except RenderError Query :=
  (({} : Query).interpolateNode ⟨d, true⟩ n).result

end SqlWeave
