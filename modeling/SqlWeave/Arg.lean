import SqlWeave.Dialect.Identifier
import SqlWeave.RenderError
import SqlWeave.Value

/-!
# Arguments

An argument stands for a marker `?` of a template. It is a value, a value computed only
when the statement is rendered, a list, a fragment of text with markers and arguments of
its own, or a node.

A node is all that can be rendered : statements, conditions, identifiers, and whatever a
caller defines. What it renders to may depend on the dialect, so a node holds a function
from the dialect to its `Rendering`, a text whose markers stand for further arguments.
Renderings concatenate from left to right and stop at the first failure, whose text and
arguments so far are kept. With the empty rendering they are a monoid.
-/

namespace SqlWeave

/-- What rendering a node yields : text with markers, the arguments registered for them,
and the failure, if any, that ended it there. -/
structure Rendering (α : Type) where
  text : String
  args : List α
  failure : Option RenderError

namespace Rendering

variable {α : Type}

/-- Nothing written yet. -/
def empty : Rendering α := ⟨"", [], none⟩

/-- A text without arguments. -/
def ofText (s : String) : Rendering α := ⟨s, [], none⟩

/-- An argument without text. -/
def register (arg : α) : Rendering α := ⟨"", [arg], none⟩

/-- A marker and its argument. -/
def slot (arg : α) : Rendering α := ⟨"?", [arg], none⟩

/-- A failure before anything is written. -/
def fail (e : RenderError) : Rendering α := ⟨"", [], some e⟩

/-- One rendering, and if it did not fail the other after it. -/
def append (r s : Rendering α) : Rendering α :=
  match r.failure with
  | some _ => r
  | none => ⟨r.text ++ s.text, r.args ++ s.args, s.failure⟩

instance : Append (Rendering α) := ⟨append⟩

/-- Renderings one after the other. -/
def concat (parts : List (Rendering α)) : Rendering α := parts.foldr (· ++ ·) empty

theorem append_of_failure {r : Rendering α} (s : Rendering α) {e : RenderError}
    (h : r.failure = some e) : r ++ s = r := by
  show append r s = r
  simp [append, h]

theorem append_of_ok {r : Rendering α} (s : Rendering α) (h : r.failure = none) :
    r ++ s = ⟨r.text ++ s.text, r.args ++ s.args, s.failure⟩ := by
  show append r s = _
  simp [append, h]

@[simp] theorem empty_append (r : Rendering α) : empty ++ r = r := by
  rw [append_of_ok r (rfl : (empty : Rendering α).failure = none)]
  simp [empty]

@[simp] theorem append_empty (r : Rendering α) : r ++ empty = r := by
  cases h : r.failure with
  | some e => exact append_of_failure empty h
  | none =>
    rw [append_of_ok empty h]
    simp [empty, ← h]

theorem append_assoc (r s t : Rendering α) : r ++ s ++ t = r ++ (s ++ t) := by
  cases hr : r.failure with
  | some e => simp [append_of_failure _ hr]
  | none =>
    rw [append_of_ok s hr]
    cases hs : s.failure with
    | some e => rw [append_of_failure t hs, append_of_ok s hr, append_of_failure t rfl, hs]
    | none =>
      rw [append_of_ok t hs, append_of_ok _ hr, append_of_ok t rfl]
      simp [String.append_assoc, List.append_assoc]

end Rendering

/-- What may stand for a marker. -/
inductive Arg where
  | value (v : Value)
  /-- A value that is computed, or fails to be, when the statement is rendered. -/
  | late (outcome : Except String Value)
  | list (items : List Arg)
  /-- A text with its own markers, one for each of `args`. -/
  | fragment (text : String) (args : List Arg)
  /-- A node; `parens` says whether it needs parentheses inside another one. -/
  | node (parens : Bool) (render : Dialect → Rendering Arg)

/-- All that can be rendered, with what `Arg.node` holds. -/
structure Node where
  parens : Bool
  render : Dialect → Rendering Arg

/-- A node as an argument. -/
def Node.arg (n : Node) : Arg := .node n.parens n.render

/-- Types whose members can stand for a marker. -/
class ToArg (α : Type) where
  toArg : α → Arg

export ToArg (toArg)

instance : ToArg Arg := ⟨id⟩
instance : ToArg Node := ⟨Node.arg⟩
instance (priority := low) {α : Type} [ToValue α] : ToArg α := ⟨fun a => .value (toValue a)⟩

namespace Arg

/-- The missing value. -/
def null : Arg := .value .null

/-- Whether the argument is the missing value. A late-bound value is not asked. -/
def isNull : Arg → Bool
  | .value v => v.isNull
  | _ => false

mutual

/-- Whether two arguments represent the same. Late-bound values and nodes are compared
with nothing. -/
def same : Arg → Arg → Bool
  | .value v, .value w => v.same w
  | .list items, .list others => sameItems items others
  | .fragment text args, .fragment other others => text == other && sameItems args others
  | _, _ => false
termination_by structural a => a

/-- Whether two lists of arguments represent the same, item by item. -/
def sameItems : List Arg → List Arg → Bool
  | [], [] => true
  | a :: as, b :: bs => same a b && sameItems as bs
  | _, _ => false
termination_by structural as => as

end

end Arg

/-! ## Lists of arguments -/

/-- Types whose members give one argument or several. -/
class ToArgs (α : Type) where
  toArgs : α → List Arg

export ToArgs (toArgs)

instance (priority := low) {α : Type} [ToArg α] : ToArgs α := ⟨fun a => [toArg a]⟩
instance {α : Type} [ToArgs α] : ToArgs (List α) := ⟨(·.flatMap toArgs)⟩

/-- The list of all arguments that `a` gives, nested lists flattened. -/
def Arg.listOf {α : Type} [ToArgs α] (a : α) : Arg := .list (toArgs a)

/-! ## Names and fragments as nodes -/

/-- A name, quoted by the dialect. -/
structure Ident where
  name : String
  deriving DecidableEq, Repr

/-- An identifier renders to its quoted name. -/
def Ident.node (i : Ident) : Node := ⟨false, fun d => .ofText (d.quoteIdent i.name)⟩

instance : ToArg Ident := ⟨fun i => i.node.arg⟩

/-- A text with its own markers and arguments. -/
structure Fragment where
  text : String
  args : List Arg := []

/-- A fragment as an argument. -/
def Fragment.arg (f : Fragment) : Arg := .fragment f.text f.args

/-- A fragment renders to one marker that stands for it. -/
def Fragment.node (f : Fragment) : Node := ⟨false, fun _ => .slot f.arg⟩

instance : ToArg Fragment := ⟨Fragment.arg⟩

end SqlWeave
