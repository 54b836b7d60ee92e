import SqlWeave.Arg

/-!
# Layouts

A layout is a statement's text in parts : words that are written as they are, names that
the dialect quotes, and slots, each one marker together with the argument it stands for.
A layout is turned into a `Rendering` only when its dialect is known, so nothing but a
slot ever writes a marker outside quotes or registers an argument.

Layouts concatenate from left to right and stop at the first failure.
-/

namespace SqlWeave

/-- A part of a layout. -/
inductive Segment where
  /-- Keywords, numbers and punctuation, written as they are. -/
  | word (text : String)
  /-- An identifier. -/
  | name (ident : String)
  /-- A marker for an argument. -/
  | slot (arg : Arg)

/-- The text of a part. -/
def Segment.text (d : Dialect) : Segment → String
  | .word s => s
  | .name ident => d.quoteIdent ident
  | .slot _ => "?"

/-- The argument of a part. -/
def Segment.arg? : Segment → Option Arg
  | .word _ | .name _ => none
  | .slot arg => some arg

/-- Parts in order, with the failure, if any, that ended them there. -/
structure Layout where
  segments : List Segment
  failure : Option RenderError

namespace Layout

def empty : Layout := ⟨[], none⟩

def word (s : String) : Layout := ⟨[.word s], none⟩

def name (ident : String) : Layout := ⟨[.name ident], none⟩

def slot (arg : Arg) : Layout := ⟨[.slot arg], none⟩

/-- A failure before anything is laid out. -/
def fail (e : RenderError) : Layout := ⟨[], some e⟩

/-- One layout, and if it did not fail the other after it. -/
def append (l m : Layout) : Layout :=
  match l.failure with
  | some _ => l
  | none => ⟨l.segments ++ m.segments, m.failure⟩

instance : Append Layout := ⟨append⟩

/-- Layouts one after the other. -/
def concat (parts : List Layout) : Layout := parts.foldr (· ++ ·) empty

/-- A layout between parentheses. -/
def parenthesised (l : Layout) : Layout := word "(" ++ l ++ word ")"

/-- Layouts with a word between each two of them. -/
def joined (separator : String) : List Layout → Layout
  | [] => empty
  | first :: rest => first ++ concat (rest.map (word separator ++ ·))

/-- A layout that is there only under a condition. -/
def onlyIf (condition : Bool) (l : Layout) : Layout := if condition then l else empty

/-- A failure unless the condition holds. -/
def require (condition : Bool) (e : RenderError) : Layout :=
  if condition then empty else fail e

/-- The text of a layout, the parts' texts one after the other. -/
def text (d : Dialect) (l : Layout) : String := String.join (l.segments.map (·.text d))

/-- The arguments of a layout, slot by slot. -/
def args (l : Layout) : List Arg := l.segments.filterMap Segment.arg?

/-- What a layout renders to. -/
def rendering (d : Dialect) (l : Layout) : Rendering Arg := ⟨l.text d, l.args, l.failure⟩

theorem append_of_failure {l : Layout} (m : Layout) {e : RenderError}
    (h : l.failure = some e) : l ++ m = l := by
  show append l m = l
  simp [append, h]

theorem append_of_ok {l : Layout} (m : Layout) (h : l.failure = none) :
    l ++ m = ⟨l.segments ++ m.segments, m.failure⟩ := by
  show append l m = _
  simp [append, h]

@[simp] theorem empty_append (l : Layout) : empty ++ l = l := by
  rw [append_of_ok l (rfl : empty.failure = none)]
  simp [empty]

@[simp] theorem append_empty (l : Layout) : l ++ empty = l := by
  cases h : l.failure with
  | some e => exact append_of_failure empty h
  | none =>
    rw [append_of_ok empty h]
    simp [empty, ← h]

theorem append_assoc (l m n : Layout) : l ++ m ++ n = l ++ (m ++ n) := by
  cases hl : l.failure with
  | some e => simp [append_of_failure _ hl]
  | none =>
    rw [append_of_ok m hl]
    cases hm : m.failure with
    | some e => rw [append_of_failure n hm, append_of_ok m hl, append_of_failure n rfl, hm]
    | none =>
      rw [append_of_ok n hm, append_of_ok _ hl, append_of_ok n rfl]
      simp [List.append_assoc]

end Layout

end SqlWeave
