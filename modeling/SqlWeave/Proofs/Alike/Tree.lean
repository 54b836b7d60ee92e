import Mathlib.Data.List.Forall2
import SqlWeave.Proofs.Continuation

/-!
# Trees that differ in their leaves

Two trees of arguments are alike if they are written alike in every dialect, the same text
and the same faults with related scalars at the same places, and if a constructor that
looks at their form sees the same in both (`Arg.Alike`). Lists, fragments and nodes of
alike arguments are alike.

Alike trees give alike queries : the texts are the same and the bound values are related
one by one (`Query.follow_alike`), as long as related scalars are missing together and all
others are bound.
-/

namespace SqlWeave

variable {R : Value → Value → Prop}

/-! ## Items -/

/-- Items that differ at most in their scalars, which `R` relates. -/
inductive Item.Alike (R : Value → Value → Prop) : Item → Item → Prop
  | text (s : String) : Alike R (.text s) (.text s)
  | leaf {v w : Value} : R v w → Alike R (.leaf v) (.leaf w)
  | fault (e : RenderError) : Alike R (.fault e) (.fault e)

namespace Item

variable {fillings fillings' : List (List Item)}

/-- Alike fillings between the same pieces. -/
theorem weave_alike (pieces : List String)
    (h : List.Forall₂ (List.Forall₂ (Item.Alike R)) fillings fillings') :
    List.Forall₂ (Item.Alike R) (weave pieces fillings) (weave pieces fillings') := by
  induction h generalizing pieces with
  | nil => exact .cons (.text _) .nil
  | cons hitems _ ih => exact .cons (.text _) (List.rel_append hitems (ih pieces.tail))

/-- Alike fillings are as many as each other, so both fit a template or neither does. -/
theorem spliced_alike (d : Dialect) (template : String)
    (h : List.Forall₂ (List.Forall₂ (Item.Alike R)) fillings fillings') :
    List.Forall₂ (Item.Alike R) (spliced d template fillings) (spliced d template fillings') := by
  unfold spliced
  rw [h.length_eq]
  split
  · exact weave_alike _ h
  · exact .cons (.fault _) .nil

/-- Lists of alike elements are written alike, the empty one as its fault. -/
theorem listed_alike (h : List.Forall₂ (List.Forall₂ (Item.Alike R)) fillings fillings') :
    List.Forall₂ (Item.Alike R) (listed fillings) (listed fillings') := by
  cases h with
  | nil => exact .cons (.fault _) .nil
  | cons hfirst hrest =>
    simp only [listed, Text.intercalate_cons_eq_append_flatMap]
    have hlater := List.rel_flatMap hrest fun _ _ hitems =>
      List.rel_append (.cons (Alike.text ", ") .nil) hitems
    exact .cons (.text _) (List.rel_append (List.rel_append hfirst hlater) (.cons (.text _) .nil))

theorem enclosed_alike (parens : Bool) {items items' : List Item}
    (h : List.Forall₂ (Item.Alike R) items items') :
    List.Forall₂ (Item.Alike R) (enclosed parens items) (enclosed parens items') := by
  cases parens with
  | false => exact h
  | true => exact .cons (.text _) (List.rel_append h (.cons (.text _) .nil))

end Item

/-! ## Arguments -/

/-- What constructors see of an argument. -/
inductive Arg.Form where
  | scalar
  | emptyList
  | list
  | fragment
  | node
  deriving DecidableEq, Repr

/-- The form of an argument. -/
def Arg.form : Arg → Form
  | .value _ | .late _ => .scalar
  | .list [] => .emptyList
  | .list (_ :: _) => .list
  | .fragment .. => .fragment
  | .node .. => .node

/-- Arguments of one form that are written alike in every dialect. -/
structure Arg.Alike (R : Value → Value → Prop) (a b : Arg) : Prop where
  form : a.form = b.form
  frontier : ∀ d top, List.Forall₂ (Item.Alike R) (a.frontier d top) (b.frontier d top)

/-- Renderings with one text and failure and with arguments that are alike. -/
structure Rendering.Alike (R : Value → Value → Prop) (r s : Rendering Arg) : Prop where
  text : r.text = s.text
  args : List.Forall₂ (Arg.Alike R) r.args s.args
  failure : r.failure = s.failure

/-- What alike renderings are written as, in parentheses or not. -/
theorem Rendering.Alike.frontier {r s : Rendering Arg} (h : r.Alike R s) (d : Dialect)
    (parens : Bool) : List.Forall₂ (Item.Alike R) (Arg.renderingFrontier d parens r)
      (Arg.renderingFrontier d parens s) := by
  obtain ⟨text, args, failure⟩ := r
  obtain ⟨text', args', failure'⟩ := s
  obtain ⟨rfl, hargs, rfl⟩ := h
  cases failure with
  | some e => exact .cons (.fault e) .nil
  | none =>
    simp only [Arg.renderingFrontier, Arg.frontiers_eq_map]
    exact Item.enclosed_alike parens
      (Item.spliced_alike d text (List.rel_map (fun _ _ ha => ha.frontier d false) hargs))

namespace Arg.Alike

variable {args args' : List Arg}

theorem value {v w : Value} (h : R v w) : Arg.Alike R (.value v) (.value w) :=
  ⟨rfl, fun _ _ => .cons (.leaf h) .nil⟩

theorem late {v w : Value} (h : R v w) : Arg.Alike R (.late (.ok v)) (.late (.ok w)) :=
  ⟨rfl, fun _ _ => .cons (.leaf h) .nil⟩

theorem failing (cause : String) :
    Arg.Alike R (.late (.error cause)) (.late (.error cause)) :=
  ⟨rfl, fun _ _ => .cons (.fault _) .nil⟩

/-- Lists are alike if their elements are. -/
theorem list (h : List.Forall₂ (Arg.Alike R) args args') :
    Arg.Alike R (.list args) (.list args') := by
  constructor
  · cases h <;> rfl
  · intro d top
    simp only [Arg.frontier, Arg.frontiers_eq_map]
    exact Item.listed_alike (List.rel_map (fun _ _ ha => ha.frontier d false) h)

/-- Fragments of one text are alike if their arguments are. -/
theorem fragment (text : String) (h : List.Forall₂ (Arg.Alike R) args args') :
    Arg.Alike R (.fragment text args) (.fragment text args') := by
  refine ⟨rfl, fun d top => ?_⟩
  simp only [Arg.frontier, Arg.frontiers_eq_map]
  exact Item.spliced_alike d text (List.rel_map (fun _ _ ha => ha.frontier d false) h)

/-- Nodes are alike if they render to alike renderings in every dialect and agree about parentheses.
-/
theorem node {n n' : Node} (h : ∀ d, (n.render d).Alike R (n'.render d))
    (hparens : n.parens = n'.parens) : n.arg.Alike R n'.arg := by
  refine ⟨rfl, fun d top => ?_⟩
  simp only [Node.arg, Arg.frontier, hparens]
  exact (h d).frontier d _

end Arg.Alike

/-! ## Queries -/

/-- Queries of one text whose values `R` relates one by one. -/
structure Query.Alike (R : Value → Value → Prop) (q q' : Query) : Prop where
  text : q.text = q'.text
  binds : List.Forall₂ R q.binds q'.binds

namespace Query

variable {q q' : Query}

theorem Alike.write (h : q.Alike R q') (s : String) : (q.write s).Alike R (q'.write s) :=
  ⟨congrArg (· ++ s) h.text, h.binds⟩

/-- Values alike bound to alike queries leave the same text. -/
theorem Alike.bind (h : q.Alike R q') (d : Dialect) {v w : Value} (hvw : R v w) :
    (q.bind d v).Alike R (q'.bind d w) := by
  refine ⟨?_, List.rel_append h.binds (.cons hvw .nil)⟩
  simp only [Query.bind, h.text, h.binds.length_eq]

/-- Where byte strings are bound, only the missing value is written out. -/
theorem addValue_eq {t : Target} (ht : t.bindsBytes = true) (q : Query) (v : Value) :
    q.addValue t v = if v.isNull then q.write t.dialect.null else q.bind t.dialect v := by
  cases v <;> simp [addValue, Value.isNull, ht]

/-- Values that are both the missing one, or neither, are written or bound alike. -/
theorem Alike.addValue {t : Target} (ht : t.bindsBytes = true) (h : q.Alike R q') {v w : Value}
    (hvw : R v w) (hnull : v.isNull = w.isNull) :
    (q.addValue t v).Alike R (q'.addValue t w) := by
  rw [addValue_eq ht, addValue_eq ht, hnull]
  split
  · exact h.write _
  · exact h.bind _ hvw

/-- Alike queries continued by alike items stay alike, and fail alike. -/
theorem follow_alike {t : Target} (ht : t.bindsBytes = true)
    (hnull : ∀ v w, R v w → v.isNull = w.isNull) {items items' : List Item}
    (hitems : List.Forall₂ (Item.Alike R) items items') (h : q.Alike R q') :
    (q.follow t items).query.Alike R (q'.follow t items').query ∧
      (q.follow t items).failure = (q'.follow t items').failure := by
  induction hitems generalizing q q' with
  | nil => exact ⟨h, rfl⟩
  | cons hitem _ ih =>
    cases hitem with
    | text s => exact ih (h.write s)
    | leaf hvw => exact ih (h.addValue ht hvw (hnull _ _ hvw))
    | fault e => exact ⟨h, rfl⟩

end Query

/-- Nodes that render alike are alike queries, or fail alike. -/
theorem Node.toQuery_alike (hnull : ∀ v w, R v w → v.isNull = w.isNull) {n n' : Node}
    {d : Dialect} (h : (n.render d).Alike R (n'.render d)) :
    (∃ q q', n.toQuery d = .ok q ∧ n'.toQuery d = .ok q' ∧ q.Alike R q') ∨
      ∃ e, n.toQuery d = .error e ∧ n'.toQuery d = .error e := by
  obtain ⟨halike, hfailure⟩ := Query.follow_alike (t := ⟨d, true⟩) rfl hnull (h.frontier d false)
    (⟨rfl, .nil⟩ : Query.Alike R {} {})
  simp only [toQuery, Query.interpolateNode_eq_follow, Node.frontier, Progress.result, ← hfailure]
  cases (({} : Query).follow ⟨d, true⟩ (Arg.renderingFrontier d false (n.render d))).failure with
  | none => exact .inl ⟨_, _, rfl, rfl, halike⟩
  | some e => exact .inr ⟨e, rfl, rfl⟩

end SqlWeave
