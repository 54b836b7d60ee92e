import SqlWeave.Proofs.Alike.Tree
import SqlWeave.Proofs.Builtin

/-!
# Layouts of alike arguments

Layouts are alike if they differ at most in their slots, whose arguments are alike
(`Layout.Alike`); all ways of putting layouts together keep this, and alike layouts render
alike. A condition is laid out by the forms of its arguments and by data that are not
arguments (`Condition.memberLayout_eq`, `Condition.equality_eq`), so conditions that agree
in the latter and have alike arguments have alike layouts (`Condition.Alike`).
-/

namespace SqlWeave

variable {R : Value → Value → Prop}

theorem isEmpty_eq_of_forall₂ {α β : Type} {P : α → β → Prop} {l : List α} {l' : List β}
    (h : List.Forall₂ P l l') : l.isEmpty = l'.isEmpty := by
  cases h <;> rfl

theorem forall₂_map_same {α β : Type} {P : β → β → Prop} {f : α → β} (h : ∀ x, P (f x) (f x))
    (l : List α) : List.Forall₂ P (l.map f) (l.map f) := by
  rw [List.forall₂_map_left_iff, List.forall₂_map_right_iff, List.forall₂_same]
  exact fun x _ => h x

/-! ## Layouts -/

/-- Parts that differ at most in an argument. -/
inductive Segment.Alike (R : Value → Value → Prop) : Segment → Segment → Prop
  | word (s : String) : Alike R (.word s) (.word s)
  | name (ident : String) : Alike R (.name ident) (.name ident)
  | slot {a b : Arg} : a.Alike R b → Alike R (.slot a) (.slot b)

/-- Layouts that differ at most in their arguments. -/
structure Layout.Alike (R : Value → Value → Prop) (l m : Layout) : Prop where
  segments : List.Forall₂ (Segment.Alike R) l.segments m.segments
  failure : l.failure = m.failure

namespace Layout.Alike

variable {l l' m m' : Layout}

/-- A layout of nothing is alike to itself, as words, names and failures are. -/
theorem empty : Alike R .empty .empty :=
  ⟨.nil, rfl⟩

theorem word (s : String) : Alike R (.word s) (.word s) :=
  ⟨.cons (.word s) .nil, rfl⟩

theorem name (ident : String) : Alike R (.name ident) (.name ident) :=
  ⟨.cons (.name ident) .nil, rfl⟩

/-- Slots are alike if their arguments are. -/
theorem slot {a b : Arg} (h : a.Alike R b) : Alike R (.slot a) (.slot b) :=
  ⟨.cons (.slot h) .nil, rfl⟩

theorem fail (e : RenderError) : Alike R (.fail e) (.fail e) :=
  ⟨.nil, rfl⟩

/-- Layouts that are alike stay so one after the other, and where the first fails, both do. -/
theorem append (hl : Alike R l l') (hm : Alike R m m') : Alike R (l ++ m) (l' ++ m') := by
  cases h : l.failure with
  | some e =>
    rwa [append_of_failure m h, append_of_failure m' (hl.failure ▸ h)]
  | none =>
    rw [append_of_ok m h, append_of_ok m' (hl.failure ▸ h)]
    exact ⟨List.rel_append hl.segments hm.segments, hm.failure⟩

theorem concat {parts parts' : List Layout} (h : List.Forall₂ (Alike R) parts parts') :
    Alike R (.concat parts) (.concat parts') := by
  induction h with
  | nil => exact empty
  | cons hl _ ih => exact hl.append ih

theorem parenthesised (h : Alike R l l') : Alike R l.parenthesised l'.parenthesised :=
  ((word "(").append h).append (word ")")

/-- Separators do not make a difference. -/
theorem joined (separator : String) {parts parts' : List Layout}
    (h : List.Forall₂ (Alike R) parts parts') :
    Alike R (.joined separator parts) (.joined separator parts') := by
  cases h with
  | nil => exact empty
  | cons hfirst hrest =>
    exact hfirst.append (concat (List.rel_map (fun _ _ hl => (word separator).append hl) hrest))

/-- The same condition leaves both out or neither. -/
theorem onlyIf (condition : Bool) (h : Alike R l l') :
    Alike R (.onlyIf condition l) (.onlyIf condition l') := by
  cases condition
  · exact empty
  · exact h

theorem require (condition : Bool) (e : RenderError) :
    Alike R (.require condition e) (.require condition e) := by
  cases condition
  · exact fail e
  · exact empty

/-- Alike layouts have the same text, as the text shows no argument. -/
theorem text (h : Alike R l l') (d : Dialect) : l.text d = l'.text d := by
  have hmap : l.segments.map (·.text d) = l'.segments.map (·.text d) := by
    rw [← List.forall₂_eq_eq_eq]
    refine List.rel_map (fun s s' hs => ?_) h.segments
    cases hs <;> rfl
  rw [Layout.text, Layout.text, hmap]

/-- Their arguments are alike, one by one. -/
theorem args (h : Alike R l l') : List.Forall₂ (Arg.Alike R) l.args l'.args := by
  refine List.rel_filterMap (fun s s' hs => ?_) h.segments
  cases hs with
  | word s => exact .none
  | name ident => exact .none
  | slot ha => exact .some ha

/-- In every dialect they render to alike fragments, or fail with the same error. -/
theorem rendering (h : Alike R l l') (d : Dialect) :
    (l.rendering d).Alike R (l'.rendering d) :=
  ⟨h.text d, h.args, h.failure⟩

end Layout.Alike

/-! ## Conditions -/

/-- Conditions that bind equally tight and have alike layouts. -/
structure Condition.Alike (R : Value → Value → Prop) (c c' : Condition) : Prop where
  isAtomic : c.isAtomic = c'.isAtomic
  layout : c.layout.Alike R c'.layout

namespace Condition

/-- Membership is laid out by the form of its operand. -/
theorem memberLayout_eq (column : String) (negated : Bool) (a : Arg) :
    memberLayout column negated a = match a.form with
      | .scalar => .fail .notEnumerable
      | .emptyList => .word (if negated then "1 = 1" else "1 = 0")
      | .list | .node => memberLayout.operandLayout column negated (.slot a)
      | .fragment => memberLayout.operandLayout column negated (.parenthesised (.slot a)) := by
  match a with
  | .value _ | .late _ | .list [] | .list (_ :: _) | .fragment .. | .node .. => rfl

/-- An equality is made by the form of its argument, and by whether that is the missing
value. -/
theorem equality_eq (column : String) (a : Arg) (negated : Bool) :
    equality column a negated =
      if a.isNull then .nullTest column negated
      else match a.form with
        | .emptyList | .list => .member column a negated
        | .scalar | .fragment | .node =>
          .compare column (if negated then .unequal else .equal) a := by
  match a with
  | .value _ | .late _ | .list [] | .list (_ :: _) | .fragment .. | .node .. => rfl

namespace Alike

variable {a b : Arg}

/-- Comparisons of one column are alike if what it is compared with is. -/
theorem compare (column : String) (comparison : Comparison) (h : a.Alike R b) :
    Alike R (.compare column comparison a) (.compare column comparison b) :=
  ⟨rfl, ((Layout.Alike.name _).append (.word _)).append (.slot h)⟩

theorem nullTest (column : String) (negated : Bool) :
    Alike R (.nullTest column negated) (.nullTest column negated) :=
  ⟨rfl, (Layout.Alike.name _).append (.word _)⟩

/-- Memberships are laid out by the form of the argument, which alike arguments share. -/
theorem member (column : String) (negated : Bool) (h : a.Alike R b) :
    Alike R (.member column a negated) (.member column b negated) := by
  have hoperand : ∀ l l' : Layout, l.Alike R l' →
      (memberLayout.operandLayout column negated l).Alike R
        (memberLayout.operandLayout column negated l') :=
    fun _ _ hl => ((Layout.Alike.name _).append (.word _)).append hl
  refine ⟨rfl, ?_⟩
  show (memberLayout column negated a).Alike R (memberLayout column negated b)
  rw [memberLayout_eq, memberLayout_eq, h.form]
  cases b.form with
  | scalar => exact .fail _
  | emptyList => exact .word _
  | list => exact hoperand _ _ (.slot h)
  | fragment => exact hoperand _ _ (.parenthesised (.slot h))
  | node => exact hoperand _ _ (.slot h)

/-- Equalities ask whether the argument is the missing value, so the arguments must agree in that.
-/
theorem equality (column : String) (negated : Bool) (hnull : a.isNull = b.isNull)
    (h : a.Alike R b) : Alike R (equality column a negated) (equality column b negated) := by
  rw [equality_eq, equality_eq, hnull, h.form]
  split
  · exact nullTest column negated
  · cases b.form with
    | emptyList | list => exact member column negated h
    | scalar | fragment | node => exact compare column _ h

/-- Fragments of one text are alike if their arguments are. -/
theorem fragment (text : String) {args args' : List Arg}
    (h : List.Forall₂ (Arg.Alike R) args args') :
    Alike R (.fragment text args) (.fragment text args') :=
  ⟨rfl, .slot (.fragment text h)⟩

/-- Conditions that are joined by one connective are alike if each of them is. -/
theorem combine (connective : Connective) {cs cs' : List Condition}
    (h : List.Forall₂ (Alike R) cs cs') :
    Alike R (.combine connective cs) (.combine connective cs') := by
  have hpart : ∀ c c' : Condition, c.Alike R c' →
      (if c.isAtomic then c.layout else c.layout.parenthesised).Alike R
        (if c'.isAtomic then c'.layout else c'.layout.parenthesised) := by
    intro c c' hc
    rw [hc.isAtomic]
    split
    · exact hc.layout
    · exact hc.layout.parenthesised
  refine ⟨rfl, ?_⟩
  simp only [Condition.layout, layouts_eq_map]
  match h with
  | .nil => exact .fail _
  | .cons hc .nil => exact hc.layout
  | .cons hc (.cons hnext hrest) =>
    simp only [List.map_cons, combinedLayout_cons_cons, List.map_map]
    exact .joined _ (.cons (hpart _ _ hc) (.cons (hpart _ _ hnext) (List.rel_map hpart hrest)))

end Alike

end Condition

/-! ## Clauses -/

namespace Layout.Alike

theorem names (names : List String) : Alike R (namesLayout names) (namesLayout names) :=
  .joined _ (forall₂_map_same name names)

theorem count (keyword : String) (count : Option UInt64) :
    Alike R (countLayout keyword count) (countLayout keyword count) := by
  cases count with
  | none => exact .empty
  | some n => exact .word _

/-- A clause of conditions is alike to another if the conditions are. -/
theorem filter (keyword : String) {cs cs' : List Condition}
    (h : List.Forall₂ (Condition.Alike R) cs cs') :
    Alike R (Select.filterLayout keyword cs) (Select.filterLayout keyword cs') := by
  rw [Select.filterLayout, Select.filterLayout, isEmpty_eq_of_forall₂ h]
  exact .onlyIf _ ((word keyword).append (Condition.Alike.combine .conjunction h).layout)

end Layout.Alike

theorem Ident.alike (i : Ident) : i.node.arg.Alike R i.node.arg :=
  .node (fun _ => ⟨rfl, .nil, rfl⟩) rfl

end SqlWeave
