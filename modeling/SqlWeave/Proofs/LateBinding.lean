import SqlWeave.Proofs.Builtin
import SqlWeave.Proofs.Calls

/-!
# Values bound late

A scalar argument is given at once or computed when the statement is rendered. Where it is
computed without a failure, it comes to the same as if its value had been given at once
(`Arg.early`), since interpolation writes both in the same way and every constructor but one
looks at the form of an argument only.

The exception is the equation of a column with the missing value. Given at once it is a null
test; computed late it is not known when the condition is built, and a comparison with NULL
is written, which no row satisfies. So late and early values agree in all calls that do not
equate a column with a late missing value (`Calls.early_agrees`).
-/

namespace SqlWeave

namespace Arg

mutual

/-- The argument with each late value that there is given at once. -/
def early : Arg → Arg
  | .value v => .value v
  | .late (.ok v) => .value v
  | .late (.error cause) => .late (.error cause)
  | .list items => .list (allEarly items)
  | .fragment text args => .fragment text (allEarly args)
  | .node parens render => .node parens fun d => earlyRendering (render d)
termination_by structural a => a

/-- The arguments with each late value that there is given at once. -/
def allEarly : List Arg → List Arg
  | [] => []
  | a :: as => early a :: allEarly as
termination_by structural as => as

/-- A rendering of arguments with each late value that there is given at once. -/
def earlyRendering : Rendering Arg → Rendering Arg
  | ⟨text, args, failure⟩ => ⟨text, allEarly args, failure⟩
termination_by structural r => r

end

theorem forall₂_allEarly {P : Arg → Arg → Prop} {args : List Arg}
    (h : ∀ a ∈ args, P a.early a) : List.Forall₂ P (allEarly args) args := by
  induction args with
  | nil => exact .nil
  | cons a as ih =>
    rw [List.forall_mem_cons] at h
    exact .cons h.1 (ih h.2)

/-- The early form of a rendering differs at most in when its arguments are known. -/
theorem alike_earlyRendering {r : Rendering Arg} (h : ∀ a ∈ r.args, a.early.Alike Eq a) :
    (earlyRendering r).Alike Eq r := by
  obtain ⟨text, args, failure⟩ := r
  exact ⟨rfl, forall₂_allEarly h, rfl⟩

/-- Late values that are given at once are written as before. -/
theorem alike_early (a : Arg) : a.early.Alike Eq a := by
  induction a using tree_induction with
  | value v => exact .value rfl
  | late outcome =>
    cases outcome with
    | ok v => exact ⟨rfl, fun _ _ => .cons (.leaf rfl) .nil⟩
    | error cause => exact .failing cause
  | list items ih => exact .list (forall₂_allEarly ih)
  | fragment text args ih => exact .fragment text (forall₂_allEarly ih)
  | node parens render ih =>
    have hnode : (Node.mk parens fun d => earlyRendering (render d)).arg.Alike Eq
        (Node.mk parens render).arg := .node (fun d => alike_earlyRendering (ih d)) rfl
    exact hnode

/-- Whether it is missing can be seen of the same arguments, unless it is missing late. -/
theorem isNull_early {a : Arg} (h : a ≠ .late (.ok .null)) : a.early.isNull = a.isNull := by
  cases a with
  | late outcome =>
    cases outcome with
    | ok v => cases v <;> first | rfl | exact absurd rfl h
    | error cause => rfl
  | value | list | fragment | node => rfl

end Arg

/-! ## A late missing value -/

/-- A regular layout that does not fail is written as the pieces between its slots, with what
its arguments are written as between them. -/
theorem Layout.Regular.frontier {free : Bool} {l : Layout} (h : l.Regular free)
    (hok : l.failure = none) (d : Dialect) : Arg.renderingFrontier d false (l.rendering d) =
      Item.weave ((between d l.segments).map .ofList) (l.args.map (Arg.frontier d false)) := by
  have hcount : Template.markers d (l.text d) = (l.args.map (Arg.frontier d false)).length := by
    rw [List.length_map, (h.sound d).markers_text]
  rw [rendering, hok, Arg.renderingFrontier, Arg.frontiers_eq_map, Item.enclosed,
    if_neg (by simp), Item.spliced, if_pos hcount, h.pieces_text]

namespace Condition

/-- A comparison with a late missing value is one with NULL. -/
theorem toQuery_compare_late_null (column : String) (comparison : Comparison) (d : Dialect) :
    (compare column comparison (.late (.ok .null))).node.toQuery d =
      .ok ⟨d.quoteIdent column ++ (" " ++ comparison.symbol ++ " ") ++ d.null, []⟩ := by
  let c := compare column comparison (.late (.ok .null))
  have hsegments : c.layout.segments =
      [.name column, .word (" " ++ comparison.symbol ++ " "), .slot (.late (.ok .null))] := rfl
  have hargs : c.layout.args = [.late (.ok .null)] := rfl
  have hfrontier := c.regular_layout.frontier rfl d
  rw [hsegments, hargs] at hfrontier
  simp only [Layout.between, Text.foldr_extendFirst_cons, List.append_nil] at hfrontier
  rw [Node.toQuery, Query.interpolateNode_eq_follow, Node.frontier, node, hfrontier]
  simp [Item.weave, Arg.frontier, Query.follow, Query.write, Query.addValue, Progress.result,
    String.append_assoc]

/-- A null test has nothing to bind. -/
theorem toQuery_nullTest (column : String) (negated : Bool) (d : Dialect) :
    (nullTest column negated).node.toQuery d =
      .ok ⟨d.quoteIdent column ++ if negated then " IS NOT NULL" else " IS NULL", []⟩ := by
  let c := nullTest column negated
  have hsegments : c.layout.segments =
      [.name column, .word (if negated then " IS NOT NULL" else " IS NULL")] := rfl
  have hargs : c.layout.args = [] := rfl
  have hfrontier := c.regular_layout.frontier rfl d
  rw [hsegments, hargs] at hfrontier
  simp only [Layout.between, Text.foldr_extendFirst_cons, List.append_nil] at hfrontier
  rw [Node.toQuery, Query.interpolateNode_eq_follow, Node.frontier, node, hfrontier]
  simp [Item.weave, Query.follow, Query.write, Progress.result]

/-- A column that is equated with a late missing value is compared with NULL. Equated with an
early one, it is tested for it. -/
theorem toQuery_equality_null (column : String) (negated : Bool) (d : Dialect) :
    (equality column (.late (.ok .null)) negated).node.toQuery d =
        .ok ⟨d.quoteIdent column ++ (if negated then " <> " else " = ") ++ d.null, []⟩ ∧
      (equality column (.value .null) negated).node.toQuery d =
        .ok ⟨d.quoteIdent column ++ if negated then " IS NOT NULL" else " IS NULL", []⟩ := by
  constructor
  · cases negated with
    | false => exact toQuery_compare_late_null column .equal d
    | true => exact toQuery_compare_late_null column .unequal d
  · exact toQuery_nullTest column negated d

end Condition

/-! ## Late and early values in calls -/

namespace Calls

/-- Unless a column is equated with a late missing value, calls yield the same query with
late values given at once, or the same failure. -/
theorem early_agrees {c : Calls Arg .node}
    (h : c.Equated fun a => a ≠ .late (.ok .null)) (d : Dialect) :
    (c.run Arg.early).node.toQuery d = (c.run id).node.toQuery d := by
  have halike : CallKind.Alike Eq .node (c.run Arg.early) (c.run id) :=
    run_alike_of_equated Arg.alike_early (h.mono fun _ ha => Arg.isNull_early ha)
  rcases Node.toQuery_alike (fun _ _ h => congrArg Value.isNull h) (halike.render d) with
    ⟨q, q', hq, hq', hqq'⟩ | ⟨e, he, he'⟩
  · have hbinds : q.binds = q'.binds := List.forall₂_eq_eq_eq ▸ hqq'.binds
    obtain ⟨text, binds⟩ := q
    obtain ⟨text', binds'⟩ := q'
    obtain rfl : text = text' := hqq'.text
    obtain rfl : binds = binds' := hbinds
    rw [hq, hq']
  · rw [he, he']

/-- A late number and a list with a late missing value, in a conjunction. -/
theorem early_agrees_number :
    (Calls.ofCondition (.combine .conjunction
        (.cons (.equality "a" (.leaf (.late (.ok (.signed 7)))) false)
          (.cons (.equality "b" (.list (.cons (.leaf (.late (.ok .null))) .nil)) true)
            .nil)))).Equated (fun a : Arg => a ≠ .late (.ok .null)) ∧
    (Condition.and [.eq "a" (.value (.signed 7)), .neq "b" (.list [.value .null])]).node.toQuery
        .postgres =
      (Condition.and [.eq "a" (.late (.ok (.signed 7))), .neq "b" (.list [.late (.ok .null)])]
        ).node.toQuery .postgres := by
  have hequated : (Calls.ofCondition (.combine .conjunction
      (.cons (.equality "a" (.leaf (.late (.ok (.signed 7)))) false)
        (.cons (.equality "b" (.list (.cons (.leaf (.late (.ok .null))) .nil)) true)
          .nil)))).Equated (fun a : Arg => a ≠ .late (.ok .null)) := by
    simp [Equated, Given]
  exact ⟨hequated, early_agrees hequated .postgres⟩

/-- In an equation with a late missing value they do not agree. -/
theorem not_early_agrees :
    ¬∀ (c : Calls Arg .node) (d : Dialect),
      (c.run Arg.early).node.toQuery d = (c.run id).node.toQuery d := by
  intro h
  have hsame : (Condition.equality "a" (.value .null) false).node.toQuery .mysql =
      (Condition.equality "a" (.late (.ok .null)) false).node.toQuery .mysql :=
    h (.ofCondition (.equality "a" (.leaf (.late (.ok .null))) false)) .mysql
  obtain ⟨hlate, hearly⟩ := Condition.toQuery_equality_null "a" false .mysql
  rw [hlate, hearly] at hsame
  exact absurd hsame (by decide)

end Calls

end SqlWeave
