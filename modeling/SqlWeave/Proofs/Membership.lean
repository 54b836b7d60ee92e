import SqlWeave.Proofs.Builtin
import SqlWeave.Proofs.LayoutItems

/-!
# What a column is a member of

A membership puts the column and a keyword before its operand, and the operand is written as it
is on its own : a list item by item, a fragment or a node like a statement. Whether parentheses
stand around it comes from three places. A list brings its own, a fragment is given them, and
a node has them if it asks for them (`Operand.enclosed`). The query of the membership is that of
the operand with nothing but these put around it, and it fails as the operand does
(`Condition.membership_written`).

A fragment can be given as it is or as a node, which does not ask for parentheses. The two bind
the same values, but only the first is a list of rows to a database
(`Condition.not_membership_enclosed`).
-/

namespace SqlWeave

/-! ## Text put around a query -/

namespace Query

variable (t : Target) (q : Query) (s : String) (items : List Item)

/-- The query with text before it. -/
def prepend (q : Query) (s : String) : Query := { q with text := s ++ q.text }

/-- The query in parentheses if asked for. -/
def enclosed (parens : Bool) (q : Query) : Query :=
  if parens then (q.prepend "(").write ")" else q

/-- A text in front of a query stays in front of what comes after it. -/
theorem continued_prepend :
    (q.prepend s).continued t items = (q.continued t items).prepend s := by
  simp [continued, prepend, String.append_assoc]

theorem write_empty_eq_prepend : ({} : Query).write s = ({} : Query).prepend s := by
  simp [write, prepend]

/-- Text before a query does not change how items are added to it. -/
theorem follow_prepend :
    ((q.prepend s).follow t items).result = ((q.follow t items).result).map (prepend · s) := by
  rw [follow_eq, follow_eq, continued_prepend]
  cases (Item.faults items).head? <;> rfl

/-- Text after the last item goes after the query. -/
theorem follow_append_text :
    (q.follow t (items ++ [.text s])).result = ((q.follow t items).result).map (write · s) := by
  rw [follow_append]
  cases h : q.follow t items with
  | mk query failure => cases failure <;> rfl

/-- A text that comes first is in front of the rest, if the rest is written. -/
theorem follow_text (rest : List Item) :
    (({} : Query).follow t (.text s :: rest)).result =
      ((({} : Query).follow t rest).result).map (prepend · s) := by
  rw [follow, write_empty_eq_prepend, follow_prepend]

/-- Items between parentheses make the query that they make, in parentheses. -/
theorem follow_enclosed (parens : Bool) :
    (({} : Query).follow t (Item.enclosed parens items)).result =
      ((({} : Query).follow t items).result).map (enclosed parens) := by
  cases parens with
  | false =>
    have hid : enclosed false = id := rfl
    rw [Item.enclosed, if_neg Bool.false_ne_true, hid]
    cases (({} : Query).follow t items).result <;> rfl
  | true =>
    rw [Item.enclosed, if_pos rfl, follow_text, follow_append_text]
    cases (({} : Query).follow t items).result <;> rfl

/-- Parentheses around a node stand around its text. -/
theorem follow_renderingFrontier (d : Dialect) (parens : Bool) (r : Rendering Arg) :
    (({} : Query).follow t (Arg.renderingFrontier d parens r)).result =
      ((({} : Query).follow t (Arg.renderingFrontier d false r)).result).map (enclosed parens) := by
  obtain ⟨text, args, failure⟩ := r
  cases failure with
  | some e => rfl
  | none => exact follow_enclosed t _ parens

end Query

/-! ## Operands -/

/-- What a column can be a member of. -/
inductive Operand where
  | list (first : Arg) (rest : List Arg)
  | fragment (f : Fragment)
  | node (n : Node)

namespace Operand

/-- The operand as an argument. -/
def arg : Operand → Arg
  | .list first rest => .list (first :: rest)
  | .fragment f => f.arg
  | .node n => n.arg

/-- Whether the operand of a membership stands in parentheses. -/
def enclosed : Operand → Bool
  | .list .. | .fragment _ => true
  | .node n => n.parens

/-- The query that the operand is on its own, a list without its parentheses. -/
def alone (d : Dialect) : Operand → Except RenderError Query
  | .list first rest =>
    ((({} : Query).addArg ⟨d, true⟩ false first).andThen (·.addItems ⟨d, true⟩ rest)).result
  | .fragment f => f.node.toQuery d
  | .node n => n.toQuery d

/-- The layout of the operand after the keyword. -/
def layout : Operand → Layout
  | .fragment f => .parenthesised (.slot f.arg)
  | o => .slot o.arg

/-- A list by itself is its elements with commas, without parentheses. -/
theorem alone_list (d : Dialect) (first : Arg) (rest : List Arg) :
    (list first rest).alone d = (({} : Query).follow ⟨d, true⟩ (first.frontier d false ++
      rest.flatMap fun a => .text ", " :: a.frontier d false)).result := by
  have hrest : ∀ q : Query, q.addItems ⟨d, true⟩ rest = _ :=
    Query.addItems_eq_follow fun a _ q => Query.addArg_eq_follow _ false q a
  simp only [alone, Query.addArg_eq_follow, hrest, Query.follow_append]

/-- A fragment by itself is written without parentheses. -/
theorem alone_fragment (d : Dialect) (f : Fragment) :
    (fragment f).alone d = (({} : Query).follow ⟨d, true⟩ (f.arg.frontier d false)).result := by
  have hitems : (Layout.slot f.arg).items d = f.arg.frontier d false := List.append_nil _
  rw [← hitems]
  exact ((Builtin.fragment f).sound_layout d).toQuery_eq_follow rfl rfl

/-- A node by itself is written as the whole statement. -/
theorem alone_node (d : Dialect) (n : Node) :
    (node n).alone d = (({} : Query).follow ⟨d, true⟩ (n.frontier d)).result :=
  congrArg Progress.result (Query.interpolateNode_eq_follow _ _ n)

theorem failure_layout (o : Operand) : o.layout.failure = none := by
  cases o <;> rfl

/-- After the keyword stands the query that the operand is on its own, in parentheses unless the
operand is a node that does not ask for them. -/
theorem follow_layout (d : Dialect) (o : Operand) :
    (({} : Query).follow ⟨d, true⟩ (o.layout.items d)).result =
      (o.alone d).map (Query.enclosed o.enclosed) := by
  have hslot (a : Arg) : (Layout.slot a).items d = a.frontier d false := List.append_nil _
  cases o with
  | list first rest =>
    have hfrontier : (list first rest).arg.frontier d false = Item.enclosed true
        (first.frontier d false ++ rest.flatMap fun a => .text ", " :: a.frontier d false) := by
      simp [arg, Arg.frontier, Item.listed, Item.enclosed,
        Text.intercalate_cons_eq_append_flatMap, List.flatMap_map]
    have hitems : (list first rest).layout.items d =
        (list first rest).arg.frontier d false := hslot _
    rw [hitems, hfrontier, Query.follow_enclosed, alone_list, enclosed]
  | fragment f =>
    have hitems : (fragment f).layout.items d = Item.enclosed true (f.arg.frontier d false) := by
      rw [layout, Layout.parenthesised, Layout.items_append rfl, Layout.items_append rfl, hslot]
      rfl
    rw [hitems, Query.follow_enclosed, alone_fragment, enclosed]
  | node n =>
    have hfrontier : n.arg.frontier d false =
        Arg.renderingFrontier d n.parens (n.render d) := by
      simp [Node.arg, Arg.frontier]
    have hitems : (node n).layout.items d = n.arg.frontier d false := hslot n.arg
    rw [hitems, hfrontier, Query.follow_renderingFrontier, alone_node, enclosed, Node.frontier]

end Operand

/-! ## Memberships -/

namespace Condition

/-- What stands before the operand of a membership. -/
def memberLead (d : Dialect) (column : String) (negated : Bool) : String :=
  d.quoteIdent column ++ if negated then " NOT IN " else " IN "

variable (d : Dialect) (column : String) (negated : Bool)

/-- A membership is its column, the operator, and what is written for the operand by itself, in
parentheses if it takes them. -/
theorem toQuery_member (o : Operand) :
    (member column o.arg negated).node.toQuery d =
      (o.alone d).map fun q => (q.enclosed o.enclosed).prepend (memberLead d column negated) := by
  have hlayout : (member column o.arg negated).layout =
      .name column ++ .word (if negated then " NOT IN " else " IN ") ++ o.layout := by
    cases o <;> rfl
  have hfailure : (member column o.arg negated).layout.failure = none := by
    rw [hlayout]
    simp [o.failure_layout]
  have hitems : (member column o.arg negated).layout.items d =
      .text (d.quoteIdent column) ::
        .text (if negated then " NOT IN " else " IN ") :: o.layout.items d := by
    rw [hlayout, Layout.items_append rfl, Layout.items_append rfl]
    rfl
  have hsound := (Builtin.condition (member column o.arg negated)).sound_layout d
  rw [hsound.toQuery_eq_follow hfailure rfl, Builtin.layout, hitems, Query.follow_text,
    Query.follow_text, Operand.follow_layout]
  cases o.alone d with
  | error e => rfl
  | ok q => simp [Except.map, Query.prepend, memberLead, String.append_assoc]

/-- In every dialect a membership is the column, the keyword and its operand as it is on its own,
with the same values, and it fails as the operand does. A list and a fragment stand in
parentheses, and a node does exactly if it asks for them. Equality with a list is membership. A
fragment given as a node is therefore written like the fragment, but without the
parentheses. -/
theorem membership_written :
    (∀ o : Operand, (member column o.arg negated).node.toQuery d =
      (o.alone d).map fun q => ⟨d.quoteIdent column ++ (if negated then " NOT IN " else " IN ") ++
        (if o.enclosed then "(" ++ q.text ++ ")" else q.text), q.binds⟩) ∧
    (∀ first rest, equality column (Operand.list first rest).arg negated =
      member column (Operand.list first rest).arg negated) ∧
    ∀ f : Fragment,
      (member column f.arg negated).node.toQuery d = (f.node.toQuery d).map
        (fun q => (q.enclosed true).prepend (memberLead d column negated)) ∧
      (member column f.node.arg negated).node.toQuery d = (f.node.toQuery d).map
        (·.prepend (memberLead d column negated)) := by
  refine ⟨fun o => ?_, fun first rest => rfl, fun f => ⟨?_, ?_⟩⟩
  · rw [toQuery_member]
    congr 1
    funext q
    cases o.enclosed <;> simp [Query.enclosed, Query.prepend, Query.write, memberLead]
  · exact toQuery_member d column negated (.fragment f)
  · exact toQuery_member d column negated (.node f.node)

/-- A fragment given as a node gets no parentheses : to a database `id IN SELECT ...` is no
condition. -/
theorem not_membership_enclosed :
    ¬ ∀ (d : Dialect) (column : String) (o : Operand) (negated : Bool),
      (member column o.arg negated).node.toQuery d =
        (o.alone d).map fun q => (q.enclosed true).prepend (memberLead d column negated) := by
  intro h
  have h := h .mysql "id" (.node (Fragment.node ⟨"SELECT id FROM banned", []⟩)) false
  revert h
  decide

end Condition

end SqlWeave
