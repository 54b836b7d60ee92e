import SqlWeave.Proofs.Alike.Statement

/-!
# Calls

A caller composes arguments, conditions and statements by calls of constructors and edits.
`Calls` are such sequences of calls as data, with the scalar arguments left open, and a run
of them (`Calls.run`) puts arguments in their places. So two runs of the same calls make
the same decisions in the caller's program, and the library alone could tell them apart.

What a run composes depends on an open argument only by how that argument is written and
by whether it is the missing value (`Calls.run_alike`).
-/

namespace SqlWeave

/-- What calls yield. -/
inductive CallKind where
  | arg
  | condition
  | select
  | insert
  | update
  | delete
  | node
  | many (k : CallKind)

/-- The type of what calls yield. -/
abbrev CallKind.Result : CallKind → Type
  | .arg => Arg
  | .condition => Condition
  | .select => Body Select
  | .insert => Body Insert
  | .update => Body Update
  | .delete => Body Delete
  | .node => Builtin
  | .many k => List k.Result

/-- Calls in order, with open arguments `L`. -/
inductive Calls (L : Type) : CallKind → Type where
  | nil {k : CallKind} : Calls L (.many k)
  | cons {k : CallKind} (c : Calls L k) (cs : Calls L (.many k)) : Calls L (.many k)
  -- Arguments.
  | leaf (l : L) : Calls L .arg
  | list (items : Calls L (.many .arg)) : Calls L .arg
  | template (text : String) (args : Calls L (.many .arg)) : Calls L .arg
  | nested (n : Calls L .node) : Calls L .arg
  -- Conditions.
  | compare (column : String) (comparison : Comparison) (arg : Calls L .arg) : Calls L .condition
  | equality (column : String) (arg : Calls L .arg) (negated : Bool) : Calls L .condition
  | nullTest (column : String) (negated : Bool) : Calls L .condition
  | member (column : String) (operand : Calls L .arg) (negated : Bool) : Calls L .condition
  | combine (connective : Connective) (children : Calls L (.many .condition)) :
    Calls L .condition
  | expression (text : String) (args : Calls L (.many .arg)) : Calls L .condition
  -- Queries.
  | select (columns : List String) : Calls L .select
  | selectText (text : String) (args : Calls L (.many .arg)) : Calls L .select
  | selectEdit (s : Calls L .select) (e : Select.Edit) (h : e.argless = true) : Calls L .select
  | columnExpression (s : Calls L .select) (arg : Calls L .arg) : Calls L .select
  | subquery (s query : Calls L .select) (label : String) : Calls L .select
  | join (s : Calls L .select) (kind : JoinKind) (table : String) (on : Calls L .condition) :
    Calls L .select
  | selectWhere (s : Calls L .select) (c : Calls L .condition) : Calls L .select
  | having (s : Calls L .select) (c : Calls L .condition) : Calls L .select
  -- Insertions.
  | insert (table : String) : Calls L .insert
  | insertText (text : String) (args : Calls L (.many .arg)) : Calls L .insert
  | insertEdit (s : Calls L .insert) (e : Insert.Edit) (h : e.argless = true) : Calls L .insert
  | row (s : Calls L .insert) (args : Calls L (.many .arg)) : Calls L .insert
  | pair (s : Calls L .insert) (column : String) (arg : Calls L .arg) : Calls L .insert
  -- Updates and deletions.
  | update (table : String) : Calls L .update
  | updateText (text : String) (args : Calls L (.many .arg)) : Calls L .update
  | updateLimit (s : Calls L .update) (count : UInt64) : Calls L .update
  | set (s : Calls L .update) (column : String) (arg : Calls L .arg) : Calls L .update
  | setAll (s : Calls L .update) (columns : List String) (args : Calls L (.many .arg)) :
    Calls L .update
  | updateWhere (s : Calls L .update) (c : Calls L .condition) : Calls L .update
  | delete (table : String) : Calls L .delete
  | deleteText (text : String) (args : Calls L (.many .arg)) : Calls L .delete
  | deleteLimit (s : Calls L .delete) (count : UInt64) : Calls L .delete
  | deleteWhere (s : Calls L .delete) (c : Calls L .condition) : Calls L .delete
  -- Nodes.
  | ident (name : String) : Calls L .node
  | fragment (text : String) (args : Calls L (.many .arg)) : Calls L .node
  | ofCondition (c : Calls L .condition) : Calls L .node
  | ofSelect (s : Calls L .select) : Calls L .node
  | ofInsert (s : Calls L .insert) : Calls L .node
  | ofUpdate (s : Calls L .update) : Calls L .node
  | ofDelete (s : Calls L .delete) : Calls L .node

namespace Calls

variable {L : Type}

/-- What the calls yield with the open arguments put in. -/
def run (ρ : L → Arg) : {k : CallKind} → Calls L k → k.Result
  | _, .nil => []
  | _, .cons c cs => c.run ρ :: cs.run ρ
  | _, .leaf l => ρ l
  | _, .list items => .list (items.run ρ)
  | _, .template text args => .fragment text (args.run ρ)
  | _, .nested n => (n.run ρ).node.arg
  | _, .compare column comparison arg => .compare column comparison (arg.run ρ)
  | _, .equality column arg negated => Condition.equality column (arg.run ρ) negated
  | _, .nullTest column negated => .nullTest column negated
  | _, .member column operand negated => .member column (operand.run ρ) negated
  | _, .combine connective children => .combine connective (children.run ρ)
  | _, .expression text args => .fragment text (args.run ρ)
  | _, .select columns => .clauses (Select.ofColumns columns)
  | _, .selectText text args => .text ⟨text, args.run ρ⟩
  | _, .selectEdit s e _ => (s.run ρ).edit (·.apply e)
  | _, .columnExpression s arg => (s.run ρ).edit (·.apply (.expression (arg.run ρ)))
  | _, .subquery s query label => (s.run ρ).edit (·.apply (.subquery (query.run ρ) label))
  | _, .join s kind table on => (s.run ρ).edit (·.apply (.join ⟨kind, table, on.run ρ⟩))
  | _, .selectWhere s c => (s.run ρ).edit (·.apply (.filter (c.run ρ)))
  | _, .having s c => (s.run ρ).edit (·.apply (.filterGroups (c.run ρ)))
  | _, .insert table => .clauses (Insert.into table)
  | _, .insertText text args => .text ⟨text, args.run ρ⟩
  | _, .insertEdit s e _ => (s.run ρ).edit (·.apply e)
  | _, .row s args => (s.run ρ).edit (·.apply (.row (args.run ρ)))
  | _, .pair s column arg => (s.run ρ).edit (·.apply (.pair column (arg.run ρ)))
  | _, .update table => .clauses (Update.of table)
  | _, .updateText text args => .text ⟨text, args.run ρ⟩
  | _, .updateLimit s count => (s.run ρ).edit (·.apply (.limit count))
  | _, .set s column arg => (s.run ρ).edit (·.apply (.set column (arg.run ρ)))
  | _, .setAll s columns args => (s.run ρ).edit (·.apply (.setAll (columns.zip (args.run ρ))))
  | _, .updateWhere s c => (s.run ρ).edit (·.apply (.filter (c.run ρ)))
  | _, .delete table => .clauses (Delete.of table)
  | _, .deleteText text args => .text ⟨text, args.run ρ⟩
  | _, .deleteLimit s count => (s.run ρ).edit (·.apply (.limit count))
  | _, .deleteWhere s c => (s.run ρ).edit (·.apply (.filter (c.run ρ)))
  | _, .ident name => .ident ⟨name⟩
  | _, .fragment text args => .fragment ⟨text, args.run ρ⟩
  | _, .ofCondition c => .condition (c.run ρ)
  | _, .ofSelect s => .statement (.select (s.run ρ))
  | _, .ofInsert s => .statement (.insert (s.run ρ))
  | _, .ofUpdate s => .statement (.update (s.run ρ))
  | _, .ofDelete s => .statement (.delete (s.run ρ))

/-- An argument that is left open satisfies `P`. -/
def Given (P : L → Prop) : Calls L .arg → Prop
  | .leaf l => P l
  | .list _ | .template .. | .nested _ => True

/-- Every open argument that a column is equated with satisfies `P`. An equation is the only
constructor that looks at more of an argument than its form. -/
def Equated (P : L → Prop) : {k : CallKind} → Calls L k → Prop
  | _, .nil | _, .leaf _ | _, .nullTest .. | _, .select _ | _, .insert _ | _, .update _
  | _, .delete _ | _, .ident _ => True
  | _, .equality _ arg _ => arg.Given P ∧ arg.Equated P
  | _, .list items => items.Equated P
  | _, .template _ args | _, .expression _ args | _, .selectText _ args | _, .insertText _ args
  | _, .updateText _ args | _, .deleteText _ args | _, .fragment _ args => args.Equated P
  | _, .nested n => n.Equated P
  | _, .compare _ _ arg | _, .member _ arg _ => arg.Equated P
  | _, .combine _ children => children.Equated P
  | _, .selectEdit s .. => s.Equated P
  | _, .insertEdit s .. => s.Equated P
  | _, .updateLimit s _ => s.Equated P
  | _, .deleteLimit s _ => s.Equated P
  | _, .cons c cs => c.Equated P ∧ cs.Equated P
  | _, .columnExpression s arg => s.Equated P ∧ arg.Equated P
  | _, .subquery s query _ => s.Equated P ∧ query.Equated P
  | _, .join s _ _ on => s.Equated P ∧ on.Equated P
  | _, .selectWhere s c | _, .having s c => s.Equated P ∧ c.Equated P
  | _, .row s args => s.Equated P ∧ args.Equated P
  | _, .pair s _ arg => s.Equated P ∧ arg.Equated P
  | _, .set s _ arg => s.Equated P ∧ arg.Equated P
  | _, .setAll s _ args => s.Equated P ∧ args.Equated P
  | _, .updateWhere s c => s.Equated P ∧ c.Equated P
  | _, .deleteWhere s c => s.Equated P ∧ c.Equated P
  | _, .ofCondition c => c.Equated P
  | _, .ofSelect s => s.Equated P
  | _, .ofInsert s => s.Equated P
  | _, .ofUpdate s => s.Equated P
  | _, .ofDelete s => s.Equated P

/-- What is given under one condition is given under a weaker one. -/
theorem Given.mono {P Q : L → Prop} (h : ∀ l, P l → Q l) {c : Calls L .arg}
    (hc : c.Given P) : c.Given Q := by
  cases c with
  | leaf l => exact h l hc
  | list | template | nested => trivial

theorem Equated.mono {P Q : L → Prop} (h : ∀ l, P l → Q l) {k : CallKind} {c : Calls L k}
    (hc : c.Equated P) : c.Equated Q := by
  induction c with
  | nil | leaf | nullTest | select | insert | update | delete | ident => trivial
  | equality _ _ _ ih => exact ⟨hc.1.mono h, ih hc.2⟩
  | list _ ih | template _ _ ih | nested _ ih | compare _ _ _ ih | member _ _ _ ih
  | combine _ _ ih | expression _ _ ih | selectText _ _ ih | selectEdit _ _ _ ih
  | insertText _ _ ih | insertEdit _ _ _ ih | updateText _ _ ih | updateLimit _ _ ih
  | deleteText _ _ ih | deleteLimit _ _ ih | fragment _ _ ih | ofCondition _ ih
  | ofSelect _ ih | ofInsert _ ih | ofUpdate _ ih | ofDelete _ ih => exact ih hc
  | cons _ _ ih ih' | columnExpression _ _ ih ih' | subquery _ _ _ ih ih'
  | join _ _ _ _ ih ih' | selectWhere _ _ ih ih' | having _ _ ih ih' | row _ _ ih ih'
  | pair _ _ _ ih ih' | set _ _ _ ih ih' | setAll _ _ _ ih ih' | updateWhere _ _ ih ih'
  | deleteWhere _ _ ih ih' => exact ⟨ih hc.1, ih' hc.2⟩

/-- Every call compares for equality under no condition at all. -/
theorem equated_true {k : CallKind} (c : Calls L k) : c.Equated fun _ => True := by
  induction c with
  | nil | leaf | nullTest | select | insert | update | delete | ident => trivial
  | equality _ arg _ ih => exact ⟨by cases arg <;> trivial, ih⟩
  | list _ ih | template _ _ ih | nested _ ih | compare _ _ _ ih | member _ _ _ ih
  | combine _ _ ih | expression _ _ ih | selectText _ _ ih | selectEdit _ _ _ ih
  | insertText _ _ ih | insertEdit _ _ _ ih | updateText _ _ ih | updateLimit _ _ ih
  | deleteText _ _ ih | deleteLimit _ _ ih | fragment _ _ ih | ofCondition _ ih
  | ofSelect _ ih | ofInsert _ ih | ofUpdate _ ih | ofDelete _ ih => exact ih
  | cons _ _ ih ih' | columnExpression _ _ ih ih' | subquery _ _ _ ih ih'
  | join _ _ _ _ ih ih' | selectWhere _ _ ih ih' | having _ _ ih ih' | row _ _ ih ih'
  | pair _ _ _ ih ih' | set _ _ _ ih ih' | setAll _ _ _ ih ih' | updateWhere _ _ ih ih'
  | deleteWhere _ _ ih ih' => exact ⟨ih, ih'⟩

end Calls

/-! ## Two runs of the same calls -/

/-- Nodes of the library that ask for parentheses together and render alike. -/
structure Builtin.Alike (R : Value → Value → Prop) (b b' : Builtin) : Prop where
  parens : b.node.parens = b'.node.parens
  render : ∀ d, (b.node.render d).Alike R (b'.node.render d)

/-- What two runs yield is alike. -/
def CallKind.Alike (R : Value → Value → Prop) : (k : CallKind) → k.Result → k.Result → Prop
  | .arg => Arg.Alike R
  | .condition => Condition.Alike R
  | .select => Body.Alike R (Select.Alike R)
  | .insert => Body.Alike R (Insert.Alike R)
  | .update => Body.Alike R (Update.Alike R)
  | .delete => Body.Alike R (Delete.Alike R)
  | .node => Builtin.Alike R
  | .many k => List.Forall₂ (CallKind.Alike R k)

namespace Calls

variable {L : Type} {R : Value → Value → Prop} {ρ ρ' : L → Arg}

/-- An argument is the missing value under both valuations if they agree about its leaves. -/
theorem run_isNull {c : Calls L .arg} (h : c.Given fun l => (ρ l).isNull = (ρ' l).isNull) :
    Arg.isNull (c.run ρ) = Arg.isNull (c.run ρ') := by
  cases c with
  | leaf l => exact h
  | list | template | nested => rfl

/-- If the open arguments are alike in two runs, and those that a column is equated with are
the missing value in both or in neither, what the runs yield is alike. -/
theorem run_alike_of_equated (h : ∀ l, (ρ l).Alike R (ρ' l)) {k : CallKind} {c : Calls L k}
    (hc : c.Equated fun l => (ρ l).isNull = (ρ' l).isNull) :
    k.Alike R (c.run ρ) (c.run ρ') := by
  induction c with
  | nil => exact .nil
  | cons _ _ ih ihs => exact .cons (ih hc.1) (ihs hc.2)
  | leaf l => exact h l
  | list _ ih => exact .list (ih hc)
  | template text _ ih => exact .fragment text (ih hc)
  | nested _ ih => exact .node (ih hc).render (ih hc).parens
  | compare column comparison _ ih => exact .compare column comparison (ih hc)
  | equality column _ negated ih => exact .equality column negated (run_isNull hc.1) (ih hc.2)
  | nullTest column negated => exact .nullTest column negated
  | member column _ negated ih => exact .member column negated (ih hc)
  | combine connective _ ih => exact .combine connective (ih hc)
  | expression text _ ih => exact .fragment text (ih hc)
  | select columns => exact .clauses (Select.ofColumns_alike columns)
  | insert table => exact .clauses (Insert.into_alike table)
  | update table => exact .clauses (Update.of_alike table)
  | delete table => exact .clauses (Delete.of_alike table)
  | selectText text _ ih | insertText text _ ih | updateText text _ ih | deleteText text _ ih =>
    exact .text (.fragment text (ih hc))
  | selectEdit _ e he ih => exact (ih hc).edit fun _ _ hs => hs.apply he
  | columnExpression _ _ ih iharg =>
    exact (ih hc.1).edit fun _ _ hs => hs.apply_expression (iharg hc.2)
  | subquery _ _ label ih ihquery =>
    have hquery := (ihquery hc.2).rendering fun d _ _ hs => hs.layout d
    exact (ih hc.1).edit fun _ _ hs => hs.apply_subquery (.node hquery rfl) label
  | join _ _ _ _ ih ihon => exact (ih hc.1).edit fun _ _ hs => hs.apply_join ⟨rfl, rfl, ihon hc.2⟩
  | selectWhere _ _ ih ihc => exact (ih hc.1).edit fun _ _ hs => hs.apply_filter (ihc hc.2)
  | having _ _ ih ihc => exact (ih hc.1).edit fun _ _ hs => hs.apply_filterGroups (ihc hc.2)
  | insertEdit _ e he ih => exact (ih hc).edit fun _ _ hs => hs.apply he
  | row _ _ ih ihargs => exact (ih hc.1).edit fun _ _ hs => hs.apply_row (ihargs hc.2)
  | pair _ column _ ih iharg => exact (ih hc.1).edit fun _ _ hs => hs.apply_pair column (iharg hc.2)
  | updateLimit _ count ih => exact (ih hc).edit fun _ _ hs => hs.apply_limit count
  | set _ column _ ih iharg => exact (ih hc.1).edit fun _ _ hs => hs.apply_set column (iharg hc.2)
  | setAll _ columns _ ih ihargs =>
    exact (ih hc.1).edit fun _ _ hs => hs.apply_setAll columns (ihargs hc.2)
  | updateWhere _ _ ih ihc => exact (ih hc.1).edit fun _ _ hs => hs.apply_filter (ihc hc.2)
  | deleteLimit _ count ih => exact (ih hc).edit fun _ _ hs => hs.apply_limit count
  | deleteWhere _ _ ih ihc => exact (ih hc.1).edit fun _ _ hs => hs.apply_filter (ihc hc.2)
  | ident name => exact ⟨rfl, fun _ => ⟨rfl, .nil, rfl⟩⟩
  | fragment text _ ih => exact ⟨rfl, fun _ => ⟨rfl, .cons (.fragment text (ih hc)) .nil, rfl⟩⟩
  | ofCondition _ ih => exact ⟨rfl, (ih hc).layout.rendering⟩
  | ofSelect _ ih | ofInsert _ ih | ofUpdate _ ih | ofDelete _ ih =>
    exact ⟨rfl, (ih hc).rendering fun d _ _ hs => hs.layout d⟩

/-- If the open arguments are alike in two runs and the missing value in both or in
neither, what the runs yield is alike. -/
theorem run_alike (h : ∀ l, (ρ l).Alike R (ρ' l)) (hnull : ∀ l, (ρ l).isNull = (ρ' l).isNull)
    {k : CallKind} (c : Calls L k) : k.Alike R (c.run ρ) (c.run ρ') :=
  run_alike_of_equated h (c.equated_true.mono fun l _ => hnull l)

end Calls

end SqlWeave
