import SqlWeave.Layout

/-!
# Conditions

The conditions of WHERE, HAVING and ON : comparisons of a column with an argument, tests
for the missing value, membership, conjunctions and disjunctions, and fragments of text.

Comparisons, null tests and memberships bind tighter than AND and OR; inside a combination
of several conditions every other one stands in parentheses. Membership in the empty list
is written as a condition that is never true, or for its negation always.
-/

namespace SqlWeave

/-- How a column is compared. -/
inductive Comparison where
  | equal
  | unequal
  | greater
  | greaterEqual
  | less
  | lessEqual
  | like
  | unlike
  deriving DecidableEq, Repr

/-- The operator of a comparison. -/
def Comparison.symbol : Comparison → String
  | .equal => "="
  | .unequal => "<>"
  | .greater => ">"
  | .greaterEqual => ">="
  | .less => "<"
  | .lessEqual => "<="
  | .like => "LIKE"
  | .unlike => "NOT LIKE"

/-- How conditions are combined. -/
inductive Connective where
  | conjunction
  | disjunction
  deriving DecidableEq, Repr

/-- The word between two combined conditions. -/
def Connective.word : Connective → String
  | .conjunction => " AND "
  | .disjunction => " OR "

/-- A condition on the columns of a row. -/
inductive Condition where
  | compare (column : String) (comparison : Comparison) (arg : Arg)
  | nullTest (column : String) (negated : Bool)
  | member (column : String) (operand : Arg) (negated : Bool)
  | combine (connective : Connective) (children : List Condition)
  | fragment (text : String) (args : List Arg)

namespace Condition

/-! ## Construction

Equality with the missing value is a null test, and equality with a list is membership. -/

/-- The column equals the argument, or with `negated` does not. -/
def equality (column : String) (arg : Arg) (negated : Bool) : Condition :=
  if arg.isNull then .nullTest column negated
  else
    match arg with
    | .list items => .member column (.list items) negated
    | arg => .compare column (if negated then .unequal else .equal) arg

/-- The column equals the argument. -/
def eq (column : String) (arg : Arg) : Condition := equality column arg false

/-- The column differs from the argument. -/
def neq (column : String) (arg : Arg) : Condition := equality column arg true

def gt (column : String) (arg : Arg) : Condition := .compare column .greater arg
def gte (column : String) (arg : Arg) : Condition := .compare column .greaterEqual arg
def lt (column : String) (arg : Arg) : Condition := .compare column .less arg
def lte (column : String) (arg : Arg) : Condition := .compare column .lessEqual arg
def like (column : String) (arg : Arg) : Condition := .compare column .like arg
def notLike (column : String) (arg : Arg) : Condition := .compare column .unlike arg
def isNull (column : String) : Condition := .nullTest column false
def isNotNull (column : String) : Condition := .nullTest column true
def isIn (column : String) (operand : Arg) : Condition := .member column operand false
def isNotIn (column : String) (operand : Arg) : Condition := .member column operand true
def and (children : List Condition) : Condition := .combine .conjunction children
def or (children : List Condition) : Condition := .combine .disjunction children

instance : Coe Fragment Condition := ⟨fun f => .fragment f.text f.args⟩

/-! ## Layout -/

/-- Whether the condition binds tighter than AND and OR. -/
def isAtomic : Condition → Bool
  | .compare .. | .nullTest .. | .member .. => true
  | .combine .. | .fragment .. => false

/-- Membership of a column in a list, in the rows of a node, or in what a fragment gives.
Only a fragment brings no parentheses of its own. -/
def memberLayout (column : String) (negated : Bool) : Arg → Layout
  | .list [] => .word (if negated then "1 = 1" else "1 = 0")
  | .list (item :: items) => operandLayout (.slot (.list (item :: items)))
  | .node parens render => operandLayout (.slot (.node parens render))
  | .fragment text args => operandLayout (.parenthesised (.slot (.fragment text args)))
  | .value _ | .late _ => .fail .notEnumerable
where
  /-- The column, the keyword, and the operand. -/
  operandLayout (operand : Layout) : Layout :=
    .name column ++ .word (if negated then " NOT IN " else " IN ") ++ operand

/-- Conditions and their layouts under a connective. None at all is no condition, and one
alone stands for itself. -/
def combinedLayout (connective : Connective) : List (Condition × Layout) → Layout
  | [] => .fail .emptyCondition
  | [(_, layout)] => layout
  | parts => .joined connective.word <| parts.map fun (condition, layout) =>
    if condition.isAtomic then layout else layout.parenthesised

mutual

/-- A condition laid out. -/
def layout : Condition → Layout
  | .compare column comparison arg =>
    .name column ++ .word (" " ++ comparison.symbol ++ " ") ++ .slot arg
  | .nullTest column negated =>
    .name column ++ .word (if negated then " IS NOT NULL" else " IS NULL")
  | .member column operand negated => memberLayout column negated operand
  | .combine connective children => combinedLayout connective (layouts children)
  | .fragment text args => .slot (.fragment text args)
termination_by structural c => c

/-- Conditions, each with its layout. -/
def layouts : List Condition → List (Condition × Layout)
  | [] => []
  | c :: cs => (c, layout c) :: layouts cs
termination_by structural cs => cs

end

@[simp] theorem layouts_eq_map (cs : List Condition) :
    layouts cs = cs.map fun c => (c, c.layout) := by
  induction cs with
  | nil => rfl
  | cons c cs ih => simp [layouts, ih]

/-- Conditions laid out as one conjunction. -/
def conjunctionLayout (conditions : List Condition) : Layout :=
  (Condition.and conditions).layout

/-- A condition as a node. -/
def node (c : Condition) : Node := ⟨true, fun d => c.layout.rendering d⟩

instance : ToArg Condition := ⟨fun c => c.node.arg⟩

end Condition

end SqlWeave
