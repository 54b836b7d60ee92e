import SqlWeave.Proofs.Regular
import SqlWeave.Statement

/-!
# The nodes of the library

The library provides identifiers, fragments, conditions and statements as nodes, and each
renders the layout that it has in the dialect (`Builtin.render_eq`). All these layouts are
regular (`Builtin.regular_layout`), whatever names, texts and arguments they hold.
-/

namespace SqlWeave

/-! ## Conditions -/

namespace Condition

/-- A membership follows the rules, whatever form its operand has. -/
theorem regular_memberLayout (column : String) (negated : Bool) (operand : Arg) :
    (memberLayout column negated operand).Regular true := by
  have hoperand : ∀ l : Layout, l.Regular false →
      (memberLayout.operandLayout column negated l).Regular true := fun l hl =>
    ((Layout.Regular.name column).append (.word (by cases negated <;> decide))).append hl
  match operand with
  | .list [] => exact .word (by cases negated <;> decide)
  | .list (_ :: _) => exact hoperand _ (.slot _)
  | .node .. => exact hoperand _ (.slot _)
  | .fragment .. => exact hoperand _ (.parenthesised (.slot _))
  | .value _ | .late _ => exact .fail (by simp)

/-- Several conditions are joined by the word of the connective. -/
theorem combinedLayout_cons_cons (connective : Connective) (part next : Condition × Layout)
    (rest : List (Condition × Layout)) :
    combinedLayout connective (part :: next :: rest) =
      .joined connective.word ((part :: next :: rest).map fun (condition, layout) =>
        if condition.isAtomic then layout else layout.parenthesised) := by
  rw [combinedLayout] <;> simp

/-- Conditions joined by a connective follow the rules if each of them does. -/
theorem regular_combinedLayout (connective : Connective) {parts : List (Condition × Layout)}
    (h : ∀ part ∈ parts, part.2.Regular true) :
    (combinedLayout connective parts).Regular true := by
  match parts with
  | [] => exact .fail (by simp)
  | [part] => exact h part List.mem_cons_self
  | part :: next :: rest =>
    rw [combinedLayout_cons_cons]
    have hword : Layout.isWord false connective.word = true := by
      cases connective <;> decide
    refine Layout.Regular.joined hword fun l hl => ?_
    obtain ⟨⟨c, m⟩, hm, rfl⟩ := List.mem_map.mp hl
    dsimp only
    split
    · exact h _ hm
    · exact .parenthesised (h _ hm)

mutual

/-- Every condition follows the rules, however deeply it is nested. -/
theorem regular_layout : ∀ c : Condition, c.layout.Regular true
  | .compare column comparison arg =>
    ((Layout.Regular.name column).append (.word (by cases comparison <;> decide))).append
      (.slot arg)
  | .nullTest column negated =>
    (Layout.Regular.name column).append (.word (by cases negated <;> decide))
  | .member column operand negated => regular_memberLayout column negated operand
  | .combine connective children =>
    regular_combinedLayout connective (regular_layouts children)
  | .fragment text args => .slot _
termination_by structural c => c

theorem regular_layouts : ∀ cs : List Condition, ∀ part ∈ layouts cs, part.2.Regular true
  | [] => by simp [layouts]
  | c :: cs => by
    intro part hpart
    rcases List.mem_cons.mp hpart with rfl | hpart
    · exact regular_layout c
    · exact regular_layouts cs part hpart
termination_by structural cs => cs

end

end Condition

/-! ## Statements -/

section Clauses

variable {free : Bool}

theorem regular_namesLayout (names : List String) : (namesLayout names).Regular free := by
  refine .joined (by decide) fun l hl => ?_
  obtain ⟨name, -, rfl⟩ := List.mem_map.mp hl
  exact .name name

/-- A digit can stand anywhere in a word but at its beginning. -/
theorem isWordChar_of_isDigit {c : Char} (h : c.isDigit = true) :
    (Template.isPlain c && c != '$') = true := by
  simp only [Template.isPlain, isQuote, Bool.and_eq_true, Bool.not_eq_true',
    Bool.or_eq_false_iff, beq_eq_false_iff_ne, bne_iff_ne]
  refine ⟨⟨⟨⟨?_, ?_⟩, ?_⟩, ?_⟩, ?_⟩ <;>
    · rintro rfl
      exact absurd h (by decide)

/-- A count after its keyword, whose digits do not come right after a slot. -/
theorem regular_countLayout {keyword : String} (h : Layout.isWord false keyword = true)
    (count : Option UInt64) : (countLayout keyword count).Regular false := by
  cases count with
  | none => exact .empty
  | some n =>
    refine .word ?_
    have hdigits := Layout.startsWithDigit_of_isWord h (toString n.toNat).toList
    simp only [Layout.isWord, Bool.and_eq_true, Bool.not_eq_true', List.isEmpty_eq_false_iff,
      Bool.or_eq_true] at h ⊢
    rw [String.toList_append, List.all_append, h.1.2, hdigits, Bool.true_and, List.all_eq_true]
    refine ⟨⟨by simp [h.1.1], fun c hc => ?_⟩, by simp⟩
    rw [Nat.toString_eq_repr, Nat.toList_repr] at hc
    exact isWordChar_of_isDigit (Nat.isDigit_of_mem_toDigits (by decide) (by decide) hc)

theorem regular_mutationLimitLayout (d : Dialect) (limit : Option UInt64) :
    (mutationLimitLayout d limit).Regular false :=
  .onlyIf (regular_countLayout (by decide) limit)

/-- A clause of conditions follows the rules if its keyword does. -/
theorem regular_filterLayout {keyword : String} (h : Layout.isWord false keyword = true)
    (conditions : List Condition) : (Select.filterLayout keyword conditions).Regular false :=
  .onlyIf (.word_append h (Condition.regular_layout _))

end Clauses

namespace Select

variable (s : Select)

theorem regular_columnsLayout : s.columnsLayout.Regular false := by
  refine ((Layout.Regular.word (by decide)).append (.onlyIf (.word (by decide)))).append
    (.joined (by decide) fun l hl => ?_)
  obtain ⟨arg, -, rfl⟩ := List.mem_map.mp hl
  exact .slot arg

theorem regular_sourceLayout : s.sourceLayout.Regular false := by
  unfold sourceLayout
  split
  · exact .empty
  · exact (Layout.Regular.word (by decide)).append (.slot _)
  · exact (((Layout.Regular.word (by decide)).append (.slot _)).append
      (.word (by decide))).append (.name _)

theorem regular_joinsLayout : s.joinsLayout.Regular false := by
  refine .concat fun l hl => ?_
  obtain ⟨j, -, rfl⟩ := List.mem_map.mp hl
  have hkeyword : Layout.isWord false (" " ++ j.kind.keyword ++ " ") = true := by
    cases j.kind <;> decide
  exact .append_word_append ((Layout.Regular.word hkeyword).append (.name _)) (by decide)
    (Condition.regular_layout _)

theorem regular_groupsLayout : s.groupsLayout.Regular false :=
  .onlyIf ((Layout.Regular.word (by decide)).append (regular_namesLayout _))

theorem regular_orderLayout : s.orderLayout.Regular false := by
  refine .onlyIf ((Layout.Regular.word (by decide)).append (.joined (by decide) fun l hl => ?_))
  obtain ⟨key, -, rfl⟩ := List.mem_map.mp hl
  cases key with
  | expression text => exact .slot _
  | ascending column => exact (Layout.Regular.name _).append (.word (by decide))
  | descending column => exact (Layout.Regular.name _).append (.word (by decide))

/-- Every query follows the rules. -/
theorem regular_layout (d : Dialect) : (s.layout d).Regular false := by
  unfold layout
  refine .append (.append (.append (.append (.append (.append (.append (.append (.append
    (.append ?_ ?_) ?_) ?_) ?_) ?_) ?_) ?_) ?_) ?_) ?_
  · exact .require (by simp)
  · exact s.regular_columnsLayout
  · exact s.regular_sourceLayout
  · exact s.regular_joinsLayout
  · exact regular_filterLayout (by decide) _
  · exact s.regular_groupsLayout
  · exact regular_filterLayout (by decide) _
  · exact s.regular_orderLayout
  · exact regular_countLayout (by decide) _
  · exact regular_countLayout (by decide) _
  · exact .onlyIf (.word (by decide))

end Select

namespace Insert

variable (s : Insert)

theorem regular_requireWidth (row : List Arg) : (s.requireWidth row).Regular false :=
  .require (by simp)

theorem regular_rowLayout (row : List Arg) : (rowLayout row).Regular false := by
  refine .parenthesised (.joined (by decide) fun l hl => ?_)
  obtain ⟨arg, -, rfl⟩ := List.mem_map.mp hl
  exact .slot arg

/-- Rows that fit follow the rules, and rows that do not fail with an error of their own. -/
theorem regular_rowsLayout (rows : List (List Arg)) : (s.rowsLayout rows).Regular false := by
  cases rows with
  | nil => exact .empty
  | cons first rest =>
    refine ((s.regular_requireWidth first).append (regular_rowLayout first)).append
      (.concat fun l hl => ?_)
    obtain ⟨row, -, rfl⟩ := List.mem_map.mp hl
    exact ((s.regular_requireWidth row).append (.word (by decide))).append (regular_rowLayout row)

/-- Every insertion follows the rules. -/
theorem regular_layout (d : Dialect) : (s.layout d).Regular false := by
  have hverb : Layout.isWord false (s.verb d) = true := by
    unfold verb
    cases s.ignoresDuplicates <;> cases d <;> decide
  unfold layout
  refine .append (.append (.append (.append (.append (.append (.append (.append (.append
    (.append (.append ?_ ?_) ?_) ?_) ?_) ?_) ?_) ?_) ?_) ?_) ?_) ?_
  · exact .require (by simp)
  · exact .require (by simp)
  · exact .require (by simp)
  · exact .word hverb
  · exact .word (by decide)
  · exact .name _
  · exact .word (by decide)
  · exact regular_namesLayout _
  · exact .word (by decide)
  · exact s.regular_rowsLayout _
  · exact .onlyIf (.word (by decide))
  · exact .onlyIf ((Layout.Regular.word (by decide)).append (regular_namesLayout _))

end Insert

/-- Every update follows the rules. -/
theorem Update.regular_layout (s : Update) (d : Dialect) : (s.layout d).Regular false := by
  unfold layout
  refine .append (.append (.append (.append (.append (.append (.append ?_ ?_) ?_) ?_) ?_) ?_)
    ?_) ?_
  · exact .require (by simp)
  · exact .require (by simp)
  · exact .word (by decide)
  · exact .name _
  · exact .word (by decide)
  · refine .joined (by decide) fun l hl => ?_
    obtain ⟨assignment, -, rfl⟩ := List.mem_map.mp hl
    exact ((Layout.Regular.name _).append (.word (by decide))).append (.slot _)
  · exact regular_filterLayout (by decide) _
  · exact regular_mutationLimitLayout _ _

/-- Every deletion follows the rules. -/
theorem Delete.regular_layout (s : Delete) (d : Dialect) : (s.layout d).Regular false := by
  unfold layout
  refine .append (.append (.append (.append ?_ ?_) ?_) ?_) ?_
  · exact .require (by simp)
  · exact .word (by decide)
  · exact .name _
  · exact regular_filterLayout (by decide) _
  · exact regular_mutationLimitLayout _ _

/-- A body that has failed writes nothing, and one that has not is as regular as its clauses. -/
theorem Body.regular_layout {α : Type} {ofClauses : α → Layout} (b : Body α)
    (h : ∀ c, (ofClauses c).Regular false) : (b.layout ofClauses).Regular false := by
  cases b with
  | text fragment => exact .slot _
  | clauses c => exact h c

/-! ## All nodes together -/

/-- A node that the library provides. -/
inductive Builtin where
  | ident (i : Ident)
  | fragment (f : Fragment)
  | condition (c : Condition)
  | statement (s : Statement)

namespace Builtin

/-- What is rendered of it. -/
def node : Builtin → Node
  | .ident i => i.node
  | .fragment f => f.node
  | .condition c => c.node
  | .statement s => s.node

/-- How it is laid out in a dialect. -/
def layout (d : Dialect) : Builtin → Layout
  | .ident i => .name i.name
  | .fragment f => .slot f.arg
  | .condition c => c.layout
  | .statement (.select b) => b.selectLayout d
  | .statement (.insert b) => b.insertLayout d
  | .statement (.update b) => b.updateLayout d
  | .statement (.delete b) => b.deleteLayout d

/-- The node renders its layout. -/
theorem render_eq (d : Dialect) (b : Builtin) : b.node.render d = (b.layout d).rendering d := by
  match b with
  | .ident i => simp [node, Ident.node, Rendering.ofText, layout, Layout.name, Layout.rendering,
      Layout.text, Layout.args, Segment.text, Segment.arg?]
  | .fragment f => rfl
  | .condition c => rfl
  | .statement (.select b) => rfl
  | .statement (.insert b) => rfl
  | .statement (.update b) => rfl
  | .statement (.delete b) => rfl

/-- All layouts of the library are regular. A node whose layout may begin with a digit asks
for parentheses. -/
theorem regular_layout (d : Dialect) (b : Builtin) : (b.layout d).Regular b.node.parens := by
  match b with
  | .ident i => exact .name _
  | .fragment f => exact .slot _
  | .condition c => exact c.regular_layout
  | .statement (.select b) =>
    exact (b.regular_layout fun s => s.regular_layout d).mono (Bool.false_le _)
  | .statement (.insert b) =>
    exact (b.regular_layout fun s => s.regular_layout d).mono (Bool.false_le _)
  | .statement (.update b) =>
    exact (b.regular_layout fun s => s.regular_layout d).mono (Bool.false_le _)
  | .statement (.delete b) =>
    exact (b.regular_layout fun s => s.regular_layout d).mono (Bool.false_le _)

/-- So it writes no marker besides those of its slots. -/
theorem sound_layout (d : Dialect) (b : Builtin) : (b.layout d).Sound d :=
  (b.regular_layout d).sound d

end Builtin

end SqlWeave
