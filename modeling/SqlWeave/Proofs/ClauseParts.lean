import SqlWeave.Proofs.Builtin
import SqlWeave.Proofs.LayoutParts

/-!
# The clauses of a statement

A query, an update and a deletion are laid out clause by clause, and all of them have filters
with some clauses before and others after them (`Clauses`). A statement that can be written is
nothing but its clauses one after the other. Each clause brings in the arguments of its own
operands, and the clause of the filters is the conjunction of all of them
(`Select.text_filterLayout`).
-/

namespace SqlWeave

/-! ## Filters -/

namespace Condition

variable {d : Dialect} {cs : List Condition}

/-- How a conjunction is written : one condition alone, several with AND between them and, if they
are not atomic, in parentheses of their own. -/
def conjunctionText (d : Dialect) : List Condition → String
  | [] => ""
  | [c] => c.layout.text d
  | cs => " AND ".intercalate <| cs.map fun c =>
    if c.isAtomic then c.layout.text d else "(" ++ c.layout.text d ++ ")"

/-- Two or more conditions with AND between them, each in parentheses unless it is atomic. -/
theorem conjunctionText_cons_cons (d : Dialect) (first next : Condition) (rest : List Condition) :
    conjunctionText d (first :: next :: rest) =
      " AND ".intercalate ((first :: next :: rest).map fun c =>
        if c.isAtomic then c.layout.text d else "(" ++ c.layout.text d ++ ")") := by
  rw [conjunctionText] <;> simp

/-- The layout of two or more conditions, part by part. -/
theorem conjunctionLayout_cons_cons (first next : Condition) (rest : List Condition) :
    conjunctionLayout (first :: next :: rest) =
      .joined " AND " ((first :: next :: rest).map fun c =>
        if c.isAtomic then c.layout else c.layout.parenthesised) := by
  rw [conjunctionLayout, Condition.and, layout, layouts_eq_map, List.map_cons, List.map_cons,
    combinedLayout_cons_cons]
  simp only [List.map_cons, List.map_map]
  rfl

theorem conjunctionLayout_singleton (c : Condition) : conjunctionLayout [c] = c.layout :=
  rfl

theorem failure_conjunctionLayout_eq_none_iff (hcs : cs ≠ []) :
    (conjunctionLayout cs).failure = none ↔ ∀ c ∈ cs, c.layout.failure = none := by
  match cs with
  | [c] => simp [conjunctionLayout_singleton]
  | first :: next :: rest =>
    rw [conjunctionLayout_cons_cons, Layout.failure_joined_eq_none_iff, List.forall_mem_map]
    refine forall₂_congr fun c _ => ?_
    split <;> simp

/-- Conditions that do not fail are written one after the other. -/
theorem text_conjunctionLayout (h : ∀ c ∈ cs, c.layout.failure = none) (hcs : cs ≠ []) :
    (conjunctionLayout cs).text d = conjunctionText d cs := by
  match cs with
  | [c] => rfl
  | first :: next :: rest =>
    rw [conjunctionLayout_cons_cons, conjunctionText_cons_cons, Layout.text_joined, List.map_map]
    · refine congrArg _ (List.map_congr_left fun c hc => ?_)
      by_cases hatomic : c.isAtomic <;>
        simp [hatomic, Layout.text_parenthesised d (h c hc)]
    · rw [List.forall_mem_map]
      intro c hc
      split <;> simp [h c hc]

/-- They bring their arguments in order. -/
theorem args_conjunctionLayout (h : ∀ c ∈ cs, c.layout.failure = none) (hcs : cs ≠ []) :
    (conjunctionLayout cs).args = cs.flatMap (·.layout.args) := by
  match cs with
  | [c] => simp [conjunctionLayout_singleton]
  | first :: next :: rest =>
    rw [conjunctionLayout_cons_cons, Layout.args_joined, List.flatMap_map]
    · refine List.flatMap_congr fun c hc => ?_
      split <;> simp [Layout.args_parenthesised, h c hc]
    · rw [List.forall_mem_map]
      intro c hc
      split <;> simp [h c hc]

end Condition

namespace Select

variable {d : Dialect} {keyword : String} {cs : List Condition}

theorem filterLayout_nil (keyword : String) : filterLayout keyword [] = .empty :=
  rfl

/-- A clause that has conditions begins with its keyword. -/
theorem filterLayout_of_ne_nil (keyword : String) (hcs : cs ≠ []) :
    filterLayout keyword cs = .word keyword ++ Condition.conjunctionLayout cs := by
  simp [filterLayout, Layout.onlyIf, hcs]

/-- A clause of filters fails exactly if one of these does. -/
@[simp] theorem failure_filterLayout_eq_none_iff :
    (filterLayout keyword cs).failure = none ↔ ∀ c ∈ cs, c.layout.failure = none := by
  by_cases hcs : cs = []
  · simp [hcs, filterLayout_nil]
  · simp [filterLayout_of_ne_nil keyword hcs, Condition.failure_conjunctionLayout_eq_none_iff hcs]

/-- A clause of conditions is written with its keyword, or not at all. -/
theorem text_filterLayout (h : ∀ c ∈ cs, c.layout.failure = none) :
    (filterLayout keyword cs).text d =
      if cs = [] then "" else keyword ++ Condition.conjunctionText d cs := by
  by_cases hcs : cs = []
  · simp [hcs, filterLayout_nil, Layout.text, Layout.empty]
  · rw [filterLayout_of_ne_nil keyword hcs, Layout.text_word_append,
      Condition.text_conjunctionLayout h hcs, if_neg hcs]

/-- Its arguments are those of its conditions, in order. -/
theorem args_filterLayout (h : ∀ c ∈ cs, c.layout.failure = none) :
    (filterLayout keyword cs).args = cs.flatMap (·.layout.args) := by
  by_cases hcs : cs = []
  · simp [hcs, filterLayout_nil]
  · rw [filterLayout_of_ne_nil keyword hcs, Layout.args_word_append,
      Condition.args_conjunctionLayout h hcs]

end Select

/-! ## Clauses around the filters -/

/-- The clauses of a statement in the order in which they are laid out : those before the filters,
the filters, and those after them. -/
structure Clauses where
  before : List Layout
  filters : List Condition
  after : List Layout

namespace Clauses

/-- All clauses. -/
def layouts (c : Clauses) : List Layout :=
  c.before ++ Select.filterLayout " WHERE " c.filters :: c.after

end Clauses

namespace Select

variable (d : Dialect) (s : Select)

def clauses : Clauses where
  before := [s.columnsLayout, s.sourceLayout, s.joinsLayout]
  filters := s.filters
  after := [s.groupsLayout, filterLayout " HAVING " s.groupFilters, s.orderLayout,
    countLayout " LIMIT " s.limit, countLayout " OFFSET " s.offset, s.lockLayout d]

/-- The arguments of a query : those of its columns, of its source, of the conditions of its joins,
of its filters, and of its order. -/
def operands : List Arg :=
  s.columns ++ (s.source.map Source.node).toList ++ s.joins.flatMap (·.on.layout.args) ++
    s.filters.flatMap (·.layout.args) ++ s.groupFilters.flatMap (·.layout.args) ++
    s.order.flatMap (orderKeyLayout · |>.args)

/-- A query that can be written is its clauses. -/
theorem layout_eq_concat {d : Dialect} {s : Select} (h : (s.layout d).failure = none) :
    s.layout d = .concat (s.clauses d).layouts ∧ ∀ l ∈ (s.clauses d).layouts, l.failure = none := by
  have hlayout : s.layout d =
      .require (!s.columns.isEmpty) .columnMissing ++ .concat (s.clauses d).layouts := by
    simp [layout, clauses, Clauses.layouts, Layout.concat, Layout.append_assoc]
  rw [hlayout] at h ⊢
  obtain ⟨hconcat, h⟩ := Layout.require_append h
  exact ⟨hconcat, Layout.failure_concat_eq_none_iff.mp h⟩

/-- The columns are arguments, and all the arguments there are before the source. -/
theorem args_columnsLayout : s.columnsLayout.args = s.columns := by
  rw [columnsLayout, Layout.append_assoc, Layout.args_word_append, Layout.args_append (by simp),
    Layout.args_joined (by simp), List.flatMap_map]
  cases s.distinct <;> simp [Layout.onlyIf]

theorem args_sourceLayout : s.sourceLayout.args = (s.source.map Source.node).toList := by
  rw [sourceLayout]
  split <;> simp [*, Layout.append_assoc]

/-- A join brings the arguments of its condition. -/
theorem args_joinsLayout (h : s.joinsLayout.failure = none) :
    s.joinsLayout.args = s.joins.flatMap (·.on.layout.args) := by
  rw [joinsLayout] at h ⊢
  rw [Layout.args_concat (Layout.failure_concat_eq_none_iff.mp h), List.flatMap_map]
  refine List.flatMap_congr fun j _ => ?_
  simp [joinLayout, Layout.append_assoc]

theorem args_groupsLayout : s.groupsLayout.args = [] := by
  cases h : s.groups.isEmpty <;> simp [groupsLayout, Layout.onlyIf, h]

theorem failure_orderKeyLayout (key : OrderKey) : (orderKeyLayout key).failure = none := by
  cases key <;> simp [orderKeyLayout]

theorem args_orderLayout : s.orderLayout.args = s.order.flatMap (orderKeyLayout · |>.args) := by
  cases h : s.order.isEmpty with
  | true =>
    have hnil : s.order = [] := List.isEmpty_iff.mp h
    simp [orderLayout, Layout.onlyIf, hnil]
  | false =>
    rw [orderLayout, h, Bool.not_false, Layout.onlyIf, if_pos rfl, Layout.args_word_append,
      Layout.args_joined (by simp [failure_orderKeyLayout]), List.flatMap_map]

theorem args_lockLayout : (s.lockLayout d).args = [] := by
  cases h : s.locked && d != .sqlite <;> simp [lockLayout, Layout.onlyIf, h]

/-- The operands of a query are those of its clauses, one clause after the other. -/
theorem args_clauses {d : Dialect} {s : Select}
    (h : ∀ l ∈ (s.clauses d).layouts, l.failure = none) :
    (s.clauses d).layouts.flatMap Layout.args = s.operands := by
  simp only [clauses, Clauses.layouts, List.cons_append, List.nil_append, List.forall_mem_cons] at h
  obtain ⟨-, -, hjoins, hfilters, -, hgroupFilters, -⟩ := h
  rw [failure_filterLayout_eq_none_iff] at hfilters hgroupFilters
  simp [clauses, Clauses.layouts, operands, args_columnsLayout, args_sourceLayout,
    args_joinsLayout _ hjoins, args_filterLayout hfilters, args_filterLayout hgroupFilters,
    args_groupsLayout, args_orderLayout, args_lockLayout]

end Select

@[simp] theorem args_mutationLimitLayout (d : Dialect) (limit : Option UInt64) :
    (mutationLimitLayout d limit).args = [] := by
  cases h : d.limitsMutations <;> simp [mutationLimitLayout, Layout.onlyIf, h]

namespace Update

variable (d : Dialect) (s : Update)

def clauses : Clauses where
  before := [.word "UPDATE " ++ .name s.table,
    .word " SET " ++ .joined ", " (s.assignments.map assignmentLayout)]
  filters := s.filters
  after := [mutationLimitLayout d s.limit]

/-- The arguments of an update : those assigned, and those of its filters. -/
def operands : List Arg := s.assignments.map Prod.snd ++ s.filters.flatMap (·.layout.args)

/-- An update that can be written is its clauses. -/
theorem layout_eq_concat {d : Dialect} {s : Update} (h : (s.layout d).failure = none) :
    s.layout d = .concat (s.clauses d).layouts ∧ ∀ l ∈ (s.clauses d).layouts, l.failure = none := by
  have hlayout : s.layout d = .require (!s.table.isEmpty) .tableMissing ++
      (.require (!s.assignments.isEmpty) .valueMissing ++ .concat (s.clauses d).layouts) := by
    simp [layout, clauses, Clauses.layouts, Layout.concat, Layout.append_assoc]
  rw [hlayout] at h ⊢
  obtain ⟨htable, h⟩ := Layout.require_append h
  obtain ⟨hassignments, h⟩ := Layout.require_append h
  exact ⟨htable.trans hassignments, Layout.failure_concat_eq_none_iff.mp h⟩

/-- The operands of an update are what it sets and then what it asks for. -/
theorem args_clauses {d : Dialect} {s : Update}
    (h : ∀ l ∈ (s.clauses d).layouts, l.failure = none) :
    (s.clauses d).layouts.flatMap Layout.args = s.operands := by
  simp only [clauses, Clauses.layouts, List.cons_append, List.nil_append, List.forall_mem_cons] at h
  obtain ⟨-, -, hfilters, -⟩ := h
  rw [Select.failure_filterLayout_eq_none_iff] at hfilters
  have hassignments : (Layout.joined ", " (s.assignments.map assignmentLayout)).args =
      s.assignments.map Prod.snd := by
    rw [Layout.args_joined (List.forall_mem_map.mpr (by simp [assignmentLayout])),
      List.flatMap_map]
    simp [assignmentLayout, Layout.append_assoc, List.map_eq_flatMap]
  simp [clauses, Clauses.layouts, operands, hassignments, Select.args_filterLayout hfilters]

end Update

namespace Delete

variable (d : Dialect) (s : Delete)

def clauses : Clauses where
  before := [.word "DELETE FROM " ++ .name s.table]
  filters := s.filters
  after := [mutationLimitLayout d s.limit]

/-- The arguments of a deletion, which are those of its filters. -/
def operands : List Arg := s.filters.flatMap (·.layout.args)

/-- A deletion that can be written is its clauses. -/
theorem layout_eq_concat {d : Dialect} {s : Delete} (h : (s.layout d).failure = none) :
    s.layout d = .concat (s.clauses d).layouts ∧ ∀ l ∈ (s.clauses d).layouts, l.failure = none := by
  have hlayout : s.layout d =
      .require (!s.table.isEmpty) .tableMissing ++ .concat (s.clauses d).layouts := by
    simp [layout, clauses, Clauses.layouts, Layout.concat, Layout.append_assoc]
  rw [hlayout] at h ⊢
  obtain ⟨hconcat, h⟩ := Layout.require_append h
  exact ⟨hconcat, Layout.failure_concat_eq_none_iff.mp h⟩

/-- The operands of a deletion are those of its conditions. -/
theorem args_clauses {d : Dialect} {s : Delete}
    (h : ∀ l ∈ (s.clauses d).layouts, l.failure = none) :
    (s.clauses d).layouts.flatMap Layout.args = s.operands := by
  simp only [clauses, Clauses.layouts, List.cons_append, List.nil_append, List.forall_mem_cons] at h
  obtain ⟨-, hfilters, -⟩ := h
  rw [Select.failure_filterLayout_eq_none_iff] at hfilters
  simp [clauses, Clauses.layouts, operands, Select.args_filterLayout hfilters]

end Delete

end SqlWeave
