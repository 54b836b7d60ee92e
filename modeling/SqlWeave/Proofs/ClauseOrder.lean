import SqlWeave.Proofs.ClauseParts
import SqlWeave.Proofs.Collected
import SqlWeave.Proofs.LayoutItems

/-!
# The order of clauses

Each edit of a statement belongs to one group. What edits come to is found group by group
(`Select.collected`), so two sequences of edits with the same edits in every group make the same
statement (`SameByGroup`), however the groups are interleaved.

The clauses are laid out in the order of the language. In the query made of a statement, the
texts of the clauses and the values of their operands therefore come in that order, which is
not the order of the edits (`Query.InOrder`, `Statement.clauses_decide`).
-/

namespace SqlWeave

/-! ## Groups of edits -/

/-- In each group the two sequences have the same edits in the same order. -/
def SameByGroup {ε γ : Type} [DecidableEq γ] (group : ε → γ) (edits edits' : List ε) : Prop :=
  ∀ g, edits.filter (group · = g) = edits'.filter (group · = g)

namespace SameByGroup

variable {ε γ α : Type} [DecidableEq γ] {group : ε → γ} {edits edits' : List ε}

/-- What the edits of one group alone come to is the same. -/
theorem congr (h : SameByGroup group edits edits') (g : γ) {f : List ε → α}
    (hf : ∀ es, f (es.filter (group · = g)) = f es) : f edits = f edits' := by
  rw [← hf edits, h g, hf edits']

/-- What edits of one group give does not depend on how the others stand between them. -/
theorem filterMap_eq (h : SameByGroup group edits edits') (g : γ) (given? : ε → Option α)
    (hgiven : ∀ e, group e ≠ g → given? e = none) :
    edits.filterMap given? = edits'.filterMap given? := by
  refine h.congr g fun es => ?_
  rw [List.filterMap_filter]
  refine List.filterMap_congr fun e _ => ?_
  by_cases he : group e = g <;> simp [he, hgiven e]

theorem flatMap_eq (h : SameByGroup group edits edits') (g : γ) (given : ε → List α)
    (hgiven : ∀ e, group e ≠ g → given e = []) :
    edits.flatMap given = edits'.flatMap given := by
  refine h.congr g fun es => ?_
  induction es with
  | nil => rfl
  | cons e es ih => by_cases he : group e = g <;> simp [he, hgiven e, ih]

/-- Whether an edit of the group holds does not depend on it either. -/
theorem any_eq (h : SameByGroup group edits edits') (g : γ) (holds : ε → Bool)
    (hholds : ∀ e, group e ≠ g → holds e = false) : edits.any holds = edits'.any holds := by
  refine h.congr g (f := (·.any holds)) fun es => ?_
  induction es with
  | nil => rfl
  | cons e es ih => by_cases he : group e = g <;> simp [he, hholds e, ih]

theorem latest_eq (h : SameByGroup group edits edits') (g : γ) (given? : ε → Option α)
    (hgiven : ∀ e, group e ≠ g → given? e = none) (before : Option α) :
    latest given? edits before = latest given? edits' before := by
  rw [latest, h.filterMap_eq g given? hgiven, latest]

end SameByGroup

/-! ## The groups of each kind of statement -/

namespace Select

/-- The groups of the edits of a query. -/
inductive Group where
  | columns
  | distinct
  | source
  | joins
  | filters
  | groups
  | groupFilters
  | order
  /-- Limits, offsets and pages. -/
  | range
  | lock
  deriving DecidableEq, Repr

def Edit.group : Edit → Group
  | .columns _ | .expression _ => .columns
  | .distinct => .distinct
  | .table _ | .subquery .. => .source
  | .join _ => .joins
  | .filter _ => .filters
  | .groupBy _ => .groups
  | .filterGroups _ => .groupFilters
  | .orderBy _ => .order
  | .limit _ | .offset _ | .page .. => .range
  | .lock => .lock

/-- No clause is given by two groups. -/
theorem collected_congr (s : Select) {edits edits' : List Edit}
    (h : SameByGroup Edit.group edits edits') : s.collected edits = s.collected edits' := by
  rw [collected, collected, h.flatMap_eq .columns Edit.newColumns,
    h.any_eq .distinct Edit.isDistinct, h.latest_eq .source Edit.source?,
    h.filterMap_eq .joins Edit.join?, h.filterMap_eq .filters Edit.filter?,
    h.flatMap_eq .groups Edit.newGroups, h.filterMap_eq .groupFilters Edit.groupFilter?,
    h.filterMap_eq .order Edit.orderKey?, h.latest_eq .range Edit.limit?,
    h.latest_eq .range Edit.offset?, h.any_eq .lock Edit.isLock]
  all_goals
    intro e he
    cases e <;> first | rfl | exact absurd rfl he

end Select

namespace Update

/-- The groups of the edits of an update. -/
inductive Group where
  | assignments
  | filters
  | limit
  deriving DecidableEq, Repr

def Edit.group : Edit → Group
  | .set .. | .setAll _ => .assignments
  | .filter _ => .filters
  | .limit _ => .limit

/-- An update collects its clauses from the edits of each group by themselves. -/
theorem collected_congr (s : Update) {edits edits' : List Edit}
    (h : SameByGroup Edit.group edits edits') : s.collected edits = s.collected edits' := by
  rw [collected, collected, h.flatMap_eq .assignments Edit.newAssignments,
    h.filterMap_eq .filters Edit.filter?, h.latest_eq .limit Edit.limit?]
  all_goals
    intro e he
    cases e <;> first | rfl | exact absurd rfl he

end Update

namespace Delete

/-- The groups of the edits of a deletion. -/
inductive Group where
  | filters
  | limit
  deriving DecidableEq, Repr

def Edit.group : Edit → Group
  | .filter _ => .filters
  | .limit _ => .limit

theorem collected_congr (s : Delete) {edits edits' : List Edit}
    (h : SameByGroup Edit.group edits edits') : s.collected edits = s.collected edits' := by
  rw [collected, collected, h.filterMap_eq .filters Edit.filter?,
    h.latest_eq .limit Edit.limit?]
  all_goals
    intro e he
    cases e <;> first | rfl | exact absurd rfl he

end Delete

/-! ## Edits of statements -/

/-- Two changes of a body are one, and a failed body takes neither. -/
theorem Body.edit_edit {α : Type} (b : Body α) (change next : α → α) :
    (b.edit change).edit next = b.edit fun c => next (change c) := by
  cases b <;> rfl

namespace Statement

/-- Edits of a statement, each of its clauses, are one edit of its clauses. -/
theorem applyAll_map {α ε : Type} {ofBody : Body α → Statement} {ofEdit : ε → Edit}
    {step : α → ε → α} (h : ∀ b e, (ofBody b).apply (ofEdit e) = ofBody (b.edit (step · e)))
    (b : Body α) (edits : List ε) :
    (ofBody b).applyAll (edits.map ofEdit) = ofBody (b.edit fun c => edits.foldl step c) := by
  induction edits generalizing b with
  | nil => cases b <;> rfl
  | cons e edits ih =>
    have hrest := ih (b.edit (step · e))
    rw [Body.edit_edit, ← h] at hrest
    exact hrest

/-- Edits of a query come to their clauses. -/
theorem applyAll_select (b : Body Select) (edits : List Select.Edit) :
    (select b).applyAll (edits.map .select) = .select (b.edit (·.collected edits)) := by
  simp only [← Select.applyAll_eq_collected]
  exact applyAll_map (fun _ _ => rfl) b edits

/-- Edits of an update come to their clauses. -/
theorem applyAll_update (b : Body Update) (edits : List Update.Edit) :
    (update b).applyAll (edits.map .update) = .update (b.edit (·.collected edits)) := by
  simp only [← Update.applyAll_eq_collected]
  exact applyAll_map (fun _ _ => rfl) b edits

/-- Edits of a deletion come to their clauses. -/
theorem applyAll_delete (b : Body Delete) (edits : List Delete.Edit) :
    (delete b).applyAll (edits.map .delete) = .delete (b.edit (·.collected edits)) := by
  simp only [← Delete.applyAll_eq_collected]
  exact applyAll_map (fun _ _ => rfl) b edits

end Statement

/-! ## Queries in the order of the clauses -/

/-- A query is made of layouts, none of which fails, in their order : it is the empty query
continued by their items, and it binds what the operands bind, one after the other. -/
structure Query.InOrder (d : Dialect) (layouts : List Layout) (operands : List Arg) (q : Query) :
    Prop where
  laidOut : ∀ l ∈ layouts, l.failure = none
  continued : q = ({} : Query).continued ⟨d, true⟩ (layouts.flatMap (Layout.items d))
  binds : q.binds = operands.flatMap (Arg.boundIn d)

/-- A statement whose layout is made of parts in order is written in that order, with the operands
in it. -/
theorem Builtin.inOrder {d : Dialect} {b : Builtin} {layouts : List Layout} {operands : List Arg}
    (hlayout : (b.layout d).failure = none →
      b.layout d = .concat layouts ∧ ∀ l ∈ layouts, l.failure = none)
    (hargs : (∀ l ∈ layouts, l.failure = none) → layouts.flatMap Layout.args = operands)
    {q : Query} (hq : b.node.toQuery d = .ok q) : q.InOrder d layouts operands := by
  obtain ⟨hfailure, hq⟩ := (b.sound_layout d).toQuery_eq (b.render_eq d) hq
  obtain ⟨hconcat, hok⟩ := hlayout hfailure
  refine ⟨hok, ?_, ?_⟩
  · rw [hq, hconcat, Layout.items_concat hok]
  · rw [hq, Query.continued, Layout.bound_items, hconcat, Layout.args_concat hok, hargs hok]
    exact List.nil_append _

namespace Statement

/-- Two sequences of edits that have the same edits in each group make the same query of any
statement. It has the clauses in the order of the language and the values of their operands in the
same order; clauses that only hold one thing hold the last that was set. -/
theorem clauses_decide (d : Dialect) :
    (∀ (b : Body Select) (edits edits' : List Select.Edit),
      SameByGroup Select.Edit.group edits edits' →
      ((select b).applyAll (edits.map .select)).node.toQuery d =
        ((select b).applyAll (edits'.map .select)).node.toQuery d) ∧
    (∀ (b : Body Update) (edits edits' : List Update.Edit),
      SameByGroup Update.Edit.group edits edits' →
      ((update b).applyAll (edits.map .update)).node.toQuery d =
        ((update b).applyAll (edits'.map .update)).node.toQuery d) ∧
    (∀ (b : Body Delete) (edits edits' : List Delete.Edit),
      SameByGroup Delete.Edit.group edits edits' →
      ((delete b).applyAll (edits.map .delete)).node.toQuery d =
        ((delete b).applyAll (edits'.map .delete)).node.toQuery d) ∧
    (∀ (s : Select) (edits : List Select.Edit), s.applyAll edits = s.collected edits ∧
      ∀ q, ((select (.clauses s)).applyAll (edits.map .select)).node.toQuery d = .ok q →
        q.InOrder d ((s.applyAll edits).clauses d).layouts (s.applyAll edits).operands) ∧
    (∀ (s : Update) (edits : List Update.Edit), s.applyAll edits = s.collected edits ∧
      ∀ q, ((update (.clauses s)).applyAll (edits.map .update)).node.toQuery d = .ok q →
        q.InOrder d ((s.applyAll edits).clauses d).layouts (s.applyAll edits).operands) ∧
    (∀ (s : Delete) (edits : List Delete.Edit), s.applyAll edits = s.collected edits ∧
      ∀ q, ((delete (.clauses s)).applyAll (edits.map .delete)).node.toQuery d = .ok q →
        q.InOrder d ((s.applyAll edits).clauses d).layouts (s.applyAll edits).operands) := by
  refine ⟨fun b edits edits' h => ?_, fun b edits edits' h => ?_, fun b edits edits' h => ?_,
    fun s edits => ⟨s.applyAll_eq_collected edits, fun q hq => ?_⟩,
    fun s edits => ⟨s.applyAll_eq_collected edits, fun q hq => ?_⟩,
    fun s edits => ⟨s.applyAll_eq_collected edits, fun q hq => ?_⟩⟩
  · simp only [applyAll_select, Select.collected_congr _ h]
  · simp only [applyAll_update, Update.collected_congr _ h]
  · simp only [applyAll_delete, Delete.collected_congr _ h]
  · rw [applyAll_select] at hq
    rw [s.applyAll_eq_collected edits]
    exact Builtin.inOrder (b := .statement (.select (.clauses (s.collected edits))))
      Select.layout_eq_concat Select.args_clauses hq
  · rw [applyAll_update] at hq
    rw [s.applyAll_eq_collected edits]
    exact Builtin.inOrder (b := .statement (.update (.clauses (s.collected edits))))
      Update.layout_eq_concat Update.args_clauses hq
  · rw [applyAll_delete] at hq
    rw [s.applyAll_eq_collected edits]
    exact Builtin.inOrder (b := .statement (.delete (.clauses (s.collected edits))))
      Delete.layout_eq_concat Delete.args_clauses hq

/-- A filter set before the source, and a limit set twice around them. -/
def interleaved : List Select.Edit :=
  [.limit 5, .filter (.eq "a" (toArg (1 : Int64))), .table "t", .limit 3]

/-- The same edits in the order of the clauses. -/
def ordered : List Select.Edit :=
  [.table "t", .filter (.eq "a" (toArg (1 : Int64))), .limit 5, .limit 3]

/-- Calls in two orders that agree within each clause, and the query that both come to. -/
theorem clauses_decide_interleaved :
    SameByGroup Select.Edit.group interleaved ordered ∧
    ((select (.clauses (.ofColumns "x"))).applyAll (interleaved.map .select)).node.toQuery
        .postgres =
      ((select (.clauses (.ofColumns "x"))).applyAll (ordered.map .select)).node.toQuery
        .postgres ∧
    ((select (.clauses (.ofColumns "x"))).applyAll (interleaved.map .select)).node.toQuery
        .postgres =
      .ok ⟨"SELECT \"x\" FROM \"t\" WHERE \"a\" = $1 LIMIT 3", [.signed 1]⟩ ∧
    Query.InOrder .postgres
      (((Select.ofColumns "x").applyAll interleaved).clauses .postgres).layouts
      ((Select.ofColumns "x").applyAll interleaved).operands
      ⟨"SELECT \"x\" FROM \"t\" WHERE \"a\" = $1 LIMIT 3", [.signed 1]⟩ := by
  have hsame : SameByGroup Select.Edit.group interleaved ordered := fun g => by cases g <;> rfl
  have h := clauses_decide .postgres
  exact ⟨hsame, h.1 _ _ _ hsame, rfl, (h.2.2.2.1 _ _).2 _ rfl⟩

end Statement

end SqlWeave
