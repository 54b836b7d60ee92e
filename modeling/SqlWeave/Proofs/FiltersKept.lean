import SqlWeave.Proofs.ClauseParts
import SqlWeave.Proofs.ClauseWords
import SqlWeave.Proofs.Collected

/-!
# Filters are kept

A query, an update and a deletion that can be written have all the filters that they were given,
whatever the other edits and wherever they came (`Statement.filters_kept`). Without a filter there
is no such clause. Otherwise there is one, with the conjunction of all of them in their order; it
comes after the tables, the assignments and the joins, and before all that comes after filters,
and the arguments of the filters are found between those of the other clauses.
-/

namespace SqlWeave

/-! ## What is kept -/

namespace ClauseWord

/-- Whether a clause comes before the filters. -/
def isBefore : ClauseWord → Bool
  | .source | .assignments | .join | .joinCondition => true
  | _ => false

/-- Whether a clause comes after the filters. -/
def isAfter : ClauseWord → Bool
  | .groups | .groupFilters | .order | .limit | .offset | .lock => true
  | _ => false

end ClauseWord

/-- The text of the clause of filters, or nothing. -/
def whereText (d : Dialect) (filters : List Condition) : String :=
  if filters = [] then "" else " WHERE " ++ Condition.conjunctionText d filters

/-- A rendering has all filters that were given, between the clauses before and after them. -/
structure FiltersKept (d : Dialect) (c : Clauses) (given : List Condition) (r : Rendering Arg) :
    Prop where
  /-- No filter is left out because it could not be rendered. -/
  rendered : ∀ f ∈ given, (f.node.render d).failure = none
  text : r.text = (Layout.concat c.before).text d ++ whereText d given ++
    (Layout.concat c.after).text d
  args : r.args = (Layout.concat c.before).args ++ given.flatMap (·.node.render d |>.args) ++
    (Layout.concat c.after).args
  /-- A reader finds one clause of filters or none, and the other clauses around it. -/
  keywords : ∃ first last,
    keywords d r.text = first ++ (if given = [] then [] else [.filters]) ++ last ∧
      (∀ k ∈ first, k.isBefore = true) ∧ ∀ k ∈ last, k.isAfter = true

/-- The text of the conditions says that they are conditions, once and nothing else. -/
theorem says_whereText {d : Dialect} {filters : List Condition}
    (h : ∀ f ∈ filters, f.layout.failure = none) :
    Says d (whereText d filters).toList (if filters = [] then [] else [.filters]) := by
  by_cases hfilters : filters = []
  · simpa [whereText, hfilters] using says_nil d
  · obtain ⟨ks, hks, hnone⟩ := Condition.saysOnly_layout (d := d) (P := fun _ => false)
      (.and filters)
    obtain rfl : ks = [] := List.eq_nil_iff_forall_not_mem.mpr fun k hk =>
      Bool.false_ne_true (hnone k hk)
    rw [whereText, if_neg hfilters, if_neg hfilters, String.toList_append,
      ← Condition.text_conjunctionLayout h hfilters]
    exact (says_of_isSpoken (P := fun _ => true) (by decide) d).append hks

/-- Clauses one after the other keep the filters between them. -/
theorem Clauses.filtersKept {d : Dialect} {c : Clauses} (h : ∀ l ∈ c.layouts, l.failure = none)
    (hbefore : (Layout.concat c.before).SaysOnly d ClauseWord.isBefore)
    (hafter : (Layout.concat c.after).SaysOnly d ClauseWord.isAfter) :
    FiltersKept d c c.filters ((Layout.concat c.layouts).rendering d) := by
  obtain ⟨first, hfirst, hisBefore⟩ := hbefore
  obtain ⟨last, hlast, hisAfter⟩ := hafter
  rw [layouts, List.forall_mem_append, List.forall_mem_cons,
    Select.failure_filterLayout_eq_none_iff] at h
  obtain ⟨hok, hfilters, -⟩ := h
  have hlayout : Layout.concat c.layouts = .concat c.before ++
      (Select.filterLayout " WHERE " c.filters ++ .concat c.after) := Layout.concat_append _ _
  have htext : (Layout.concat c.layouts).text d = (Layout.concat c.before).text d ++
      whereText d c.filters ++ (Layout.concat c.after).text d := by
    rw [hlayout, Layout.text_append d (Layout.failure_concat_eq_none_iff.mpr hok),
      Layout.text_append d (Select.failure_filterLayout_eq_none_iff.mpr hfilters),
      Select.text_filterLayout hfilters, String.append_assoc]
    rfl
  have hargs : (Layout.concat c.layouts).args = (Layout.concat c.before).args ++
      c.filters.flatMap (·.layout.args) ++ (Layout.concat c.after).args := by
    rw [hlayout, Layout.args_append (Layout.failure_concat_eq_none_iff.mpr hok),
      Layout.args_append (Select.failure_filterLayout_eq_none_iff.mpr hfilters),
      Select.args_filterLayout hfilters, List.append_assoc]
  refine ⟨hfilters, htext, hargs, first, last, ?_, hisBefore, hisAfter⟩
  refine Says.keywords_eq ?_
  rw [Layout.rendering, htext, String.toList_append, String.toList_append]
  exact (hfirst.append (says_whereText hfilters)).append hlast

/-! ## The clauses around the filters -/

namespace Select

variable (d : Dialect) (s : Select)

/-- What comes before the conditions of a query says only what belongs there. -/
theorem saysOnly_before : (Layout.concat (s.clauses d).before).SaysOnly d ClauseWord.isBefore := by
  refine .concat fun l hl => ?_
  simp only [clauses, List.mem_cons, List.not_mem_nil, or_false] at hl
  rcases hl with rfl | rfl | rfl
  · refine ((Layout.SaysOnly.plain (by decide)).append (.onlyIf (.plain (by decide)))).append
      (.joined (by decide) fun l hl => ?_)
    obtain ⟨arg, -, rfl⟩ := List.mem_map.mp hl
    exact .slot arg
  · unfold sourceLayout
    split
    · exact .empty
    · exact (Layout.SaysOnly.word (by decide)).append (.slot _)
    · exact (((Layout.SaysOnly.word (by decide)).append (.slot _)).append
        (.plain (by decide))).append (.name _)
  · refine .concat fun l hl => ?_
    obtain ⟨j, -, rfl⟩ := List.mem_map.mp hl
    have hkeyword : isSpoken ClauseWord.isBefore (" " ++ j.kind.keyword ++ " ").toList = true := by
      cases j.kind <;> decide
    exact (((Layout.SaysOnly.word hkeyword).append (.name _)).append (.word (by decide))).append
      (Condition.saysOnly_layout _)

/-- What comes after them too. -/
theorem saysOnly_after : (Layout.concat (s.clauses d).after).SaysOnly d ClauseWord.isAfter := by
  refine .concat fun l hl => ?_
  simp only [clauses, List.mem_cons, List.not_mem_nil, or_false] at hl
  rcases hl with rfl | rfl | rfl | rfl | rfl | rfl
  · exact .onlyIf ((Layout.SaysOnly.word (by decide)).append (saysOnly_namesLayout _))
  · exact saysOnly_filterLayout (by decide) _
  · refine .onlyIf ((Layout.SaysOnly.word (by decide)).append (.joined (by decide) fun l hl => ?_))
    obtain ⟨key, -, rfl⟩ := List.mem_map.mp hl
    cases key with
    | expression text => exact .slot _
    | ascending column => exact (Layout.SaysOnly.name _).append (.plain (by decide))
    | descending column => exact (Layout.SaysOnly.name _).append (.plain (by decide))
  · exact saysOnly_countLayout (by decide) _
  · exact saysOnly_countLayout (by decide) _
  · exact .onlyIf (.word (by decide))

end Select

/-- A limit says nothing but itself. -/
theorem saysOnly_mutationLimit (d : Dialect) (limit : Option UInt64) :
    (Layout.concat [mutationLimitLayout d limit]).SaysOnly d ClauseWord.isAfter := by
  refine .concat fun l hl => ?_
  obtain rfl := List.mem_singleton.mp hl
  exact .onlyIf (saysOnly_countLayout (by decide) _)

/-- What comes before the conditions of an update says only what belongs there. -/
theorem Update.saysOnly_before (d : Dialect) (s : Update) :
    (Layout.concat (s.clauses d).before).SaysOnly d ClauseWord.isBefore := by
  refine .concat fun l hl => ?_
  simp only [clauses, List.mem_cons, List.not_mem_nil, or_false] at hl
  rcases hl with rfl | rfl
  · exact (Layout.SaysOnly.plain (by decide)).append (.name _)
  · refine (Layout.SaysOnly.word (by decide)).append (.joined (by decide) fun l hl => ?_)
    obtain ⟨assignment, -, rfl⟩ := List.mem_map.mp hl
    exact ((Layout.SaysOnly.name _).append (.plain (by decide))).append (.slot _)

theorem Delete.saysOnly_before (d : Dialect) (s : Delete) :
    (Layout.concat (s.clauses d).before).SaysOnly d ClauseWord.isBefore := by
  refine .concat fun l hl => ?_
  obtain rfl := List.mem_singleton.mp hl
  exact (Layout.SaysOnly.word (by decide)).append (.name _)

/-! ## Statements -/

/-- A query keeps its conditions together. -/
theorem Select.filtersKept {d : Dialect} {s : Select} (h : (s.layout d).failure = none) :
    FiltersKept d (s.clauses d) s.filters ((s.layout d).rendering d) := by
  obtain ⟨hlayout, hok⟩ := layout_eq_concat h
  rw [hlayout]
  exact Clauses.filtersKept hok (s.saysOnly_before d) (s.saysOnly_after d)

theorem Update.filtersKept {d : Dialect} {s : Update} (h : (s.layout d).failure = none) :
    FiltersKept d (s.clauses d) s.filters ((s.layout d).rendering d) := by
  obtain ⟨hlayout, hok⟩ := layout_eq_concat h
  rw [hlayout]
  exact Clauses.filtersKept hok (s.saysOnly_before d) (saysOnly_mutationLimit d s.limit)

theorem Delete.filtersKept {d : Dialect} {s : Delete} (h : (s.layout d).failure = none) :
    FiltersKept d (s.clauses d) s.filters ((s.layout d).rendering d) := by
  obtain ⟨hlayout, hok⟩ := layout_eq_concat h
  rw [hlayout]
  exact Clauses.filtersKept hok (s.saysOnly_before d) (saysOnly_mutationLimit d s.limit)

namespace Statement

/-- Whatever the edits and the dialect, a query, an update or a deletion that can be written has
all the filters that were given, in one clause and in their order. -/
theorem filters_kept (d : Dialect) :
    (∀ (names : List String) (edits : List Select.Edit),
      let s := (Select.ofColumns names).applyAll edits
      ((select (.clauses s)).node.render d).failure = none →
      FiltersKept d (s.clauses d) (edits.filterMap Select.Edit.filter?)
        ((select (.clauses s)).node.render d)) ∧
    (∀ (table : String) (edits : List Update.Edit),
      let s := (Update.of table).applyAll edits
      ((update (.clauses s)).node.render d).failure = none →
      FiltersKept d (s.clauses d) (edits.filterMap Update.Edit.filter?)
        ((update (.clauses s)).node.render d)) ∧
    ∀ (table : String) (edits : List Delete.Edit),
      let s := (Delete.of table).applyAll edits
      ((delete (.clauses s)).node.render d).failure = none →
      FiltersKept d (s.clauses d) (edits.filterMap Delete.Edit.filter?)
        ((delete (.clauses s)).node.render d) := by
  refine ⟨?_, ?_, ?_⟩
  · intro names edits s h
    have hgiven : s.filters = edits.filterMap Select.Edit.filter? := by
      simp [s, Select.applyAll_eq_collected, Select.collected, Select.ofColumns]
    exact hgiven ▸ Select.filtersKept h
  · intro table edits s h
    have hgiven : s.filters = edits.filterMap Update.Edit.filter? := by
      simp [s, Update.applyAll_eq_collected, Update.collected, Update.of]
    exact hgiven ▸ Update.filtersKept h
  · intro table edits s h
    have hgiven : s.filters = edits.filterMap Delete.Edit.filter? := by
      simp [s, Delete.applyAll_eq_collected, Delete.collected, Delete.of]
    exact hgiven ▸ Delete.filtersKept h

/-- Two filters around other edits, one of them a disjunction. -/
def filtering : List Delete.Edit :=
  [.filter (.or [.isNull "a", .eq "b" (toArg (1 : Int64))]), .limit 1, .filter (.isNotNull "c")]

/-- Two conditions of a deletion, with a limit set between them. -/
theorem filters_kept_delete :
    ((delete (.clauses ((Delete.of "t").applyAll filtering))).node.render .mysql).failure = none ∧
    ((delete (.clauses ((Delete.of "t").applyAll filtering))).node.render .mysql).text =
      "DELETE FROM `t` WHERE (`a` IS NULL OR `b` = ?) AND `c` IS NOT NULL LIMIT 1" ∧
    FiltersKept .mysql (((Delete.of "t").applyAll filtering).clauses .mysql)
      (filtering.filterMap Delete.Edit.filter?)
      ((delete (.clauses ((Delete.of "t").applyAll filtering))).node.render .mysql) :=
  ⟨rfl, rfl, (filters_kept .mysql).2.2 "t" filtering rfl⟩

end Statement

end SqlWeave
