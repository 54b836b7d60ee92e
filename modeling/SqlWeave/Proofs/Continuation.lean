import Mathlib.Data.List.TakeWhile
import SqlWeave.Proofs.Frontier

/-!
# What a frontier adds to a query

A query is continued by items : their text goes after its text and the scalars that the
target binds go after its values. A bound scalar is written as a placeholder whose number
counts all values bound before it, those the query had at the start included, and every
other scalar is written out.

Following items is continuing by those before the first fault (`follow_eq`). An
interpolation therefore succeeds exactly if its tree has no fault, and its result is then
the query continued by the whole frontier, every bound leaf standing at its own place
(`interpolate_ok_iff`).
-/

namespace SqlWeave

namespace Target

/-- Whether a value is bound in the place of a marker. The missing value never is, and a
byte string only where byte strings are. -/
def binds (t : Target) : Value → Bool
  | .null => false
  | .bytes _ => t.bindsBytes
  | _ => true

/-- How a value that is not bound is written. -/
def writtenOut (t : Target) : Value → String
  | .bytes data => t.dialect.bytes data
  | _ => t.dialect.null

end Target

namespace Item

variable (t : Target)

/-- The scalar of an item if it is bound. -/
def bound? : Item → Option Value
  | .leaf v => if t.binds v then some v else none
  | .text _ | .fault _ => none

/-- The scalars of items that are bound, from left to right. -/
def bound (items : List Item) : List Value := items.filterMap (bound? t)

/-- The text of items that stand after `n` bound values. -/
def spelling (n : Nat) : List Item → String
  | [] => ""
  | .text s :: rest => s ++ spelling n rest
  | .leaf v :: rest =>
    if t.binds v then t.dialect.placeholder (n + 1) ++ spelling (n + 1) rest
    else t.writtenOut v ++ spelling n rest
  | .fault _ :: rest => spelling n rest

@[simp] theorem bound_nil : bound t [] = [] :=
  rfl

@[simp] theorem bound_text (s : String) (rest : List Item) :
    bound t (.text s :: rest) = bound t rest :=
  rfl

@[simp] theorem bound_fault (e : RenderError) (rest : List Item) :
    bound t (.fault e :: rest) = bound t rest :=
  rfl

/-- A leaf is bound if the target binds its value, and is else written out. -/
theorem bound_leaf (v : Value) (rest : List Item) :
    bound t (.leaf v :: rest) = if t.binds v then v :: bound t rest else bound t rest := by
  by_cases hv : t.binds v <;> simp [bound, bound?, hv]

/-- The bound scalars are the leaves without those that are not bound. -/
theorem bound_eq_filter_leaves (items : List Item) :
    bound t items = (leaves items).filter t.binds := by
  induction items with
  | nil => rfl
  | cons item items ih =>
    cases item with
    | text s => simpa [leaves, leaf?, List.filterMap_cons] using ih
    | fault e => simpa [leaves, leaf?, List.filterMap_cons] using ih
    | leaf v =>
      have hleaves : leaves (.leaf v :: items) = v :: leaves items := by
        simp [leaves, leaf?]
      rw [bound_leaf, hleaves, List.filter_cons, ih]

/-- Each bound scalar stands at a leaf, after as many bound ones as its number says. -/
theorem exists_leaf_of_bound {items : List Item} {k : Nat} {v : Value}
    (h : (bound t items)[k]? = some v) :
    ∃ before after, items = before ++ .leaf v :: after ∧ t.binds v = true ∧
      (bound t before).length = k := by
  obtain ⟨before, item, after, rfl, hitem, hk⟩ := Text.exists_split_of_getElem?_filterMap h
  cases item with
  | text s => cases hitem
  | fault e => cases hitem
  | leaf w =>
    by_cases hw : t.binds w
    · obtain rfl : w = v := by simpa [bound?, hw] using hitem
      exact ⟨before, after, rfl, hw, hk⟩
    · simp [bound?, hw] at hitem

/-- The text of more items is numbered on from the values that the first ones bind. -/
theorem spelling_append (n : Nat) (items more : List Item) :
    spelling t n (items ++ more) =
      spelling t n items ++ spelling t (n + (bound t items).length) more := by
  induction items generalizing n with
  | nil => simp [spelling]
  | cons item items ih =>
    cases item with
    | text s => simp [spelling, ih, String.append_assoc]
    | fault e => simp [spelling, ih]
    | leaf v =>
      by_cases hv : t.binds v
      · simp [spelling, bound_leaf, hv, ih, String.append_assoc, Nat.add_assoc, Nat.add_comm 1]
      · simp [spelling, bound_leaf, hv, ih, String.append_assoc]

end Item

namespace Query

variable (t : Target)

/-- A query continued by items, whatever faults are among them. -/
def continued (q : Query) (items : List Item) : Query where
  text := q.text ++ Item.spelling t q.binds.length items
  binds := q.binds ++ Item.bound t items

theorem addValue_of_binds {v : Value} (q : Query) (h : t.binds v = true) :
    q.addValue t v = q.bind t.dialect v := by
  cases v <;> simp_all [addValue, Target.binds]

theorem addValue_of_not_binds {v : Value} (q : Query) (h : ¬t.binds v = true) :
    q.addValue t v = q.write (t.writtenOut v) := by
  cases v <;> simp_all [addValue, Target.binds, Target.writtenOut]

/-- A text that is written first comes first. -/
theorem continued_write (q : Query) (s : String) (rest : List Item) :
    (q.write s).continued t rest = q.continued t (.text s :: rest) := by
  simp [continued, write, Item.spelling, String.append_assoc]

/-- A value that is added first comes first. -/
theorem continued_addValue (q : Query) (v : Value) (rest : List Item) :
    (q.addValue t v).continued t rest = q.continued t (.leaf v :: rest) := by
  by_cases hv : t.binds v
  · simp [addValue_of_binds t q hv, bind, continued, Item.spelling, Item.bound_leaf, hv,
      String.append_assoc]
  · simp [addValue_of_not_binds t q hv, write, continued, Item.spelling, Item.bound_leaf, hv,
      String.append_assoc]

/-- Following items writes those before the first fault, and fails with it. -/
theorem follow_eq (q : Query) (items : List Item) :
    q.follow t items = ⟨q.continued t (Item.beforeFault items), (Item.faults items).head?⟩ := by
  induction items generalizing q with
  | nil => simp [follow, continued, Item.beforeFault, Item.faults, Item.spelling]
  | cons item items ih =>
    cases item with
    | text s =>
      simp [follow, ih, continued_write, Item.beforeFault, Item.faults, Item.fault?,
        List.findSome?_cons]
    | leaf v =>
      simp [follow, ih, continued_addValue, Item.beforeFault, Item.faults, Item.fault?,
        List.findSome?_cons]
    | fault e =>
      simp [follow, continued, Item.beforeFault, Item.faults, Item.fault?, Item.spelling]

end Query

/-- Without a fault, nothing is left out. -/
theorem Item.beforeFault_of_faults_eq_nil {items : List Item} (h : faults items = []) :
    beforeFault items = items := by
  rw [beforeFault, List.takeWhile_eq_self_iff]
  intro i hi
  rw [faults, List.filterMap_eq_nil_iff] at h
  simp [h i hi]

namespace Query

/-- `q'` is the query `q` continued by all of `items`, none of which is a fault. -/
structure Continues (t : Target) (q : Query) (items : List Item) (q' : Query) : Prop where
  faultless : Item.faults items = []
  /-- The values so far stay, and every bound leaf comes after them in its turn. -/
  binds : q'.binds = q.binds ++ (Item.leaves items).filter t.binds
  text : q'.text = q.text ++ Item.spelling t q.binds.length items
  /-- The `k`-th new value is that of a leaf, and the placeholder with its number stands in
  the place of this leaf. -/
  placed : ∀ k v, q'.binds[q.binds.length + k]? = some v →
    ∃ before after, items = before ++ .leaf v :: after ∧ (Item.bound t before).length = k ∧
      q'.text = q.text ++ (Item.spelling t q.binds.length before ++
        t.dialect.placeholder (q.binds.length + k + 1) ++
        Item.spelling t (q.binds.length + k + 1) after)

/-- Items without a fault continue a query. -/
theorem continues_continued (t : Target) (q : Query) {items : List Item}
    (h : Item.faults items = []) : q.Continues t items (q.continued t items) where
  faultless := h
  binds := by rw [← Item.bound_eq_filter_leaves]; rfl
  text := rfl
  placed k v hk := by
    rw [continued, List.getElem?_append_right (Nat.le_add_right _ _), Nat.add_sub_cancel_left] at hk
    obtain ⟨before, after, rfl, hv, hlen⟩ := Item.exists_leaf_of_bound t hk
    refine ⟨before, after, rfl, hlen, ?_⟩
    simp [continued, Item.spelling_append, Item.spelling, hv, hlen, String.append_assoc]

/-- There is one query that they continue it to. -/
theorem Continues.eq_continued {t : Target} {q q' : Query} {items : List Item}
    (h : q.Continues t items q') : q' = q.continued t items := by
  obtain ⟨text, binds⟩ := q'
  obtain ⟨-, rfl, rfl, -⟩ := h
  rw [continued, Item.bound_eq_filter_leaves]

/-- Following items succeeds exactly if none of them is a fault, and all of them are then
written. -/
theorem follow_result_eq_ok_iff (t : Target) (q q' : Query) (items : List Item) :
    (q.follow t items).result = .ok q' ↔ q.Continues t items q' := by
  rw [follow_eq]
  cases h : Item.faults items with
  | nil =>
    rw [Item.beforeFault_of_faults_eq_nil h]
    constructor
    · intro hq
      obtain rfl : q.continued t items = q' := by simpa [Progress.result] using hq
      exact continues_continued t q h
    · intro hq
      simp [Progress.result, hq.eq_continued]
  | cons e es =>
    constructor
    · intro hq
      simp [Progress.result] at hq
    · intro hq
      rw [hq.faultless] at h
      cases h

/-- From any query on, interpolating a template or a node succeeds with a query exactly if
that is the query continued by the whole tree's frontier. -/
theorem interpolate_ok_iff (t : Target) (q q' : Query) :
    (∀ template args, (q.interpolate t template args).result = .ok q' ↔
      q.Continues t (Arg.templateFrontier t.dialect template args) q') ∧
    ∀ n : Node, (q.interpolateNode t n).result = .ok q' ↔
      q.Continues t (n.frontier t.dialect) q' := by
  constructor
  · intro template args
    rw [interpolate_eq_follow, follow_result_eq_ok_iff]
  · intro n
    rw [interpolateNode_eq_follow, follow_result_eq_ok_iff]

end Query

end SqlWeave
