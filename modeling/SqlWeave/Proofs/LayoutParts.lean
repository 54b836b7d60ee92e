import Mathlib.Data.List.Basic
import SqlWeave.Proofs.Slots
import SqlWeave.Statement.Body

/-!
# The parts of a layout that does not fail

A layout put together from others fails where the first of these fails. If none does, its
parts are theirs, one after the other, so its text and its arguments can be read off the way
in which it was put together.
-/

namespace SqlWeave

namespace Layout

variable {d : Dialect} {l m : Layout} {ls : List Layout} {separator : String}

theorem concat_cons (l : Layout) (ls : List Layout) : concat (l :: ls) = l ++ concat ls :=
  rfl

theorem concat_append (ls ms : List Layout) : concat (ls ++ ms) = concat ls ++ concat ms := by
  induction ls with
  | nil => exact (empty_append _).symm
  | cons l ls ih => rw [List.cons_append, concat_cons, concat_cons, ih, append_assoc]

theorem joined_singleton (separator : String) (l : Layout) : joined separator [l] = l :=
  append_empty l

/-- A separator stands between the first two of several layouts. -/
theorem joined_cons_cons (separator : String) (first next : Layout) (rest : List Layout) :
    joined separator (first :: next :: rest) =
      first ++ (word separator ++ joined separator (next :: rest)) := by
  rw [joined, List.map_cons, concat_cons, joined, append_assoc]

/-! ## Where nothing fails -/

@[simp] theorem failure_empty : empty.failure = none :=
  rfl

@[simp] theorem failure_word (s : String) : (word s).failure = none :=
  rfl

@[simp] theorem failure_name (ident : String) : (name ident).failure = none :=
  rfl

@[simp] theorem failure_slot (arg : Arg) : (slot arg).failure = none :=
  rfl

/-- One layout after another fails unless neither does. -/
@[simp] theorem failure_append_eq_none_iff :
    (l ++ m).failure = none ↔ l.failure = none ∧ m.failure = none := by
  cases hl : l.failure with
  | some e => simp [append_of_failure m hl, hl]
  | none => simp [append_of_ok m hl]

/-- Layouts one after the other fail unless none does. -/
@[simp] theorem failure_concat_eq_none_iff :
    (concat ls).failure = none ↔ ∀ l ∈ ls, l.failure = none := by
  induction ls with
  | nil => simp [concat]
  | cons l ls ih => rw [concat_cons, failure_append_eq_none_iff, ih, List.forall_mem_cons]

@[simp] theorem failure_joined_eq_none_iff :
    (joined separator ls).failure = none ↔ ∀ l ∈ ls, l.failure = none := by
  cases ls with
  | nil => simp [joined]
  | cons first rest => simp [joined]

@[simp] theorem failure_parenthesised_eq_none_iff :
    l.parenthesised.failure = none ↔ l.failure = none := by
  simp [parenthesised]

@[simp] theorem failure_onlyIf_eq_none_iff {condition : Bool} :
    (onlyIf condition l).failure = none ↔ (condition = true → l.failure = none) := by
  cases condition <;> simp [onlyIf]

/-- A requirement fails where it is not met. -/
@[simp] theorem failure_require_eq_none_iff {condition : Bool} {e : RenderError} :
    (require condition e).failure = none ↔ condition = true := by
  cases condition <;> simp [require, fail]

/-- A requirement that is met leaves nothing. -/
theorem require_append {condition : Bool} {e : RenderError}
    (h : (require condition e ++ l).failure = none) :
    require condition e ++ l = l ∧ l.failure = none := by
  rw [failure_append_eq_none_iff, failure_require_eq_none_iff] at h
  rw [h.1]
  exact ⟨empty_append l, h.2⟩

/-! ## Text and arguments -/

/-- The parts of a layout that does not fail come before those of the next. -/
theorem segments_append (h : l.failure = none) (m : Layout) :
    (l ++ m).segments = l.segments ++ m.segments := by
  rw [append_of_ok m h]

/-- So its text comes before the text of the next. -/
theorem text_append (d : Dialect) (h : l.failure = none) (m : Layout) :
    (l ++ m).text d = l.text d ++ m.text d := by
  simp [text, segments_append h]

theorem args_append (h : l.failure = none) (m : Layout) : (l ++ m).args = l.args ++ m.args := by
  simp [args, segments_append h]

@[simp] theorem text_word (d : Dialect) (s : String) : (word s).text d = s := by
  simp [text, word, Segment.text]

@[simp] theorem text_name (d : Dialect) (ident : String) :
    (name ident).text d = d.quoteIdent ident := by
  simp [text, name, Segment.text]

/-- An argument is written as a marker. -/
@[simp] theorem text_slot (d : Dialect) (arg : Arg) : (slot arg).text d = "?" := by
  simp [text, slot, Segment.text]

@[simp] theorem args_empty : empty.args = [] :=
  rfl

@[simp] theorem args_word (s : String) : (word s).args = [] :=
  rfl

@[simp] theorem args_name (ident : String) : (name ident).args = [] :=
  rfl

@[simp] theorem args_slot (arg : Arg) : (slot arg).args = [arg] :=
  rfl

@[simp] theorem text_word_append (s : String) (l : Layout) :
    (word s ++ l).text d = s ++ l.text d := by
  rw [text_append d rfl, text_word]

@[simp] theorem text_name_append (ident : String) (l : Layout) :
    (name ident ++ l).text d = d.quoteIdent ident ++ l.text d := by
  rw [text_append d rfl, text_name]

@[simp] theorem args_word_append (s : String) (l : Layout) : (word s ++ l).args = l.args := by
  rw [args_append rfl, args_word, List.nil_append]

@[simp] theorem args_name_append (ident : String) (l : Layout) :
    (name ident ++ l).args = l.args := by
  rw [args_append rfl, args_name, List.nil_append]

/-- An argument comes first, and the arguments of what follows after it. -/
@[simp] theorem args_slot_append (arg : Arg) (l : Layout) :
    (slot arg ++ l).args = arg :: l.args := by
  rw [args_append rfl, args_slot, List.singleton_append]

/-- Parentheses stand around the text. -/
theorem text_parenthesised (d : Dialect) (h : l.failure = none) :
    l.parenthesised.text d = "(" ++ l.text d ++ ")" := by
  rw [parenthesised, append_assoc, text_word_append, text_append d h, text_word,
    String.append_assoc]

theorem args_parenthesised (h : l.failure = none) : l.parenthesised.args = l.args := by
  rw [parenthesised, append_assoc, args_word_append, args_append h, args_word, List.append_nil]

/-- The arguments of layouts that do not fail, one layout after the other. -/
theorem args_concat (h : ∀ l ∈ ls, l.failure = none) : (concat ls).args = ls.flatMap args := by
  induction ls with
  | nil => rfl
  | cons l ls ih =>
    rw [List.forall_mem_cons] at h
    rw [concat_cons, args_append h.1, ih h.2, List.flatMap_cons]

/-- Layouts with separators are written with the separator between each two. -/
theorem text_joined (d : Dialect) {ls : List Layout} (h : ∀ l ∈ ls, l.failure = none) :
    (joined separator ls).text d = separator.intercalate (ls.map (·.text d)) := by
  match ls with
  | [] => rfl
  | [l] => simp [joined_singleton]
  | first :: next :: rest =>
    rw [List.forall_mem_cons] at h
    rw [joined_cons_cons, text_append d h.1, text_word_append, text_joined d h.2]
    simp only [List.map_cons, String.intercalate_cons_cons, String.append_assoc]

theorem args_joined {ls : List Layout} (h : ∀ l ∈ ls, l.failure = none) :
    (joined separator ls).args = ls.flatMap args := by
  match ls with
  | [] => rfl
  | [l] => simp [joined_singleton]
  | first :: next :: rest =>
    rw [List.forall_mem_cons] at h
    rw [joined_cons_cons, args_append h.1, args_word_append, args_joined h.2]
    rfl

end Layout

/-! ## Names and counts -/

@[simp] theorem failure_namesLayout (names : List String) : (namesLayout names).failure = none := by
  simp [namesLayout]

/-- Names are written quoted, with commas between them. -/
theorem text_namesLayout (d : Dialect) (names : List String) :
    (namesLayout names).text d = ", ".intercalate (names.map d.quoteIdent) := by
  rw [namesLayout, Layout.text_joined d (by simp)]
  simp [Function.comp_def]

@[simp] theorem args_namesLayout (names : List String) : (namesLayout names).args = [] := by
  rw [namesLayout, Layout.args_joined (by simp)]
  simp [List.flatMap_map]

@[simp] theorem args_countLayout (keyword : String) (count : Option UInt64) :
    (countLayout keyword count).args = [] := by
  cases count <;> rfl

end SqlWeave
