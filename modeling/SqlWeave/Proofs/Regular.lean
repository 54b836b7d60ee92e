import SqlWeave.Proofs.Slots
import SqlWeave.Statement.Body

/-!
# Regular layouts

The library lays out words, names and slots by two rules that hold in every dialect : a word
has no quote, no `?` and no `$` in it, and a word right after a slot does not begin with a
digit, so it cannot be read as part of a numbered placeholder (`Layout.Regular`). Both are
kept by every way of putting layouts together.

Regular layouts are sound (`Layout.Regular.sound`), and their texts are cut at the slots
into pieces of which only the first can begin with a digit
(`Layout.RegularFrom.startsWithDigit_between`).
-/

namespace SqlWeave

open Template (Quiet)

/-- Whether a text begins with a digit. -/
def Text.startsWithDigit : List Char → Bool
  | [] => false
  | c :: _ => c.isDigit

namespace Layout

/-- Whether a text can be a word of a layout. Unless it is `free` to, it does not begin with
a digit. -/
def isWord (free : Bool) (s : String) : Bool :=
  (!s.toList.isEmpty && s.toList.all fun c => Template.isPlain c && c != '$') &&
    (free || !Text.startsWithDigit s.toList)

end Layout

namespace Segment

/-- A part that can come right after a slot, or, if it is `free`, only elsewhere. -/
def Regular (free : Bool) : Segment → Prop
  | .word s => Layout.isWord free s = true
  | .name _ | .slot _ => True

/-- Whether what comes next does not come right after a slot. -/
def freesNext : Segment → Bool
  | .slot _ => false
  | .word _ | .name _ => true

end Segment

namespace Layout

/-- Parts that follow the rules. `free` says that the first of them does not come right after
a slot. -/
def RegularFrom (free : Bool) : List Segment → Prop
  | [] => True
  | s :: rest => s.Regular free ∧ RegularFrom s.freesNext rest

/-- A layout that follows the rules, and which does not fail for a count of markers. -/
structure Regular (free : Bool) (l : Layout) : Prop where
  segments : RegularFrom free l.segments
  failure : ∀ expected actual, l.failure ≠ some (.placeholderCount expected actual)

theorem isWord_mono {free free' : Bool} (hle : free ≤ free') {s : String}
    (h : isWord free s = true) : isWord free' s = true := by
  simp only [isWord, Bool.and_eq_true, Bool.or_eq_true] at h ⊢
  refine ⟨h.1, h.2.imp_left fun hfree => ?_⟩
  subst hfree
  exact Bool.eq_true_of_true_le hle

namespace RegularFrom

variable {free free' : Bool} {segments more : List Segment}

/-- Parts may come where more is free. -/
theorem mono (hle : free ≤ free') (h : RegularFrom free segments) :
    RegularFrom free' segments := by
  cases segments with
  | nil => trivial
  | cons s rest =>
    cases s with
    | word s => exact ⟨isWord_mono hle h.1, h.2⟩
    | name | slot => exact h

/-- Parts may follow others if they could follow a slot. -/
theorem append (h : RegularFrom free segments) (hmore : RegularFrom false more) :
    RegularFrom free (segments ++ more) := by
  induction segments generalizing free with
  | nil => exact hmore.mono (Bool.false_le free)
  | cons s rest ih => exact ⟨h.1, ih h.2⟩

end RegularFrom

namespace Regular

variable {free free' : Bool} {l m : Layout}

/-- A layout that may come right after a slot may come anywhere. -/
theorem mono (hle : free ≤ free') (h : Regular free l) : Regular free' l :=
  ⟨h.segments.mono hle, h.failure⟩

theorem empty : Regular free .empty :=
  ⟨trivial, by simp [Layout.empty]⟩

theorem word {s : String} (h : isWord free s = true) : Regular free (.word s) :=
  ⟨⟨h, trivial⟩, by simp [Layout.word]⟩

theorem name (ident : String) : Regular free (.name ident) :=
  ⟨⟨trivial, trivial⟩, by simp [Layout.name]⟩

theorem slot (arg : Arg) : Regular free (.slot arg) :=
  ⟨⟨trivial, trivial⟩, by simp [Layout.slot]⟩

/-- A failure writes nothing, and breaks a rule only by a count of markers. -/
theorem fail {e : RenderError} (h : ∀ expected actual, e ≠ .placeholderCount expected actual) :
    Regular free (.fail e) :=
  ⟨trivial, by simpa [Layout.fail] using h⟩

/-- What is appended may come right after a slot. -/
theorem append (hl : Regular free l) (hm : Regular false m) : Regular free (l ++ m) := by
  cases h : l.failure with
  | some e => rwa [append_of_failure m h]
  | none =>
    rw [append_of_ok m h]
    exact ⟨hl.segments.append hm.segments, hm.failure⟩

/-- What comes after a word does not come right after a slot. -/
theorem word_append {s : String} (h : isWord free s = true) (hm : Regular true m) :
    Regular free (.word s ++ m) := by
  rw [append_of_ok m (rfl : (Layout.word s).failure = none)]
  exact ⟨⟨h, hm.segments⟩, hm.failure⟩

/-- A word between two layouts lets the second begin as it likes. -/
theorem append_word_append {s : String} (hl : Regular free l) (h : isWord false s = true)
    (hm : Regular true m) : Regular free (l ++ .word s ++ m) := by
  rw [append_assoc]
  exact hl.append (word_append h hm)

/-- Layouts that could each come right after a slot may come one after the other. -/
theorem concat {parts : List Layout} (h : ∀ l ∈ parts, Regular false l) :
    Regular free (.concat parts) := by
  suffices hfalse : Regular false (.concat parts) from hfalse.mono (Bool.false_le free)
  induction parts with
  | nil => exact empty
  | cons l parts ih =>
    exact (h l List.mem_cons_self).append (ih fun m hm => h m (List.mem_cons_of_mem _ hm))

/-- Between parentheses a layout may begin as it likes. -/
theorem parenthesised (h : Regular true l) : Regular free l.parenthesised :=
  append (word_append (isWord_mono (Bool.false_le free) (by decide)) h) (word (by decide))

/-- A separator that may follow a slot lets any regular layouts be joined. -/
theorem joined {separator : String} (hs : isWord false separator = true) {parts : List Layout}
    (h : ∀ l ∈ parts, Regular free l) : Regular free (.joined separator parts) := by
  cases parts with
  | nil => exact empty
  | cons first rest =>
    refine (h first List.mem_cons_self).append (concat fun l hl => ?_)
    obtain ⟨m, hm, rfl⟩ := List.mem_map.mp hl
    exact word_append hs ((h m (List.mem_cons_of_mem _ hm)).mono (Bool.le_true free))

theorem onlyIf {condition : Bool} (h : Regular free l) : Regular free (.onlyIf condition l) := by
  cases condition
  · exact empty
  · exact h

theorem require {condition : Bool} {e : RenderError}
    (h : ∀ expected actual, e ≠ .placeholderCount expected actual) :
    Regular free (.require condition e) := by
  cases condition
  · exact fail h
  · exact empty

end Regular

/-! ## The text of a regular layout -/

variable {d : Dialect} {free : Bool}

/-- A word of a layout is quiet. -/
theorem quiet_of_isWord {s : String} (h : isWord free s = true) : Quiet d s.toList := by
  simp only [isWord, Bool.and_eq_true, List.all_eq_true] at h
  exact Template.quiet_of_plain (List.all_eq_true.mpr fun c hc => (h.1.2 c hc).1)

/-- A regular part writes no marker besides its own. -/
theorem sound_segment {s : Segment} (h : s.Regular free) : s.Sound d := by
  cases s with
  | word s => exact quiet_of_isWord h
  | name | slot => trivial

theorem RegularFrom.sound {segments : List Segment} (h : RegularFrom free segments) :
    ∀ s ∈ segments, s.Sound d := by
  induction segments generalizing free with
  | nil => simp
  | cons s rest ih => exact List.forall_mem_cons.mpr ⟨sound_segment h.1, ih h.2⟩

/-- A regular layout is sound in every dialect. -/
theorem Regular.sound {l : Layout} (h : Regular free l) (d : Dialect) : Sound d l :=
  ⟨h.segments.sound, h.failure⟩

/-- The text of a regular layout is cut at its slots. -/
theorem Regular.pieces_text {l : Layout} (h : Regular free l) (d : Dialect) :
    Template.pieces d (l.text d) = (between d l.segments).map .ofList :=
  congrArg (List.map String.ofList) (cut_textOf (h.sound d).segments)

/-- What holds of words and names, and of what is put together from them, holds of the
pieces between slots. -/
theorem RegularFrom.forall_between {P : List Char → Prop} (hnil : P [])
    (happend : ∀ {a b}, P a → P b → P (a ++ b))
    (hword : ∀ {s : String}, isWord true s = true → P s.toList)
    (hname : ∀ ident, P (d.quoteIdent ident).toList) {segments : List Segment}
    (h : RegularFrom free segments) : ∀ p ∈ between d segments, P p := by
  have hextend {cs : List Char} (hcs : P cs) {pieces : List (List Char)} (hne : pieces ≠ [])
      (hpieces : ∀ p ∈ pieces, P p) : ∀ p ∈ cs.foldr Text.extendFirst pieces, P p := by
    obtain ⟨first, others, rfl⟩ := List.exists_cons_of_ne_nil hne
    rw [List.forall_mem_cons] at hpieces
    rw [Text.foldr_extendFirst_cons, List.forall_mem_cons]
    exact ⟨happend hcs hpieces.1, hpieces.2⟩
  induction segments generalizing free with
  | nil => simpa [between] using hnil
  | cons s rest ih =>
    cases s with
    | word s =>
      exact hextend (hword (isWord_mono (Bool.le_true free) h.1)) (between_ne_nil d rest) (ih h.2)
    | name ident =>
      exact hextend (hname ident) (between_ne_nil d rest) (ih h.2)
    | slot arg => exact List.forall_mem_cons.mpr ⟨hnil, ih h.2⟩

theorem startsWithDigit_quoteIdent (d : Dialect) (ident : String) (cs : List Char) :
    Text.startsWithDigit ((d.quoteIdent ident).toList ++ cs) = false := by
  obtain ⟨c, rest, hident, rfl | rfl | rfl⟩ := Template.quoteIdent_eq_cons d ident <;>
    rw [hident] <;> rfl

theorem startsWithDigit_of_isWord {s : String} (h : isWord false s = true) (cs : List Char) :
    Text.startsWithDigit (s.toList ++ cs) = false := by
  simp only [isWord, Bool.and_eq_true] at h
  obtain ⟨⟨hne, -⟩, hdigit⟩ := h
  cases hs : s.toList with
  | nil => simp [hs] at hne
  | cons c rest => simpa [hs, Text.startsWithDigit] using hdigit

/-- Of the pieces between the slots of regular parts, only the first can begin with a digit,
and only if it does not come right after a slot. -/
theorem RegularFrom.startsWithDigit_between {segments : List Segment}
    (h : RegularFrom free segments) {first : List Char} {others : List (List Char)}
    (hsegments : between d segments = first :: others) :
    (free = false → Text.startsWithDigit first = false) ∧
      ∀ p ∈ others, Text.startsWithDigit p = false := by
  induction segments generalizing free first others with
  | nil =>
    obtain ⟨rfl, rfl⟩ := List.cons.inj hsegments
    simp [Text.startsWithDigit]
  | cons s rest ih =>
    obtain ⟨next, later, hnext⟩ := List.exists_cons_of_ne_nil (between_ne_nil d rest)
    cases s with
    | word s =>
      rw [between, hnext, Text.foldr_extendFirst_cons] at hsegments
      obtain ⟨rfl, rfl⟩ := List.cons.inj hsegments
      exact ⟨fun hfree => startsWithDigit_of_isWord (hfree ▸ h.1) next, (ih h.2 hnext).2⟩
    | name ident =>
      rw [between, hnext, Text.foldr_extendFirst_cons] at hsegments
      obtain ⟨rfl, rfl⟩ := List.cons.inj hsegments
      exact ⟨fun _ => startsWithDigit_quoteIdent d ident next, (ih h.2 hnext).2⟩
    | slot arg =>
      rw [between, hnext] at hsegments
      obtain ⟨rfl, rfl⟩ := List.cons.inj hsegments
      have ih := ih h.2 hnext
      exact ⟨fun _ => rfl, List.forall_mem_cons.mpr ⟨ih.1 rfl, ih.2⟩⟩

end Layout

end SqlWeave
