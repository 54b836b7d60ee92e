import SqlWeave.Proofs.Regular

/-!
# Texts without `$` outside quotes

In PostgreSQL a `$` outside quotes begins a placeholder, for the database as for the reader
who inlines values. Both know the quotes `'` and `"`, and for neither does a backslash hide
anything. A text can stand between placeholders if no `$` in it is outside quotes and a
reader who comes from outside quotes is left there (`Undollared none cs none`).

Balanced texts without `$` and backticks are of this kind (`undollared_of_quiet`), and so are
names, whatever they are (`undollared_quoteIdent`), and byte strings.
-/

namespace SqlWeave

open Template (Balanced Quiet)

/-- The quote that a reader is in, if any, after one more character. -/
def nextQuote : Option Char → Char → Option Char
  | some quote, c => if c = quote then none else some quote
  | none, c => if c = '\'' ∨ c = '"' then some c else none

/-- A reader who comes to a text in one quote, or in none, meets no `$` outside quotes and
leaves the text in another quote, or in none. -/
inductive Undollared : Option Char → List Char → Option Char → Prop
  | nil (quote : Option Char) : Undollared quote [] quote
  | cons {quote stop : Option Char} {c : Char} {cs : List Char} (hc : ¬(quote = none ∧ c = '$'))
      (hcs : Undollared (nextQuote quote c) cs stop) : Undollared quote (c :: cs) stop

namespace Undollared

variable {start middle stop quote : Option Char} {a b cs : List Char} {c mark : Char}

theorem append (ha : Undollared start a middle) (hb : Undollared middle b stop) :
    Undollared start (a ++ b) stop := by
  induction ha with
  | nil => exact hb
  | cons hc _ ih => exact .cons hc (ih hb)

theorem flatMap {α : Type} {f : α → List Char} {xs : List α}
    (h : ∀ x ∈ xs, Undollared quote (f x) quote) : Undollared quote (xs.flatMap f) quote := by
  induction xs with
  | nil => exact .nil quote
  | cons x xs ih =>
    exact (h x List.mem_cons_self).append (ih fun y hy => h y (List.mem_cons_of_mem _ hy))

theorem opening (hmark : mark = '\'' ∨ mark = '"') (hcs : Undollared (some mark) cs stop) :
    Undollared none (mark :: cs) stop := by
  refine .cons (fun h => ?_) ?_
  · rcases hmark with rfl | rfl <;> exact absurd h.2 (by decide)
  · rwa [nextQuote, if_pos hmark]

theorem inside (hc : c ≠ mark) (hcs : Undollared (some mark) cs stop) :
    Undollared (some mark) (c :: cs) stop := by
  refine .cons (by simp) ?_
  rwa [nextQuote, if_neg hc]

theorem closing (hcs : Undollared none cs stop) : Undollared (some mark) (mark :: cs) stop := by
  refine .cons (by simp) ?_
  rwa [nextQuote, if_pos rfl]

end Undollared

/-! ## Own texts -/

/-- The quote of a reader of templates. -/
def quoteOf : Quoting → Option Char
  | .outside => none
  | .inside quote | .hidden quote => some quote

/-- In PostgreSQL, where no backslash hides anything, the quotes that a text without backticks
opens and closes are those of a template. -/
theorem nextQuote_quoteOf {c : Char} (hc : c ≠ '`') {state : Quoting}
    (hstate : ∀ quote, state ≠ .hidden quote) :
    nextQuote (quoteOf state) c = quoteOf (state.next .postgres c) ∧
      ∀ quote, state.next .postgres c ≠ .hidden quote := by
  cases state with
  | outside =>
    by_cases hquote : c = '\'' ∨ c = '"'
    · have hc : isQuote c = true := by rcases hquote with rfl | rfl <;> rfl
      simp [Quoting.next, nextQuote, quoteOf, hc, hquote]
    · have hc : isQuote c = false := by simp [isQuote, not_or.mp hquote, hc]
      simp [Quoting.next, nextQuote, quoteOf, hc, hquote]
  | inside quote =>
    by_cases hc : c = quote <;>
      simp [Quoting.next, nextQuote, quoteOf, Dialect.backslashHides, hc]
  | hidden quote => exact absurd rfl (hstate quote)

theorem undollared_of_not_mem {cs : List Char} (hdollar : '$' ∉ cs) (htick : '`' ∉ cs)
    (state : Quoting) (hstate : ∀ quote, state ≠ .hidden quote) :
    Undollared (quoteOf state) cs (quoteOf (state.after .postgres cs)) := by
  induction cs generalizing state with
  | nil => exact .nil _
  | cons c cs ih =>
    rw [List.mem_cons, not_or] at hdollar htick
    obtain ⟨hquote, hnext⟩ := nextQuote_quoteOf (Ne.symm htick.1) hstate
    refine .cons (fun h => hdollar.1 h.2.symm) ?_
    rw [hquote]
    exact ih hdollar.2 htick.2 _ hnext

/-- A balanced text without markers, `$` and backticks. -/
theorem undollared_of_quiet {cs : List Char} (h : Quiet .postgres cs)
    (hcs : '$' ∉ cs ∧ '`' ∉ cs) : Undollared none cs none := by
  have hundollared := undollared_of_not_mem hcs.1 hcs.2 .outside (by simp)
  rwa [h.after_eq] at hundollared

/-- The characters of a piece are characters of the text. -/
theorem Template.mem_of_mem_pieces {d : Dialect} {text piece : String} (hp : piece ∈ pieces d text)
    {c : Char} (hc : c ∈ piece.toList) : c ∈ text.toList := by
  obtain ⟨cs, hcs, rfl⟩ := List.mem_map.mp hp
  rw [String.toList_ofList] at hc
  obtain ⟨before, after, hsplit⟩ := List.append_of_mem hcs
  rw [← intercalate_cut d .outside text.toList, hsplit, Text.intercalate_append_cons]
  simp [hc]

/-- A piece of a balanced template without `$` and backticks. -/
theorem undollared_of_mem_pieces {template piece : String} (h : Balanced .postgres template)
    (hplain : '$' ∉ template.toList ∧ '`' ∉ template.toList)
    (hp : piece ∈ Template.pieces .postgres template) : Undollared none piece.toList none :=
  undollared_of_quiet (Template.quiet_of_mem_pieces h hp)
    ⟨fun hc => hplain.1 (Template.mem_of_mem_pieces hp hc),
      fun hc => hplain.2 (Template.mem_of_mem_pieces hp hc)⟩

/-! ## What the library writes -/

theorem undollared_of_plain {cs : List Char}
    (h : ∀ c ∈ cs, (Template.isPlain c && c != '$') = true) : Undollared none cs none := by
  induction cs with
  | nil => exact .nil none
  | cons c cs ih =>
    rw [List.forall_mem_cons] at h
    obtain ⟨hc, hcs⟩ := h
    simp only [Template.isPlain, isQuote, Bool.and_eq_true, Bool.not_eq_true',
      Bool.or_eq_false_iff, beq_eq_false_iff_ne, bne_iff_ne] at hc
    refine .cons (fun h => hc.2 h.2) ?_
    rw [nextQuote, if_neg (not_or.mpr hc.1.1.1)]
    exact ih hcs

theorem undollared_of_isWord {free : Bool} {s : String} (h : Layout.isWord free s = true) :
    Undollared none s.toList none := by
  simp only [Layout.isWord, Bool.and_eq_true] at h
  exact undollared_of_plain (by simpa using h.1.2)

theorem undollared_identifierSegment (segment : List Char) :
    Undollared none (Dialect.identifierSegment .postgres segment) none := by
  unfold Dialect.identifierSegment
  split
  · exact .cons (by decide) (.nil none)
  · refine .opening (.inr rfl) (.append (.flatMap fun c _ => ?_) (.closing (.nil none)))
    by_cases hc : c = '"'
    · have hchar : Dialect.identifierChar .postgres c = ['"', '"'] := by
        simp [Dialect.identifierChar, Dialect.identifierQuote, hc]
      rw [hchar]
      exact .closing (.opening (.inr rfl) (.nil _))
    · have hchar : Dialect.identifierChar .postgres c = [c] := by
        simp [Dialect.identifierChar, Dialect.identifierQuote, Dialect.backslashHides, hc]
      rw [hchar]
      exact .inside hc (.nil _)

/-- A name has no `$` outside quotes, whatever it is. -/
theorem undollared_quoteIdent (name : String) :
    Undollared none (Dialect.quoteIdent .postgres name).toList none := by
  obtain ⟨first, others, hsplit⟩ :=
    List.exists_cons_of_ne_nil (Text.splitAt_ne_nil '.' name.toList)
  rw [Dialect.quoteIdent, String.toList_ofList, hsplit, List.map_cons,
    Text.intercalate_cons_eq_append_flatMap, List.flatMap_map]
  refine (undollared_identifierSegment first).append (.flatMap fun segment _ => ?_)
  exact .cons (by decide) (undollared_identifierSegment segment)

/-- A numbered placeholder is a `$` and the digits of its number. -/
theorem Dialect.toList_placeholder (n : Nat) :
    (Dialect.placeholder .postgres n).toList = '$' :: Nat.toDigits 10 n := by
  simp [Dialect.placeholder, Nat.toString_eq_repr]

/-- A byte string has neither `$` nor backtick. -/
theorem not_mem_bytes (data : List UInt8) :
    '$' ∉ (Dialect.bytes .postgres data).toList ∧
      '`' ∉ (Dialect.bytes .postgres data).toList := by
  have hhex : ∀ n < 16, '$' ≠ Text.hexDigit n ∧ '`' ≠ Text.hexDigit n := by decide
  have hpairs : '$' ∉ Text.hexPairs data ∧ '`' ∉ Text.hexPairs data := by
    constructor <;> intro hmem <;> obtain ⟨n, hn, heq⟩ := Template.exists_of_mem_hexPairs hmem
    · exact (hhex n hn).1 heq
    · exact (hhex n hn).2 heq
  simp [Dialect.bytes, Dialect.bytesWrapper, hpairs]

theorem undollared_bytes (data : List UInt8) :
    Undollared none (Dialect.bytes .postgres data).toList none :=
  undollared_of_quiet (Template.quiet_bytes .postgres data) (not_mem_bytes data)

theorem undollared_null : Undollared none (Dialect.null .postgres).toList none :=
  undollared_of_isWord (by decide : Layout.isWord true (Dialect.null .postgres) = true)

end SqlWeave
