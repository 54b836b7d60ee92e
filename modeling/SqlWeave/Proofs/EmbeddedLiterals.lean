import SqlWeave.Proofs.Inlining.MarkerLoops
import SqlWeave.Proofs.LiteralForms
import SqlWeave.Proofs.LiteralReading

/-!
# Literals in templates

A literal can be put into a template of its dialect if a reader of templates passes over it : it
has no marker, and outside quotes it begins and ends. The template then has as many markers as
without it, and what stands after it is quoted as it was (`Template.embeds_iff`).

Literals of MySQL, SQLite and ClickHouse can, and those of PostgreSQL, texts apart. A text in
PostgreSQL is written with backslash escapes, which a reader of its templates does not know : to him
each quote in the text is a quote. So its literal can be put into a template exactly if he passes
over the text itself, from within single quotes to within single quotes
(`Dialect.literal_embeds_iff`).
-/

namespace SqlWeave

namespace Template

variable {d : Dialect} {state start stop : Quoting} {c : Char} {cs a b : List Char}

/-! ## Passages one after the other -/

theorem passes_cons_iff :
    Passes d start (c :: cs) stop ↔
      isMarker start c = false ∧ Passes d (start.next d c) cs stop :=
  ⟨Passes.uncons, fun h => .cons h.1 h.2⟩

/-- A reader who passes over a text passes over its two parts, one after the other. -/
theorem passes_append_iff :
    Passes d start (a ++ b) stop ↔ ∃ middle, Passes d start a middle ∧ Passes d middle b stop := by
  refine ⟨fun h => ?_, fun ⟨_, ha, hb⟩ => ha.append hb⟩
  induction a generalizing start with
  | nil => exact ⟨start, .nil d start, h⟩
  | cons c a ih =>
    obtain ⟨hc, hrest⟩ := h.uncons
    obtain ⟨middle, ha, hb⟩ := ih hrest
    exact ⟨middle, .cons hc ha, hb⟩

/-! ## Literals that can be put into a template -/

/-- What a text is like that can be put anywhere outside quotes into a template : the markers of the
template and the quotes after that place stay as they are. -/
structure Embeds (d : Dialect) (literal : String) : Prop where
  markers_eq : ∀ before after, Balanced d before →
    markers d (before ++ literal ++ after) = markers d (before ++ after)
  after_eq : ∀ before after, Balanced d before →
    Quoting.after d .outside (before ++ literal ++ after).toList =
      Quoting.after d .outside (before ++ after).toList

/-- A text without markers is its only piece. -/
theorem cut_of_markers_eq_zero {text : String} (h : markers d text = 0) :
    cut d .outside text.toList = [text.toList] := by
  have hjoined := intercalate_cut d .outside text.toList
  obtain ⟨piece, rest, hcut⟩ :=
    List.exists_cons_of_ne_nil (cut_ne_nil d .outside text.toList)
  obtain rfl : rest = [] := by
    rw [markers, pieces, hcut] at h
    simpa using h
  rw [hcut, List.intercalate_singleton] at hjoined
  rw [hcut, hjoined]

/-- What can be put anywhere can be put into the empty template, and so it is quiet. -/
theorem embeds_iff {literal : String} : Embeds d literal ↔ Quiet d literal.toList := by
  constructor
  · intro h
    have hmarkers := h.markers_eq "" "" rfl
    have hafter := h.after_eq "" "" rfl
    rw [String.empty_append, String.append_empty, String.append_empty] at hmarkers hafter
    exact ⟨cut_of_markers_eq_zero hmarkers, hafter⟩
  · intro h
    refine ⟨fun before after hbefore => ?_, fun before after hbefore => ?_⟩
    · rw [markers_append (hbefore.append (balanced_of_quiet h)), markers_append hbefore,
        markers_append hbefore, markers_of_quiet h, Nat.add_zero]
    · have hstart : Quoting.after d .outside before.toList = .outside := hbefore
      rw [String.toList_append, String.toList_append, String.toList_append, after_append,
        after_append, after_append, hstart, h.after_eq]

end Template

/-! ## Readers for whom a backslash hides nothing -/

/-- Where a reader can stand for whom a backslash hides nothing. -/
inductive Quoting.Open : Quoting → Prop
  | outside : Open .outside
  | inside {quote : Char} (h : isQuote quote = true) : Open (.inside quote)

namespace Quoting.Open

variable {state : Quoting} {c : Char}

/-- A character leaves him in such a place. -/
theorem next (h : state.Open) (c : Char) : (state.next .postgres c).Open := by
  cases h with
  | outside =>
    by_cases hc : isQuote c = true
    · rw [Quoting.next, if_pos hc]
      exact .inside hc
    · rw [Quoting.next, if_neg hc]
      exact .outside
  | @inside quote hquote =>
    by_cases hc : c = quote
    · simp only [Quoting.next, Dialect.backslashHides, hc, Bool.and_false, if_true]
      exact .outside
    · simp only [Quoting.next, Dialect.backslashHides, hc, Bool.and_false, if_false]
      exact .inside hquote

/-- What is no quote leaves him where he is. -/
theorem next_eq_self (h : state.Open) (hc : isQuote c = false) :
    state.next .postgres c = state := by
  cases h with
  | outside => simp [Quoting.next, hc]
  | inside hquote =>
    have hne : c ≠ _ := fun heq => by
      rw [heq, hquote] at hc
      cases hc
    simp [Quoting.next, Dialect.backslashHides, hne]

theorem after (h : state.Open) (cs : List Char) : (state.after .postgres cs).Open := by
  induction cs generalizing state with
  | nil => exact h
  | cons c cs ih => exact ih (h.next c)

/-- A single quote brings him out of quotes only if it closes the section that one opened. -/
theorem eq_of_next_eq_outside (h : state.Open) (hnext : state.next .postgres '\'' = .outside) :
    state = .inside '\'' := by
  cases h with
  | outside => cases hnext
  | @inside quote hquote =>
    by_cases hc : '\'' = quote
    · rw [← hc]
    · simp [Quoting.next, Dialect.backslashHides, hc] at hnext

end Quoting.Open

namespace Template

variable {state stop : Quoting} {cs : List Char}

/-- What is neither a quote nor a question mark can be left out. -/
theorem passes_plain_cons {c : Char} (hstate : state.Open) (hc : isPlain c = true) :
    Passes .postgres state (c :: cs) stop ↔ Passes .postgres state cs stop := by
  simp only [isPlain, Bool.and_eq_true, Bool.not_eq_true', bne_iff_ne] at hc
  rw [passes_cons_iff, hstate.next_eq_self hc.1]
  simp [isMarker, hc.2]

/-- An escape stands for itself, or it is made of nothing that he minds and stands for such a
character. -/
theorem eq_or_isPlain_of_unescaped? {e c : Char} (h : Dialect.unescaped? e = some c) :
    e = c ∨ isPlain e = true ∧ isPlain c = true := by
  unfold Dialect.unescaped? at h
  split at h <;> simp only [Option.some.injEq, reduceCtorEq] at h <;> subst h <;>
    simp [isPlain, isQuote]

/-- He passes over a text with backslash escapes as he passes over the text. -/
theorem passes_escaped_iff (rest : List Char) (hstate : state.Open) :
    Passes .postgres state (cs.flatMap Dialect.escapedChar ++ rest) stop ↔
      Passes .postgres state (cs ++ rest) stop := by
  induction cs generalizing state with
  | nil => rfl
  | cons c cs ih =>
    rw [List.flatMap_cons, List.append_assoc, List.cons_append]
    rcases Dialect.escapedChar_cases c with ⟨hc, -, -⟩ | ⟨e, hc, he⟩
    · rw [hc, List.singleton_append, passes_cons_iff, passes_cons_iff, ih (hstate.next c)]
    · have hback : isPlain '\\' = true := rfl
      rw [hc, List.cons_append, List.singleton_append, passes_plain_cons hstate hback]
      rcases eq_or_isPlain_of_unescaped? he with rfl | ⟨hplain, hplain'⟩
      · rw [passes_cons_iff, passes_cons_iff, ih (hstate.next e)]
      · rw [passes_plain_cons hstate hplain, passes_plain_cons hstate hplain', ih hstate]

end Template

/-! ## Literals -/

namespace Dialect

open Template

variable {d : Dialect}

/-- Where a reader of templates knows the escapes of texts, he passes over what stands between the
quotes of a text. -/
theorem passes_textBody (hd : d ≠ .postgres) (cs : List Char) :
    Passes d (.inside '\'') (d.textBody cs) (.inside '\'') := by
  have hescaped (hhides : d.backslashHides '\'' = true) (c : Char) :
      Passes d (.inside '\'') (escapedChar c) (.inside '\'') := by
    rcases escapedChar_cases c with ⟨hc, hquote, hback⟩ | ⟨e, hc, -⟩
    · rw [hc]
      exact .inside (by simp [hquote, hback])
    · have hnext : (Quoting.inside '\'').next d '\\' = .hidden '\'' := by
        simp [Quoting.next, hhides]
      rw [hc]
      refine .cons rfl ?_
      rw [hnext]
      exact .char rfl
  cases d with
  | postgres => exact absurd rfl hd
  | mysql | clickhouse => exact .flatMap fun c _ => hescaped rfl c
  | sqlite =>
    refine .flatMap fun c _ => ?_
    by_cases hc : c = '\''
    · subst hc
      exact .cons rfl (.char rfl)
    · rw [doubledChar, if_neg (by simpa using hc)]
      refine .cons rfl ?_
      simpa [Quoting.next, backslashHides, hc] using Passes.nil .sqlite (.inside '\'')

/-- In the other dialects the literal of a text is quiet. -/
theorem quiet_text (hd : d ≠ .postgres) (s : String) : Quiet d (d.text s).toList := by
  have hmark : d.textMark = [] := by
    cases d with
    | postgres => exact absurd rfl hd
    | mysql | sqlite | clickhouse => rfl
  simpa [text, hmark] using (passes_textBody hd s.toList).quoted rfl (by decide)

/-- In PostgreSQL a reader of templates passes over the literal of a text as he passes over the
text itself between single quotes. -/
theorem quiet_text_iff (s : String) :
    Quiet .postgres (text .postgres s).toList ↔
      Passes .postgres (.inside '\'') s.toList (.inside '\'') := by
  have hopen : (Quoting.inside '\'').Open := .inside rfl
  have hliteral : (text .postgres s).toList =
      'E' :: '\'' :: (s.toList.flatMap escapedChar ++ ['\'']) := by
    simp [text, textMark, textBody]
  have hquote : Quoting.outside.next .postgres '\'' = .inside '\'' := rfl
  rw [hliteral, Quiet, passes_plain_cons .outside rfl, passes_cons_iff, hquote,
    passes_escaped_iff _ hopen, passes_append_iff]
  constructor
  · rintro ⟨-, middle, hs, hclose⟩
    have hmiddle : middle.Open := hs.after_eq ▸ hopen.after s.toList
    obtain rfl := hmiddle.eq_of_next_eq_outside hclose.after_eq
    exact hs
  · intro hs
    exact ⟨rfl, _, hs, .char rfl⟩

/-- A moment is quiet, as there are only digits and signs between its quotes. -/
theorem quiet_moment (d : Dialect) (t : Time.DateTime) : Quiet d (d.moment t).toList := by
  have hbody : Passes d (.inside '\'') (d.momentBody t) (.inside '\'') :=
    .inside fun _ hc => ⟨(ne_of_mem_momentBody hc).1,
      fun hback => (ne_of_mem_momentBody hc).2 hback.1⟩
  simpa [moment] using hbody.quoted rfl (by decide)

/-- What is written without quotes. -/
theorem quiet_of_bare {negative : Bool} {cs : List Char} (h : Text.Bare negative cs) :
    Quiet d cs := by
  obtain ⟨body, rfl, -, hbody⟩ := h
  have hplain : body.all isPlain = true := by
    refine List.all_eq_true.mpr fun c hc => ?_
    simp [isPlain, isQuote, Text.ne_of_isBareChar (hbody c hc)]
  cases negative with
  | false => exact quiet_of_plain hplain
  | true =>
    have hsigned : ('-' :: body).all isPlain = true := by simpa [isPlain, isQuote] using hplain
    exact quiet_of_plain hsigned

/-- A reader of templates passes over the literal of a value, so that it can be put into a template,
texts in PostgreSQL apart : over that of a text he passes exactly if he passes over the text itself
between single quotes. He does if the text has no single quote. -/
theorem literal_embeds_iff {v : Value} {literal : String} (h : d.literal v = .ok literal) :
    (Quiet d literal.toList ↔ ∀ s, d = .postgres → v = .text s →
      Passes .postgres (.inside '\'') s.toList (.inside '\'')) ∧
    (Embeds d literal ↔ Quiet d literal.toList) ∧
    ∀ s : String, '\'' ∉ s.toList → Passes .postgres (.inside '\'') s.toList (.inside '\'') := by
  refine ⟨?_, embeds_iff, fun s hs => ?_⟩
  · cases v with
    | text s =>
      obtain rfl : d.text s = literal := Except.ok.inj h
      by_cases hd : d = .postgres
      · subst hd
        simp [quiet_text_iff]
      · simp [hd, quiet_text hd s]
    | bytes data =>
      obtain rfl : d.bytes data = literal := Except.ok.inj h
      simp [quiet_bytes d data]
    | dateTime t =>
      obtain rfl : d.moment t = literal := Except.ok.inj h
      simp [quiet_moment d t]
    | null | bool | signed | unsigned | float =>
      simp [quiet_of_bare (bare_literal rfl h)]
  · refine .inside fun c hc => ⟨?_, fun hback => Bool.noConfusion hback.2⟩
    rintro rfl
    exact hs hc

/-- Two quotes in a text of PostgreSQL close the section and open it again. -/
theorem literal_embeds_iff_quotes :
    literal .postgres (.text "''?") = .ok "E'\\'\\'?'" ∧ Quiet .postgres "E'\\'\\'?'".toList ∧
      Embeds .postgres "E'\\'\\'?'" := by
  have hliteral : literal .postgres (.text "''?") = .ok "E'\\'\\'?'" := by decide +kernel
  obtain ⟨hquiet, hembeds, -⟩ := literal_embeds_iff hliteral
  have hpasses : Quiet .postgres "E'\\'\\'?'".toList := by
    refine hquiet.mpr ?_
    rintro s - hs
    obtain rfl := Value.text.inj hs
    exact ⟨by decide +kernel, by decide +kernel⟩
  exact ⟨hliteral, hpasses, hembeds.mpr hpasses⟩

/-- A quote in a text of PostgreSQL brings a reader of templates out of quotes, where he finds a
marker in the text. -/
theorem not_literal_embeds :
    literal .postgres (.text "'?") = .ok "E'\\'?'" ∧
      markers .postgres "E'\\'?'" = 1 ∧
      Quoting.after .postgres .outside "E'\\'?'".toList = .inside '\'' ∧
      (({} : Query).interpolate ⟨.postgres, true⟩ "E'\\'?'" []).result =
        .error (.placeholderCount 1 0) := by
  refine ⟨by decide +kernel, by decide +kernel, by decide +kernel, by decide +kernel⟩

end Dialect

end SqlWeave
