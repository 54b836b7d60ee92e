import Mathlib.Data.List.Induction
import Mathlib.Data.Nat.Find
import SqlWeave.Proofs.Inlining.MarkerLoops

/-!
# A template, part by part

A template is a sequence of markers, of other characters outside quotes, and of quoted sections. A
section runs from a quote to the next one like it that is not hidden, or to the end of the text.
Which characters of a section are hidden is told from the section alone (`isHidden`), so `Reads`
says what the parts of a text are without a reader who goes from character to character and
remembers where he is.

Every text can be read in one way (`exists_reads`, `Reads.unique`). The loop that slices the text
by bytes cuts it at the markers of this reading and nowhere else (`Reads.splits`), and the pieces
of two texts one after the other are those of both if no section of the first is left open
(`Template.splits_as_read`).
-/

namespace SqlWeave

namespace Template

/-! ## Sections -/

/-- Whether the character at place `i` of a section between two `quote`s is hidden : a backslash
stands before it that hides what follows and is not hidden itself. -/
def isHidden (d : Dialect) (quote : Char) (cs : List Char) : Nat → Bool
  | 0 => false
  | i + 1 => cs[i]? == some '\\' && d.backslashHides quote && !isHidden d quote cs i

/-- Every `quote` in a section is hidden. -/
def Encloses (d : Dialect) (quote : Char) (body : List Char) : Prop :=
  ∀ i, body[i]? = some quote → isHidden d quote body i = true

variable {d : Dialect} {quote : Char}

instance {d : Dialect} {quote : Char} {body : List Char} : Decidable (Encloses d quote body) :=
  decidable_of_iff
    (∀ i < body.length, body[i]? = some quote → isHidden d quote body i = true)
    ⟨fun h i hi => h i (List.getElem?_eq_some_iff.mp hi).1 hi, fun h i _ => h i⟩

/-- Whether a character is hidden does not depend on it or on what follows. -/
theorem isHidden_append (a b : List Char) {i : Nat} (h : i ≤ a.length) :
    isHidden d quote (a ++ b) i = isHidden d quote a i := by
  induction i with
  | zero => rfl
  | succ i ih => rw [isHidden, isHidden, ih (by omega), List.getElem?_append_left (by omega)]

theorem Encloses.of_append {a b : List Char} (h : Encloses d quote (a ++ b)) :
    Encloses d quote a := by
  intro i hi
  have hlt : i < a.length := (List.getElem?_eq_some_iff.mp hi).1
  rw [← isHidden_append a b hlt.le]
  exact h i (by rw [List.getElem?_append_left hlt, hi])

/-- The next `quote` that is not hidden, if there is one. -/
theorem exists_closing (d : Dialect) (quote : Char) (cs : List Char) :
    Encloses d quote cs ∨ ∃ body rest, cs = body ++ quote :: rest ∧ Encloses d quote body ∧
      isHidden d quote body body.length = false := by
  by_cases h : ∃ i, cs[i]? = some quote ∧ isHidden d quote cs i = false
  · obtain ⟨hquote, hshown⟩ := Nat.find_spec h
    have hfirst {j : Nat} (hj : j < Nat.find h) := Nat.find_min h hj
    generalize Nat.find h = i at hquote hshown hfirst
    obtain ⟨hlt, hget⟩ := List.getElem?_eq_some_iff.mp hquote
    have hsplit : cs = cs.take i ++ quote :: cs.drop (i + 1) := by
      rw [← hget, ← List.drop_eq_getElem_cons hlt, List.take_append_drop]
    have hlength : (cs.take i).length = i := List.length_take_of_le hlt.le
    have hhidden {j : Nat} (hj : j ≤ i) :
        isHidden d quote (cs.take i) j = isHidden d quote cs j := by
      conv_rhs => rw [hsplit]
      rw [isHidden_append _ _ (by omega)]
    refine .inr ⟨cs.take i, cs.drop (i + 1), hsplit, fun j hj => ?_, ?_⟩
    · have hji : j < i := hlength ▸ (List.getElem?_eq_some_iff.mp hj).1
      rw [List.getElem?_take_of_lt hji] at hj
      rw [hhidden hji.le]
      simpa [hj] using hfirst hji
    · rw [hlength, hhidden le_rfl, hshown]
  · refine .inl fun i hi => ?_
    by_contra hshown
    exact h ⟨i, hi, by simpa using hshown⟩

/-- In one text, a section in which no `quote` is shown does not go on after one that is shown. -/
theorem Encloses.length_le {a b rest tail : List Char} (hb : Encloses d quote b)
    (ha : isHidden d quote a a.length = false) (h : a ++ quote :: rest = b ++ tail) :
    b.length ≤ a.length := by
  by_contra hlt
  rw [Nat.not_le] at hlt
  have hget : (b ++ tail)[a.length]? = b[a.length]? := List.getElem?_append_left hlt
  have hhidden := hb a.length (by rw [← hget, ← h]; simp)
  rw [← isHidden_append b tail hlt.le, ← h, isHidden_append a _ le_rfl, ha] at hhidden
  cases hhidden

/-- A reader of a section meets no marker, and what he hides is what is hidden. -/
theorem Encloses.passes {body : List Char} (h : Encloses d quote body) :
    Passes d (.inside quote) body
      (if isHidden d quote body body.length then .hidden quote else .inside quote) := by
  induction body using List.reverseRecOn with
  | nil => exact .nil d _
  | append_singleton body c ih =>
    refine (ih h.of_append).append ?_
    have hsame : isHidden d quote (body ++ [c]) body.length =
        isHidden d quote body body.length := isHidden_append body [c] le_rfl
    have hquote (hc : c = quote) := h body.length (by simp [hc])
    rw [hsame] at hquote
    rw [List.length_append, List.length_singleton, isHidden, hsame]
    cases hhidden : isHidden d quote body body.length with
    | true =>
      have hchar : Passes d (.hidden quote) [c] (.inside quote) := .char rfl
      simpa using hchar
    | false =>
      have hc : c ≠ quote := fun hc => by simp [hquote hc] at hhidden
      have hchar : Passes d (.inside quote) [c] ((Quoting.inside quote).next d c) := .char rfl
      simpa [Quoting.next, hc] using hchar

/-! ## Parts -/

/-- A part of a template. -/
inductive Part where
  /-- A character outside quotes. -/
  | plain (c : Char)
  /-- What stands between two quotes. -/
  | quoted (quote : Char) (body : List Char)
  /-- What stands between a quote and the end of the text. -/
  | unclosed (quote : Char) (body : List Char)
  deriving DecidableEq

/-- The characters of a part. -/
def Part.text : Part → List Char
  | .plain c => [c]
  | .quoted quote body => quote :: (body ++ [quote])
  | .unclosed quote body => quote :: body

/-- A text begins with a part, and after it comes the rest. -/
inductive Begins (d : Dialect) : List Char → Part → List Char → Prop
  | plain {c : Char} (cs : List Char) (hc : isQuote c = false) : Begins d (c :: cs) (.plain c) cs
  | quoted {quote : Char} {body : List Char} (cs : List Char) (hquote : isQuote quote = true)
    (hbody : Encloses d quote body) (hend : isHidden d quote body body.length = false) :
    Begins d (quote :: (body ++ quote :: cs)) (.quoted quote body) cs
  | unclosed {quote : Char} {body : List Char} (hquote : isQuote quote = true)
    (hbody : Encloses d quote body) : Begins d (quote :: body) (.unclosed quote body) []

/-- Every text that is not empty begins with a part. -/
theorem exists_begins (d : Dialect) (c : Char) (cs : List Char) :
    ∃ part rest, Begins d (c :: cs) part rest := by
  cases hc : isQuote c with
  | false => exact ⟨_, _, .plain cs hc⟩
  | true =>
    rcases exists_closing d c cs with hbody | ⟨body, rest, rfl, hbody, hend⟩
    · exact ⟨_, _, .unclosed hc hbody⟩
    · exact ⟨_, _, .quoted rest hc hbody hend⟩

namespace Begins

variable {text rest rest' : List Char} {part part' : Part}

theorem spelling (h : Begins d text part rest) : text = part.text ++ rest := by
  cases h <;> simp [Part.text]

theorem length_lt (h : Begins d text part rest) : rest.length < text.length := by
  cases h with
  | plain => exact Nat.lt_succ_self _
  | quoted =>
    simp only [List.length_cons, List.length_append]
    omega
  | unclosed => exact Nat.succ_pos _

/-- A text begins in one way only. -/
theorem unique (h : Begins d text part rest) (h' : Begins d text part' rest') :
    part = part' ∧ rest = rest' := by
  cases h with
  | plain cs hc =>
    cases h' with
    | plain => exact ⟨rfl, rfl⟩
    | quoted _ hquote => simp [hc] at hquote
    | unclosed hquote => simp [hc] at hquote
  | @quoted quote body cs hquote hbody hend =>
    generalize htext : quote :: (body ++ quote :: rest) = text at h'
    cases h' with
    | plain _ hc =>
      obtain ⟨rfl, -⟩ := List.cons.inj htext
      simp [hquote] at hc
    | quoted _ _ hbody' hend' =>
      obtain ⟨rfl, hcs⟩ := List.cons.inj htext
      -- neither section goes on after the other, so they close at the same place
      have hlength := Nat.le_antisymm (hbody.length_le hend' hcs.symm) (hbody'.length_le hend hcs)
      obtain ⟨rfl, hrest⟩ := List.append_inj hcs hlength
      exact ⟨rfl, (List.cons.inj hrest).2⟩
    | unclosed _ hbody' =>
      obtain ⟨rfl, hcs⟩ := List.cons.inj htext
      have hlength := hbody'.length_le hend (hcs.trans (List.append_nil _).symm)
      simp [← hcs] at hlength
  | @unclosed quote body hquote hbody =>
    generalize htext : quote :: body = text at h'
    cases h' with
    | plain _ hc =>
      obtain ⟨rfl, -⟩ := List.cons.inj htext
      simp [hquote] at hc
    | quoted _ _ _ hend' =>
      obtain ⟨rfl, hcs⟩ := List.cons.inj htext
      have hlength := hbody.length_le hend' (hcs.symm.trans (List.append_nil _).symm)
      simp [hcs] at hlength
    | unclosed =>
      obtain ⟨rfl, rfl⟩ := List.cons.inj htext
      exact ⟨rfl, rfl⟩

/-- A reader who comes from outside quotes meets no marker in a part that is none, and he is outside
quotes again unless the part is a section that is not closed, after which the text ends. -/
theorem passes (h : Begins d text part rest) (hmarker : part ≠ .plain '?') :
    ∃ stop, Passes d .outside part.text stop ∧
      ((stop = .outside ∧ ∀ quote body, part ≠ .unclosed quote body) ∨
        stop ≠ .outside ∧ rest = [] ∧ ∃ quote body, part = .unclosed quote body) := by
  cases h with
  | @plain c _ hc =>
    have hchar : isMarker .outside c = false := by simpa [isMarker] using hmarker
    refine ⟨_, .char hchar, .inl ⟨?_, by simp⟩⟩
    simp [Quoting.next, hc]
  | quoted _ hquote hbody hend =>
    have hpass := hbody.passes
    rw [hend, if_neg Bool.false_ne_true] at hpass
    exact ⟨_, hpass.quoted hquote (ne_backslash_of_isQuote hquote), .inl ⟨rfl, by simp⟩⟩
  | @unclosed quote body hquote hbody =>
    have hopen : Quoting.outside.next d quote = .inside quote := by simp [Quoting.next, hquote]
    have hpass : Passes d .outside (quote :: body)
        (if isHidden d quote body body.length then .hidden quote else .inside quote) := by
      refine .cons (isMarker_of_isQuote hquote .outside) ?_
      rw [hopen]
      exact hbody.passes
    refine ⟨_, hpass, .inr ⟨?_, rfl, quote, body, rfl⟩⟩
    split <;> simp

theorem cut_eq (h : Begins d text part rest) (hmarker : part ≠ .plain '?') :
    cut d .outside text = Text.glue [part.text] (cut d .outside rest) := by
  obtain ⟨stop, hpass, hstop⟩ := h.passes hmarker
  rw [h.spelling, cut_append, hpass.cut_eq, hpass.after_eq]
  obtain ⟨rfl, -⟩ | ⟨-, rfl, -⟩ := hstop <;> rfl

theorem after_eq_outside_iff (h : Begins d text part rest) :
    Quoting.after d .outside text = .outside ↔
      (∀ quote body, part ≠ .unclosed quote body) ∧ Quoting.after d .outside rest = .outside := by
  by_cases hmarker : part = .plain '?'
  · subst hmarker
    rw [h.spelling]
    simp [Quoting.after, Part.text, Quoting.next, isQuote]
  obtain ⟨stop, hpass, ⟨rfl, hclosed⟩ | ⟨hopen, rfl, quote, body, rfl⟩⟩ := h.passes hmarker
  · rw [h.spelling, after_append, hpass.after_eq]
    simp [hclosed]
  · rw [h.spelling, List.append_nil, hpass.after_eq]
    simp [hopen]

end Begins

/-- A text is read as parts. -/
inductive Reads (d : Dialect) : List Char → List Part → Prop
  | nil : Reads d [] []
  | cons {text rest : List Char} {part : Part} {parts : List Part}
    (hbegins : Begins d text part rest) (hrest : Reads d rest parts) : Reads d text (part :: parts)

/-- Every text can be read. -/
theorem exists_reads (d : Dialect) (text : List Char) : ∃ parts, Reads d text parts := by
  induction hlength : text.length using Nat.strongRecOn generalizing text with
  | ind n ih =>
    subst hlength
    cases text with
    | nil => exact ⟨[], .nil⟩
    | cons c cs =>
      obtain ⟨part, rest, hbegins⟩ := exists_begins d c cs
      obtain ⟨parts, hparts⟩ := ih rest.length hbegins.length_lt rest rfl
      exact ⟨part :: parts, .cons hbegins hparts⟩

/-- The texts between markers. -/
def between (parts : List Part) : List (List Char) :=
  (parts.splitOn (.plain '?')).map fun parts => parts.flatMap Part.text

theorem between_marker (parts : List Part) :
    between (.plain '?' :: parts) = [] :: between parts := by
  simp [between, List.splitOn_cons_eq_if_modifyHead]

theorem between_cons {part : Part} (h : part ≠ .plain '?') (parts : List Part) :
    between (part :: parts) = Text.glue [part.text] (between parts) := by
  obtain ⟨first, rest, hsplit⟩ :=
    List.exists_cons_of_ne_nil (List.splitOn_ne_nil (.plain '?') parts)
  rw [between, between, List.splitOn_cons_eq_if_modifyHead, if_neg (by simpa using h), hsplit,
    List.modifyHead_cons, List.map_cons, List.map_cons, Text.glue_singleton, List.flatMap_cons]

theorem length_between (parts : List Part) :
    (between parts).length = parts.count (.plain '?') + 1 := by
  rw [between, List.length_map]
  induction parts with
  | nil => simp
  | cons part parts ih =>
    rw [List.splitOn_cons_eq_if_modifyHead, List.count_cons]
    split <;> simp [ih]

namespace Reads

variable {text : List Char} {parts others : List Part}

/-- A text can be read in one way only. -/
theorem unique (h : Reads d text parts) (h' : Reads d text others) : parts = others := by
  induction h generalizing others with
  | nil =>
    cases h' with
    | nil => rfl
    | cons hbegins => cases hbegins
  | cons hbegins _ ih =>
    cases h' with
    | nil => cases hbegins
    | cons hbegins' hrest =>
      obtain ⟨rfl, rfl⟩ := hbegins.unique hbegins'
      rw [ih hrest]

/-- The cut of a text is between the markers that it is read with. -/
theorem cut_eq (h : Reads d text parts) : cut d .outside text = between parts := by
  induction h with
  | nil => rfl
  | @cons text rest part parts hbegins _ ih =>
    by_cases hmarker : part = .plain '?'
    · subst hmarker
      rw [between_marker, ← ih, hbegins.spelling]
      rfl
    · rw [hbegins.cut_eq hmarker, between_cons hmarker, ih]

/-- A reader is left outside quotes exactly if every section is closed. -/
theorem after_eq_outside_iff (h : Reads d text parts) :
    Quoting.after d .outside text = .outside ↔ ∀ quote body, .unclosed quote body ∉ parts := by
  induction h with
  | nil => simp [Quoting.after]
  | cons hbegins _ ih =>
    rw [hbegins.after_eq_outside_iff, ih]
    simp [forall_and, eq_comm]

end Reads

/-! ## Pieces -/

/-- Joined with `?`, the pieces of a template are the template. -/
theorem intercalate_pieces (d : Dialect) (text : String) :
    "?".intercalate (pieces d text) = text := by
  have hcut := intercalate_cut d .outside text.toList
  simpa [← String.toList_inj, String.toList_intercalate, pieces, Function.comp_def] using hcut

/-- After a balanced text the first piece of another text runs on from its last one. -/
theorem pieces_append {a : String} (ha : Balanced d a) (b : String) :
    ∃ before last first rest, pieces d a = before ++ [last] ∧ pieces d b = first :: rest ∧
      pieces d (a ++ b) = before ++ (last ++ first) :: rest := by
  obtain ⟨first, rest, hb⟩ := List.exists_cons_of_ne_nil (cut_ne_nil d .outside b.toList)
  have hcut := cut_append d .outside a.toList b.toList
  have hstart : Quoting.after d .outside a.toList = .outside := ha
  rcases List.eq_nil_or_concat' (cut d .outside a.toList) with hnil | ⟨before, last, hlast⟩
  · exact absurd hnil (cut_ne_nil d .outside a.toList)
  rw [hlast, hstart, hb, Text.glue_concat] at hcut
  refine ⟨before.map .ofList, .ofList last, .ofList first, rest.map .ofList, ?_, ?_, ?_⟩
  · simp [pieces, hlast]
  · simp [pieces, hb]
  · simp [pieces, hcut]

/-- What the loop that slices a text makes of it, and where it leaves a reader, if the text reads as
`parts`. -/
structure Splits (d : Dialect) (text : String) (parts : List Part) : Prop where
  /-- No slice that the loop asks for is missing. -/
  run?_eq : ({} : Cutter).run? d text 0 text.toList = some (pieces d text)
  pieces_eq : pieces d text = (between parts).map .ofList
  length_eq : (pieces d text).length = parts.count (.plain '?') + 1
  intercalate_eq : "?".intercalate (pieces d text) = text
  balanced_iff : Balanced d text ↔ ∀ quote body, .unclosed quote body ∉ parts

theorem Reads.splits {text : String} {parts : List Part} (h : Reads d text.toList parts) :
    Splits d text parts where
  run?_eq := Cutter.run?_eq d text
  pieces_eq := by rw [pieces, h.cut_eq]
  length_eq := by rw [pieces, h.cut_eq, List.length_map, length_between]
  intercalate_eq := intercalate_pieces d text
  balanced_iff := h.after_eq_outside_iff

/-- Templates are split as they read. A text reads as parts in one way, in which sections run from a
quote to the next one like it that is not hidden or to the end. The loop that slices the text finds
every slice that it asks for and cuts at each `?` outside the sections, so that the pieces joined
with `?` are the text again. Where a text leaves no section open, the pieces of the text with
another one after it are those of both, the last of the first and the first of the other run
together. -/
theorem splits_as_read (d : Dialect) :
    (∀ quote, d.backslashHides quote = true ↔
      (quote = '\'' ∨ quote = '"') ∧ (d = .mysql ∨ d = .clickhouse) ∨
        quote = '`' ∧ d = .clickhouse) ∧
    (∀ text : String, ∃! parts, Reads d text.toList parts) ∧
    (∀ (text : String) (parts : List Part), Reads d text.toList parts → Splits d text parts) ∧
    ∀ a b : String, Balanced d a →
      ∃ before last first rest, pieces d a = before ++ [last] ∧ pieces d b = first :: rest ∧
        pieces d (a ++ b) = before ++ (last ++ first) :: rest := by
  refine ⟨fun quote => ?_, fun text => ?_, fun text parts h => h.splits,
    fun a b ha => pieces_append ha b⟩
  · cases d <;> simp [Dialect.backslashHides, or_assoc]
  · obtain ⟨parts, hparts⟩ := exists_reads d text.toList
    exact ⟨parts, hparts, fun others hothers => hothers.unique hparts⟩

/-- A hidden quote and a `?` in a closed section, a character of several bytes, and a section that
nothing closes. -/
theorem splits_as_read_nested :
    Reads .clickhouse "`\\`?`é?'?`".toList
      [.quoted '`' ['\\', '`', '?'], .plain 'é', .plain '?', .unclosed '\'' ['?', '`']] ∧
    Splits .clickhouse "`\\`?`é?'?`"
      [.quoted '`' ['\\', '`', '?'], .plain 'é', .plain '?', .unclosed '\'' ['?', '`']] ∧
    Balanced .clickhouse "`\\`?`é?" ∧
    ∃ before last first rest, pieces .clickhouse "`\\`?`é?" = before ++ [last] ∧
      pieces .clickhouse "'?`" = first :: rest ∧
      pieces .clickhouse ("`\\`?`é?" ++ "'?`") = before ++ (last ++ first) :: rest := by
  have hclosed : Begins .clickhouse
      ('`' :: (['\\', '`', '?'] ++ '`' :: ['é', '?', '\'', '?', '`'])) (.quoted '`' ['\\', '`', '?'])
      ['é', '?', '\'', '?', '`'] :=
    .quoted _ rfl (by decide) (by decide)
  have hopen : Begins .clickhouse ['\'', '?', '`'] (.unclosed '\'' ['?', '`']) [] :=
    .unclosed rfl (by decide)
  have hreads : Reads .clickhouse "`\\`?`é?'?`".toList
      [.quoted '`' ['\\', '`', '?'], .plain 'é', .plain '?', .unclosed '\'' ['?', '`']] :=
    .cons hclosed (.cons (.plain _ rfl) (.cons (.plain _ rfl) (.cons hopen .nil)))
  have hbalanced : Balanced .clickhouse "`\\`?`é?" := rfl
  obtain ⟨-, -, hsplits, happend⟩ := splits_as_read .clickhouse
  exact ⟨hreads, hsplits _ _ hreads, hbalanced, happend _ _ hbalanced⟩

end Template

end SqlWeave
