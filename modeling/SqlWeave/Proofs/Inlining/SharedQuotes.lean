import SqlWeave.Proofs.Inlining.Sections

/-!
# Quotes that both readers know

A template for PostgreSQL is read twice : by a reader who looks for markers, and once markers
have become numbers, by a reader who looks for these. Each has his own quotes. Both know `'` and
`"`, only the first knows the backtick, and only the second knows tags.

They stand together (`Together`) as long as the text shares their quotes, which is to say that
outside quotes there is no backtick and no tag (`SharesQuotes`). One token that the second reader
reads keeps them together or parts them for good (`Together.step`), and so they agree about the
places of a text whose sections are closed exactly if it shares their quotes
(`readAlike_iff`).

Where they stand together outside quotes, the text can be cut : the tokens are those of its two
parts (`Together.tokensFrom_append`).
-/

namespace SqlWeave.Inline

open Template (after_append)

/-! ## Places outside quotes -/

/-- Where a reader of numbered placeholders stands after a token that was read in a section. -/
def Section.next : Section → Token → Section
  | .outside, .copied [c] => if c = '\'' ∨ c = '"' then .quoted c else .outside
  | .outside, .copied (_ :: tag) => .tagged tag
  | .quoted quote, .copied [c] => if c = quote then .outside else .quoted quote
  | .tagged tag, .copied cs => if cs = '$' :: tag then .outside else .tagged tag
  | s, _ => s

/-- Where he stands after several. -/
def Section.after (s : Section) (tokens : List Token) : Section := tokens.foldl Section.next s

/-- For each character, whether a reader of markers comes to it outside quotes. -/
def outsideMarked (state : Quoting) : List Char → List Bool
  | [] => []
  | c :: cs => (state == .outside) :: outsideMarked (state.next .postgres c) cs

/-- For each character that tokens spell, whether a reader of numbered placeholders comes to its
token outside quotes. -/
def outsideNumbered (s : Section) : List Token → List Bool
  | [] => []
  | token :: rest =>
    List.replicate token.spelling.length (s == .outside) ++ outsideNumbered (s.next token) rest

/-- Every quoted section of a text is closed, for both readers. -/
structure Closed (text : List Char) : Prop where
  marked : Quoting.after .postgres .outside text = .outside
  numbered : Section.after .outside (tokens text) = .outside

/-- The readers are outside quotes at the same places. -/
def ReadAlike (text : List Char) : Prop :=
  outsideMarked .outside text = outsideNumbered .outside (tokens text)

/-- No backtick and no tag stands where a reader of markers is outside quotes. -/
def SharesQuotes (state : Quoting) : List Char → Prop
  | [] => True
  | c :: cs =>
    (state = .outside → c ≠ '`' ∧ (c = '$' → tagRest? cs = none)) ∧
      SharesQuotes (state.next .postgres c) cs

instance SharesQuotes.decidable : ∀ (state : Quoting) (cs : List Char),
    Decidable (SharesQuotes state cs)
  | _, [] => inferInstanceAs (Decidable True)
  | state, c :: cs =>
    have := decidable (state.next .postgres c) cs
    inferInstanceAs (Decidable ((state = .outside → c ≠ '`' ∧ (c = '$' → tagRest? cs = none)) ∧
      SharesQuotes (state.next .postgres c) cs))

theorem Step.next_eq {s s' : Section} {text rest : List Char} {token : Token}
    (h : Step s text token s' rest) : s.next token = s' := by
  cases h with
  | inQuote cs hc => simp [Section.next, hc]
  | inTag hc =>
    rw [Section.next, if_neg]
    intro htag
    exact hc ⟨_, congrArg (· ++ _) htag.symm⟩
  | opensQuote cs hc => simp [Section.next, hc]
  | plain cs hquote hdollar => simp [Section.next, hquote]
  | opensTag cs hletters =>
    rename_i letters
    cases letters <;> rfl
  | closesQuote | closesTag | ordinal | dollar => simp [Section.next]

theorem outsideMarked_append (state : Quoting) (a b : List Char) :
    outsideMarked state (a ++ b) =
      outsideMarked state a ++ outsideMarked (state.after .postgres a) b := by
  induction a generalizing state with
  | nil => rfl
  | cons c a ih => exact congrArg (_ :: ·) (ih _)

@[simp] theorem length_outsideMarked (state : Quoting) (cs : List Char) :
    (outsideMarked state cs).length = cs.length := by
  induction cs generalizing state with
  | nil => rfl
  | cons c cs ih => simp [outsideMarked, ih]

/-- Without quotes every place is outside quotes. -/
theorem outsideMarked_unquoted {cs : List Char} (h : ∀ c ∈ cs, isQuote c = false) :
    outsideMarked .outside cs = List.replicate cs.length true := by
  induction cs with
  | nil => rfl
  | cons c cs ih =>
    rw [List.forall_mem_cons] at h
    have hnext : Quoting.next .postgres .outside c = .outside := by simp [Quoting.next, h.1]
    rw [outsideMarked, hnext, List.length_cons, List.replicate_succ, ih h.2]
    rfl

/-! ## Standing together -/

/-- Both readers are outside quotes, or between two quotes that both know. -/
inductive Together : Quoting → Section → Prop
  | outside : Together .outside .outside
  | quoted {quote : Char} (h : quote = '\'' ∨ quote = '"') :
    Together (.inside quote) (.quoted quote)

/-- One of the readers is outside quotes and the other is not. -/
def Parted (state : Quoting) (s : Section) : Prop := ¬(state = .outside ↔ s = .outside)

theorem Together.beq_outside {state : Quoting} {s : Section} (h : Together state s) :
    (state == .outside) = (s == .outside) := by
  cases h <;> rfl

/-- A digit is neither a quote nor a `$`. -/
theorem isQuote_of_isDigit {c : Char} (h : c.isDigit = true) : isQuote c = false ∧ c ≠ '$' := by
  simp only [isQuote, Bool.or_eq_false_iff, beq_eq_false_iff_ne]
  refine ⟨⟨⟨?_, ?_⟩, ?_⟩, ?_⟩ <;>
    · rintro rfl
      cases h

theorem isQuote_of_isAlpha {c : Char} (h : c.isAlpha = true) : isQuote c = false := by
  simp only [isQuote, Bool.or_eq_false_iff, beq_eq_false_iff_ne]
  refine ⟨⟨?_, ?_⟩, ?_⟩ <;>
    · rintro rfl
      cases h

/-- A number begins no tag. -/
theorem tagRest?_of_startsOrdinal {cs : List Char} (h : startsOrdinal cs = true) :
    tagRest? cs = none := by
  cases htag : tagRest? cs with
  | none => rfl
  | some tag =>
    obtain ⟨letters, rest, hletters, -, rfl⟩ := tagRest?_eq_some htag
    rw [startsOrdinal_letters hletters] at h
    cases h

namespace SharesQuotes

variable {state : Quoting} {a b cs : List Char}

theorem of_append (h : SharesQuotes state (a ++ b)) :
    SharesQuotes (state.after .postgres a) b := by
  induction a generalizing state with
  | nil => exact h
  | cons c a ih => exact ih h.2

/-- Characters that no reader minds. -/
theorem unquoted_append (h : ∀ c ∈ cs, isQuote c = false ∧ c ≠ '$') :
    SharesQuotes .outside (cs ++ b) ↔ SharesQuotes .outside b := by
  induction cs with
  | nil => rfl
  | cons c cs ih =>
    rw [List.forall_mem_cons] at h
    obtain ⟨⟨hquote, hdollar⟩, hcs⟩ := h
    have hnext : Quoting.next .postgres .outside c = .outside := by simp [Quoting.next, hquote]
    have htick : c ≠ '`' := by
      rintro rfl
      cases hquote
    rw [List.cons_append, SharesQuotes, hnext, ih hcs]
    exact and_iff_right fun _ => ⟨htick, fun h => absurd h hdollar⟩

theorem ordinal_append {digits : List Char} (h : IsNumber digits) :
    SharesQuotes .outside ('$' :: (digits ++ b)) ↔ SharesQuotes .outside b := by
  have htag : tagRest? (digits ++ b) = none :=
    tagRest?_of_startsOrdinal (startsOrdinal_append h.start b)
  have hnext : Quoting.next .postgres .outside '$' = .outside := rfl
  rw [SharesQuotes, hnext, unquoted_append fun c hc => isQuote_of_isDigit (h.digits c hc)]
  exact and_iff_right fun _ => ⟨by decide, fun _ => htag⟩

end SharesQuotes

section Steps

variable {state : Quoting} {s s' : Section} {text rest : List Char} {token : Token}

/-- What a token does to readers who stand together : they see its characters alike and stand
together after it, and it is no reason for the text not to share their quotes. -/
structure Keeps (state : Quoting) (s : Section) (text : List Char) (token : Token) (s' : Section)
    (rest : List Char) : Prop where
  together : Together (state.after .postgres token.spelling) s'
  alike : outsideMarked state token.spelling =
    List.replicate token.spelling.length (s == .outside)
  shares_iff : SharesQuotes state text ↔ SharesQuotes (state.after .postgres token.spelling) rest

theorem Together.keeps_char {state' : Quoting} {c : Char} {cs : List Char} (h : Together state s)
    (hnext : state.next .postgres c = state') (h' : Together state' s')
    (hc : state = .outside → c ≠ '`' ∧ (c = '$' → tagRest? cs = none)) :
    Keeps state s (c :: cs) (.copied [c]) s' cs where
  together := by
    subst hnext
    exact h'
  alike := congrArg (fun mark => [mark]) h.beq_outside
  shares_iff := and_iff_right hc

/-- Both readers go over an ordinal, whose digits are no quotes. -/
theorem keeps_ordinal {digits : List Char} (h : IsNumber digits) (rest : List Char) :
    Keeps .outside .outside ('$' :: (digits ++ rest)) (.ordinal digits) .outside rest := by
  have hspelling : ∀ c ∈ '$' :: digits, isQuote c = false :=
    List.forall_mem_cons.mpr ⟨by decide, fun c hc => (isQuote_of_isDigit (h.digits c hc)).1⟩
  have hafter : Quoting.after .postgres .outside ('$' :: digits) = .outside :=
    Quoting.after_unquoted hspelling
  refine { together := ?_, alike := outsideMarked_unquoted hspelling, shares_iff := ?_ }
  · rw [Token.spelling, hafter]
    exact .outside
  · rw [Token.spelling, hafter]
    exact SharesQuotes.ordinal_append h

/-- A backtick opens quotes for the reader of markers only. -/
theorem parted_backtick (rest : List Char) :
    ¬SharesQuotes .outside ('`' :: rest) ∧
      Parted (Quoting.after .postgres .outside ['`']) .outside :=
  ⟨fun hshares => (hshares.1 rfl).1 rfl, by simp [Parted, Quoting.after, Quoting.next, isQuote]⟩

/-- A tag opens quotes for the reader of numbered placeholders only. -/
theorem parted_tag {letters : List Char} (h : ∀ c ∈ letters, c.isAlpha = true) (rest : List Char) :
    ¬SharesQuotes .outside ('$' :: (letters ++ '$' :: rest)) ∧
      Parted (Quoting.after .postgres .outside ('$' :: (letters ++ ['$'])))
        (.tagged (letters ++ ['$'])) := by
  refine ⟨fun hshares => ?_, ?_⟩
  · have htag := (hshares.1 rfl).2 rfl
    rw [tagRest?_letters h] at htag
    cases htag
  · have hspelling : ∀ c ∈ '$' :: (letters ++ ['$']), isQuote c = false := by
      intro c hc
      rcases List.mem_cons.mp hc with rfl | hc
      · rfl
      rcases List.mem_append.mp hc with hc | hc
      · exact isQuote_of_isAlpha (h c hc)
      · obtain rfl := List.mem_singleton.mp hc
        rfl
    rw [Quoting.after_unquoted hspelling]
    simp [Parted]

/-- One token keeps readers who stand together, or it parts them and the text does not share
their quotes. -/
theorem Together.step (h : Together state s) (hstep : Step s text token s' rest) :
    Keeps state s text token s' rest ∨
      ¬SharesQuotes state text ∧ Parted (state.after .postgres token.spelling) s' := by
  cases hstep with
  | closesQuote quote cs =>
    cases h with
    | quoted hquote =>
      have hnext : (Quoting.inside quote).next .postgres quote = .outside := by
        simp [Quoting.next, Dialect.backslashHides]
      exact .inl ((Together.quoted hquote).keeps_char hnext .outside (by simp))
  | @inQuote quote c _ hc =>
    cases h with
    | quoted hquote =>
      have hnext : (Quoting.inside quote).next .postgres c = .inside quote := by
        simp [Quoting.next, Dialect.backslashHides, hc]
      exact .inl ((Together.quoted hquote).keeps_char hnext (.quoted hquote) (by simp))
  | closesTag | inTag => cases h
  | @opensQuote c _ hc =>
    cases h
    have hchar : isQuote c = true ∧ c ≠ '`' ∧ c ≠ '$' := by rcases hc with rfl | rfl <;> decide
    have hnext : Quoting.outside.next .postgres c = .inside c := by simp [Quoting.next, hchar]
    exact .inl (Together.outside.keeps_char hnext (.quoted hc)
      fun _ => ⟨hchar.2.1, fun h => absurd h hchar.2.2⟩)
  | @plain c _ hquote hdollar =>
    cases h
    by_cases htick : c = '`'
    · subst htick
      exact .inr (parted_backtick rest)
    · have hnext : Quoting.outside.next .postgres c = .outside := by
        simp [Quoting.next, isQuote, not_or.mp hquote, htick]
      exact .inl (Together.outside.keeps_char hnext .outside
        fun _ => ⟨htick, fun h => absurd h hdollar⟩)
  | ordinal hdigits hcs =>
    cases h
    exact .inl (keeps_ordinal hdigits rest)
  | opensTag cs hletters =>
    cases h
    exact .inr (parted_tag hletters rest)
  | dollar hordinal htag =>
    cases h
    exact .inl (Together.outside.keeps_char rfl .outside fun _ => ⟨by decide, fun _ => htag⟩)

/-- A token is not empty. -/
theorem Step.spelling_ne_nil (h : Step s text token s' rest) : token.spelling ≠ [] := by
  intro hnil
  have hlt := h.length_lt
  rw [h.spelling, hnil] at hlt
  exact Nat.lt_irrefl _ hlt

end Steps

/-! ## Whole texts -/

section Runs

variable {state : Quoting} {s : Section}

/-- Readers who are parted do not agree about the next character, and if there is none, a section
is not closed. -/
theorem Parted.not_alike {text : List Char} (h : Parted state s)
    (hmarked : state.after .postgres text = .outside)
    (hnumbered : s.after (tokensFrom s text) = .outside) :
    outsideMarked state text ≠ outsideNumbered s (tokensFrom s text) := by
  intro halike
  cases text with
  | nil =>
    rw [tokensFrom] at hnumbered
    exact h (iff_of_true hmarked hnumbered)
  | cons c cs =>
    obtain ⟨token, s', rest, hstep⟩ := exists_step s c cs
    obtain ⟨a, as, hspelling⟩ := List.exists_cons_of_ne_nil hstep.spelling_ne_nil
    rw [hstep.tokensFrom_eq, outsideNumbered, hspelling, List.length_cons, List.replicate_succ,
      outsideMarked, List.cons_append] at halike
    have hhead : (state == .outside) = (s == .outside) := (List.cons.inj halike).1
    exact h (by simpa using congrArg (· = true) hhead)

/-- Readers who start together agree about the places of a text whose sections are closed exactly
if the text shares their quotes. -/
theorem Together.alike_iff {text : List Char} (h : Together state s)
    (hmarked : state.after .postgres text = .outside)
    (hnumbered : s.after (tokensFrom s text) = .outside) :
    outsideMarked state text = outsideNumbered s (tokensFrom s text) ↔
      SharesQuotes state text := by
  induction s, text using reading_induction generalizing state with
  | nil s =>
    rw [tokensFrom]
    exact iff_of_true rfl trivial
  | @step s text token s' rest hstep ih =>
    rw [hstep.tokensFrom_eq, Section.after, List.foldl_cons, hstep.next_eq] at hnumbered
    have hmarked' : (state.after .postgres token.spelling).after .postgres rest = .outside := by
      rw [← after_append, ← hstep.spelling]
      exact hmarked
    have hsplit : outsideMarked state text = outsideNumbered s (tokensFrom s text) ↔
        outsideMarked state token.spelling =
            List.replicate token.spelling.length (s == .outside) ∧
          outsideMarked (state.after .postgres token.spelling) rest =
            outsideNumbered s' (tokensFrom s' rest) := by
      rw [hstep.tokensFrom_eq, outsideNumbered, hstep.next_eq, hstep.spelling,
        outsideMarked_append]
      exact ⟨fun halike => List.append_inj halike (by simp),
        fun halike => congrArg₂ (· ++ ·) halike.1 halike.2⟩
    rw [hsplit]
    rcases h.step hstep with hkeeps | ⟨hshares, hparted⟩
    · rw [hkeeps.shares_iff, ← ih hkeeps.together hmarked' hnumbered]
      exact and_iff_right hkeeps.alike
    · exact iff_of_false (fun halike => hparted.not_alike hmarked' hnumbered halike.2) hshares

/-- A text that shares the quotes of readers who start together leaves them together. -/
theorem Together.run {text : List Char} (h : Together state s) (hshares : SharesQuotes state text) :
    Together (state.after .postgres text) (s.after (tokensFrom s text)) := by
  induction s, text using reading_induction generalizing state with
  | nil s =>
    rw [tokensFrom]
    exact h
  | step hstep ih =>
    obtain hkeeps | ⟨hnot, -⟩ := h.step hstep
    · have hrun := ih hkeeps.together (hkeeps.shares_iff.mp hshares)
      rw [hstep.tokensFrom_eq, Section.after, List.foldl_cons, hstep.next_eq, hstep.spelling,
        after_append]
      exact hrun
    · exact absurd hshares hnot

theorem startsOrdinal_of_startsWithDigit {cs : List Char} (h : Text.startsWithDigit cs = false) :
    startsOrdinal cs = false := by
  cases cs with
  | nil => rfl
  | cons c cs =>
    have hc : c.isDigit = false := h
    simp [startsOrdinal, hc]

/-- The first token of a text stays the first when the text goes on, unless a digit follows or the
text that goes on does not share the readers' quotes. -/
theorem Together.step_append {s' : Section} {token : Token} {a rest b : List Char}
    (h : Together state s) (hstep : Step s a token s' rest)
    (hshares : SharesQuotes state (a ++ b)) (hb : Text.startsWithDigit b = false) :
    Step s (a ++ b) token s' (rest ++ b) := by
  cases hstep with
  | closesQuote quote cs => exact .closesQuote quote _
  | inQuote cs hc => exact .inQuote _ hc
  | closesTag | inTag => cases h
  | opensQuote cs hc => exact .opensQuote _ hc
  | plain cs hquote hdollar => exact .plain _ hquote hdollar
  | ordinal hdigits hcs =>
    rw [List.cons_append, List.append_assoc]
    refine .ordinal hdigits ?_
    cases rest with
    | nil => exact hb
    | cons c cs => exact hcs
  | opensTag cs hletters =>
    rw [List.cons_append, List.append_assoc, List.cons_append]
    exact .opensTag _ hletters
  | dollar hordinal htag =>
    cases h
    refine .dollar ?_ ((hshares.1 rfl).2 rfl)
    cases rest with
    | nil => exact startsOrdinal_of_startsWithDigit hb
    | cons c cs => exact hordinal

/-- Where readers who started together are outside quotes, a text can be cut. -/
theorem Together.tokensFrom_append {a b : List Char} (h : Together state s)
    (hshares : SharesQuotes state (a ++ b)) (ha : state.after .postgres a = .outside)
    (hb : Text.startsWithDigit b = false) :
    tokensFrom s (a ++ b) = tokensFrom s a ++ tokensFrom .outside b := by
  induction s, a using reading_induction generalizing state with
  | nil s =>
    obtain rfl : state = .outside := ha
    cases h
    rw [tokensFrom.eq_def .outside []]
    rfl
  | step hstep ih =>
    have hstep' := h.step_append hstep hshares hb
    rw [hstep'.tokensFrom_eq, hstep.tokensFrom_eq, List.cons_append]
    rw [hstep.spelling, after_append] at ha
    obtain hkeeps | ⟨hnot, -⟩ := h.step hstep'
    · exact congrArg (_ :: ·) (ih hkeeps.together (hkeeps.shares_iff.mp hshares) ha)
    · exact absurd hshares hnot

end Runs

theorem readAlike_iff {text : List Char} (h : Closed text) :
    ReadAlike text ↔ SharesQuotes .outside text :=
  Together.outside.alike_iff h.marked h.numbered

/-- What is closed for a reader of markers is closed for both readers if they share its quotes. -/
theorem SharesQuotes.closed {text : List Char} (h : SharesQuotes .outside text)
    (hmarked : Quoting.after .postgres .outside text = .outside) : Closed text where
  marked := hmarked
  numbered := by
    have hrun := Together.outside.run h
    rw [hmarked] at hrun
    generalize hs : Section.after .outside (tokensFrom .outside text) = s at hrun
    cases hrun
    exact hs

/-! ## Texts put together -/

/-- If a `$` at the end of a text completes no tag, nothing that follows the text does. -/
theorem tagRest?_append {cs : List Char} (h : tagRest? (cs ++ ['$']) = none) (b : List Char) :
    tagRest? (cs ++ b) = none := by
  by_cases hcs : ∀ c ∈ cs, c.isAlpha = true
  · rw [tagRest?_letters hcs] at h
    cases h
  · have hdrop : cs.dropWhile Char.isAlpha ≠ [] := by simpa using hcs
    obtain ⟨c, rest, hrest⟩ := List.exists_cons_of_ne_nil hdrop
    simp only [tagRest?, List.dropWhile_append, hrest, List.isEmpty_cons, List.cons_append,
      Bool.false_eq_true, if_false] at h ⊢
    split at h <;> simp_all

namespace SharesQuotes

variable {state : Quoting} {a b cs : List Char}

/-- A text shares the readers' quotes with whatever follows if it does with a `$`. -/
theorem append (ha : SharesQuotes state (a ++ ['$'])) (hafter : state.after .postgres a = .outside)
    (hb : SharesQuotes .outside b) : SharesQuotes state (a ++ b) := by
  induction a generalizing state with
  | nil =>
    obtain rfl : state = .outside := hafter
    exact hb
  | cons c a ih =>
    refine ⟨fun hstate => ?_, ih ha.2 hafter⟩
    obtain ⟨htick, hdollar⟩ := ha.1 hstate
    exact ⟨htick, fun hc => tagRest?_append (hdollar hc) b⟩

/-- A text without backticks and `$` shares all quotes. -/
theorem of_not_mem (htick : '`' ∉ cs) (hdollar : '$' ∉ cs) :
    SharesQuotes state (cs ++ ['$']) := by
  induction cs generalizing state with
  | nil => exact ⟨fun _ => ⟨by decide, fun _ => rfl⟩, trivial⟩
  | cons c cs ih =>
    rw [List.mem_cons, not_or] at htick hdollar
    exact ⟨fun _ => ⟨Ne.symm htick.1, fun hc => absurd hc.symm hdollar.1⟩, ih htick.2 hdollar.2⟩

end SharesQuotes

end SqlWeave.Inline
