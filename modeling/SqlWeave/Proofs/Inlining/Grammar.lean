import SqlWeave.Proofs.Inlining.Sections

/-!
# A text with numbered placeholders, part by part

Between delimiters a text with numbered placeholders is copied : between two single or double
quotes, and between two equal tags. Outside of them a `$` with a number that does not begin with
zero is an ordinal, and every other character stands for itself. A section that is not closed runs
to the end of the text. `Reads` says so without a reader who goes from character to character and
remembers where he is.

Every text can be read in this way (`exists_reads`), and what its parts are written as is what
the reader's tokens are written as (`Reads.inOrder_tokens`).
-/

namespace SqlWeave.Inline

/-! ## Parts -/

/-- What opens a copied section and closes it again. -/
inductive IsDelimiter : List Char → Prop
  | single : IsDelimiter ['\'']
  | double : IsDelimiter ['"']
  | tag {letters : List Char} (h : ∀ c ∈ letters, c.isAlpha = true) :
    IsDelimiter ('$' :: (letters ++ ['$']))

/-- A part of a text with numbered placeholders. -/
inductive Part where
  | plain (c : Char)
  /-- A section with its delimiters. -/
  | enclosed (cs : List Char)
  | ordinal (digits : List Char)

/-- In `body`, with `tail` after it, no occurrence of a delimiter begins. -/
def Without (delim body tail : List Char) : Prop :=
  ∀ before after, body ++ tail = before ++ (delim ++ after) → body.length ≤ before.length

/-- A text is read as parts. A section goes to the next occurrence of its delimiter, or else to the
end of the text. -/
inductive Reads : List Char → List Part → Prop
  | nil : Reads [] []
  | plain {c : Char} {rest : List Char} {parts : List Part}
    (hdelim : ∀ delim, IsDelimiter delim → ¬delim <+: c :: rest)
    (hordinal : ∀ digits, IsNumber digits → ¬ '$' :: digits <+: c :: rest)
    (hrest : Reads rest parts) : Reads (c :: rest) (.plain c :: parts)
  | ordinal {digits rest : List Char} {parts : List Part} (hdigits : IsNumber digits)
    (hend : Text.startsWithDigit rest = false) (hrest : Reads rest parts) :
    Reads ('$' :: (digits ++ rest)) (.ordinal digits :: parts)
  | closed {delim body rest : List Char} {parts : List Part} (hdelim : IsDelimiter delim)
    (hbody : Without delim body (delim ++ rest)) (hrest : Reads rest parts) :
    Reads (delim ++ (body ++ (delim ++ rest))) (.enclosed (delim ++ (body ++ delim)) :: parts)
  | unclosed {delim body : List Char} (hdelim : IsDelimiter delim)
    (hbody : Without delim body []) : Reads (delim ++ body) [.enclosed (delim ++ body)]

/-! ## What parts are written as -/

/-- The literal that an ordinal stands for. A number that does not fit into 64 bits is refused by
its text, and one that is not that of a value as one value too many. -/
def ordinalText (values : List Value) (digits : List Char) : Except RenderError (List Char) :=
  let n := numberOf digits
  if UInt64.size ≤ n then .error (.unsupportedValue (.ofList ('$' :: digits)))
  else
    match values[n - 1]? with
    | none => .error (.placeholderCount n values.length)
    | some v => (Dialect.literal .postgres v).map String.toList

/-- What a part is written as. -/
def Part.text (values : List Value) : Part → Except RenderError (List Char)
  | .plain c => .ok [c]
  | .enclosed cs => .ok cs
  | .ordinal digits => ordinalText values digits

/-- What a token is written as. -/
def Token.text (values : List Value) : Token → Except RenderError (List Char)
  | .copied cs => .ok cs
  | .ordinal digits => ordinalText values digits

/-- The text that parts are written as, one after the other, or the failure of the first that
fails. -/
def written (values : List Value) (parts : List Part) : Except RenderError (List Char) :=
  inOrder (parts.map (Part.text values))

/-! ## The reader between delimiters -/

/-- The section that a delimiter opens. -/
def opened : List Char → Section
  | [] => .outside
  | [quote] => .quoted quote
  | _ :: tag => .tagged tag

theorem opened_tag (letters : List Char) :
    opened ('$' :: (letters ++ ['$'])) = .tagged (letters ++ ['$']) := by
  cases letters <;> rfl

namespace IsDelimiter

variable {delim body tail cs : List Char} {c : Char}

theorem step_opens (h : IsDelimiter delim) (rest : List Char) :
    Step .outside (delim ++ rest) (.copied delim) (opened delim) rest := by
  cases h with
  | single => exact .opensQuote rest (.inl rfl)
  | double => exact .opensQuote rest (.inr rfl)
  | tag hletters =>
    rw [opened_tag]
    simpa using Step.opensTag rest hletters

theorem step_closes (h : IsDelimiter delim) (rest : List Char) :
    Step (opened delim) (delim ++ rest) (.copied delim) .outside rest := by
  cases h with
  | single => exact .closesQuote _ rest
  | double => exact .closesQuote _ rest
  | tag hletters =>
    rw [opened_tag]
    exact .closesTag _ rest

theorem step_within (h : IsDelimiter delim) (hc : ¬delim <+: c :: cs) :
    Step (opened delim) (c :: cs) (.copied [c]) (opened delim) cs := by
  cases h with
  | single => exact .inQuote cs fun h => hc (h ▸ ⟨cs, rfl⟩)
  | double => exact .inQuote cs fun h => hc (h ▸ ⟨cs, rfl⟩)
  | tag hletters =>
    rw [opened_tag]
    exact .inTag hc

/-- A reader in a section copies what is before its delimiter. -/
theorem tokensFrom_body (h : IsDelimiter delim) (hbody : Without delim body tail) :
    tokensFrom (opened delim) (body ++ tail) =
      (body.map fun c => [c]).map .copied ++ tokensFrom (opened delim) tail := by
  induction body with
  | nil => rfl
  | cons c body ih =>
    have hc : ¬delim <+: c :: (body ++ tail) := by
      rintro ⟨after, hafter⟩
      have := hbody [] after hafter.symm
      simp at this
    have hrest : Without delim body tail := fun before after hsplit =>
      Nat.le_of_succ_le_succ (hbody (c :: before) after (congrArg (c :: ·) hsplit))
    rw [List.cons_append, (h.step_within hc).tokensFrom_eq, ih hrest]
    rfl

/-- A section that is closed is copied in pieces. -/
theorem tokens_closed {rest : List Char} (h : IsDelimiter delim)
    (hbody : Without delim body (delim ++ rest)) :
    tokens (delim ++ (body ++ (delim ++ rest))) =
      (delim :: (body.map (fun c => [c]) ++ [delim])).map .copied ++ tokens rest := by
  rw [tokens, (h.step_opens _).tokensFrom_eq, h.tokensFrom_body hbody,
    (h.step_closes rest).tokensFrom_eq]
  simp [tokens]

/-- A section that is not closed is copied in pieces to the end. -/
theorem tokens_unclosed (h : IsDelimiter delim) (hbody : Without delim body []) :
    tokens (delim ++ body) = (delim :: body.map (fun c => [c])).map .copied := by
  have htokens := h.tokensFrom_body hbody
  rw [List.append_nil, tokensFrom, List.append_nil] at htokens
  rw [tokens, (h.step_opens body).tokensFrom_eq, htokens, List.map_cons]

end IsDelimiter

/-- A `$` or any other character that begins neither a section nor an ordinal is a token of its
own. -/
theorem step_of_plain {c : Char} {rest : List Char}
    (hdelim : ∀ delim, IsDelimiter delim → ¬delim <+: c :: rest)
    (hordinal : ∀ digits, IsNumber digits → ¬ '$' :: digits <+: c :: rest) :
    Step .outside (c :: rest) (.copied [c]) .outside rest := by
  obtain ⟨token, s', left, h⟩ := exists_step .outside c rest
  cases h with
  | opensQuote _ hc =>
    rcases hc with rfl | rfl
    · exact absurd ⟨rest, rfl⟩ (hdelim _ .single)
    · exact absurd ⟨rest, rfl⟩ (hdelim _ .double)
  | plain _ hquote hdollar => exact .plain rest hquote hdollar
  | @ordinal digits _ hdigits hcs => exact absurd ⟨left, rfl⟩ (hordinal digits hdigits)
  | @opensTag letters _ hletters =>
    refine absurd ⟨left, ?_⟩ (hdelim _ (.tag hletters))
    simp
  | dollar hordinal htag => exact .dollar hordinal htag

theorem inOrder_copied_append (values : List Value) (texts : List (List Char))
    (more : List Token) :
    inOrder ((texts.map Token.copied ++ more).map (Token.text values)) =
      (inOrder (more.map (Token.text values))).map (texts.flatten ++ ·) := by
  rw [List.map_append, List.map_map, ← inOrder_ok_append]
  rfl

/-- A reader's tokens are written as the parts are. -/
theorem Reads.inOrder_tokens {text : List Char} {parts : List Part} (h : Reads text parts)
    (values : List Value) :
    inOrder ((tokens text).map (Token.text values)) = written values parts := by
  have hchars (cs : List Char) : (cs.map fun c => [c]).flatten = cs := by
    rw [← List.flatMap_def, List.flatMap_singleton']
  induction h with
  | nil => simp [tokens, tokensFrom, written, inOrder]
  | plain hdelim hordinal _ ih =>
    rw [tokens, (step_of_plain hdelim hordinal).tokensFrom_eq, ← tokens, List.map_cons, Token.text,
      inOrder, ih]
    rfl
  | ordinal hdigits hend _ ih =>
    rw [tokens, (Step.ordinal hdigits hend).tokensFrom_eq, ← tokens, List.map_cons, Token.text,
      written, List.map_cons, Part.text]
    cases ordinalText values _ with
    | error e => rfl
    | ok literal => rw [inOrder, inOrder, ih, written]
  | closed hdelim hbody _ ih =>
    rw [hdelim.tokens_closed hbody, inOrder_copied_append, ih, written, written, List.map_cons,
      Part.text, inOrder]
    simp [hchars]
  | @unclosed delim body hdelim hbody =>
    have hcopied := inOrder_copied_append values (delim :: body.map fun c => [c]) []
    rw [List.append_nil] at hcopied
    rw [hdelim.tokens_unclosed hbody, hcopied]
    simp [written, Part.text, inOrder, Except.map, hchars]

/-! ## Every text can be read -/

/-- If no delimiter begins at the first character, there is one in the text only if there is one in
the rest. -/
theorem Without.cons {delim cs tail : List Char} {c : Char} (hc : ¬delim <+: c :: (cs ++ tail))
    (h : Without delim cs tail) : Without delim (c :: cs) tail := by
  intro before after hsplit
  cases before with
  | nil => exact absurd ⟨after, hsplit.symm⟩ hc
  | cons b before => exact Nat.succ_le_succ (h before after (List.cons.inj hsplit).2)

/-- The next occurrence of a delimiter, if there is one. -/
theorem exists_first (delim cs : List Char) :
    Without delim cs [] ∨
      ∃ body rest, cs = body ++ (delim ++ rest) ∧ Without delim body (delim ++ rest) := by
  induction cs with
  | nil => exact .inl fun _ _ _ => Nat.zero_le _
  | cons c cs ih =>
    by_cases hc : delim <+: c :: cs
    · obtain ⟨rest, hrest⟩ := hc
      exact .inr ⟨[], rest, hrest.symm, fun _ _ _ => Nat.zero_le _⟩
    rcases ih with hnone | ⟨body, rest, rfl, hbody⟩
    · exact .inl (hnone.cons (by simpa using hc))
    · exact .inr ⟨c :: body, rest, rfl, hbody.cons hc⟩

theorem IsDelimiter.ne_nil {delim : List Char} (h : IsDelimiter delim) : delim ≠ [] := by
  cases h <;> simp

/-- Every text can be read. -/
theorem exists_reads (text : List Char) : ∃ parts, Reads text parts := by
  induction hlen : text.length using Nat.strongRecOn generalizing text with
  | ind n ih =>
    subst hlen
    have ih (rest : List Char) (h : rest.length < text.length) : ∃ parts, Reads rest parts :=
      ih rest.length h rest rfl
    by_cases hdelim : ∃ delim, IsDelimiter delim ∧ delim <+: text
    · obtain ⟨delim, hdelim, cs, rfl⟩ := hdelim
      rcases exists_first delim cs with hnone | ⟨body, rest, rfl, hbody⟩
      · exact ⟨_, .unclosed hdelim hnone⟩
      · have hpos := List.length_pos_iff.mpr hdelim.ne_nil
        obtain ⟨parts, hparts⟩ := ih rest (by simp only [List.length_append]; omega)
        exact ⟨_, .closed hdelim hbody hparts⟩
    by_cases hordinal : ∃ digits, IsNumber digits ∧ '$' :: digits <+: text
    · obtain ⟨digits, hdigits, cs, rfl⟩ := hordinal
      -- the longest run of digits, of which these may be only the first
      have hnumber := isNumber_takeWhile (startsOrdinal_append hdigits.start cs)
      have hsplit := List.takeWhile_append_dropWhile (p := Char.isDigit) (l := digits ++ cs)
      have hshort := List.length_dropWhile_le Char.isDigit (digits ++ cs)
      obtain ⟨parts, hparts⟩ := ih ((digits ++ cs).dropWhile Char.isDigit)
        (Nat.lt_succ_of_le hshort)
      rw [List.cons_append, ← hsplit]
      exact ⟨_, .ordinal hnumber (startsWithDigit_dropWhile _) hparts⟩
    cases text with
    | nil => exact ⟨_, .nil⟩
    | cons c rest =>
      obtain ⟨parts, hparts⟩ := ih rest (by simp)
      exact ⟨_, .plain (fun delim h hprefix => hdelim ⟨delim, h, hprefix⟩)
        (fun digits h hprefix => hordinal ⟨digits, h, hprefix⟩) hparts⟩

end SqlWeave.Inline
