import Mathlib.Data.List.TakeWhile
import SqlWeave.Proofs.Inlining.Reading

/-!
# Reading token by token

A reader of numbered placeholders who stands in a section reads one token and stands in a section
again, with a text left to read (`Step`). Any text that is not empty has such a first token
(`exists_step`), and the tokens of the text are this one and those of what is left
(`Step.tokensFrom_eq`).

The replacements of tokens are put one after the other, and the first that fails decides
(`inOrder`, `replaceAll_eq_inOrder`).
-/

namespace SqlWeave.Inline

/-! ## One token -/

/-- Decimal digits of a number, the first of which is not zero. -/
structure IsNumber (digits : List Char) : Prop where
  start : startsOrdinal digits = true
  digits : ∀ c ∈ digits, c.isDigit = true

/-- A reader in a section reads the first token of a text, and is in a section again with the rest
of the text before him. -/
inductive Step : Section → List Char → Token → Section → List Char → Prop
  | closesQuote (quote : Char) (cs : List Char) :
    Step (.quoted quote) (quote :: cs) (.copied [quote]) .outside cs
  | inQuote {quote c : Char} (cs : List Char) (hc : c ≠ quote) :
    Step (.quoted quote) (c :: cs) (.copied [c]) (.quoted quote) cs
  | closesTag (tag cs : List Char) :
    Step (.tagged tag) ('$' :: (tag ++ cs)) (.copied ('$' :: tag)) .outside cs
  | inTag {tag cs : List Char} {c : Char} (hc : ¬ '$' :: tag <+: c :: cs) :
    Step (.tagged tag) (c :: cs) (.copied [c]) (.tagged tag) cs
  | opensQuote {c : Char} (cs : List Char) (hc : c = '\'' ∨ c = '"') :
    Step .outside (c :: cs) (.copied [c]) (.quoted c) cs
  | plain {c : Char} (cs : List Char) (hquote : ¬(c = '\'' ∨ c = '"')) (hdollar : c ≠ '$') :
    Step .outside (c :: cs) (.copied [c]) .outside cs
  | ordinal {digits cs : List Char} (hdigits : IsNumber digits)
    (hcs : Text.startsWithDigit cs = false) :
    Step .outside ('$' :: (digits ++ cs)) (.ordinal digits) .outside cs
  | opensTag {letters : List Char} (cs : List Char) (hletters : ∀ c ∈ letters, c.isAlpha = true) :
    Step .outside ('$' :: (letters ++ '$' :: cs)) (.copied ('$' :: (letters ++ ['$'])))
      (.tagged (letters ++ ['$'])) cs
  | dollar {cs : List Char} (hordinal : startsOrdinal cs = false) (htag : tagRest? cs = none) :
    Step .outside ('$' :: cs) (.copied ['$']) .outside cs

theorem startsOrdinal_append {digits : List Char} (h : startsOrdinal digits = true)
    (cs : List Char) : startsOrdinal (digits ++ cs) = true := by
  cases digits with
  | nil => cases h
  | cons c digits => exact h

/-- The code points of letters. -/
theorem toNat_of_isAlpha {c : Char} (h : c.isAlpha = true) :
    65 ≤ c.toNat ∧ c.toNat ≤ 90 ∨ 97 ≤ c.toNat ∧ c.toNat ≤ 122 := by
  have halpha : (decide (65 ≤ c.toNat ∧ c.toNat ≤ 90) ||
      (decide (97 ≤ c.toNat) && decide (c.toNat ≤ 122))) = true := h
  simpa using halpha

/-- The code points of digits. -/
theorem toNat_of_isDigit {c : Char} (h : c.isDigit = true) : 48 ≤ c.toNat ∧ c.toNat ≤ 57 := by
  have hdigit : (decide (48 ≤ c.toNat) && decide (c.toNat ≤ 57)) = true := h
  simpa using hdigit

/-- A letter is no digit. -/
theorem isDigit_of_isAlpha {c : Char} (h : c.isAlpha = true) : c.isDigit = false := by
  have hletter := toNat_of_isAlpha h
  rw [Bool.eq_false_iff]
  intro hdigit
  have hnumber := toNat_of_isDigit hdigit
  omega

/-- Letters before a `$` are no ordinal, and with it they are the rest of a tag. -/
theorem startsOrdinal_letters {letters : List Char} (h : ∀ c ∈ letters, c.isAlpha = true)
    (cs : List Char) : startsOrdinal (letters ++ '$' :: cs) = false := by
  cases letters with
  | nil => rfl
  | cons c letters =>
    have hletter : c.isAlpha = true := h c List.mem_cons_self
    simp [startsOrdinal, isDigit_of_isAlpha hletter]

theorem tagRest?_letters {letters : List Char} (h : ∀ c ∈ letters, c.isAlpha = true)
    (cs : List Char) : tagRest? (letters ++ '$' :: cs) = some (letters ++ ['$']) := by
  have hdollar : '$'.isAlpha = false := by decide
  simp [tagRest?, List.dropWhile_append_of_pos h, List.takeWhile_append_of_pos h, hdollar]

theorem tagRest?_eq_some {cs tag : List Char} (h : tagRest? cs = some tag) :
    ∃ letters rest, (∀ c ∈ letters, c.isAlpha = true) ∧ tag = letters ++ ['$'] ∧
      cs = letters ++ '$' :: rest := by
  unfold tagRest? at h
  split at h
  · rename_i rest hdrop
    refine ⟨cs.takeWhile Char.isAlpha, rest, fun c hc => List.mem_takeWhile_imp hc,
      (Option.some.inj h).symm, ?_⟩
    rw [← hdrop, List.takeWhile_append_dropWhile]
  · cases h

namespace Step

variable {s s' : Section} {text rest : List Char} {token : Token}

/-- The token spells what is read. -/
theorem spelling (h : Step s text token s' rest) : text = token.spelling ++ rest := by
  cases h <;> simp [Token.spelling]

/-- A token is never empty. -/
theorem length_lt (h : Step s text token s' rest) : rest.length < text.length := by
  cases h <;>
    · simp only [List.length_cons, List.length_append]
      omega

/-- The tokens of a text are the first and those of the rest. -/
theorem tokensFrom_eq (h : Step s text token s' rest) :
    tokensFrom s text = token :: tokensFrom s' rest := by
  cases h with
  | closesQuote quote cs => rw [tokensFrom, if_pos rfl]
  | inQuote cs hc => rw [tokensFrom, if_neg hc]
  | closesTag tag cs => rw [tokensFrom]; simp
  | inTag hc =>
    rw [tokensFrom, if_neg]
    rintro ⟨rfl, htag⟩
    exact hc (List.prefix_cons_iff.mpr (.inr ⟨_, rfl, List.isPrefixOf_iff_prefix.mp htag⟩))
  | opensQuote cs hc => rw [tokensFrom, if_pos hc]
  | plain cs hquote hdollar => rw [tokensFrom, if_neg hquote, if_pos hdollar]
  | ordinal hdigits hcs =>
    rw [tokensFrom, if_neg (by decide), if_neg (by simp),
      if_pos (startsOrdinal_append hdigits.start _)]
    simp [takeWhile_isDigit_append hdigits.digits hcs]
  | opensTag cs hletters =>
    rw [tokensFrom, if_neg (by decide), if_neg (by simp),
      if_neg (by simp [startsOrdinal_letters hletters]), tagRest?_letters hletters]
    simp
  | dollar hordinal htag =>
    rw [tokensFrom, if_neg (by decide), if_neg (by simp), if_neg (by simp [hordinal]), htag]

end Step

/-- The digits at the start of a text that begins with an ordinal. -/
theorem isNumber_takeWhile {cs : List Char} (h : startsOrdinal cs = true) :
    IsNumber (cs.takeWhile Char.isDigit) where
  start := by
    cases cs with
    | nil => cases h
    | cons c cs =>
      have hc : c.isDigit = true := by
        simp only [startsOrdinal, Bool.and_eq_true] at h
        exact h.1
      rw [List.takeWhile_cons_of_pos hc]
      exact h
  digits _ hc := List.mem_takeWhile_imp hc

theorem isNumber_toDigits {n : Nat} (hn : 0 < n) : IsNumber (Nat.toDigits 10 n) where
  start := by simpa using startsOrdinal_toDigits hn []
  digits _ hc := Nat.isDigit_of_mem_toDigits (by decide) (by decide) hc

theorem startsWithDigit_dropWhile (cs : List Char) :
    Text.startsWithDigit (cs.dropWhile Char.isDigit) = false := by
  have hhead := List.head?_dropWhile_not Char.isDigit cs
  cases hcs : cs.dropWhile Char.isDigit with
  | nil => rfl
  | cons c rest =>
    rw [hcs] at hhead
    exact hhead

/-- A text that is not empty has a first token. -/
theorem exists_step (s : Section) (c : Char) (cs : List Char) :
    ∃ token s' rest, Step s (c :: cs) token s' rest := by
  cases s with
  | quoted quote =>
    by_cases hc : c = quote
    · subst hc
      exact ⟨_, _, _, .closesQuote c cs⟩
    · exact ⟨_, _, _, .inQuote cs hc⟩
  | tagged tag =>
    by_cases htag : '$' :: tag <+: c :: cs
    · obtain ⟨rest, hrest⟩ := htag
      rw [← hrest]
      exact ⟨_, _, _, .closesTag tag rest⟩
    · exact ⟨_, _, _, .inTag htag⟩
  | outside =>
    by_cases hquote : c = '\'' ∨ c = '"'
    · exact ⟨_, _, _, .opensQuote cs hquote⟩
    by_cases hdollar : c ≠ '$'
    · exact ⟨_, _, _, .plain cs hquote hdollar⟩
    obtain rfl := Decidable.not_not.mp hdollar
    cases hordinal : startsOrdinal cs with
    | true =>
      rw [← List.takeWhile_append_dropWhile (p := Char.isDigit) (l := cs)]
      exact ⟨_, _, _, .ordinal (isNumber_takeWhile hordinal) (startsWithDigit_dropWhile cs)⟩
    | false =>
      cases htag : tagRest? cs with
      | none => exact ⟨_, _, _, .dollar hordinal htag⟩
      | some tag =>
        obtain ⟨letters, rest, hletters, rfl, rfl⟩ := tagRest?_eq_some htag
        exact ⟨_, _, _, .opensTag rest hletters⟩

/-- What holds where nothing is left to read, and before a token as soon as it holds after it, holds
of every text in every section. -/
@[elab_as_elim] theorem reading_induction {P : Section → List Char → Prop} (nil : ∀ s, P s [])
    (step : ∀ {s text token s' rest}, Step s text token s' rest → P s' rest → P s text)
    (s : Section) (text : List Char) : P s text := by
  induction hlen : text.length using Nat.strongRecOn generalizing s text with
  | ind n ih =>
    subst hlen
    cases text with
    | nil => exact nil s
    | cons c cs =>
      obtain ⟨token, s', rest, hstep⟩ := exists_step s c cs
      exact step hstep (ih _ hstep.length_lt _ _ rfl)

/-! ## Texts in order -/

/-- Texts one after the other, or the first failure among them. -/
def inOrder : List (Except RenderError (List Char)) → Except RenderError (List Char)
  | [] => .ok []
  | .error e :: _ => .error e
  | .ok cs :: rest => (inOrder rest).map (cs ++ ·)

theorem replaceAll_eq_inOrder (values : List Value) (tokens : List Token) :
    replaceAll values tokens = inOrder (tokens.map (Token.replacement values)) := by
  induction tokens with
  | nil => rfl
  | cons token tokens ih =>
    rw [replaceAll, List.map_cons, ih]
    cases token.replacement values <;> rfl

theorem inOrder_cons_congr {texts texts' : List (Except RenderError (List Char))}
    (h : inOrder texts = inOrder texts') (text : Except RenderError (List Char)) :
    inOrder (text :: texts) = inOrder (text :: texts') := by
  cases text with
  | error e => rfl
  | ok cs => rw [inOrder, inOrder, h]

/-- Some of the texts can be put together first. -/
theorem inOrder_append (texts more : List (Except RenderError (List Char))) :
    inOrder (texts ++ more) = inOrder (inOrder texts :: more) := by
  induction texts with
  | nil => cases hmore : inOrder more <;> simp [inOrder, hmore, Except.map]
  | cons text texts ih =>
    cases text with
    | error e => rfl
    | ok cs =>
      rw [List.cons_append, inOrder, ih, inOrder]
      cases inOrder texts with
      | error e => rfl
      | ok pre => cases hmore : inOrder more <;> simp [inOrder, hmore, Except.map]

theorem exists_inOrder_eq_ok_iff (texts : List (Except RenderError (List Char))) :
    (∃ cs, inOrder texts = .ok cs) ↔ ∀ text ∈ texts, ∃ cs, text = .ok cs := by
  induction texts with
  | nil => simp [inOrder]
  | cons text texts ih =>
    rw [List.forall_mem_cons, ← ih]
    cases text with
    | error e => simp [inOrder]
    | ok pre => cases hrest : inOrder texts <;> simp [inOrder, hrest, Except.map]

/-- Each text stands between those before it and those after it. -/
theorem inOrder_placed {before after : List (Except RenderError (List Char))}
    {text : Except RenderError (List Char)} {cs : List Char}
    (h : inOrder (before ++ text :: after) = .ok cs) :
    ∃ pre mid post, inOrder before = .ok pre ∧ text = .ok mid ∧ inOrder after = .ok post ∧
      cs = pre ++ (mid ++ post) := by
  rw [inOrder_append] at h
  cases hbefore : inOrder before with
  | error e => simp [hbefore, inOrder] at h
  | ok pre =>
    cases text with
    | error e => simp [hbefore, inOrder, Except.map] at h
    | ok mid =>
      cases hafter : inOrder after with
      | error e => simp [hbefore, hafter, inOrder, Except.map] at h
      | ok post =>
        refine ⟨pre, mid, post, rfl, rfl, rfl, ?_⟩
        simpa [hbefore, hafter, inOrder, Except.map, eq_comm] using h

/-- Texts that do not fail go before the others. -/
theorem inOrder_ok_append (texts : List (List Char))
    (more : List (Except RenderError (List Char))) :
    inOrder (texts.map .ok ++ more) = (inOrder more).map (texts.flatten ++ ·) := by
  induction texts with
  | nil => cases hmore : inOrder more <;> simp [hmore, Except.map]
  | cons cs texts ih =>
    rw [List.map_cons, List.cons_append, inOrder, ih]
    cases inOrder more <;> simp [Except.map]

end SqlWeave.Inline
