import SqlWeave.Inline
import SqlWeave.Proofs.Inlining.Undollared

/-!
# Reading a text again to inline its values

The text of a query is read once more when its values are written out, by a reader who
looks for placeholders and copies everything else. There are two such readers, one for
question marks and one for numbers, and the second has rules of its own for quotes and for
`$`.

A text is copied (`Inline.Copied`) if a reader from outside quotes copies all of it and is
left outside quotes. Own texts without `$` and backticks are copied, and so are names and
byte strings, whatever they are. Both readers copy such texts and put in the place of the
`n`-th placeholder the literal of the `n`-th value (`Inline.Fills`), a numbered placeholder
only if no digit follows.
-/

namespace SqlWeave.Inline

open Template (Passes Quiet)

/-! ## Copied passages -/

/-- A reader of numbered placeholders who comes to a text in one section copies it, character
by character, and leaves it in another section, whatever follows. -/
def Copies (start : Section) (cs : List Char) (stop : Section) : Prop :=
  ∀ rest, tokensFrom start (cs ++ rest) =
    (cs.map fun c => .copied [c]) ++ tokensFrom stop rest

theorem Copies.nil (s : Section) : Copies s [] s :=
  fun _ => rfl

theorem Copies.append {start middle stop : Section} {a b : List Char}
    (ha : Copies start a middle) (hb : Copies middle b stop) : Copies start (a ++ b) stop := by
  intro rest
  rw [List.append_assoc, ha, hb, List.map_append, List.append_assoc]

/-- The section that a quote opens, if there is one. -/
def Section.ofQuote : Option Char → Section
  | none => .outside
  | some quote => .quoted quote

theorem copies_char {quote : Option Char} {c : Char} (h : ¬(quote = none ∧ c = '$')) :
    Copies (.ofQuote quote) [c] (.ofQuote (nextQuote quote c)) := by
  intro rest
  cases quote with
  | none =>
    have hdollar : c ≠ '$' := fun hc => h ⟨rfl, hc⟩
    rw [List.singleton_append, Section.ofQuote, tokensFrom]
    by_cases hquote : c = '\'' ∨ c = '"' <;> simp [nextQuote, Section.ofQuote, hquote, hdollar]
  | some quote =>
    rw [List.singleton_append, Section.ofQuote, tokensFrom]
    by_cases hc : c = quote <;> simp [nextQuote, Section.ofQuote, hc]

/-- A text without `$` outside quotes is copied. -/
theorem copies_of_undollared {start stop : Option Char} {cs : List Char}
    (h : Undollared start cs stop) : Copies (.ofQuote start) cs (.ofQuote stop) := by
  induction h with
  | nil quote => exact .nil _
  | cons hc _ ih => exact (copies_char hc).append ih

/-- Both readers copy a text, and are left outside quotes. -/
structure Copied (d : Dialect) (cs : List Char) : Prop where
  quiet : Quiet d cs
  numbered : d = .postgres → Copies .outside cs .outside

namespace Copied

variable {d : Dialect} {a b cs : List Char}

theorem nil (d : Dialect) : Copied d [] :=
  ⟨.nil d _, fun _ => .nil _⟩

theorem append (ha : Copied d a) (hb : Copied d b) : Copied d (a ++ b) :=
  ⟨ha.quiet.append hb.quiet, fun hd => (ha.numbered hd).append (hb.numbered hd)⟩

theorem of_quiet (h : Quiet d cs) (hcs : d = .postgres → Undollared none cs none) :
    Copied d cs :=
  ⟨h, fun hd => copies_of_undollared (hcs hd)⟩

theorem of_isWord {free : Bool} {s : String} (h : Layout.isWord free s = true) :
    Copied d s.toList :=
  of_quiet (Layout.quiet_of_isWord h) fun _ => undollared_of_isWord h

end Copied

/-- A name is copied, whatever it is. -/
theorem copied_quoteIdent (d : Dialect) (name : String) : Copied d (d.quoteIdent name).toList :=
  .of_quiet (Template.quiet_quoteIdent d name) fun hd => hd ▸ undollared_quoteIdent name

/-- A byte string that is written out is copied. -/
theorem copied_bytes (d : Dialect) (data : List UInt8) : Copied d (d.bytes data).toList :=
  .of_quiet (Template.quiet_bytes d data) fun hd => hd ▸ undollared_bytes data

/-- The missing value is copied. -/
theorem copied_null (d : Dialect) : Copied d d.null.toList :=
  .of_isWord (by rw [Dialect.null]; decide : Layout.isWord true d.null = true)

/-! ## Numbered placeholders -/

/-- The digits of a positive number begin an ordinal. -/
theorem startsOrdinal_toDigits {n : Nat} (hn : 0 < n) (rest : List Char) :
    startsOrdinal (Nat.toDigits 10 n ++ rest) = true := by
  induction n using Nat.strongRecOn generalizing rest with
  | ind n ih =>
    by_cases hlt : n < 10
    · have hdigit : ∀ k < 10, 0 < k → startsOrdinal [k.digitChar] = true := by decide
      rw [Nat.toDigits_of_lt_base hlt]
      exact hdigit n hlt hn
    · rw [Nat.toDigits_of_base_le (by decide) (by omega), List.append_assoc]
      exact ih (n / 10) (by omega) (by omega) _

theorem takeWhile_isDigit_eq_nil_iff {cs : List Char} :
    cs.takeWhile Char.isDigit = [] ↔ Text.startsWithDigit cs = false := by
  cases cs with
  | nil => simp [Text.startsWithDigit]
  | cons c cs => by_cases hc : c.isDigit <;> simp [Text.startsWithDigit, hc]

theorem takeWhile_isDigit_append {digits rest : List Char} (h : ∀ c ∈ digits, c.isDigit = true)
    (hrest : Text.startsWithDigit rest = false) :
    (digits ++ rest).takeWhile Char.isDigit = digits := by
  rw [List.takeWhile_append_of_pos h, takeWhile_isDigit_eq_nil_iff.mpr hrest, List.append_nil]

/-- A numbered placeholder that no digit follows is read as one ordinal. -/
theorem tokensFrom_placeholder {n : Nat} (hn : 0 < n) {rest : List Char}
    (hrest : Text.startsWithDigit rest = false) :
    tokensFrom .outside ((Dialect.placeholder .postgres n).toList ++ rest) =
      .ordinal (Nat.toDigits 10 n) :: tokensFrom .outside rest := by
  have hdigits : ∀ c ∈ Nat.toDigits 10 n, c.isDigit = true := fun c hc =>
    Nat.isDigit_of_mem_toDigits (by decide) (by decide) hc
  rw [Dialect.toList_placeholder, List.cons_append, tokensFrom]
  simp [startsOrdinal_toDigits hn, takeWhile_isDigit_append hdigits hrest]

theorem numberOf_toDigits (n : Nat) : numberOf (Nat.toDigits 10 n) = n := by
  rw [numberOf, ← Nat.ofDigitChars_eq_foldl, Nat.ofDigitChars_ten_toDigits]

/-- An ordinal that is the number of a value stands for its literal. -/
theorem replacement_toDigits {values : List Value} {n : Nat} (hn : n < values.length) :
    (Token.ordinal (Nat.toDigits 10 (n + 1))).replacement values =
      literalAt .postgres values n := by
  simp [Token.replacement, numberOf_toDigits, Nat.succ_le_of_lt hn]

/-! ## The two readers -/

theorem replaceAll_copied (values : List Value) (cs : List Char) (rest : List Token) :
    replaceAll values ((cs.map fun c => .copied [c]) ++ rest) =
      (replaceAll values rest).map (cs ++ ·) := by
  induction cs with
  | nil => cases hrest : replaceAll values rest <;> simp [hrest, Except.map]
  | cons c cs ih =>
    rw [List.map_cons, List.cons_append, replaceAll, Token.replacement, ih]
    cases replaceAll values rest <;> rfl

theorem markedFrom_passes {d : Dialect} (values : List Value) {start stop : Quoting}
    {cs : List Char} (h : Passes d start cs stop) (n : Nat) (rest : List Char) :
    markedFrom d values start n (cs ++ rest) =
      (markedFrom d values stop n rest).map (cs ++ ·) := by
  induction cs generalizing start with
  | nil =>
    obtain rfl := h.after_eq
    cases hrest : markedFrom d values start n rest <;> simp [Quoting.after, hrest, Except.map]
  | cons c cs ih =>
    obtain ⟨hc, hcs⟩ := h.uncons
    rw [List.cons_append, markedFrom, hc, if_neg (by simp), ih hcs]
    cases markedFrom d values stop n rest <;> rfl

/-- A way of reading a text that copies what is to be copied and puts in the place of each
placeholder the literal of the value with its number. `read n` is for a reader who has
passed `n` placeholders. -/
structure Fills (d : Dialect) (values : List Value)
    (read : Nat → List Char → Except RenderError (List Char)) : Prop where
  nil : ∀ n, read n [] = .ok []
  copied : ∀ {cs}, Copied d cs → ∀ n rest, read n (cs ++ rest) = (read n rest).map (cs ++ ·)
  placeholder : ∀ {n rest}, n < values.length →
    (d = .postgres → Text.startsWithDigit rest = false) →
    read n ((d.placeholder (n + 1)).toList ++ rest) =
      match literalAt d values n with
      | .error e => .error e
      | .ok literal => (read (n + 1) rest).map (literal ++ ·)

theorem fills_numbered (values : List Value) :
    Fills .postgres values fun _ cs => replaceAll values (tokensFrom .outside cs) where
  nil _ := by rw [tokensFrom, replaceAll]
  copied h _ rest := by rw [h.numbered rfl, replaceAll_copied]
  placeholder {n _} hn hrest := by
    rw [tokensFrom_placeholder (Nat.succ_pos _) (hrest rfl)]
    cases hliteral : literalAt .postgres values n <;>
      simp [replaceAll, replacement_toDigits hn, hliteral]

theorem fills_marked {d : Dialect} (hd : d ≠ .postgres) (values : List Value) :
    Fills d values (markedFrom d values .outside) where
  nil _ := rfl
  copied h n rest := markedFrom_passes values h.quiet n rest
  placeholder _ _ := by
    rw [Dialect.placeholder_of_ne_postgres hd]
    rfl

end SqlWeave.Inline
