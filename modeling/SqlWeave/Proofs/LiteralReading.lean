import Mathlib.Data.List.Basic
import SqlWeave.Literal

/-!
# Literals read back

A text literal is read character by character up to the quote that closes it
(`Dialect.readText`). In SQLite a quote written twice is one of the text and nothing else is
special. In the other dialects a backslash and the character after it stand for one character
by a table of nine, and an escape that is not in the table is refused. The literal of a byte
string is read by taking off the wrapper of the dialect and decoding the pairs of digits in it
(`Dialect.readBytes`). Neither reader knows how literals are written.

What is written for a text is read as that text, and the quote that closes it is the last
character written, so no character of a text ends its own literal. What is written for a byte
string is read as its bytes (`Dialect.literals_read_back`).
-/

namespace SqlWeave

namespace Text

/-! ## Pairs of digits -/

theorem hexValue?_hexDigit : ∀ n < 16, hexValue? (hexDigit n) = some n := by
  decide

/-- Two digits are one byte. -/
theorem ofHexPairs?_hexPair (b : UInt8) (rest : List Char) :
    ofHexPairs? (hexPair b ++ rest) = (ofHexPairs? rest).map (b :: ·) := by
  have hb := b.toNat_lt
  have hhigh := hexValue?_hexDigit (b.toNat / 16) (by omega)
  have hlow := hexValue?_hexDigit (b.toNat % 16) (by omega)
  have hwhole : UInt8.ofNat (16 * (b.toNat / 16) + b.toNat % 16) = b := by
    rw [Nat.div_add_mod, UInt8.ofNat_toNat]
  rw [hexPair, List.cons_append, List.singleton_append, ofHexPairs?, hhigh, hlow]
  cases ofHexPairs? rest with
  | none => rfl
  | some data => exact congrArg (fun b => some (b :: data)) hwhole

/-- The digits of a byte string spell it. -/
theorem ofHexPairs?_hexPairs (data : List UInt8) : ofHexPairs? (hexPairs data) = some data := by
  induction data with
  | nil => rfl
  | cons b data ih =>
    rw [hexPairs, List.flatMap_cons, ofHexPairs?_hexPair, ← hexPairs, ih, Option.map_some]

/-- What is left of a text without what it begins and ends with. -/
def unwrapped? (opening closing cs : List Char) : Option (List Char) :=
  (cs.dropPrefix? opening).bind (·.dropSuffix? closing)

theorem unwrapped?_append (opening cs closing : List Char) :
    unwrapped? opening closing (opening ++ cs ++ closing) = some cs := by
  rw [unwrapped?, List.append_assoc, List.dropPrefix?_append_of_beq _ (beq_self_eq_true opening),
    Option.bind_some, List.dropSuffix?_eq_some_iff]
  exact ⟨closing, rfl, beq_self_eq_true closing⟩

end Text

namespace Dialect

/-! ## Readers -/

/-- What a backslash and the character after it stand for. -/
def unescaped? : Char → Option Char
  | '0' => some '\x00'
  | 'b' => some '\x08'
  | 'n' => some '\n'
  | 'r' => some '\r'
  | 't' => some '\t'
  | 'Z' => some '\x1a'
  | '\'' => some '\''
  | '"' => some '"'
  | '\\' => some '\\'
  | _ => none

/-- A text with backslash escapes, read after its opening quote, and what stands after the
quote that closes it. -/
def readEscaped : List Char → Option (List Char × List Char)
  | [] => none
  | ['\\'] => none
  | '\\' :: c :: rest =>
    (unescaped? c).bind fun a => (readEscaped rest).map (Prod.map (a :: ·) id)
  | c :: rest =>
    if c = '\'' then some ([], rest) else (readEscaped rest).map (Prod.map (c :: ·) id)

/-- A text in which a quote is written twice, read after its opening quote, and what stands
after the quote that closes it. -/
def readDoubled : List Char → Option (List Char × List Char)
  | [] => none
  | '\'' :: '\'' :: rest => (readDoubled rest).map (Prod.map ('\'' :: ·) id)
  | c :: rest =>
    if c = '\'' then some ([], rest) else (readDoubled rest).map (Prod.map (c :: ·) id)

/-- The text that a literal stands for, and what stands after the literal. -/
def readText : Dialect → List Char → Option (List Char × List Char)
  | .sqlite, '\'' :: cs => readDoubled cs
  | .mysql, '\'' :: cs | .clickhouse, '\'' :: cs | .postgres, 'E' :: '\'' :: cs => readEscaped cs
  | _, _ => none

/-- The byte string that a whole literal stands for. -/
def readBytes (d : Dialect) (cs : List Char) : Option (List UInt8) :=
  let digits := match d with
    | .mysql | .sqlite => Text.unwrapped? ['X', '\''] ['\''] cs
    | .postgres => Text.unwrapped? ['\'', '\\', 'x'] "'::bytea".toList cs
    | .clickhouse => Text.unwrapped? "unhex('".toList ['\'', ')'] cs
  digits.bind Text.ofHexPairs?

/-! ## Characters of a text

One character of a text is read off what is written for it, whatever follows. -/

/-- A plain character is read as itself. -/
theorem readEscaped_plain {c : Char} (hquote : c ≠ '\'') (hback : c ≠ '\\') (rest : List Char) :
    readEscaped (c :: rest) = (readEscaped rest).map (Prod.map (c :: ·) id) := by
  rw [readEscaped, if_neg hquote] <;> simp [hback]

/-- An escape is read as the character that it stands for. -/
theorem readEscaped_escape {c a : Char} (h : unescaped? c = some a) (rest : List Char) :
    readEscaped ('\\' :: c :: rest) = (readEscaped rest).map (Prod.map (a :: ·) id) := by
  rw [readEscaped, h, Option.bind_some]

/-- A character is written as it is, if it is neither quote nor backslash, or as an escape that
stands for it. -/
theorem escapedChar_cases (c : Char) :
    (escapedChar c = [c] ∧ c ≠ '\'' ∧ c ≠ '\\') ∨
      ∃ e, escapedChar c = ['\\', e] ∧ unescaped? e = some c := by
  by_cases hc : c ∈ ['\x00', '\x08', '\n', '\r', '\t', '\x1a', '\'', '"', '\\']
  · right
    simp only [List.mem_cons, List.not_mem_nil, or_false] at hc
    rcases hc with rfl | rfl | rfl | rfl | rfl | rfl | rfl | rfl | rfl
    exacts [⟨'0', rfl, rfl⟩, ⟨'b', rfl, rfl⟩, ⟨'n', rfl, rfl⟩, ⟨'r', rfl, rfl⟩, ⟨'t', rfl, rfl⟩,
      ⟨'Z', rfl, rfl⟩, ⟨'\'', rfl, rfl⟩, ⟨'"', rfl, rfl⟩, ⟨'\\', rfl, rfl⟩]
  · left
    simp only [List.mem_cons, List.not_mem_nil, or_false, not_or] at hc
    simp [escapedChar, hc]

/-- A character is read back from how it is escaped. -/
theorem readEscaped_escapedChar (c : Char) (rest : List Char) :
    readEscaped (escapedChar c ++ rest) = (readEscaped rest).map (Prod.map (c :: ·) id) := by
  rcases escapedChar_cases c with ⟨hc, hquote, hback⟩ | ⟨e, hc, he⟩
  · rw [hc]
    exact readEscaped_plain hquote hback rest
  · rw [hc]
    exact readEscaped_escape he rest

/-- A character is read back from how it is doubled. -/
theorem readDoubled_doubledChar (c : Char) (rest : List Char) :
    readDoubled (doubledChar c ++ rest) = (readDoubled rest).map (Prod.map (c :: ·) id) := by
  by_cases hc : c = '\''
  · simp [doubledChar, hc, readDoubled]
  · rw [doubledChar, if_neg (by simpa using hc), List.singleton_append, readDoubled, if_neg hc]
    simp [hc]

/-! ## Whole literals -/

/-- The characters of a text are read off what is written for them, up to the quote. -/
theorem readEscaped_flatMap (cs rest : List Char) :
    readEscaped (cs.flatMap escapedChar ++ '\'' :: rest) = some (cs, rest) := by
  induction cs with
  | nil => rw [List.flatMap_nil, List.nil_append, readEscaped] <;> simp
  | cons c cs ih =>
    rw [List.flatMap_cons, List.append_assoc, readEscaped_escapedChar, ih]
    rfl

/-- The quote closes the literal only if no second one follows. -/
theorem readDoubled_flatMap (cs : List Char) {rest : List Char} (h : rest.head? ≠ some '\'') :
    readDoubled (cs.flatMap doubledChar ++ '\'' :: rest) = some (cs, rest) := by
  induction cs with
  | nil =>
    rw [List.flatMap_nil, List.nil_append, readDoubled]
    · simp
    · rintro more - rfl
      exact h rfl
  | cons c cs ih =>
    rw [List.flatMap_cons, List.append_assoc, readDoubled_doubledChar, ih]
    rfl

/-- Whatever stands after the literal of a text, if it is no quote, the literal is read as the
text and ends where it was written to end. -/
theorem readText_text_append (d : Dialect) (s : String) {rest : List Char}
    (h : rest.head? ≠ some '\'') :
    d.readText ((d.text s).toList ++ rest) = some (s.toList, rest) := by
  have hescaped := readEscaped_flatMap s.toList rest
  have hdoubled := readDoubled_flatMap s.toList h
  cases d <;> simpa [text, textMark, textBody, readText]

/-- A byte string is read back, in every dialect. -/
theorem readBytes_bytes (d : Dialect) (data : List UInt8) :
    d.readBytes (d.bytes data).toList = some data := by
  have hdigits := Text.ofHexPairs?_hexPairs data
  have hwrapped : (d.bytes data).toList =
      d.bytesWrapper.1.toList ++ Text.hexPairs data ++ d.bytesWrapper.2.toList := by
    simp [bytes]
  rw [hwrapped]
  cases d <;> exact (congrArg (Option.bind · _) (Text.unwrapped?_append _ _ _)).trans hdigits

/-- The literal of any text is read as that text and is closed by its last character, and the
literal of any byte string is read as its bytes. -/
theorem literals_read_back (d : Dialect) :
    (∀ s : String, d.readText (d.text s).toList = some (s.toList, [])) ∧
      ∀ data, d.readBytes (d.bytes data).toList = some data := by
  refine ⟨fun s => ?_, d.readBytes_bytes⟩
  have hend : ([] : List Char).head? ≠ some '\'' := nofun
  simpa using d.readText_text_append s hend

end Dialect

end SqlWeave
