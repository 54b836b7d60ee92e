import SqlWeave.Literal
import SqlWeave.Proofs.MomentReading

/-!
# What literals are made of

Numbers, truth values and the missing value are written bare, without quotes : a minus sign if the
value is a negative number, and then letters, digits or a point (`Dialect.bare_literal`). All other
literals have quotes, and between them a moment has neither a quote nor a backslash
(`Dialect.ne_of_mem_momentBody`).
-/

namespace SqlWeave

namespace Text

/-- A character of a number without its sign, or of a word. -/
def isBareChar (c : Char) : Bool := c.isAlphanum || c == '.'

/-- At least one letter, digit or point, and a minus sign before them if `negative`. -/
def Bare (negative : Bool) (cs : List Char) : Prop :=
  ∃ body, cs = (if negative then '-' :: body else body) ∧ body ≠ [] ∧
    ∀ c ∈ body, isBareChar c = true

theorem isBareChar_of_isDigit {c : Char} (h : c.isDigit = true) : isBareChar c = true := by
  simp [isBareChar, Char.isAlphanum, h]

/-- The characters of numbers and words quote nothing, mark nothing, and are no signs. -/
theorem ne_of_isBareChar {c : Char} (h : isBareChar c = true) :
    c ≠ '\'' ∧ c ≠ '"' ∧ c ≠ '`' ∧ c ≠ '?' ∧ c ≠ '-' := by
  refine ⟨?_, ?_, ?_, ?_, ?_⟩ <;>
    · rintro rfl
      revert h
      decide

end Text

/-! ## Numbers -/

/-- A decimal in positional notation, where a whole number has no point. -/
theorem Decimal.bare_positional (x : Decimal) : Text.Bare false (x.positional .positional) := by
  have hdigits : ∀ c ∈ x.digitChars, Text.isBareChar c = true := fun c hc =>
    Text.isBareChar_of_isDigit (Nat.isDigit_of_mem_toDigits (by decide) (by decide) hc)
  have hzeros : ∀ n, ∀ c ∈ List.replicate n '0', Text.isBareChar c = true := fun n c hc =>
    List.eq_of_mem_replicate hc ▸ rfl
  have hne : x.digitChars ≠ [] := Nat.toDigits_ne_nil
  refine ⟨x.positional .positional, rfl, ?_⟩
  simp only [positional, wholeSuffix, FloatStyle.positional, Bool.false_eq_true, if_false,
    List.append_nil]
  split
  · refine ⟨by simp [hne], ?_⟩
    rw [List.forall_mem_append]
    exact ⟨hdigits, hzeros _⟩
  split
  · refine ⟨by simp, ?_⟩
    rw [List.forall_mem_append, List.forall_mem_cons]
    exact ⟨fun c hc => hdigits c (List.mem_of_mem_take hc), rfl,
      fun c hc => hdigits c (List.mem_of_mem_drop hc)⟩
  · refine ⟨by simp, ?_⟩
    rw [List.forall_mem_cons, List.forall_mem_cons, List.forall_mem_append]
    exact ⟨rfl, rfl, hzeros _, hdigits⟩

/-- A finite number has its sign in front and is written in digits with a point at most. -/
theorem Binary64.bare_render {x : Binary64} (h : x.isFinite = true) :
    Text.Bare x.negative (x.render .positional).toList := by
  have hnumber : x.isNaN = false := by
    simp only [isFinite, bne_iff_ne] at h
    simp [isNaN, h]
  obtain ⟨body, hbody, hne, hchars⟩ := x.shortest.bare_positional
  refine ⟨body, ?_, hne, hchars⟩
  have hrender : x.shortest.render .positional = body := by
    rw [Decimal.render, if_neg (by simp [FloatStyle.positional])]
    exact hbody
  simp [render, hnumber, h, hrender]

/-- A whole number. -/
theorem Text.bare_int (n : Int) : Text.Bare (decide (n < 0)) (toString n).toList := by
  have hdigits (k : Nat) : ∀ c ∈ Nat.toDigits 10 k, Text.isBareChar c = true := fun c hc =>
    Text.isBareChar_of_isDigit (Nat.isDigit_of_mem_toDigits (by decide) (by decide) hc)
  rw [Int.toString_eq_repr, Int.repr_eq_if]
  by_cases hn : 0 ≤ n
  · refine ⟨Nat.toDigits 10 n.toNat, ?_, Nat.toDigits_ne_nil, hdigits _⟩
    simp [hn, Int.not_lt.mpr hn]
  · refine ⟨Nat.toDigits 10 (-n).toNat, ?_, Nat.toDigits_ne_nil, hdigits _⟩
    simp [hn, Int.not_le.mp hn]

/-! ## Values -/

namespace Value

/-- Whether a value is written without quotes. -/
def isBare : Value → Bool
  | .null | .bool _ | .signed _ | .unsigned _ | .float _ => true
  | .text _ | .bytes _ | .dateTime _ => false

/-- Whether a value is a number with a minus sign. -/
def isNegative : Value → Bool
  | .signed n => n.toInt < 0
  | .float x => x.negative
  | _ => false

end Value

namespace Dialect

variable {d : Dialect}

/-- What is written without quotes has a minus sign exactly if it is a negative number. -/
theorem bare_literal {v : Value} {literal : String} (hv : v.isBare = true)
    (h : d.literal v = .ok literal) : Text.Bare v.isNegative literal.toList := by
  have hword {s : String} (hne : s.toList ≠ []) (hs : s.toList.all Text.isBareChar = true) :
      Text.Bare false s.toList :=
    ⟨s.toList, rfl, hne, List.all_eq_true.mp hs⟩
  cases v with
  | null =>
    obtain rfl : d.null = literal := Except.ok.inj h
    exact hword (by simp [null]) (by simp [null]; decide)
  | bool b =>
    obtain rfl : d.bool b = literal := Except.ok.inj h
    cases d <;> cases b <;> exact hword (by decide) (by decide)
  | signed n =>
    obtain rfl := Except.ok.inj h
    exact Text.bare_int n.toInt
  | unsigned n =>
    obtain rfl := Except.ok.inj h
    have hdigits := Text.bare_int n.toNat
    rw [decide_eq_false (Int.not_lt.mpr (Int.natCast_nonneg _))] at hdigits
    exact hdigits
  | float x =>
    rw [Dialect.literal] at h
    split at h
    · rename_i hfinite
      obtain rfl := Except.ok.inj h
      exact Binary64.bare_render hfinite
    · cases h
  | text | bytes | dateTime => cases hv

/-! ## Moments -/

/-- A character of a date, a time of day or an offset. -/
def isStampChar (c : Char) : Bool := c.isDigit || c ∈ ['-', '+', ' ', ':', '.']

theorem isStampChar_clockText (t : Time.DateTime) (places : Nat) :
    (t.clockText places).all isStampChar = true := by
  have hpadded (width n : Nat) : (Text.padded width n).all isStampChar = true :=
    List.all_eq_true.mpr fun c hc => by simp [isStampChar, Text.isDigit_of_mem_padded hc]
  have hyear : (Text.paddedInt 4 t.date.year).all isStampChar = true := by
    rw [Text.paddedInt, List.all_append, hpadded]
    split <;> rfl
  simp [Time.DateTime.clockText, Time.DateTime.dateText, Time.DateTime.minuteSecondText, hpadded,
    hyear, isStampChar]

theorem isStampChar_offsetText (t : Time.DateTime) : t.offsetText.all isStampChar = true := by
  have hpadded (width n : Nat) : (Text.padded width n).all isStampChar = true :=
    List.all_eq_true.mpr fun c hc => by simp [isStampChar, Text.isDigit_of_mem_padded hc]
  have hsign : isStampChar t.offsetSign = true := by
    rw [Time.DateTime.offsetSign]
    split <;> rfl
  simp [Time.DateTime.offsetText, hpadded, hsign]
  decide

/-- Between the quotes of a moment there is neither a quote nor a backslash. -/
theorem ne_of_mem_momentBody {t : Time.DateTime} {c : Char} (hc : c ∈ d.momentBody t) :
    c ≠ '\'' ∧ c ≠ '\\' := by
  have hall : (d.momentBody t).all isStampChar = true := by
    cases d <;> simp only [momentBody, List.all_append, isStampChar_clockText,
      isStampChar_offsetText, Bool.and_self]
  have hstamp := List.all_eq_true.mp hall c hc
  constructor <;>
    · rintro rfl
      revert hstamp
      decide

end Dialect

end SqlWeave
