import SqlWeave.Proofs.Inlining.CharBytes
import SqlWeave.Proofs.Inlining.Grammar

/-!
# Inlining byte by byte

The numbered placeholders of a text can be replaced in one loop over its bytes. The loop keeps the
number of the byte that it has come to, the quote and the tag of the section that it is in, and
what it has written (`Loop`). It looks ahead over digits and letters, and whatever it copies is
a slice of the text, asked for by the numbers of bytes (`Loop.turn`). A turn breaks if there is no
such slice, or if it takes one from zero.

At each turn the loop stands between two characters, and reads one token (`Loop.turn_eq`). So it
ends, no turn breaks, and what it ends with is what the text is written as, part by part
(`bytewise_exact`).
-/

namespace SqlWeave.Inline

open Text.Utf8

/-! ## The loop -/

/-- What the loop keeps from turn to turn. Its quote is `$` between tags. -/
structure Loop where
  /-- The number of the byte it has come to. -/
  index : Nat := 0
  quote : Option Char := none
  tag : Option String := none
  out : String := ""

/-- How a turn of the loop comes out. -/
inductive Turn where
  | goesOn (l : Loop)
  | fails (e : RenderError)
  /-- There is no such slice, or no such number. -/
  | breaks

namespace Loop

/-- The byte of a text, as a character. -/
def charAt? (text : String) (index : Nat) : Option Char := (encode text)[index]?.map Char.ofUInt8

/-- The number of the first byte from `start` on that is no such character. -/
def runEnd (p : Char → Bool) (text : String) (start : Nat) : Nat :=
  start + (((encode text).drop start).takeWhile fun b => p (Char.ofUInt8 b)).length

/-- The loop after it has written `s` and come to byte `stop`. -/
def write (l : Loop) (s : String) (stop : Nat) : Loop := { l with index := stop, out := l.out ++ s }

/-- A quote outside opens a section, and its own quote closes it. -/
def quoteTurn (l : Loop) (quote : Char) : Turn :=
  .goesOn { l.write (.singleton quote) (l.index + 1) with
    quote := if l.quote.isSome then none else some quote }

/-- A `$` between tags may begin the closing one. -/
def tagTurn (text : String) (l : Loop) : Turn :=
  match l.tag with
  | none => .goesOn (l.write "$" (l.index + 1))
  | some tag =>
    match slice? text l.index (encode text).length with
    | none => .breaks
    | some rest =>
      if tag.toList <+: rest.toList then
        .goesOn { l.write tag (l.index + (encode tag).length) with quote := none, tag := none }
      else .goesOn (l.write "$" (l.index + 1))

/-- A `$` before a number that ends at byte `stop`. -/
def ordinalTurn (values : List Value) (text : String) (l : Loop) (stop : Nat) : Turn :=
  match slice? text (l.index + 1) stop with
  | none => .breaks
  | some digits =>
    let n := numberOf digits.toList
    if UInt64.size ≤ n then
      match slice? text l.index stop with
      | none => .breaks
      | some token => .fails (.unsupportedValue token)
    else if n = 0 then .breaks
    else
      match values[n - 1]? with
      | none => .fails (.placeholderCount n values.length)
      | some v =>
        match Dialect.literal .postgres v with
        | .error e => .fails e
        | .ok literal => .goesOn (l.write literal stop)

/-- A `$` outside may begin an ordinal or a tag. -/
def dollarTurn (values : List Value) (text : String) (l : Loop) : Turn :=
  if (charAt? text (l.index + 1)).any fun c => c.isDigit && c != '0' then
    ordinalTurn values text l (runEnd Char.isDigit text (l.index + 1))
  else
    let stop := runEnd Char.isAlpha text (l.index + 1)
    if charAt? text stop = some '$' then
      match slice? text l.index (stop + 1) with
      | none => .breaks
      | some tag => .goesOn { l.write tag (stop + 1) with quote := some '$', tag := some tag }
    else .goesOn (l.write "$" (l.index + 1))

/-- Anything else is copied with all its bytes. -/
def copyTurn (text : String) (l : Loop) (length : Nat) : Turn :=
  match slice? text l.index (l.index + length) with
  | none => .breaks
  | some s => .goesOn (l.write s (l.index + length))

/-- A turn of the loop at a byte. -/
def turn (values : List Value) (text : String) (l : Loop) (b : UInt8) : Turn :=
  let c := Char.ofUInt8 b
  if (c = '\'' ∨ c = '"') ∧ (l.quote = none ∨ l.quote = some c) then l.quoteTurn c
  else if c = '$' ∧ l.quote = some '$' then l.tagTurn text
  else if c = '$' ∧ l.quote = none then l.dollarTurn values text
  else l.copyTurn text (charLength b)

end Loop

/-- The loop ends with a result, after turns none of which breaks. -/
inductive Ends (values : List Value) (text : String) : Loop → Except RenderError String → Prop
  | done {l : Loop} (hend : (encode text)[l.index]? = none) : Ends values text l (.ok l.out)
  | fails {l : Loop} {b : UInt8} {e : RenderError} (hb : (encode text)[l.index]? = some b)
    (hturn : l.turn values text b = .fails e) : Ends values text l (.error e)
  | goesOn {l l' : Loop} {b : UInt8} {r : Except RenderError String}
    (hb : (encode text)[l.index]? = some b) (hturn : l.turn values text b = .goesOn l')
    (hrest : Ends values text l' r) : Ends values text l r

/-- The loop ends with one result. -/
theorem Ends.unique {values : List Value} {text : String} {l : Loop}
    {r r' : Except RenderError String} (h : Ends values text l r) (h' : Ends values text l r') :
    r = r' := by
  induction h with
  | done hend => cases h' <;> simp_all
  | fails hb hturn => cases h' <;> simp_all
  | goesOn hb hturn _ ih => cases h' <;> simp_all

/-! ## Bytes and characters -/

section Positions

variable {before cs : List Char} {p : Char → Bool}

theorem ascii_of_isDigit {c : Char} (h : c.isDigit = true) : c.toNat < 0x80 := by
  have := toNat_of_isDigit h
  omega

theorem ascii_of_isAlpha {c : Char} (h : c.isAlpha = true) : c.toNat < 0x80 := by
  have := toNat_of_isAlpha h
  omega

/-- The bytes from a character on are those of the characters from it on. -/
theorem drop_encode (before cs : List Char) :
    (encode (.ofList (before ++ cs))).drop (size before) = bytes cs := by
  rw [encode_ofList, bytes_append, size, List.drop_left]

theorem getElem?_encode (before cs : List Char) :
    (encode (.ofList (before ++ cs)))[size before]? = cs.head?.map lead := by
  rw [← Nat.add_zero (size before), ← List.getElem?_drop, drop_encode]
  cases cs with
  | nil => rfl
  | cons c cs =>
    obtain ⟨others, hothers⟩ := utf8EncodeChar_eq_cons c
    rw [bytes_cons, hothers]
    rfl

/-- The program looks at a character through the first of its bytes. -/
theorem charAt?_size (before cs : List Char) :
    Loop.charAt? (.ofList (before ++ cs)) (size before) =
      cs.head?.map fun c => Char.ofUInt8 (lead c) := by
  rw [Loop.charAt?, getElem?_encode, Option.map_map]
  rfl

/-- A run of ASCII characters ends at a character. -/
theorem runEnd_size (hp : ∀ c, p c = true → c.toNat < 0x80) (before cs : List Char) :
    Loop.runEnd p (.ofList (before ++ cs)) (size before) = size (before ++ cs.takeWhile p) := by
  rw [Loop.runEnd, drop_encode, takeWhile_bytes hp, size_append]
  rfl

end Positions

/-! ## One turn -/

/-- The quotes of the sections that a reader from outside quotes comes to. -/
def Section.Proper : Section → Prop
  | .quoted quote => quote = '\'' ∨ quote = '"'
  | .outside | .tagged _ => True

/-- The quote that the loop keeps in a section. -/
def Section.quote? : Section → Option Char
  | .outside => none
  | .quoted quote => some quote
  | .tagged _ => some '$'

/-- The tag that the loop keeps in a section. -/
def Section.tag? : Section → Option String
  | .tagged tag => some (.ofList ('$' :: tag))
  | .outside | .quoted _ => none

/-- Proper sections are left for proper ones. -/
theorem Step.proper {s s' : Section} {text rest : List Char} {token : Token}
    (h : Step s text token s' rest) (hs : s.Proper) : s'.Proper := by
  cases h with
  | inQuote => exact hs
  | opensQuote _ hc => exact hc
  | closesQuote | closesTag | inTag | plain | ordinal | opensTag | dollar => trivial

/-- A number that does not begin with zero is not zero. -/
theorem numberOf_pos {digits : List Char} (h : IsNumber digits) : 0 < numberOf digits := by
  have hmono (ds : List Char) (n : Nat) (hn : 0 < n) :
      0 < ds.foldl (fun n c => 10 * n + (c.toNat - '0'.toNat)) n := by
    induction ds generalizing n with
    | nil => exact hn
    | cons d ds ih => exact ih (10 * n + (d.toNat - '0'.toNat)) (by omega)
  cases digits with
  | nil => cases h.start
  | cons c ds =>
    refine hmono ds (10 * 0 + (c.toNat - '0'.toNat)) ?_
    have hstart := h.start
    simp only [startsOrdinal, Char.isDigit, Bool.and_eq_true, decide_eq_true_eq, bne_iff_ne,
      UInt32.le_iff_toNat_le] at hstart
    have hle : '0'.toNat ≤ c.toNat := hstart.1.1
    have hne : c.toNat ≠ '0'.toNat := fun heq => hstart.2 (Char.toNat_inj.mp heq)
    omega

namespace Loop

variable {values : List Value} {before cs : List Char} {c : Char} {out : List Char}

/-- The loop after it has come to a section and written some text, between two characters. -/
def after (before : List Char) (s : Section) (out : List Char) : Loop :=
  ⟨size before, s.quote?, s.tag?, .ofList out⟩

/-- What a turn at a token comes to. -/
def reading (before : List Char) (token : Token) (s : Section) (out : List Char) :
    Except RenderError (List Char) → Turn
  | .error e => .fails e
  | .ok cs => .goesOn (.after (before ++ token.spelling) s (out ++ cs))

/-- A turn at the first byte of a character tells that character. -/
theorem turn_lead (text : String) (l : Loop) (c : Char) :
    l.turn values text (lead c) =
      if (c = '\'' ∨ c = '"') ∧ (l.quote = none ∨ l.quote = some c) then l.quoteTurn c
      else if c = '$' ∧ l.quote = some '$' then l.tagTurn text
      else if c = '$' ∧ l.quote = none then l.dollarTurn values text
      else l.copyTurn text (size [c]) := by
  rw [turn, charLength_lead]
  rcases ofUInt8_lead c with ⟨hc, -⟩ | ⟨hlead, hc⟩
  · rw [hc]
  · have hne {x : Char} (hx : 0x80 ≤ x.toNat) : x ≠ '\'' ∧ x ≠ '"' ∧ x ≠ '$' := by
      refine ⟨?_, ?_, ?_⟩ <;> rintro rfl <;> exact absurd hx (by decide)
    simp [hne hlead, hne hc]

theorem write_after (before : List Char) (s : Section) (out cs : List Char) :
    (Loop.after before s out).write (.ofList cs) (size (before ++ cs)) =
      .after (before ++ cs) s (out ++ cs) := by
  simp [write, Loop.after, String.ofList_append]

theorem index_after (before : List Char) (s : Section) (out : List Char) :
    (Loop.after before s out).index = size before :=
  rfl

theorem size_succ (before : List Char) : size before + 1 = size (before ++ ['$']) := by
  rw [size_append]
  rfl

theorem write_dollar (before : List Char) (s : Section) (out : List Char) :
    (Loop.after before s out).write "$" ((Loop.after before s out).index + 1) =
      .after (before ++ ['$']) s (out ++ ['$']) := by
  rw [index_after, size_succ]
  exact write_after before s out ['$']

/-- A character is copied. -/
theorem copyTurn_after (before : List Char) (c : Char) (cs : List Char) (s : Section) :
    (Loop.after before s out).copyTurn (.ofList (before ++ c :: cs)) (size [c]) =
      .goesOn (.after (before ++ [c]) s (out ++ [c])) := by
  have hslice := slice?_between before [c] cs
  rw [List.append_assoc, List.singleton_append, size_append] at hslice
  rw [copyTurn, Loop.after, hslice, ← size_append]
  exact congrArg Turn.goesOn (write_after before s out [c])

/-- An opening quote, or the closing one of a section. -/
theorem quoteTurn_after (s s' : Section) {quote : Char} (hquote : quote = '\'' ∨ quote = '"')
    (hs : s'.quote? = if s.quote?.isSome then none else some quote) (htag : s'.tag? = s.tag?) :
    (Loop.after before s out).quoteTurn quote =
      .goesOn (.after (before ++ [quote]) s' (out ++ [quote])) := by
  have hindex : (Loop.after before s out).index + 1 = size (before ++ [quote]) := by
    rw [size_append]
    rcases hquote with rfl | rfl <;> rfl
  rw [quoteTurn, hindex, String.singleton_eq_ofList, write_after]
  simp only [Loop.after, hs, htag]
  rfl

/-- The rest of a text can be cut off at a character. -/
theorem slice?_end (before cs : List Char) :
    slice? (.ofList (before ++ cs)) (size before)
      (encode (.ofList (before ++ cs))).length = some (.ofList cs) := by
  have hslice := slice?_between before cs []
  rwa [List.append_nil, ← length_encode (before ++ cs)] at hslice

theorem tagTurn_after {tag : List Char} (htag : ¬ '$' :: tag <+: '$' :: cs) :
    (Loop.after before (.tagged tag) out).tagTurn (.ofList (before ++ '$' :: cs)) =
      .goesOn (.after (before ++ ['$']) (.tagged tag) (out ++ ['$'])) := by
  have hslice := slice?_end before ('$' :: cs)
  simp only [tagTurn, Loop.after, Section.tag?, hslice, String.toList_ofList, if_neg htag]
  exact congrArg Turn.goesOn (write_dollar before (.tagged tag) out)

/-- A tag that is met again closes the section. -/
theorem tagTurn_closes (before tag cs : List Char) :
    (Loop.after before (.tagged tag) out).tagTurn (.ofList (before ++ '$' :: (tag ++ cs))) =
      .goesOn (.after (before ++ '$' :: tag) .outside (out ++ '$' :: tag)) := by
  have hslice := slice?_end before ('$' :: (tag ++ cs))
  have hprefix : '$' :: tag <+: '$' :: (tag ++ cs) := ⟨cs, rfl⟩
  simp only [tagTurn, Loop.after, Section.tag?, hslice, String.toList_ofList, if_pos hprefix]
  rw [length_encode ('$' :: tag), ← size_append]
  exact congrArg Turn.goesOn (write_after before .outside out ('$' :: tag))

theorem startsOrdinal_eq_any (before cs : List Char) :
    ((charAt? (.ofList (before ++ cs)) (size before)).any fun c => c.isDigit && c != '0') =
      startsOrdinal cs := by
  rw [charAt?_size]
  cases cs with
  | nil => rfl
  | cons c cs =>
    have hascii : ∀ c : Char, (c.isDigit && c != '0') = true → c.toNat < 0x80 := fun c hc =>
      ascii_of_isDigit (Bool.and_eq_true_iff.mp hc).1
    exact apply_ofUInt8_lead hascii c

/-- The turn over a number writes what the grammar has for it. -/
theorem ordinalTurn_after {digits : List Char} (hdigits : IsNumber digits) (before cs : List Char) :
    (Loop.after before .outside out).ordinalTurn values
        (.ofList (before ++ '$' :: (digits ++ cs))) (size (before ++ '$' :: digits)) =
      reading before (.ordinal digits) .outside out (ordinalText values digits) := by
  have hdigitsSlice : slice? (.ofList (before ++ '$' :: (digits ++ cs))) (size (before ++ ['$']))
      (size (before ++ '$' :: digits)) = some (.ofList digits) := by
    simpa using slice?_between (before ++ ['$']) digits cs
  have htokenSlice : slice? (.ofList (before ++ '$' :: (digits ++ cs))) (size before)
      (size (before ++ '$' :: digits)) = some (.ofList ('$' :: digits)) := by
    simpa using slice?_between before ('$' :: digits) cs
  have hpos : numberOf digits ≠ 0 := (numberOf_pos hdigits).ne'
  simp only [ordinalTurn, index_after, size_succ, hdigitsSlice, String.toList_ofList, ordinalText,
    htokenSlice, if_neg hpos]
  split
  · rfl
  cases values[numberOf digits - 1]? with
  | none => rfl
  | some v =>
    cases hliteral : Dialect.literal .postgres v with
    | error e => simp [hliteral, Except.map, reading]
    | ok literal =>
      simp [hliteral, Except.map, reading, write, Loop.after, String.ofList_append, Token.spelling]

theorem charAt?_eq_some_iff {a : Char} (ha : a.toNat < 0x80) (before cs : List Char) :
    charAt? (.ofList (before ++ cs)) (size before) = some a ↔ cs.head? = some a := by
  rw [charAt?_size]
  cases cs with
  | nil => simp
  | cons c cs => simp [ofUInt8_lead_eq_iff ha]

theorem slice?_tag (before letters rest : List Char) :
    slice? (.ofList (before ++ '$' :: (letters ++ '$' :: rest))) (size before)
      (size (before ++ '$' :: letters ++ ['$'])) = some (.ofList ('$' :: (letters ++ ['$']))) := by
  simpa using slice?_between before ('$' :: (letters ++ ['$'])) rest

/-- At a `$` outside the loop looks at what is behind it. -/
theorem dollarTurn_after (before cs : List Char) (out : List Char) :
    (Loop.after before .outside out).dollarTurn values (.ofList (before ++ '$' :: cs)) =
      if startsOrdinal cs then
        (Loop.after before .outside out).ordinalTurn values (.ofList (before ++ '$' :: cs))
          (size (before ++ '$' :: cs.takeWhile Char.isDigit))
      else if (cs.dropWhile Char.isAlpha).head? = some '$' then
        .goesOn (.after (before ++ '$' :: (cs.takeWhile Char.isAlpha ++ ['$']))
          (.tagged (cs.takeWhile Char.isAlpha ++ ['$']))
          (out ++ '$' :: (cs.takeWhile Char.isAlpha ++ ['$'])))
      else .goesOn (.after (before ++ ['$']) .outside (out ++ ['$'])) := by
  have hjoin (cs : List Char) : before ++ '$' :: cs = before ++ ['$'] ++ cs := by simp
  have hstop (p : Char → Bool) (hp : ∀ c, p c = true → c.toNat < 0x80) :
      runEnd p (.ofList (before ++ '$' :: cs)) (size (before ++ ['$'])) =
        size (before ++ '$' :: cs.takeWhile p) := by
    rw [hjoin cs, runEnd_size hp, ← hjoin]
  have hdigit : ((charAt? (.ofList (before ++ '$' :: cs)) (size (before ++ ['$']))).any
      fun c => c.isDigit && c != '0') = startsOrdinal cs := by
    rw [hjoin, startsOrdinal_eq_any]
  have hdollar : charAt? (.ofList (before ++ '$' :: cs))
      (size (before ++ '$' :: cs.takeWhile Char.isAlpha)) = some '$' ↔
        (cs.dropWhile Char.isAlpha).head? = some '$' := by
    rw [← charAt?_eq_some_iff (by decide) (before ++ '$' :: cs.takeWhile Char.isAlpha),
      List.append_assoc, List.cons_append, List.takeWhile_append_dropWhile]
  simp only [dollarTurn, index_after, size_succ, hdigit, hstop _ fun _ => ascii_of_isDigit,
    hstop _ fun _ => ascii_of_isAlpha, hdollar]
  split
  · rfl
  split
  · rename_i hhead
    obtain ⟨rest, hrest⟩ := List.head?_eq_some_iff.mp hhead
    have hsplit := List.takeWhile_append_dropWhile (p := Char.isAlpha) (l := cs)
    rw [hrest] at hsplit
    generalize cs.takeWhile Char.isAlpha = letters at hsplit ⊢
    subst hsplit
    have htag : before ++ '$' :: letters ++ ['$'] = before ++ '$' :: (letters ++ ['$']) := by simp
    rw [slice?_tag, htag]
    dsimp only
    rw [write_after]
    rfl
  · exact congrArg Turn.goesOn (write_after before .outside out ['$'])

theorem dollarTurn_ordinal {digits : List Char} (hdigits : IsNumber digits)
    (hcs : Text.startsWithDigit cs = false) :
    (Loop.after before .outside out).dollarTurn values
      (.ofList (before ++ '$' :: (digits ++ cs))) =
      reading before (.ordinal digits) .outside out (ordinalText values digits) := by
  rw [dollarTurn_after, if_pos (startsOrdinal_append hdigits.start cs),
    takeWhile_isDigit_append hdigits.digits hcs, ordinalTurn_after hdigits]

/-- A tag opens a section. -/
theorem dollarTurn_tag {letters : List Char} (hletters : ∀ c ∈ letters, c.isAlpha = true) :
    (Loop.after before .outside out).dollarTurn values
      (.ofList (before ++ '$' :: (letters ++ '$' :: cs))) =
      .goesOn (.after (before ++ '$' :: (letters ++ ['$'])) (.tagged (letters ++ ['$']))
        (out ++ '$' :: (letters ++ ['$']))) := by
  have hdollar : '$'.isAlpha = false := by decide
  have hdrop : ((letters ++ '$' :: cs).dropWhile Char.isAlpha).head? = some '$' := by
    simp [List.dropWhile_append_of_pos hletters, hdollar]
  have htake : (letters ++ '$' :: cs).takeWhile Char.isAlpha = letters := by
    simp [List.takeWhile_append_of_pos hletters, hdollar]
  rw [dollarTurn_after, startsOrdinal_letters hletters, if_neg Bool.false_ne_true, if_pos hdrop,
    htake]

/-- Any other `$` is copied. -/
theorem dollarTurn_plain (hordinal : startsOrdinal cs = false) (htag : tagRest? cs = none) :
    (Loop.after before .outside out).dollarTurn values (.ofList (before ++ '$' :: cs)) =
      .goesOn (.after (before ++ ['$']) .outside (out ++ ['$'])) := by
  have hdrop : (cs.dropWhile Char.isAlpha).head? ≠ some '$' := by
    intro hhead
    obtain ⟨rest, hrest⟩ := List.head?_eq_some_iff.mp hhead
    simp [tagRest?, hrest] at htag
  rw [dollarTurn_after, hordinal, if_neg Bool.false_ne_true, if_neg hdrop]

/-- A turn of the loop between two characters reads one token. -/
theorem turn_eq {s s' : Section} {token : Token} {rest : List Char} (hs : s.Proper)
    (h : Step s (c :: cs) token s' rest) :
    (Loop.after before s out).turn values (.ofList (before ++ c :: cs)) (lead c) =
      reading before token s' out (token.text values) := by
  rw [turn_lead]
  cases h with
  | closesQuote quote cs =>
    rw [if_pos ⟨hs, .inr rfl⟩]
    exact quoteTurn_after (.quoted c) .outside hs (if_pos rfl).symm rfl
  | @inQuote quote c cs hc =>
    have hdollar : quote ≠ '$' := by
      rintro rfl
      rcases hs with h | h <;> exact absurd h (by decide)
    have hquote : (Loop.after before (.quoted quote) out).quote = some quote := rfl
    rw [if_neg (by simp [hquote, Ne.symm hc]), if_neg (by simp [hquote, hdollar]),
      if_neg (by simp [hquote]), copyTurn_after]
    rfl
  | closesTag tag cs =>
    rw [if_neg (by simp), if_pos ⟨rfl, rfl⟩, tagTurn_closes]
    rfl
  | @inTag tag cs c hc =>
    have hquote : (Loop.after before (.tagged tag) out).quote = some '$' := rfl
    by_cases hdollar : c = '$'
    · subst hdollar
      rw [if_neg (by simp), if_pos ⟨rfl, rfl⟩, tagTurn_after hc]
      rfl
    · rw [if_neg (by simp [hquote, Ne.symm hdollar]), if_neg (by simp [hdollar]),
        if_neg (by simp [hdollar]), copyTurn_after]
      rfl
  | opensQuote cs hc =>
    rw [if_pos ⟨hc, .inl rfl⟩]
    exact quoteTurn_after .outside (.quoted c) hc (if_neg Bool.false_ne_true).symm rfl
  | plain cs hquote hdollar =>
    rw [if_neg (by simp [hquote]), if_neg (by simp [hdollar]), if_neg (by simp [hdollar]),
      copyTurn_after]
    rfl
  | ordinal hdigits hcs =>
    rw [if_neg (by simp), if_neg (by simp [Loop.after, Section.quote?]), if_pos ⟨rfl, rfl⟩]
    exact dollarTurn_ordinal hdigits hcs
  | opensTag cs hletters =>
    rw [if_neg (by simp), if_neg (by simp [Loop.after, Section.quote?]), if_pos ⟨rfl, rfl⟩]
    exact dollarTurn_tag hletters
  | dollar hordinal htag =>
    rw [if_neg (by simp), if_neg (by simp [Loop.after, Section.quote?]), if_pos ⟨rfl, rfl⟩]
    exact dollarTurn_plain hordinal htag

end Loop

/-! ## The whole loop -/

/-- From any place between two characters the loop ends with what the reader's tokens are written
as. -/
theorem ends_after (values : List Value) {s : Section} (hs : s.Proper)
    (before cs out : List Char) :
    Ends values (.ofList (before ++ cs)) (.after before s out)
      ((inOrder ((tokensFrom s cs).map (Token.text values))).map fun text =>
        .ofList (out ++ text)) := by
  induction s, cs using reading_induction generalizing before out with
  | nil s =>
    rw [tokensFrom]
    have hend : Ends values (.ofList (before ++ [])) (.after before s out) _ :=
      .done (getElem?_encode before [])
    simpa [inOrder, Except.map, Loop.after] using hend
  | @step s cs token s' rest hstep ih =>
    have hbyte := getElem?_encode before cs
    cases cs with
    | nil => cases hstep
    | cons c cs =>
      have hturn : (Loop.after before s out).turn values (.ofList (before ++ c :: cs)) (lead c) =
          Loop.reading before token s' out (token.text values) := Loop.turn_eq hs hstep
      rw [hstep.tokensFrom_eq, List.map_cons]
      cases htext : token.text values with
      | error e =>
        rw [htext] at hturn
        exact .fails hbyte hturn
      | ok text =>
        rw [htext] at hturn
        refine .goesOn hbyte hturn ?_
        have hrest := ih (hstep.proper hs) (before ++ token.spelling) (out ++ text)
        rw [List.append_assoc, ← hstep.spelling] at hrest
        rw [inOrder]
        cases hmore : inOrder ((tokensFrom s' rest).map (Token.text values)) <;>
          simpa [hmore, Except.map] using hrest

/-- Where the list of values is not longer than numbers of 64 bits can count, an ordinal is replaced
by what it is written as. -/
theorem replacement_eq_text {values : List Value} (hvalues : values.length < UInt64.size)
    {token : Token} (h : ∀ digits, token = .ordinal digits → IsNumber digits) :
    token.replacement values = token.text values := by
  cases token with
  | copied cs => rfl
  | ordinal digits =>
    have hpos := numberOf_pos (h digits rfl)
    have hnumber : numberOf digits - 1 + 1 = numberOf digits := by omega
    simp only [Token.replacement, Token.text, ordinalText]
    by_cases hlarge : UInt64.size ≤ numberOf digits
    · rw [if_neg (by omega), if_pos hlarge]
    · rw [if_pos (.inr (Nat.lt_of_not_le hlarge)), if_neg hlarge]
      cases hv : values[numberOf digits - 1]? <;> simp [literalAt, hv, hnumber]

/-- Every ordinal that a reader finds is a number. -/
theorem isNumber_of_mem_tokensFrom {s : Section} {cs digits : List Char}
    (h : .ordinal digits ∈ tokensFrom s cs) : IsNumber digits := by
  induction s, cs using reading_induction with
  | nil s => simp [tokensFrom] at h
  | step hstep ih =>
    rw [hstep.tokensFrom_eq, List.mem_cons] at h
    rcases h with rfl | h
    · cases hstep with
      | ordinal hdigits _ => exact hdigits
    · exact ih h

/-- A text is read as its parts, and the loop over its bytes ends, without a turn that breaks,
with what these are written as : with the literals in place of the ordinals, or the failure of
the first ordinal that has none. So does the reader of characters, for any list of values that
can be counted with 64 bits. -/
theorem bytewise_exact (text : String) (values : List Value) :
    (∃ parts, Reads text.toList parts) ∧
    ∀ parts, Reads text.toList parts →
      (∀ r, Ends values text {} r ↔ r = (written values parts).map .ofList) ∧
      (values.length < UInt64.size →
        Dialect.inline .postgres text values = (written values parts).map .ofList) := by
  refine ⟨exists_reads _, fun parts hparts => ⟨?_, fun hvalues => ?_⟩⟩
  · have hends := ends_after values (s := .outside) trivial [] text.toList []
    simp only [List.nil_append, String.ofList_toList] at hends
    rw [← tokens, hparts.inOrder_tokens] at hends
    exact fun r => ⟨fun h => h.unique hends, fun h => h ▸ hends⟩
  · have htexts : (tokens text.toList).map (Token.replacement values) =
        (tokens text.toList).map (Token.text values) := by
      refine List.map_congr_left fun token htoken => replacement_eq_text hvalues ?_
      rintro digits rfl
      exact isNumber_of_mem_tokensFrom htoken
    rw [Dialect.inline, numbered, replaceAll_eq_inOrder, htexts, hparts.inOrder_tokens]

/-- Characters of several bytes, an ordinal in a section between tags, and ordinals in any
order. -/
theorem bytewise_exact_tagged :
    [Value.signed 5, .null].length < UInt64.size ∧
    Dialect.inline .postgres "é$2 $a$ $1 $b$ $a$ $1" [.signed 5, .null] =
      .ok "éNULL $a$ $1 $b$ $a$ 5" ∧
    Ends [.signed 5, .null] "é$2 $a$ $1 $b$ $a$ $1" {} (.ok "éNULL $a$ $1 $b$ $a$ 5") := by
  obtain ⟨⟨parts, hparts⟩, hexact⟩ := bytewise_exact "é$2 $a$ $1 $b$ $a$ $1" [.signed 5, .null]
  have hinline : Dialect.inline .postgres "é$2 $a$ $1 $b$ $a$ $1" [.signed 5, .null] =
      .ok "éNULL $a$ $1 $b$ $a$ 5" := by
    decide +kernel
  have hwritten := (hexact parts hparts).2 (by decide)
  exact ⟨by decide, hinline, ((hexact parts hparts).1 _).mpr (hinline.symm.trans hwritten)⟩

end SqlWeave.Inline
