import SqlWeave.Inline
import SqlWeave.Proofs.Inlining.CharBytes
import SqlWeave.Proofs.Quoting

/-!
# Two loops that look for markers

The pieces of a template are cut out of it by a loop that counts the bytes of the text and slices
it at each marker (`Cutter`). The loop that inlines at question marks pushes one character after
the other onto what it has written, and a literal for each marker (`Filler`). Neither keeps a
state of `Quoting` : each has a quote, if it is in a section, and a flag for a character that is
escaped, and each asks on its own what a character does to them.

They decide alike at every place of every text. The first ends with the pieces of the template, and
no slice that it asks for is missing (`Cutter.run?_eq`). The second goes on from any place as a
reader does who stands there (`Filler.run_standing`), so it ends with these pieces and the literals
of the values between them, or with the failure of the first marker that cannot be filled. Values
that no marker is left for do not count (`Dialect.inline_fills`).
-/

namespace SqlWeave

open Text.Utf8 (encode size size_append size_singleton slice? slice?_between length_encode)

/-! ## What the loops keep -/

/-- The quote of the section that a reader is in. -/
def Quoting.quote? : Quoting → Option Char
  | .outside => none
  | .inside quote | .hidden quote => some quote

/-- Whether the next character is escaped. -/
def Quoting.escaping : Quoting → Bool
  | .outside | .inside _ => false
  | .hidden _ => true

/-- Sections are between quotes, as they are for a reader who comes from outside. -/
def Quoting.Proper (state : Quoting) : Prop := ∀ quote, state.quote? = some quote → isQuote quote

theorem Quoting.proper_outside : Quoting.outside.Proper :=
  nofun

/-- No character leads from a proper state to one that is not. -/
theorem Quoting.Proper.next {state : Quoting} (h : state.Proper) (d : Dialect) (c : Char) :
    (state.next d c).Proper := by
  intro quote hquote
  cases state with
  | outside =>
    by_cases hc : isQuote c = true
    · simp only [Quoting.next, hc, if_true, quote?, Option.some.injEq] at hquote
      exact hquote ▸ hc
    · simp [Quoting.next, hc, quote?] at hquote
  | inside opening =>
    refine h quote ?_
    simp only [Quoting.next] at hquote
    split at hquote
    · exact hquote
    split at hquote
    · cases hquote
    · exact hquote
  | hidden opening => exact h quote hquote

namespace Template

/-- What the cutting loop keeps from character to character. -/
structure Cutter where
  quote : Option Char := none
  escaping : Bool := false
  /-- The number of the byte after the last marker. -/
  start : Nat := 0
  pieces : List String := []

namespace Cutter

/-- A turn of the loop at a character that begins at byte `index`. It breaks if there is no such
slice. -/
def turn? (d : Dialect) (text : String) (l : Cutter) (index : Nat) (c : Char) : Option Cutter :=
  if l.escaping then some { l with escaping := false }
  else if c = '\\' ∧ l.quote.any d.backslashHides then some { l with escaping := true }
  else if c = '\'' ∨ c = '"' ∨ c = '`' then
    if l.quote = some c then some { l with quote := none }
    else if l.quote = none then some { l with quote := some c }
    else some l
  else if c = '?' ∧ l.quote = none then
    (slice? text l.start index).map fun piece =>
      { l with start := index + 1, pieces := l.pieces ++ [piece] }
  else some l

/-- The loop over the characters from byte `index` on, and the slice from the last marker to the
end. -/
def run? (d : Dialect) (text : String) (l : Cutter) (index : Nat) :
    List Char → Option (List String)
  | [] => (slice? text l.start (encode text).length).map fun piece => l.pieces ++ [piece]
  | c :: cs => (l.turn? d text index c).bind fun l => l.run? d text (index + c.utf8Size) cs

end Cutter

end Template

namespace Inline

/-- What the inlining loop keeps from character to character. -/
structure Filler where
  quote : Option Char := none
  escaping : Bool := false
  /-- How many markers it has passed. -/
  index : Nat := 0
  out : String := ""

namespace Filler

/-- A turn of the loop at a character. -/
def turn (d : Dialect) (values : List Value) (l : Filler) (c : Char) : Except RenderError Filler :=
  if l.escaping then .ok { l with out := l.out.push c, escaping := false }
  else if c = '\\' ∧ l.quote.any d.backslashHides then
    .ok { l with out := l.out.push c, escaping := true }
  else if c = '\'' ∨ c = '"' ∨ c = '`' then
    if l.quote = some c then .ok { l with quote := none, out := l.out.push c }
    else if l.quote = none then .ok { l with quote := some c, out := l.out.push c }
    else .ok { l with out := l.out.push c }
  else if c = '?' ∧ l.quote = none then
    match values[l.index]? with
    | none => .error (.placeholderCount (l.index + 1) values.length)
    | some v =>
      (d.literal v).map fun literal => { l with out := l.out ++ literal, index := l.index + 1 }
  else .ok { l with out := l.out.push c }

/-- The loop over characters. -/
def run (d : Dialect) (values : List Value) (l : Filler) (cs : List Char) :
    Except RenderError String :=
  (cs.foldlM (turn d values) l).map Filler.out

end Filler

end Inline

/-! ## One character -/

theorem isQuote_iff {c : Char} : isQuote c = true ↔ c = '\'' ∨ c = '"' ∨ c = '`' := by
  simp [isQuote, or_assoc]

theorem ne_backslash_of_isQuote {quote : Char} (h : isQuote quote = true) : quote ≠ '\\' := by
  rintro rfl
  exact absurd h (by decide)

/-- What one character does to a reader who is in a section between quotes or in none. -/
inductive Quoting.Turns (d : Dialect) : Quoting → Char → Quoting → Prop
  | shows (quote c : Char) : Turns d (.hidden quote) c (.inside quote)
  | hides {quote : Char} (h : d.backslashHides quote = true) :
    Turns d (.inside quote) '\\' (.hidden quote)
  | closes {quote : Char} (hquote : isQuote quote = true) : Turns d (.inside quote) quote .outside
  | stays {quote c : Char} (hhides : ¬(c = '\\' ∧ d.backslashHides quote = true))
    (hc : c ≠ quote) : Turns d (.inside quote) c (.inside quote)
  | opens {quote : Char} (hquote : isQuote quote = true) : Turns d .outside quote (.inside quote)
  | passes {c : Char} (hc : isQuote c = false) (hmarker : c ≠ '?') : Turns d .outside c .outside

/-- A character that is no marker turns the state as the reader of characters has it. -/
theorem Quoting.turns_next {d : Dialect} {state : Quoting} {c : Char} (hstate : state.Proper)
    (hc : Template.isMarker state c = false) : state.Turns d c (state.next d c) := by
  cases state with
  | outside =>
    have hmarker : c ≠ '?' := by simpa [Template.isMarker] using hc
    by_cases hquote : isQuote c = true
    · rw [next, if_pos hquote]
      exact .opens hquote
    · rw [next, if_neg hquote]
      exact .passes (Bool.eq_false_iff.mpr hquote) hmarker
  | inside quote =>
    have hquote : isQuote quote = true := hstate quote rfl
    by_cases hhides : c = '\\' ∧ d.backslashHides quote = true
    · obtain ⟨rfl, hhides⟩ := hhides
      simpa [next, hhides] using Turns.hides hhides
    by_cases hcloses : c = quote
    · subst hcloses
      simpa [next, ne_backslash_of_isQuote hquote] using Turns.closes (d := d) hquote
    · simpa [next, hhides, hcloses] using Turns.stays hhides hcloses
  | hidden quote => exact .shows quote c

/-! ## The cutting loop -/

namespace Template.Cutter

variable {d : Dialect} {state : Quoting} {c : Char} {pieces : List String}

/-- The loop where a reader stands. -/
def standing (state : Quoting) (start : Nat) (pieces : List String) : Cutter :=
  ⟨state.quote?, state.escaping, start, pieces⟩

/-- A turn of the splitting loop over such a character changes the state only. -/
theorem turn?_standing (hstate : state.Proper) (hc : isMarker state c = false) (text : String)
    (start index : Nat) :
    (standing state start pieces).turn? d text index c =
      some (standing (state.next d c) start pieces) := by
  have hturn := Quoting.turns_next (d := d) hstate hc
  generalize state.next d c = state' at hturn ⊢
  cases hturn with
  | shows quote c => rfl
  | hides h => simp [turn?, standing, Quoting.quote?, Quoting.escaping, h]
  | closes hquote =>
    have hchar := isQuote_iff.mp hquote
    simp [turn?, standing, Quoting.quote?, Quoting.escaping, ne_backslash_of_isQuote hquote, hchar]
  | stays hhides hc =>
    simp [turn?, standing, Quoting.quote?, Quoting.escaping, hhides, Ne.symm hc]
  | opens hquote =>
    have hchar := isQuote_iff.mp hquote
    simp [turn?, standing, Quoting.quote?, Quoting.escaping, hchar]
  | passes hc hmarker =>
    have hchar : ¬(c = '\'' ∨ c = '"' ∨ c = '`') := fun h => by simp [isQuote_iff.mpr h] at hc
    simp [turn?, standing, Quoting.quote?, Quoting.escaping, hchar, hmarker]

/-- A turn over a marker cuts off the piece before it. -/
theorem turn?_marker {text piece : String} {start index : Nat}
    (h : slice? text start index = some piece) :
    (standing .outside start pieces).turn? d text index '?' =
      some (standing .outside (index + 1) (pieces ++ [piece])) := by
  simp [turn?, standing, Quoting.quote?, Quoting.escaping, h]

/-- From any place in a piece the loop ends with the pieces that it has, this one, and those of the
rest of the text. -/
theorem run?_standing (hstate : state.Proper) (pieces : List String)
    (before piece cs : List Char) :
    (standing state (size before) pieces).run? d (.ofList (before ++ piece ++ cs))
        (size (before ++ piece)) cs =
      some (pieces ++ (Text.glue [piece] (cut d state cs)).map .ofList) := by
  induction cs generalizing state pieces before piece with
  | nil =>
    have hslice := slice?_between before piece []
    rw [run?, length_encode, List.append_nil] at *
    rw [standing, hslice, cut, Text.glue_singleton, List.append_nil]
    rfl
  | cons c cs ih =>
    rw [run?]
    cases hc : isMarker state c with
    | true =>
      obtain rfl := eq_of_isMarker hc
      obtain rfl : state = .outside := by simpa [isMarker] using hc
      have hsize : size (before ++ piece ++ ['?']) = size (before ++ piece) + 1 := by
        rw [size_append]
        rfl
      have ih := ih hstate (pieces ++ [.ofList piece]) (before ++ piece ++ ['?']) []
      rw [turn?_marker (slice?_between before piece ('?' :: cs)), Option.bind_some, cut, if_pos hc,
        Text.glue_singleton]
      rw [List.append_nil, hsize, List.append_assoc _ ['?']] at ih
      exact ih.trans (by simp [Text.glue])
    | false =>
      have ih := ih (hstate.next d c) pieces before (piece ++ [c])
      rw [turn?_standing hstate hc, Option.bind_some, cut, hc, if_neg Bool.false_ne_true]
      rw [← List.append_assoc, size_append, size_singleton, List.append_assoc _ [c]] at ih
      simpa [Text.glue] using ih

/-- The loop ends with the pieces of the template. -/
theorem run?_eq (d : Dialect) (text : String) :
    ({} : Cutter).run? d text 0 text.toList = some (Template.pieces d text) := by
  have hrun := run?_standing (d := d) Quoting.proper_outside [] [] [] text.toList
  rw [List.append_nil, List.nil_append, String.ofList_toList] at hrun
  exact hrun

end Template.Cutter

/-! ## The inlining loop -/

namespace Inline

namespace Filler

variable {d : Dialect} {values : List Value} {state : Quoting} {c : Char}

/-- The loop where a reader stands. -/
def standing (state : Quoting) (index : Nat) (out : String) : Filler :=
  ⟨state.quote?, state.escaping, index, out⟩

/-- A turn of the inlining loop over such a character copies it. -/
theorem turn_standing (hstate : state.Proper) (hc : Template.isMarker state c = false)
    (index : Nat) (out : String) :
    (standing state index out).turn d values c =
      .ok (standing (state.next d c) index (out.push c)) := by
  have hturn := Quoting.turns_next (d := d) hstate hc
  generalize state.next d c = state' at hturn ⊢
  cases hturn with
  | shows quote c => rfl
  | hides h => simp [turn, standing, Quoting.quote?, Quoting.escaping, h]
  | closes hquote =>
    have hchar := isQuote_iff.mp hquote
    simp [turn, standing, Quoting.quote?, Quoting.escaping, ne_backslash_of_isQuote hquote, hchar]
  | stays hhides hc =>
    simp [turn, standing, Quoting.quote?, Quoting.escaping, hhides, Ne.symm hc]
  | opens hquote =>
    have hchar := isQuote_iff.mp hquote
    simp [turn, standing, Quoting.quote?, Quoting.escaping, hchar]
  | passes hc hmarker =>
    have hchar : ¬(c = '\'' ∨ c = '"' ∨ c = '`') := fun h => by simp [isQuote_iff.mpr h] at hc
    simp [turn, standing, Quoting.quote?, Quoting.escaping, hchar, hmarker]

/-- A turn over a marker writes the literal of the next value, or fails as it does. -/
theorem turn_marker (index : Nat) (out : String) :
    (standing .outside index out).turn d values '?' =
      (literalAt d values index).map fun literal =>
        standing .outside (index + 1) (out ++ .ofList literal) := by
  simp only [turn, standing, literalAt, Quoting.quote?, Quoting.escaping]
  cases values[index]? with
  | none => rfl
  | some v => cases h : d.literal v <;> simp [h, Except.map]

/-- From any place the loop goes on as a reader does who stands there. -/
theorem run_standing (hstate : state.Proper) (index : Nat) (out : String) (cs : List Char) :
    (standing state index out).run d values cs =
      (markedFrom d values state index cs).map fun cs => out ++ .ofList cs := by
  induction cs generalizing state index out with
  | nil => simp [run, markedFrom, standing, Except.map, pure, Except.pure]
  | cons c cs ih =>
    rw [run, List.foldlM_cons, markedFrom]
    cases hc : Template.isMarker state c with
    | true =>
      obtain rfl := Template.eq_of_isMarker hc
      obtain rfl : state = .outside := by simpa [Template.isMarker] using hc
      rw [turn_marker, if_pos rfl]
      cases literalAt d values index with
      | error e => rfl
      | ok literal =>
        refine (ih hstate (index + 1) (out ++ .ofList literal)).trans ?_
        cases markedFrom d values .outside (index + 1) cs <;>
          simp [Except.map, String.append_assoc]
    | false =>
      rw [turn_standing hstate hc, if_neg Bool.false_ne_true]
      refine (ih (hstate.next d c) index (out.push c)).trans ?_
      cases markedFrom d values (state.next d c) index cs with
      | error e => rfl
      | ok cs =>
        refine congrArg Except.ok (String.toList_inj.mp ?_)
        simp

end Filler

/-! ## Pieces and the literals between them -/

variable {d : Dialect} {values : List Value}

/-- Marker number `k`, counted from one, has no value, or its value has no literal. -/
inductive Unfilled (d : Dialect) (values : List Value) (k : Nat) : RenderError → Prop
  | missing (h : values.length < k) :
    Unfilled d values k (.placeholderCount k values.length)
  | refused {v : Value} {e : RenderError} (hv : values[k - 1]? = some v)
    (he : d.literal v = .error e) : Unfilled d values k e

/-- There is no literal to write exactly if the marker cannot be filled. -/
theorem literalAt_eq_error_iff {index : Nat} {e : RenderError} :
    literalAt d values index = .error e ↔ Unfilled d values (index + 1) e := by
  rw [literalAt]
  constructor
  · intro h
    cases hv : values[index]? with
    | none =>
      obtain rfl : RenderError.placeholderCount (index + 1) values.length = e := by
        simpa [hv] using h
      exact .missing (Nat.lt_succ_of_le (List.getElem?_eq_none_iff.mp hv))
    | some v =>
      refine .refused hv ?_
      cases hliteral : d.literal v <;> simp_all [Except.map]
  · intro h
    cases h with
    | missing hlt => rw [List.getElem?_eq_none_iff.mpr (Nat.le_of_lt_succ hlt)]
    | refused hv he =>
      rw [Nat.add_sub_cancel] at hv
      simp [hv, he, Except.map]

theorem literalAt_eq_ok_iff {index : Nat} {cs : List Char} :
    literalAt d values index = .ok cs ↔
      ∃ v, values[index]? = some v ∧ d.literal v = .ok (.ofList cs) := by
  rw [literalAt]
  cases values[index]? with
  | none => simp
  | some v =>
    cases hliteral : d.literal v with
    | error e => simp [hliteral, Except.map]
    | ok literal => simp [hliteral, Except.map, String.ext_iff]

/-- A piece and those after it, with literals between them, from value number `index` on. -/
def fillFrom (d : Dialect) (values : List Value) (index : Nat) (piece : List Char) :
    List (List Char) → Except RenderError (List Char)
  | [] => .ok piece
  | next :: rest =>
    match literalAt d values index with
    | .error e => .error e
    | .ok literal =>
      (fillFrom d values (index + 1) next rest).map fun cs => piece ++ (literal ++ cs)

theorem fillFrom_cons (index : Nat) (c : Char) (piece : List Char) (rest : List (List Char)) :
    fillFrom d values index (c :: piece) rest =
      (fillFrom d values index piece rest).map (c :: ·) := by
  cases rest with
  | nil => rfl
  | cons next rest =>
    rw [fillFrom, fillFrom]
    cases literalAt d values index with
    | error e => rfl
    | ok literal => cases fillFrom d values (index + 1) next rest <;> rfl

/-- A text is inlined as its pieces are filled. -/
theorem markedFrom_eq_fillFrom {state : Quoting} {cs piece : List Char} {rest : List (List Char)}
    (index : Nat) (h : Template.cut d state cs = piece :: rest) :
    markedFrom d values state index cs = fillFrom d values index piece rest := by
  induction cs generalizing state index piece rest with
  | nil =>
    obtain ⟨rfl, rfl⟩ := List.cons.inj h
    rfl
  | cons c cs ih =>
    rw [Template.cut] at h
    rw [markedFrom]
    cases hc : Template.isMarker state c with
    | true =>
      obtain ⟨next, more, hnext⟩ :=
        List.exists_cons_of_ne_nil (Template.cut_ne_nil d .outside cs)
      rw [hc, if_pos rfl, hnext] at h
      obtain ⟨rfl, rfl⟩ := List.cons.inj h
      rw [if_pos rfl, ih (index + 1) hnext, fillFrom]
      rfl
    | false =>
      obtain ⟨next, more, hnext⟩ :=
        List.exists_cons_of_ne_nil (Template.cut_ne_nil d (state.next d c) cs)
      rw [hc, if_neg Bool.false_ne_true, hnext] at h
      obtain ⟨rfl, rfl⟩ := List.cons.inj h
      rw [if_neg Bool.false_ne_true, ih index hnext, fillFrom_cons]

/-- A text cannot be filled because of its first marker, or because of a later one if the first can
be. -/
theorem fillFrom_next_eq_error_iff {index : Nat} {piece next : List Char}
    {rest : List (List Char)} {e : RenderError} :
    fillFrom d values index piece (next :: rest) = .error e ↔
      Unfilled d values (index + 1) e ∨
        (∀ e', ¬Unfilled d values (index + 1) e') ∧
          fillFrom d values (index + 1) next rest = .error e := by
  simp only [← literalAt_eq_error_iff]
  rw [fillFrom]
  cases literalAt d values index with
  | error e' => simp
  | ok literal => cases fillFrom d values (index + 1) next rest <;> simp [Except.map]

/-- A text is filled marker by marker. -/
theorem fillFrom_next_eq_ok_iff {index : Nat} {piece next cs : List Char}
    {rest : List (List Char)} :
    fillFrom d values index piece (next :: rest) = .ok cs ↔
      ∃ v literal more, values[index]? = some v ∧ d.literal v = .ok literal ∧
        fillFrom d values (index + 1) next rest = .ok more ∧
        cs = piece ++ (literal.toList ++ more) := by
  rw [fillFrom]
  constructor
  · intro h
    cases hliteral : literalAt d values index with
    | error e => simp [hliteral] at h
    | ok first =>
      obtain ⟨v, hv, hfirst⟩ := literalAt_eq_ok_iff.mp hliteral
      cases hrest : fillFrom d values (index + 1) next rest with
      | error e => simp [hliteral, hrest, Except.map] at h
      | ok more =>
        refine ⟨v, .ofList first, more, hv, hfirst, rfl, ?_⟩
        simpa [hliteral, hrest, Except.map, eq_comm] using h
  · rintro ⟨v, literal, more, hv, hliteral, hrest, rfl⟩
    simp [literalAt, hv, hliteral, hrest, Except.map]

/-- The first marker that cannot be filled decides the failure. -/
theorem fillFrom_eq_error_iff {index : Nat} {piece : List Char} {rest : List (List Char)}
    {e : RenderError} :
    fillFrom d values index piece rest = .error e ↔
      ∃ k, index < k ∧ k ≤ index + rest.length ∧ Unfilled d values k e ∧
        ∀ j, index < j → j < k → ∀ e', ¬Unfilled d values j e' := by
  induction rest generalizing index piece with
  | nil =>
    simp only [fillFrom, reduceCtorEq, List.length_nil, false_iff]
    rintro ⟨k, hlt, hle, -⟩
    omega
  | cons next rest ih =>
    rw [fillFrom_next_eq_error_iff, ih, List.length_cons]
    constructor
    · rintro (hfirst | ⟨hfilled, k, hlt, hle, hk, hleast⟩)
      · exact ⟨index + 1, by omega, by omega, hfirst, fun j hj hjk => by omega⟩
      · refine ⟨k, by omega, by omega, hk, fun j hj hjk => ?_⟩
        obtain rfl | hlater : j = index + 1 ∨ index + 1 < j := by omega
        · exact hfilled
        · exact hleast j hlater hjk
    · rintro ⟨k, hlt, hle, hk, hleast⟩
      obtain rfl | hlater : k = index + 1 ∨ index + 1 < k := by omega
      · exact .inl hk
      · exact .inr ⟨hleast (index + 1) (by omega) hlater, k, hlater, by omega, hk,
          fun j hj hjk => hleast j (by omega) hjk⟩

/-- If all markers can be filled, the pieces are written with a literal between each two. -/
theorem fillFrom_eq_ok_iff {index : Nat} {piece cs : List Char} {rest : List (List Char)} :
    fillFrom d values index piece rest = .ok cs ↔
      ∃ literals : List String, literals.length = rest.length ∧
        (∀ (k : Nat) (literal : String), literals[k]? = some literal →
          ∃ v, values[index + k]? = some v ∧ d.literal v = .ok literal) ∧
        cs = piece ++ (List.zipWith (·.toList ++ ·) literals rest).flatten := by
  induction rest generalizing index piece cs with
  | nil =>
    simp only [fillFrom, Except.ok.injEq, List.length_nil, List.length_eq_zero_iff]
    constructor
    · rintro rfl
      exact ⟨[], rfl, by simp, by simp⟩
    · rintro ⟨literals, rfl, -, rfl⟩
      simp
  | cons next rest ih =>
    rw [fillFrom_next_eq_ok_iff]
    constructor
    · rintro ⟨v, literal, more, hv, hliteral, hrest, rfl⟩
      obtain ⟨literals, hlength, hliterals, rfl⟩ := ih.mp hrest
      refine ⟨literal :: literals, by simp [hlength], ?_, by simp⟩
      rintro (_ | k) literal' hk
      · obtain rfl : literal = literal' := by simpa using hk
        exact ⟨v, hv, hliteral⟩
      · rw [← Nat.add_assoc, Nat.add_right_comm]
        exact hliterals k literal' (by simpa using hk)
    · rintro ⟨_ | ⟨literal, literals⟩, hlength, hliterals, rfl⟩
      · simp at hlength
      · obtain ⟨v, hv, hliteral⟩ := hliterals 0 literal rfl
        refine ⟨v, literal, _, hv, hliteral, ih.mpr ⟨literals, by simpa using hlength, ?_, rfl⟩,
          by simp⟩
        intro k literal' hk
        rw [Nat.add_right_comm, Nat.add_assoc]
        exact hliterals (k + 1) literal' (by simpa using hk)

/-- Values that no marker is left for do not count. -/
theorem fillFrom_append {index : Nat} {piece : List Char} {rest : List (List Char)}
    (more : List Value) (h : index + rest.length ≤ values.length) :
    fillFrom d (values ++ more) index piece rest = fillFrom d values index piece rest := by
  induction rest generalizing index piece with
  | nil => rfl
  | cons next rest ih =>
    rw [List.length_cons] at h
    have hlt : index < values.length := by omega
    have hliteral : literalAt d (values ++ more) index = literalAt d values index := by
      rw [literalAt, literalAt, List.getElem?_append_left hlt, List.getElem?_eq_getElem hlt]
    rw [fillFrom, fillFrom, hliteral, ih (by omega)]

/-- A result is that of putting the literals of values, in order, between pieces of text. It fails
with the first place that has no value or whose value has no literal. -/
structure FillsIn (d : Dialect) (values : List Value) (pieces : List String)
    (r : Except RenderError String) : Prop where
  error_iff : ∀ e, r = .error e ↔ ∃ k, 0 < k ∧ k < pieces.length ∧ Unfilled d values k e ∧
    ∀ j, 0 < j → j < k → ∀ e', ¬Unfilled d values j e'
  ok_iff : ∀ s, r = .ok s ↔ ∃ literals : List String, literals.length + 1 = pieces.length ∧
    (∀ (k : Nat) (literal : String), literals[k]? = some literal →
      ∃ v, values[k]? = some v ∧ d.literal v = .ok literal) ∧
    s = pieces.headD "" ++ String.join (List.zipWith (· ++ ·) literals pieces.tail)

theorem flatMap_zipWith (literals : List String) (rest : List (List Char)) :
    (List.zipWith (· ++ ·) literals (rest.map .ofList)).flatMap String.toList =
      (List.zipWith (·.toList ++ ·) literals rest).flatten := by
  rw [List.flatMap_def, List.map_zipWith, List.zipWith_map_right]
  simp

/-- What the pieces and the values become, in every case. -/
theorem fillsIn_fillFrom (piece : List Char) (rest : List (List Char)) :
    FillsIn d values ((piece :: rest).map .ofList)
      ((fillFrom d values 0 piece rest).map .ofList) where
  error_iff e := by
    have herror : fillFrom d values 0 piece rest = .error e ↔ _ := fillFrom_eq_error_iff
    have hmap : (fillFrom d values 0 piece rest).map String.ofList = .error e ↔
        fillFrom d values 0 piece rest = .error e := by
      cases fillFrom d values 0 piece rest <;> simp [Except.map]
    rw [hmap, herror, Nat.zero_add, List.length_map, List.length_cons]
    simp only [Nat.lt_succ_iff]
  ok_iff s := by
    have hok : fillFrom d values 0 piece rest = .ok s.toList ↔ _ := fillFrom_eq_ok_iff
    have hmap : (fillFrom d values 0 piece rest).map String.ofList = .ok s ↔
        fillFrom d values 0 piece rest = .ok s.toList := by
      cases fillFrom d values 0 piece rest <;> simp [Except.map, String.ext_iff]
    rw [hmap, hok]
    simp [String.ext_iff, flatMap_zipWith]

end Inline

/-- Where placeholders are question marks, a text is inlined as it is cut : its pieces come with
the literals of values between them, whatever is quoted in it and whether or not its quotes are
closed. The loop that slices the text and the loop that copies it decide alike. Values after those
for its markers do not count. -/
theorem Dialect.inline_fills {d : Dialect} (hd : d ≠ .postgres) (text : String)
    (values : List Value) :
    ({} : Template.Cutter).run? d text 0 text.toList = some (Template.pieces d text) ∧
    ({} : Inline.Filler).run d values text.toList = d.inline text values ∧
    Inline.FillsIn d values (Template.pieces d text) (d.inline text values) ∧
    (Template.markers d text ≤ values.length →
      ∀ more, d.inline text (values ++ more) = d.inline text values) := by
  have hinline (values : List Value) : d.inline text values =
      (Inline.marked d values text.toList).map .ofList := by
    cases d with
    | postgres => exact absurd rfl hd
    | mysql | sqlite | clickhouse => rfl
  obtain ⟨piece, rest, hcut⟩ :=
    List.exists_cons_of_ne_nil (Template.cut_ne_nil d .outside text.toList)
  have hmarked (values : List Value) : Inline.marked d values text.toList =
      Inline.fillFrom d values 0 piece rest := Inline.markedFrom_eq_fillFrom 0 hcut
  have hpieces : Template.pieces d text = (piece :: rest).map .ofList := by
    rw [Template.pieces, hcut]
  refine ⟨Template.Cutter.run?_eq d text, ?_, ?_, fun hle more => ?_⟩
  · refine (Inline.Filler.run_standing Quoting.proper_outside 0 "" text.toList).trans ?_
    rw [hinline, Inline.marked]
    simp
  · rw [hinline, hmarked, hpieces]
    exact Inline.fillsIn_fillFrom piece rest
  · rw [Template.markers, hpieces, List.length_map, List.length_cons, Nat.add_sub_cancel] at hle
    rw [hinline, hinline, hmarked, hmarked, Inline.fillFrom_append more (by omega)]

/-- Characters of several bytes, an escaped quote, a section that nothing closes, and a value too
many. -/
theorem Dialect.inline_fills_unclosed :
    Dialect.mysql ≠ .postgres ∧
    ({} : Template.Cutter).run? .mysql "é = ? AND '\\'?é' <> ? OR `a?" 0
        "é = ? AND '\\'?é' <> ? OR `a?".toList =
      some ["é = ", " AND '\\'?é' <> ", " OR `a?"] ∧
    Template.markers .mysql "é = ? AND '\\'?é' <> ? OR `a?" ≤
      [Value.signed 5, .text "?"].length ∧
    Dialect.inline .mysql "é = ? AND '\\'?é' <> ? OR `a?" ([.signed 5, .text "?"] ++ [.null]) =
      .ok "é = 5 AND '\\'?é' <> '?' OR `a?" := by
  have hpieces : Template.pieces .mysql "é = ? AND '\\'?é' <> ? OR `a?" =
      ["é = ", " AND '\\'?é' <> ", " OR `a?"] := by
    decide +kernel
  have hmarkers : Template.markers .mysql "é = ? AND '\\'?é' <> ? OR `a?" ≤
      [Value.signed 5, .text "?"].length := by
    decide +kernel
  obtain ⟨hcut, -, hfills, hmore⟩ :=
    Dialect.inline_fills (d := .mysql) (by decide) "é = ? AND '\\'?é' <> ? OR `a?"
      [.signed 5, .text "?"]
  rw [hpieces] at hcut hfills
  refine ⟨by decide, hcut, hmarkers, (hmore hmarkers _).trans ?_⟩
  refine (hfills.ok_iff _).mpr ⟨["5", "'?'"], rfl, ?_, by decide⟩
  rintro (_ | _ | k) literal hk
  · obtain rfl : "5" = literal := by simpa using hk
    exact ⟨.signed 5, rfl, rfl⟩
  · obtain rfl : "'?'" = literal := by simpa using hk
    exact ⟨.text "?", rfl, rfl⟩
  · simp at hk

end SqlWeave
