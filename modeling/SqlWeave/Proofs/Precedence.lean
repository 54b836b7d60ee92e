import Mathlib.Data.Stream.Init
import SqlWeave.Condition
import SqlWeave.Proofs.Quoting

/-!
# The structure that a database reads in a condition

The text of a condition is read in three steps. Its lexemes are the parentheses and the words
between blanks, where quotes keep a word together (`lexemes`). Its tokens are AND, OR, the
parentheses that group, and as leaves the runs of all lexemes between these (`tokens`). A
parenthesis that follows a word, such as the one after IN, is a part of the leaf. The value of
the tokens is what the grammar gives, in which AND binds tighter than OR and parentheses group
(`Reads`).

Leaves are opaque : they have the truth values of a stream, in the order in which they stand.
Only `1 = 0` and `1 = 1` have a value of their own.

The grammar gives one value at most (`Reads.unique`). A text is a phrase if it is read as the
same tokens wherever it stands and these have a value (`Phrase`). Phrases can be put between
parentheses and combined with AND and OR.
-/

namespace SqlWeave.Precedence

/-! ## Lexemes -/

/-- A parenthesis or a word. -/
inductive Lexeme where
  | opening
  | closing
  | word (text : List Char)
  deriving DecidableEq, Repr

/-- What has been gathered up to here, if anything, as one thing. -/
def gathered {α β : Type} (whole : List α → β) (parts : List α) : List β :=
  if parts.isEmpty then [] else [whole parts]

/-- The lexemes that a character is in itself, if it ends a word. Nothing between quotes does. -/
def separator? (state : Quoting) (c : Char) : Option (List Lexeme) :=
  if state ≠ .outside then none
  else if c = '(' then some [.opening]
  else if c = ')' then some [.closing]
  else if c.isWhitespace then some []
  else none

/-- The lexemes of a text, for a reader who has already gathered the start of a word. -/
def lexemesFrom (d : Dialect) (state : Quoting) (word : List Char) : List Char → List Lexeme
  | [] => gathered .word word
  | c :: cs =>
    match separator? state c with
    | some ls => gathered .word word ++ (ls ++ lexemesFrom d .outside [] cs)
    | none => lexemesFrom d (state.next d c) (word ++ [c]) cs

/-- The lexemes of a text. -/
def lexemes (d : Dialect) (text : String) : List Lexeme := lexemesFrom d .outside [] text.toList

/-! ## Tokens -/

/-- What makes up the structure of a condition. -/
inductive Token where
  | opening
  | closing
  | connective (connective : Connective)
  | leaf (run : List Lexeme)
  deriving DecidableEq, Repr

/-- The lexemes of a leaf. -/
def Token.run? : Token → Option (List Lexeme)
  | .leaf run => some run
  | .opening | .closing | .connective _ => none

/-- A lone marker. -/
def Token.marker : Token := .leaf [.word ['?']]

/-- The connective that a word is, in whatever case it is written. -/
def connective? (word : List Char) : Option Connective :=
  if word.map Char.toUpper = ['A', 'N', 'D'] then some .conjunction
  else if word.map Char.toUpper = ['O', 'R'] then some .disjunction
  else none

/-- The tokens of a text, for a reader who has already gathered the start of a leaf and is
inside `depth` parentheses of it. -/
def tokensFrom (depth : Nat) (run : List Lexeme) : List Lexeme → List Token
  | [] => gathered .leaf run
  | .opening :: ls =>
    if run.isEmpty then .opening :: tokensFrom 0 [] ls
    else tokensFrom (depth + 1) (run ++ [.opening]) ls
  | .closing :: ls =>
    match depth with
    | 0 => gathered .leaf run ++ .closing :: tokensFrom 0 [] ls
    | depth + 1 => tokensFrom depth (run ++ [.closing]) ls
  | .word text :: ls =>
    match depth, connective? text with
    | 0, some connective => gathered .leaf run ++ .connective connective :: tokensFrom 0 [] ls
    | depth, _ => tokensFrom depth (run ++ [.word text]) ls

/-- The tokens of a text. -/
def tokens (d : Dialect) (text : String) : List Token := tokensFrom 0 [] (lexemes d text)

/-- The leaves among tokens. -/
def runs (ts : List Token) : List (List Lexeme) := ts.filterMap Token.run?

@[simp] theorem runs_append (ts us : List Token) : runs (ts ++ us) = runs ts ++ runs us :=
  List.filterMap_append

@[simp] theorem runs_connective (connective : Connective) (ts : List Token) :
    runs (.connective connective :: ts) = runs ts :=
  rfl

@[simp] theorem runs_enclosed (ts : List Token) :
    runs (.opening :: (ts ++ [.closing])) = runs ts :=
  (runs_append ts [.closing]).trans (List.append_nil _)

/-! ## The grammar -/

/-- How tightly something holds together. -/
inductive Grade where
  /-- A leaf, or something between parentheses. -/
  | primary
  /-- Primaries with AND between them. -/
  | term
  /-- Terms with OR between them. -/
  | search
  deriving DecidableEq, Repr

/-- The value of a leaf, given the one that it has if it is opaque. -/
def leafValue (run : List Lexeme) (value : Bool) : Bool :=
  if run = [.word ['1'], .word ['='], .word ['0']] then false
  else if run = [.word ['1'], .word ['='], .word ['1']] then true
  else value

/-- Tokens have a value, where the stream has the values of their leaves in order. -/
inductive Reads : Grade → Stream' Bool → List Token → Bool → Prop
  | leaf (v : Stream' Bool) (run : List Lexeme) :
    Reads .primary v [.leaf run] (leafValue run v.head)
  | group {v : Stream' Bool} {ts : List Token} {a : Bool} (h : Reads .search v ts a) :
    Reads .primary v (.opening :: (ts ++ [.closing])) a
  | factor {v : Stream' Bool} {ts : List Token} {a : Bool} (h : Reads .primary v ts a) :
    Reads .term v ts a
  | and {v : Stream' Bool} {ts us : List Token} {a b : Bool} (hts : Reads .term v ts a)
    (hus : Reads .primary (v.drop (runs ts).length) us b) :
    Reads .term v (ts ++ .connective .conjunction :: us) (a && b)
  | term {v : Stream' Bool} {ts : List Token} {a : Bool} (h : Reads .term v ts a) :
    Reads .search v ts a
  | or {v : Stream' Bool} {ts us : List Token} {a b : Bool} (hts : Reads .search v ts a)
    (hus : Reads .term (v.drop (runs ts).length) us b) :
    Reads .search v (ts ++ .connective .disjunction :: us) (a || b)

/-! ### One value at most

The value can be worked out from left to right. At each place it is enough to know two things
of every parenthesis that is open there : the value of the terms that are over, and that of the
term under way so far. -/

/-- The terms that are over, and the term under way. -/
structure Level where
  terms : Bool
  term : Bool

/-- Inside a parenthesis that has just been opened. -/
def Level.fresh : Level := ⟨false, true⟩

/-- The value of tokens worked out from left to right, with the levels around the innermost
parenthesis. -/
def evaluate (v : Stream' Bool) (level : Level) (outer : List Level) : List Token → Bool
  | [] => level.terms || level.term
  | .leaf run :: ts =>
    evaluate (v.drop 1) ⟨level.terms, level.term && leafValue run v.head⟩ outer ts
  | .connective .conjunction :: ts => evaluate v level outer ts
  | .connective .disjunction :: ts => evaluate v ⟨level.terms || level.term, true⟩ outer ts
  | .opening :: ts => evaluate v .fresh (level :: outer) ts
  | .closing :: ts =>
    match outer with
    | [] => evaluate v level [] ts
    | around :: outer =>
      evaluate v ⟨around.terms, around.term && (level.terms || level.term)⟩ outer ts

/-- What working out the value of tokens of some grade does to the level that they stand on. -/
def Evaluates (v : Stream' Bool) (ts : List Token) (a : Bool) : Grade → Prop
  | .primary | .term => ∀ terms term outer rest,
    evaluate v ⟨terms, term⟩ outer (ts ++ rest) =
      evaluate (v.drop (runs ts).length) ⟨terms, term && a⟩ outer rest
  | .search => ∀ terms, ∃ level : Level, (level.terms || level.term) = (terms || a) ∧
    ∀ outer rest, evaluate v ⟨terms, true⟩ outer (ts ++ rest) =
      evaluate (v.drop (runs ts).length) level outer rest

/-- Tokens that have a value by the grammar are worked out to that value, whatever stands around
them. -/
theorem Reads.evaluates {g : Grade} {v : Stream' Bool} {ts : List Token} {a : Bool}
    (h : Reads g v ts a) : Evaluates v ts a g := by
  induction h with
  | leaf v run =>
    intro terms term outer rest
    rfl
  | @group v ts a _ ih =>
    intro terms term outer rest
    obtain ⟨level, hlevel, heval⟩ := ih false
    rw [runs_enclosed, List.cons_append, List.append_assoc, evaluate, Level.fresh, heval,
      List.singleton_append, evaluate, hlevel, Bool.false_or]
  | factor _ ih => exact ih
  | @and v ts us a b _ _ ihts ihus =>
    intro terms term outer rest
    rw [List.append_assoc, ihts, List.cons_append, evaluate, ihus, Bool.and_assoc,
      Stream'.drop_drop, runs_append, runs_connective, List.length_append]
  | @term v ts a _ ih =>
    exact fun terms => ⟨⟨terms, a⟩, rfl, fun outer rest => ih terms true outer rest⟩
  | @or v ts us a b _ _ ihts ihus =>
    intro terms
    obtain ⟨level, hlevel, heval⟩ := ihts terms
    refine ⟨⟨level.terms || level.term, b⟩, by rw [hlevel, Bool.or_assoc], fun outer rest => ?_⟩
    rw [List.append_assoc, heval, List.cons_append, evaluate, ihus, Bool.true_and,
      Stream'.drop_drop, runs_append, runs_connective, List.length_append]

/-- A text has one value at most. -/
theorem Reads.unique {v : Stream' Bool} {ts : List Token} {a b : Bool} (ha : Reads .search v ts a)
    (hb : Reads .search v ts b) : a = b := by
  have heval : ∀ c, Reads .search v ts c → evaluate v .fresh [] ts = c := fun c hc => by
    obtain ⟨level, hlevel, heval⟩ := hc.evaluates false
    rw [← List.append_nil ts, Level.fresh, heval, evaluate, hlevel, Bool.false_or]
  rw [← heval a ha, heval b hb]

/-! ## Phrases -/

/-- The end of the text, or a character at which a word ends. -/
def EndsWord (rest : List Char) : Prop := ∀ c ∈ rest.head?, (separator? .outside c).isSome

/-- At the end of a word, what has been gathered of it is one lexeme. -/
theorem lexemesFrom_of_endsWord (d : Dialect) (word : List Char) {rest : List Char}
    (h : EndsWord rest) :
    lexemesFrom d .outside word rest =
      gathered .word word ++ lexemesFrom d .outside [] rest := by
  cases rest with
  | nil => simp [lexemesFrom, gathered]
  | cons c rest =>
    obtain ⟨ls, hls⟩ := Option.isSome_iff_exists.mp (h c rfl)
    simp [lexemesFrom, hls, gathered]

theorem endsWord_cons {c : Char} (h : (separator? .outside c).isSome) (rest : List Char) :
    EndsWord (c :: rest) := by
  rintro _ ⟨⟩
  exact h

/-- Whether a leaf ends at a lexeme, unless this is inside parentheses of the leaf. -/
def Lexeme.endsLeaf : Lexeme → Bool
  | .opening => false
  | .closing => true
  | .word text => (connective? text).isSome

/-- The end of the text, or a lexeme at which a leaf ends. -/
def EndsLeaf (rest : List Lexeme) : Prop := ∀ l ∈ rest.head?, l.endsLeaf = true

/-- At the end of a leaf, what has been gathered of it is one token. -/
theorem tokensFrom_of_endsLeaf (run : List Lexeme) {rest : List Lexeme} (h : EndsLeaf rest) :
    tokensFrom 0 run rest = gathered .leaf run ++ tokensFrom 0 [] rest := by
  cases rest with
  | nil => simp [tokensFrom, gathered]
  | cons l rest =>
    have hl := h l rfl
    cases l with
    | opening => exact absurd hl Bool.false_ne_true
    | closing => simp [tokensFrom, gathered]
    | word text =>
      obtain ⟨connective, hconnective⟩ := Option.isSome_iff_exists.mp hl
      simp [tokensFrom, hconnective, gathered]

theorem endsLeaf_cons {l : Lexeme} (h : l.endsLeaf = true) (rest : List Lexeme) :
    EndsLeaf (l :: rest) := by
  rintro _ ⟨⟩
  exact h

/-! ### The word between two conditions -/

/-- A connective as a word. -/
def keyword : Connective → List Char
  | .conjunction => ['A', 'N', 'D']
  | .disjunction => ['O', 'R']

theorem connective?_keyword (connective : Connective) :
    connective? (keyword connective) = some connective := by
  cases connective <;> rfl

theorem endsWord_connective (connective : Connective) (rest : List Char) :
    EndsWord (connective.word.toList ++ rest) := by
  cases connective <;> exact endsWord_cons (c := ' ') rfl _

/-- A connective between two conditions is read as its keyword, with the blanks around it left out.
-/
theorem lexemesFrom_connective (d : Dialect) (connective : Connective) (rest : List Char) :
    lexemesFrom d .outside [] (connective.word.toList ++ rest) =
      .word (keyword connective) :: lexemesFrom d .outside [] rest := by
  cases connective <;> rfl

theorem endsLeaf_connective (connective : Connective) (rest : List Lexeme) :
    EndsLeaf (.word (keyword connective) :: rest) :=
  endsLeaf_cons (by simp [Lexeme.endsLeaf, connective?_keyword]) rest

/-- The keyword is read as the connective, unless it is inside parentheses of a leaf. -/
theorem tokensFrom_connective (connective : Connective) (rest : List Lexeme) :
    tokensFrom 0 [] (.word (keyword connective) :: rest) =
      .connective connective :: tokensFrom 0 [] rest := by
  simp [tokensFrom, connective?_keyword, gathered]

/-! ### Words

A word that the library writes between blanks is one lexeme, and part of a leaf. -/

/-- A reader who meets no separator gathers all that he goes over. -/
theorem lexemesFrom_over {d : Dialect} {state stop : Quoting} {cs : List Char}
    (h : Template.Over d (fun state c => separator? state c = none) state cs stop)
    (word rest : List Char) :
    lexemesFrom d state word (cs ++ rest) = lexemesFrom d stop (word ++ cs) rest := by
  induction h generalizing word with
  | nil => rw [List.nil_append, List.append_nil]
  | cons hc _ ih =>
    rw [List.cons_append, lexemesFrom, hc]
    exact (ih _).trans (by rw [List.append_assoc, List.singleton_append])

/-- A word without quotes, blanks and parentheses that is no connective. -/
def isPlainWord (word : List Char) : Bool :=
  !word.isEmpty && word.all (fun c => !isQuote c && (separator? .outside c).isNone) &&
    (connective? word).isNone

theorem over_of_isPlainWord {word : List Char} (h : isPlainWord word = true) (d : Dialect) :
    Template.Over d (fun state c => separator? state c = none) .outside word .outside := by
  simp only [isPlainWord, Bool.and_eq_true] at h
  refine .of_unquoted fun c hc => ?_
  simpa using List.all_eq_true.mp h.1.2 c hc

/-- Words with a blank before each of them. -/
def spaced (words : List (List Char)) : List Char := words.flatMap (' ' :: ·)

/-- Words with blanks before them are read as the words, and what was gathered before is a word of
its own. -/
theorem lexemesFrom_spaced (d : Dialect) (start : List Char) {words : List (List Char)}
    (h : words.all isPlainWord = true) {rest : List Char} (hrest : EndsWord rest) :
    lexemesFrom d .outside start (spaced words ++ rest) =
      gathered .word start ++ (words.map .word ++ lexemesFrom d .outside [] rest) := by
  induction words generalizing start with
  | nil => exact lexemesFrom_of_endsWord d start hrest
  | cons word words ih =>
    rw [List.all_cons, Bool.and_eq_true] at h
    obtain ⟨hword, hwords⟩ := h
    have hblank : ∀ cs, lexemesFrom d .outside start (' ' :: cs) =
        gathered .word start ++ lexemesFrom d .outside [] cs := fun _ => rfl
    have hgathered : gathered Lexeme.word word = [.word word] := by
      simp only [isPlainWord, Bool.and_eq_true, Bool.not_eq_true'] at hword
      simp [gathered, hword.1.1]
    rw [spaced, List.flatMap_cons, List.append_assoc, List.cons_append, hblank,
      lexemesFrom_over (over_of_isPlainWord hword d), List.nil_append, ← spaced, ih _ hwords,
      hgathered]
    rfl

/-! ### Leaves -/

/-- A word that is no connective goes on with the leaf. -/
theorem tokensFrom_word {text : List Char} (h : connective? text = none) (depth : Nat)
    (run rest : List Lexeme) :
    tokensFrom depth run (.word text :: rest) = tokensFrom depth (run ++ [.word text]) rest := by
  cases depth <;> simp [tokensFrom, h]

/-- Lexemes that are all taken into a leaf that has begun before them. -/
def Absorbed (ls : List Lexeme) : Prop :=
  ∀ run rest, run ≠ [] → tokensFrom 0 run (ls ++ rest) = tokensFrom 0 (run ++ ls) rest

theorem absorbed_nil : Absorbed [] := fun run rest _ => by
  rw [List.nil_append, List.append_nil]

theorem Absorbed.word {text : List Char} {ls : List Lexeme} (h : connective? text = none)
    (hls : Absorbed ls) : Absorbed (.word text :: ls) := by
  intro run rest _
  rw [List.cons_append, tokensFrom_word h, hls _ rest (by simp), List.append_assoc,
    List.singleton_append]

/-- Plain words are absorbed one after the other. -/
theorem Absorbed.words {words : List (List Char)} {ls : List Lexeme}
    (h : words.all isPlainWord = true) (hls : Absorbed ls) :
    Absorbed (words.map .word ++ ls) := by
  induction words with
  | nil => exact hls
  | cons word words ih =>
    rw [List.all_cons, Bool.and_eq_true] at h
    obtain ⟨hword, hwords⟩ := h
    simp only [isPlainWord, Bool.and_eq_true, Option.isNone_iff_eq_none] at hword
    exact .word hword.2 (ih hwords)

/-- A word between parentheses after another word. -/
theorem absorbed_enclosed (text : List Char) : Absorbed [.opening, .word text, .closing] := by
  intro run rest hrun
  simp [tokensFrom, hrun]

/-! ### Texts put together -/

/-- A text has the same lexemes wherever it stands. -/
def Lexed (d : Dialect) (text : String) (ls : List Lexeme) : Prop :=
  ∀ rest, EndsWord rest →
    lexemesFrom d .outside [] (text.toList ++ rest) = ls ++ lexemesFrom d .outside [] rest

/-- A text that has the same lexemes wherever it stands has them by itself. -/
theorem Lexed.lexemes_eq {d : Dialect} {text : String} {ls : List Lexeme} (h : Lexed d text ls) :
    lexemes d text = ls := by
  simpa [lexemes, lexemesFrom, gathered] using h [] nofun

/-- A text is read as the same tokens wherever it stands. -/
def ReadAs (d : Dialect) (text : String) (ts : List Token) : Prop :=
  ∃ ls, Lexed d text ls ∧
    ∀ rest, EndsLeaf rest → tokensFrom 0 [] (ls ++ rest) = ts ++ tokensFrom 0 [] rest

namespace ReadAs

variable {d : Dialect} {text other : String} {ts us : List Token}

/-- A text that is read as the same tokens wherever it stands is read so by itself. -/
theorem tokens_eq (h : ReadAs d text ts) : tokens d text = ts := by
  obtain ⟨ls, hls, hts⟩ := h
  simpa [tokens, hls.lexemes_eq, tokensFrom, gathered] using hts [] nofun

/-- A word that is no connective, and what is taken into the same leaf, is a leaf. -/
theorem leaf {word : List Char} {ls : List Lexeme} (h : Lexed d text (.word word :: ls))
    (hword : connective? word = none) (hls : Absorbed ls) :
    ReadAs d text [.leaf (.word word :: ls)] := by
  refine ⟨.word word :: ls, h, fun rest hrest => ?_⟩
  rw [List.cons_append, tokensFrom_word hword, List.nil_append, hls _ rest (by simp),
    tokensFrom_of_endsLeaf _ hrest]
  rfl

/-- Two conditions with a connective between them are read as their tokens with the connective
between them. -/
theorem connected (connective : Connective) (hts : ReadAs d text ts) (hus : ReadAs d other us) :
    ReadAs d (text ++ (connective.word ++ other)) (ts ++ .connective connective :: us) := by
  obtain ⟨ls, hls, hts⟩ := hts
  obtain ⟨ms, hms, hus⟩ := hus
  refine ⟨ls ++ .word (keyword connective) :: ms, fun rest hrest => ?_, fun rest hrest => ?_⟩
  · rw [String.toList_append, String.toList_append, List.append_assoc, List.append_assoc,
      hls _ (endsWord_connective connective _), lexemesFrom_connective, hms _ hrest,
      List.append_assoc, List.cons_append]
  · rw [List.append_assoc, List.cons_append, hts _ (endsLeaf_connective connective _),
      tokensFrom_connective, hus _ hrest, List.append_assoc, List.cons_append]

/-- In parentheses, a condition is read as its tokens in parentheses. -/
theorem enclosed (h : ReadAs d text ts) :
    ReadAs d ("(" ++ text ++ ")") (.opening :: (ts ++ [.closing])) := by
  obtain ⟨ls, hls, hts⟩ := h
  refine ⟨.opening :: (ls ++ [.closing]), fun rest _ => ?_, fun rest _ => ?_⟩
  · have hopen : ∀ cs, lexemesFrom d .outside [] ('(' :: cs) =
        .opening :: lexemesFrom d .outside [] cs := fun _ => rfl
    have hclose : ∀ cs, lexemesFrom d .outside [] (')' :: cs) =
        .closing :: lexemesFrom d .outside [] cs := fun _ => rfl
    have hends : EndsWord (')' :: rest) := endsWord_cons rfl rest
    simp [hopen, hls _ hends, hclose]
  · have hends : EndsLeaf (.closing :: rest) := endsLeaf_cons rfl rest
    simp [tokensFrom, hts _ hends, gathered]

end ReadAs

/-- The grade at which conditions under a connective hold together. -/
def gradeOf : Connective → Grade
  | .conjunction => .term
  | .disjunction => .search

/-- The value of two conditions under a connective. -/
def apply : Connective → Bool → Bool → Bool
  | .conjunction => (· && ·)
  | .disjunction => (· || ·)

/-- A text is read as the same tokens wherever it stands, and they have a value. -/
structure Phrase (d : Dialect) (g : Grade) (text : String) (ts : List Token)
    (value : Stream' Bool → Bool) : Prop where
  readAs : ReadAs d text ts
  reads : ∀ v, Reads g v ts (value v)

namespace Phrase

variable {d : Dialect} {g : Grade} {text other : String} {ts us : List Token}
  {value value' : Stream' Bool → Bool}

/-- What needs no parentheses anywhere is a search condition. -/
theorem search (h : Phrase d .primary text ts value) : Phrase d .search text ts value :=
  ⟨h.readAs, fun v => (h.reads v).factor.term⟩

/-- Primaries can stand on both sides of every connective. -/
theorem graded (h : Phrase d .primary text ts value) (connective : Connective) :
    Phrase d (gradeOf connective) text ts value :=
  match connective with
  | .conjunction => ⟨h.readAs, fun v => (h.reads v).factor⟩
  | .disjunction => h.search

/-- Conditions of one connective are a search condition. -/
theorem ofGraded {connective : Connective} (h : Phrase d (gradeOf connective) text ts value) :
    Phrase d .search text ts value :=
  match connective, h with
  | .conjunction, h => ⟨h.readAs, fun v => (h.reads v).term⟩
  | .disjunction, h => h

/-- Parentheses make a primary of a search condition, with the same value. -/
theorem enclosed (h : Phrase d .search text ts value) :
    Phrase d .primary ("(" ++ text ++ ")") (.opening :: (ts ++ [.closing])) value :=
  ⟨h.readAs.enclosed, fun v => (h.reads v).group⟩

/-- A further primary after a connective takes part in the value as the connective says, and has the
leaves that come after those before it. -/
theorem connected {connective : Connective} (hts : Phrase d (gradeOf connective) text ts value)
    (hus : Phrase d .primary other us value') :
    Phrase d (gradeOf connective) (text ++ (connective.word ++ other))
      (ts ++ .connective connective :: us)
      fun v => apply connective (value v) (value' (v.drop (runs ts).length)) := by
  refine ⟨hts.readAs.connected connective hus.readAs, fun v => ?_⟩
  cases connective with
  | conjunction => exact (hts.reads v).and (hus.reads _)
  | disjunction => exact (hts.reads v).or (hus.reads _).factor

end Phrase

/-! ## Markers between parentheses -/

/-- Every lone marker stands directly between an opening and a closing parenthesis. -/
def Guarded (ts : List Token) : Prop :=
  ∀ before after, ts = before ++ .marker :: after →
    before.getLast? = some .opening ∧ after.head? = some .closing

namespace Guarded

variable {ts us : List Token}

/-- Tokens that are guarded stay so one after the other. -/
theorem append (hts : Guarded ts) (hus : Guarded us) : Guarded (ts ++ us) := by
  intro before after h
  rcases List.append_eq_append_iff.mp h with ⟨middle, rfl, rfl⟩ | ⟨middle, rfl, hmiddle⟩
  · obtain ⟨hbefore, hafter⟩ := hus middle after rfl
    exact ⟨by rw [List.getLast?_append, hbefore]; rfl, hafter⟩
  · cases middle with
    | nil => exact absurd (hus [] after hmiddle.symm).1 (by simp)
    | cons t middle =>
      rw [List.cons_append, List.cons.injEq] at hmiddle
      obtain ⟨rfl, rfl⟩ := hmiddle
      obtain ⟨hbefore, hafter⟩ := hts before middle rfl
      exact ⟨hbefore, by rw [List.head?_append, hafter]; rfl⟩

theorem singleton {t : Token} (h : t ≠ .marker) : Guarded [t] := by
  intro before after hsplit
  have hmem : Token.marker ∈ [t] := by simp [hsplit]
  exact absurd (List.mem_singleton.mp hmem).symm h

theorem cons {t : Token} (h : t ≠ .marker) (hts : Guarded ts) : Guarded (t :: ts) :=
  (singleton h).append hts

/-- A lone marker, and what is guarded already, is guarded between parentheses. -/
theorem enclosed (h : ts = [.marker] ∨ Guarded ts) : Guarded (.opening :: (ts ++ [.closing])) := by
  rcases h with rfl | h
  · intro before after hsplit
    match before, hsplit with
    | [_], hsplit =>
      simp only [List.cons_append, List.nil_append, List.cons.injEq] at hsplit
      obtain ⟨rfl, -, rfl⟩ := hsplit
      exact ⟨rfl, rfl⟩
    | [_, _], hsplit => simp [Token.marker] at hsplit
    | _ :: _ :: _ :: before, hsplit => simp at hsplit
  · exact .cons (by decide) (h.append (.singleton (by decide)))

end Guarded

end SqlWeave.Precedence
