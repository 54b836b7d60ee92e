import SqlWeave.Proofs.ConditionStructure

/-!
# The clauses that a reader finds

A reader of a statement finds its clauses by the words that they begin with (`keywords`), each a
word by itself outside quotes. No name, marker or number is read as such a word, and a word of the
library is read as those that it is made of, wherever it comes in a text (`Says`). So what a
layout can be read as is kept by every way of putting layouts together (`Layout.SaysOnly`), and
conditions begin no clause (`Condition.saysOnly_layout`).
-/

namespace SqlWeave

open Precedence

/-! ## Keywords -/

/-- What a word begins. -/
inductive ClauseWord where
  | source
  | assignments
  | join
  | joinCondition
  | filters
  | groups
  | groupFilters
  | order
  | limit
  | offset
  | lock
  deriving DecidableEq, Repr

namespace ClauseWord

def all : List ClauseWord :=
  [source, assignments, join, joinCondition, filters, groups, groupFilters, order, limit, offset,
    lock]

def chars : ClauseWord → List Char
  | .source => ['F', 'R', 'O', 'M']
  | .assignments => ['S', 'E', 'T']
  | .join => ['J', 'O', 'I', 'N']
  | .joinCondition => ['O', 'N']
  | .filters => ['W', 'H', 'E', 'R', 'E']
  | .groups => ['G', 'R', 'O', 'U', 'P']
  | .groupFilters => ['H', 'A', 'V', 'I', 'N', 'G']
  | .order => ['O', 'R', 'D', 'E', 'R']
  | .limit => ['L', 'I', 'M', 'I', 'T']
  | .offset => ['O', 'F', 'F', 'S', 'E', 'T']
  | .lock => ['F', 'O', 'R']

end ClauseWord

/-- What a word begins, in whatever case it is written. -/
def clauseWord? (word : List Char) : Option ClauseWord :=
  ClauseWord.all.find? fun k => k.chars == word.map Char.toUpper

/-- The keywords among lexemes. -/
def keywordsOf (ls : List Lexeme) : List ClauseWord :=
  ls.filterMap fun
    | .word word => clauseWord? word
    | .opening | .closing => none

/-- The keywords of a text. -/
def keywords (d : Dialect) (text : String) : List ClauseWord := keywordsOf (lexemes d text)

theorem keywordsOf_append (ls more : List Lexeme) :
    keywordsOf (ls ++ more) = keywordsOf ls ++ keywordsOf more :=
  List.filterMap_append

theorem keywordsOf_gathered {word : List Char} (h : clauseWord? word = none) :
    keywordsOf (gathered .word word) = [] := by
  cases word <;> simp [gathered, keywordsOf, h]

/-! ## Words that stay plain -/

/-- Nothing gathered yet, or the start of a word that is no keyword, whatever comes after it. -/
def Inert (word : List Char) : Prop := word = [] ∨ ∀ more, clauseWord? (word ++ more) = none

theorem Inert.clauseWord?_eq_none {word : List Char} (h : Inert word) :
    clauseWord? word = none := by
  rcases h with rfl | h
  · rfl
  · simpa using h []

/-- Whether no keyword begins with a character. -/
def beginsNone (c : Char) : Bool := ClauseWord.all.all fun k => k.chars.head? != some c.toUpper

/-- A word with a first letter that no keyword has is none. -/
theorem clauseWord?_cons {c : Char} (h : beginsNone c = true) (cs : List Char) :
    clauseWord? (c :: cs) = none := by
  rw [clauseWord?, List.find?_eq_none]
  intro k hk
  have hhead := List.all_eq_true.mp h k hk
  cases hchars : k.chars <;> simp_all

/-- Whether a text is empty or begins as no keyword does. -/
def isInert : List Char → Bool
  | [] => true
  | c :: _ => beginsNone c

/-- A word can be told to be inert from its first character. -/
theorem inert_of_isInert {word : List Char} (h : isInert word = true) : Inert word := by
  cases word with
  | nil => exact .inl rfl
  | cons c cs => exact .inr fun more => clauseWord?_cons h (cs ++ more)

/-! ## What a text says -/

/-- Wherever a text comes, if not in the middle of a keyword, a reader finds certain keywords in
it. -/
def Says (d : Dialect) (text : List Char) (ks : List ClauseWord) : Prop :=
  ∀ word, Inert word → ∃ next, Inert next ∧ ∀ rest,
    keywordsOf (lexemesFrom d .outside word (text ++ rest)) =
      ks ++ keywordsOf (lexemesFrom d .outside next rest)

/-- What a text says wherever it comes, it says by itself. -/
theorem Says.keywords_eq {d : Dialect} {text : String} {ks : List ClauseWord}
    (h : Says d text.toList ks) : keywords d text = ks := by
  obtain ⟨next, hnext, h⟩ := h [] (.inl rfl)
  have h := h []
  rw [List.append_nil] at h
  rw [keywords, lexemes, h, lexemesFrom, keywordsOf_gathered hnext.clauseWord?_eq_none,
    List.append_nil]

theorem says_nil (d : Dialect) : Says d [] [] := fun word hword => ⟨word, hword, fun _ => rfl⟩

/-- Texts say one after the other what they say alone. -/
theorem Says.append {d : Dialect} {text more : List Char} {ks ks' : List ClauseWord}
    (h : Says d text ks) (h' : Says d more ks') : Says d (text ++ more) (ks ++ ks') := by
  intro word hword
  obtain ⟨middle, hmiddle, h⟩ := h word hword
  obtain ⟨next, hnext, h'⟩ := h' middle hmiddle
  exact ⟨next, hnext, fun rest => by rw [List.append_assoc, h, h', List.append_assoc]⟩

/-- A text that a reader goes over without a separator, and which begins as no keyword does. -/
theorem says_of_over {d : Dialect} {text : List Char}
    (hover : Template.Over d (fun state c => separator? state c = none) .outside text .outside)
    (hinert : ∀ more, clauseWord? (text ++ more) = none) : Says d text [] := by
  intro word hword
  refine ⟨word ++ text, .inr fun more => ?_, fun rest => ?_⟩
  · rcases hword with rfl | hword
    · exact hinert more
    · rw [List.append_assoc]
      exact hword _
  · rw [lexemesFrom_over hover, List.nil_append]

theorem toUpper_of_isDigit {c : Char} (h : c.isDigit = true) : c.toUpper = c := by
  simp only [Char.isDigit, Bool.and_eq_true, decide_eq_true_eq] at h
  have hlower : ¬('a'.val ≤ c.val ∧ c.val ≤ 'z'.val) := fun hlower =>
    absurd (UInt32.le_trans hlower.1 h.2) (by decide)
  exact dif_neg hlower

/-- No keyword begins with a digit. -/
theorem beginsNone_of_isDigit {c : Char} (h : c.isDigit = true) : beginsNone c = true := by
  have hletters : ∀ k ∈ ClauseWord.all, k.chars.head?.all fun first => !first.isDigit := by decide
  refine List.all_eq_true.mpr fun k hk => ?_
  have hk := hletters k hk
  rw [toUpper_of_isDigit h]
  cases hchars : k.chars.head? with
  | none => rfl
  | some first =>
    simp only [hchars] at hk
    rw [bne_iff_ne]
    rintro ⟨⟩
    simp [h] at hk

/-- Digits say nothing. -/
theorem says_digits (d : Dialect) {digits : List Char} (hne : digits ≠ [])
    (h : ∀ c ∈ digits, c.isDigit = true) : Says d digits [] := by
  refine says_of_over (.of_unquoted fun c hc => ?_) fun more => ?_
  · have hdiffers : ∀ x : Char, x.isDigit = false → c ≠ x := by
      rintro x hx rfl
      simp [h c hc] at hx
    simp [isQuote, separator?, Char.isWhitespace, hdiffers]
  · obtain ⟨first, others, rfl⟩ := List.exists_cons_of_ne_nil hne
    exact clauseWord?_cons (beginsNone_of_isDigit (h first List.mem_cons_self)) _

/-! ### Words of the library -/

/-- The lexemes that are over after a text without quotes, and the start of a word that is left,
for a reader who has already gathered the start of one. -/
def scan (word : List Char) : List Char → List Lexeme × List Char
  | [] => ([], word)
  | c :: cs =>
    match separator? .outside c with
    | some ls => (gathered .word word ++ (ls ++ (scan [] cs).1), (scan [] cs).2)
    | none => scan (word ++ [c]) cs

/-- A text without quotes is read by scanning it. -/
theorem lexemesFrom_scan {d : Dialect} {text : List Char} (h : ∀ c ∈ text, isQuote c = false)
    (word rest : List Char) :
    lexemesFrom d .outside word (text ++ rest) =
      (scan word text).1 ++ lexemesFrom d .outside (scan word text).2 rest := by
  induction text generalizing word with
  | nil => rfl
  | cons c cs ih =>
    rw [List.forall_mem_cons] at h
    have hnext : Quoting.outside.next d c = .outside := by simp [Quoting.next, h.1]
    rw [List.cons_append, lexemesFrom, scan]
    cases hc : separator? .outside c with
    | some ls => simp [ih h.2, List.append_assoc]
    | none => simp only [hnext, ih h.2]

/-- Where no separator comes, the first word goes on. -/
def firstWord (text : List Char) : List Char :=
  text.takeWhile fun c => (separator? .outside c).isNone

/-- A first word that is no keyword by itself is none after something inert either, and nothing
else in the text depends on what was gathered before. -/
theorem scan_append {word : List Char} (hword : ∀ more, clauseWord? (word ++ more) = none)
    (start text : List Char) (h : clauseWord? (start ++ firstWord text) = none) :
    keywordsOf (scan (word ++ start) text).1 = keywordsOf (scan start text).1 ∧
      ((scan (word ++ start) text).2 = (scan start text).2 ∨
        (scan (word ++ start) text).2 = word ++ (scan start text).2) := by
  induction text generalizing start with
  | nil => exact ⟨rfl, .inr rfl⟩
  | cons c cs ih =>
    cases hc : separator? .outside c with
    | some ls =>
      have hstart : clauseWord? start = none := by simpa [firstWord, hc] using h
      simp [scan, hc, keywordsOf_append, keywordsOf_gathered hstart,
        keywordsOf_gathered (hword start)]
    | none =>
      have ih := ih (start ++ [c]) (by simpa [firstWord, hc] using h)
      simpa [scan, hc] using ih

/-- Whether a word of a layout is read as keywords of a kind only, wherever it comes. -/
def isSpoken (P : ClauseWord → Bool) (text : List Char) : Bool :=
  text.all (fun c => !isQuote c) && (clauseWord? (firstWord text)).isNone &&
    isInert (scan [] text).2 && (keywordsOf (scan [] text).1).all P

/-- A spoken text says the keywords that scanning it finds, wherever it comes. -/
theorem says_of_isSpoken {P : ClauseWord → Bool} {text : List Char} (h : isSpoken P text = true)
    (d : Dialect) : Says d text (keywordsOf (scan [] text).1) := by
  simp only [isSpoken, Bool.and_eq_true, List.all_eq_true, Bool.not_eq_true',
    Option.isNone_iff_eq_none] at h
  obtain ⟨⟨⟨hquote, hfirst⟩, hinert⟩, -⟩ := h
  intro word hword
  rcases hword with rfl | hword
  · refine ⟨_, inert_of_isInert hinert, fun rest => ?_⟩
    rw [lexemesFrom_scan hquote, keywordsOf_append]
  -- the first word goes on the one gathered before, and both together are no keyword
  · obtain ⟨hkeywords, hnext⟩ := scan_append hword [] text hfirst
    rw [List.append_nil] at hkeywords hnext
    refine ⟨(scan word text).2, ?_, fun rest => ?_⟩
    · rcases hnext with hnext | hnext
      · exact hnext ▸ inert_of_isInert hinert
      · rw [hnext]
        exact .inr fun more => by rw [List.append_assoc]; exact hword _
    · rw [lexemesFrom_scan hquote, keywordsOf_append, hkeywords]

/-! ## What a layout says -/

/-- A reader finds only keywords of a kind in the text of a layout, wherever it comes. -/
def Layout.SaysOnly (d : Dialect) (P : ClauseWord → Bool) (l : Layout) : Prop :=
  ∃ ks, Says d (l.text d).toList ks ∧ ∀ k ∈ ks, P k = true

namespace Layout.SaysOnly

variable {d : Dialect} {P : ClauseWord → Bool} {l m : Layout}

theorem empty : SaysOnly d P .empty := ⟨[], says_nil d, by simp⟩

theorem fail (e : RenderError) : SaysOnly d P (.fail e) := ⟨[], says_nil d, by simp⟩

/-- A word says what it is read as by itself. -/
theorem word {s : String} (h : isSpoken P s.toList = true) : SaysOnly d P (.word s) := by
  refine ⟨_, ?_, List.all_eq_true.mp (Bool.and_eq_true_iff.mp h).2⟩
  rw [text_word]
  exact says_of_isSpoken h d

/-- A word without any keyword. -/
theorem plain {s : String} (h : isSpoken (fun _ => false) s.toList = true) :
    SaysOnly d P (.word s) := by
  obtain ⟨ks, hks, hnone⟩ := word (d := d) h
  exact ⟨ks, hks, fun k hk => absurd (hnone k hk) Bool.false_ne_true⟩

/-- A name says nothing, as it is quoted. -/
theorem name (ident : String) : SaysOnly d P (.name ident) := by
  refine ⟨[], ?_, by simp⟩
  rw [text_name]
  refine says_of_over (over_nameWord d ident) fun more => ?_
  obtain ⟨c, cs, hname, rfl | rfl | rfl⟩ := Template.quoteIdent_eq_cons d ident <;>
    · rw [hname]
      exact clauseWord?_cons (by decide) _

theorem slot (arg : Arg) : SaysOnly d P (.slot arg) := by
  refine ⟨[], ?_, by simp⟩
  rw [text_slot]
  exact says_of_isSpoken (P := fun _ => true) (by decide) d

/-- Layouts say one after the other what they say alone. -/
theorem append (hl : SaysOnly d P l) (hm : SaysOnly d P m) : SaysOnly d P (l ++ m) := by
  cases h : l.failure with
  | some e => rwa [append_of_failure m h]
  | none =>
    obtain ⟨ks, hks, hP⟩ := hl
    obtain ⟨ks', hks', hP'⟩ := hm
    refine ⟨ks ++ ks', ?_, List.forall_mem_append.mpr ⟨hP, hP'⟩⟩
    rw [text_append d h, String.toList_append]
    exact hks.append hks'

theorem concat {ls : List Layout} (h : ∀ l ∈ ls, SaysOnly d P l) : SaysOnly d P (.concat ls) := by
  induction ls with
  | nil => exact empty
  | cons l ls ih =>
    rw [List.forall_mem_cons] at h
    exact h.1.append (ih h.2)

theorem parenthesised (h : SaysOnly d P l) : SaysOnly d P l.parenthesised :=
  ((plain (by decide)).append h).append (plain (by decide))

/-- Separators that say nothing may stand between layouts. -/
theorem joined {separator : String} (hs : isSpoken (fun _ => false) separator.toList = true)
    {ls : List Layout} (h : ∀ l ∈ ls, SaysOnly d P l) : SaysOnly d P (.joined separator ls) := by
  cases ls with
  | nil => exact empty
  | cons first rest =>
    rw [List.forall_mem_cons] at h
    refine h.1.append (concat fun l hl => ?_)
    obtain ⟨m, hm, rfl⟩ := List.mem_map.mp hl
    exact (plain hs).append (h.2 m hm)

theorem onlyIf {condition : Bool} (h : SaysOnly d P l) : SaysOnly d P (.onlyIf condition l) := by
  cases condition
  · exact empty
  · exact h

end Layout.SaysOnly

/-! ## Conditions -/

namespace Condition

variable {d : Dialect} {P : ClauseWord → Bool}

/-- A membership says no keyword of a clause, whatever its operand. -/
theorem saysOnly_memberLayout (column : String) (negated : Bool) (operand : Arg) :
    (memberLayout column negated operand).SaysOnly d P := by
  have hoperand : ∀ l : Layout, l.SaysOnly d P →
      (memberLayout.operandLayout column negated l).SaysOnly d P := fun l hl =>
    ((Layout.SaysOnly.name column).append (.plain (by cases negated <;> decide))).append hl
  match operand with
  | .list [] => exact .plain (by cases negated <;> decide)
  | .list (_ :: _) => exact hoperand _ (.slot _)
  | .node .. => exact hoperand _ (.slot _)
  | .fragment .. => exact hoperand _ (.parenthesised (.slot _))
  | .value _ | .late _ => exact .fail _

theorem saysOnly_combinedLayout (connective : Connective) {parts : List (Condition × Layout)}
    (h : ∀ part ∈ parts, part.2.SaysOnly d P) :
    (combinedLayout connective parts).SaysOnly d P := by
  match parts with
  | [] => exact .fail _
  | [part] => exact h part List.mem_cons_self
  | part :: next :: rest =>
    rw [combinedLayout_cons_cons]
    have hword : isSpoken (fun _ => false) connective.word.toList = true := by
      cases connective <;> decide
    refine .joined hword fun l hl => ?_
    obtain ⟨⟨c, m⟩, hm, rfl⟩ := List.mem_map.mp hl
    dsimp only
    split
    · exact h (c, m) hm
    · exact .parenthesised (h (c, m) hm)

mutual

/-- A condition begins no clause. -/
theorem saysOnly_layout : ∀ c : Condition, c.layout.SaysOnly d P
  | .compare column comparison arg =>
    ((Layout.SaysOnly.name column).append (.plain (by cases comparison <;> decide))).append
      (.slot arg)
  | .nullTest column negated =>
    (Layout.SaysOnly.name column).append (.plain (by cases negated <;> decide))
  | .member column operand negated => saysOnly_memberLayout column negated operand
  | .combine connective children =>
    saysOnly_combinedLayout connective (saysOnly_layouts children)
  | .fragment text args => .slot _
termination_by structural c => c

theorem saysOnly_layouts : ∀ cs : List Condition, ∀ part ∈ layouts cs, part.2.SaysOnly d P
  | [] => by simp [layouts]
  | c :: cs => by
    intro part hpart
    rcases List.mem_cons.mp hpart with rfl | hpart
    · exact saysOnly_layout c
    · exact saysOnly_layouts cs part hpart
termination_by structural cs => cs

end

end Condition

/-! ## Clauses -/

section Clauses

variable {d : Dialect} {P : ClauseWord → Bool}

theorem saysOnly_namesLayout (names : List String) : (namesLayout names).SaysOnly d P := by
  refine .joined (by decide) fun l hl => ?_
  obtain ⟨name, -, rfl⟩ := List.mem_map.mp hl
  exact .name name

theorem saysOnly_countLayout {keyword : String} (h : isSpoken P keyword.toList = true)
    (count : Option UInt64) : (countLayout keyword count).SaysOnly d P := by
  cases count with
  | none => exact .empty
  | some n =>
    obtain ⟨ks, hks, hP⟩ := Layout.SaysOnly.word (d := d) h
    rw [Layout.text_word] at hks
    refine ⟨ks, ?_, hP⟩
    rw [countLayout, Layout.text_word, String.toList_append, Nat.toString_eq_repr,
      Nat.toList_repr, ← List.append_nil ks]
    exact hks.append <| says_digits d Nat.toDigits_ne_nil fun c hc =>
      Nat.isDigit_of_mem_toDigits (by decide) (by decide) hc

/-- A clause of conditions says its own keyword and no other. -/
theorem saysOnly_filterLayout {keyword : String} (h : isSpoken P keyword.toList = true)
    (conditions : List Condition) : (Select.filterLayout keyword conditions).SaysOnly d P :=
  .onlyIf ((Layout.SaysOnly.word h).append (Condition.saysOnly_layout _))

end Clauses

end SqlWeave
