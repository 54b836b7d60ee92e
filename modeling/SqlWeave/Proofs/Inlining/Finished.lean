import SqlWeave.Proofs.Inlining.Cells
import SqlWeave.Proofs.Inlining.Exposed
import SqlWeave.Proofs.LiteralForms
import SqlWeave.Proofs.LiteralReading

/-!
# Literals in a finished text

A database that comes to a literal outside quotes goes over it and is outside quotes again, if
nothing before the literal takes its first character in (`Before.Admits`). What then stands before
the rest of the text is a number, a word or the end of a text (`Before.Settled`). On its way it
comes to no minus sign outside quotes but the first character of a negative number
(`Dialect.writes_literal`). With what is written into a query in the place of a value it is no
different (`Item.writes_leafText`).
-/

namespace SqlWeave

namespace Text

/-- No word begins with a digit. -/
theorem startsName_of_isDigit {c : Char} (h : c.isDigit = true) : startsName c = false := by
  have halpha : c.isAlpha = false := by
    by_contra hc
    rw [Bool.not_eq_false] at hc
    rw [Inline.isDigit_of_isAlpha hc] at h
    cases h
  have hascii := Inline.toNat_of_isDigit h
  have hunderscore : c ≠ '_' := by
    rintro rfl
    exact absurd h (by decide)
  simp [startsName, halpha, hunderscore]
  omega

/-- What the characters of words and numbers are not. -/
theorem isBareChar_ne {c : Char} (h : isBareChar c = true) :
    c ∉ ['\'', '"', '`', '[', '*', '(', '$'] ∧ c ∉ ['/', '$', '@', '#', ':'] ∧ c ≠ '-' ∧
      isSpace c = false := by
  refine ⟨fun hmem => ?_, fun hmem => ?_, ?_, ?_⟩
  · simp only [List.mem_cons, List.not_mem_nil, or_false] at hmem
    rcases hmem with rfl | rfl | rfl | rfl | rfl | rfl | rfl <;> exact absurd h (by decide)
  · simp only [List.mem_cons, List.not_mem_nil, or_false] at hmem
    rcases hmem with rfl | rfl | rfl | rfl | rfl <;> exact absurd h (by decide)
  · rintro rfl
    exact absurd h (by decide)
  · by_contra hspace
    simp only [isSpace, isLineBreak, Bool.not_eq_false, Bool.or_eq_true, decide_eq_true_eq,
      List.mem_cons, List.not_mem_nil, or_false, beq_iff_eq] at hspace
    rcases hspace with (rfl | rfl | rfl | rfl) | rfl | rfl <;> exact absurd h (by decide)

end Text

/-! ## Before and after a literal -/

namespace Before

/-- Nothing before a place takes in the character that comes next, if a literal begins with it. -/
inductive Admits (d : Dialect) : Before → Prop
  | nothing : Admits d .nothing
  | slash : Admits d .slash
  | ended (gap : Option Bool) : Admits d (.ended gap)
  | word (hd : d = .sqlite) : Admits d .word
  | parameter (hd : d = .sqlite) : Admits d .parameter

/-- Before a place there is nothing that goes on, unless it is a word or a number and goes on with
one of their characters. -/
inductive Loose : Before → Prop
  | nothing : Loose .nothing
  | word : Loose .word
  | mark : Loose .mark
  | parameter : Loose .parameter

/-- What stands before a place after a literal. -/
inductive Settled (d : Dialect) : Before → Prop
  | loose {before : Before} (h : before.Loose) : Settled d before
  | ended (hd : d = .postgres) : Settled d (.ended none)

instance (d : Dialect) (before : Before) : Decidable (before.Admits d) :=
  match before with
  | .nothing => isTrue .nothing
  | .slash => isTrue .slash
  | .ended gap => isTrue (.ended gap)
  | .word =>
    if hd : d = .sqlite then isTrue (.word hd)
    else isFalse fun h => by
      cases h with
      | word h => exact hd h
  | .parameter =>
    if hd : d = .sqlite then isTrue (.parameter hd)
    else isFalse fun h => by
      cases h with
      | parameter h => exact hd h
  | .mark | .tag _ | .colon _ => isFalse nofun

variable {d : Dialect} {before before' : Before} {c : Char}

/-- In PostgreSQL a character that is admitted belongs to nothing before it. -/
theorem Admits.next_eq (h : before.Admits .postgres) (hslash : c ≠ '/')
    (hspace : Text.isSpace c = false) : before.next .postgres c = firstPostgres c := by
  rw [Before.next, if_neg hslash]
  cases h with
  | nothing | slash => rfl
  | ended gap => simp [grownPostgres, hspace]
  | word h | parameter h => cases h

/-- What admits everything goes on with nothing. -/
theorem Admits.next_congr (h : before.Admits .postgres) (h' : before'.Admits .postgres)
    (hspace : Text.isSpace c = false) : before.next .postgres c = before'.next .postgres c := by
  by_cases hslash : c = '/'
  · simp [Before.next, hslash]
  · rw [h.next_eq hslash hspace, h'.next_eq hslash hspace]

theorem loose_firstPostgres (h : c ≠ '$') : (firstPostgres c).Loose := by
  unfold firstPostgres
  split
  · exact .mark
  · split
    · exact .word
    · rw [if_neg (by simpa using h)]
      exact .nothing

theorem loose_firstSqlite (h : c ∉ ['$', '@', '#', ':']) : (firstSqlite c).Loose := by
  unfold firstSqlite
  rw [if_neg h]
  split_ifs
  · exact .parameter
  · exact .word
  · exact .nothing

/-- A digit is no part of a word by itself. -/
theorem firstPostgres_of_isDigit (h : c.isDigit = true) : firstPostgres c = .nothing := by
  have hmark : (c == 'E' || c == 'e') = false := by
    by_contra hc
    simp only [Bool.not_eq_false, Bool.or_eq_true, beq_iff_eq] at hc
    rcases hc with rfl | rfl <;> exact absurd h (by decide)
  have hdollar : (c == '$') = false := by
    by_contra hc
    simp only [Bool.not_eq_false, beq_iff_eq] at hc
    subst hc
    exact absurd h (by decide)
  rw [firstPostgres, hmark, Text.startsName_of_isDigit h, hdollar]
  rfl

theorem firstPostgres_of_not_isNamePart (h : Text.isNamePart c = false) :
    firstPostgres c = .nothing := by
  simp only [Text.isNamePart, Bool.or_eq_false_iff] at h
  have hmark : (c == 'E' || c == 'e') = false := by
    by_contra hc
    simp only [Bool.not_eq_false, Bool.or_eq_true, beq_iff_eq] at hc
    rcases hc with rfl | rfl <;> exact absurd h.1.1 (by decide)
  rw [firstPostgres, hmark, h.1.1, h.2]
  rfl

/-- Nothing loose begins a comment, a tag or the name of a variable. -/
theorem Loose.ne (h : before.Loose) : before ≠ .slash ∧ ∀ name, before ≠ .tag name := by
  cases h <;> exact ⟨nofun, nofun⟩

/-- Where a word cannot go on, it does not matter which word it was. -/
theorem Loose.next_congr (h : before.Loose) (h' : before'.Loose)
    (hc : Text.isNamePart c = false) : before.next d c = before'.next d c := by
  have hdigit : c.isDigit = false := by
    simp only [Text.isNamePart, Bool.or_eq_false_iff] at hc
    exact hc.1.2
  have hpostgres {b : Before} (hb : b.Loose) : b.grownPostgres c = .nothing := by
    cases hb <;> simp [grownPostgres, firstPostgres_of_not_isNamePart hc, hc]
  have hsqlite {b : Before} (hb : b.Loose) : b.grownSqlite c = firstSqlite c := by
    cases hb <;> simp [grownSqlite, hc, hdigit]
  cases d <;> simp [Before.next, hpostgres h, hpostgres h', hsqlite h, hsqlite h']

theorem loose_grownSqlite (hname : ∀ name, before ≠ .tag name ∧ before ≠ .colon name)
    (hc : c ∉ ['$', '@', '#', ':']) : (before.grownSqlite c).Loose := by
  have hfirst := loose_firstSqlite hc
  cases before with
  | word =>
    rw [grownSqlite]
    split
    · exact .word
    · exact hfirst
  | parameter =>
    rw [grownSqlite]
    split
    · exact .parameter
    · exact hfirst
  | tag name => exact absurd rfl (hname name).1
  | colon name => exact absurd rfl (hname name).2
  | nothing | mark | ended | slash => exact hfirst

/-- The first character of a word or a number that is admitted leaves nothing else before what
comes after it. -/
theorem Admits.loose_next (hd : d = .postgres ∨ d = .sqlite) (h : before.Admits d)
    (hc : c ∉ ['/', '$', '@', '#', ':']) (hspace : Text.isSpace c = false) :
    (before.next d c).Loose := by
  rw [List.mem_cons, not_or] at hc
  rcases hd with rfl | rfl
  · rw [h.next_eq hc.1 hspace]
    exact loose_firstPostgres fun hdollar => hc.2 (by simp [hdollar])
  · rw [Before.next, if_neg hc.1]
    refine loose_grownSqlite (fun name => ?_) hc.2
    cases h <;> exact ⟨nofun, nofun⟩

/-- Nor does one more of its characters. -/
theorem Settled.next (hd : d = .postgres ∨ d = .sqlite) (h : before.Settled d)
    (hc : c ∉ ['/', '$', '@', '#', ':']) (hspace : Text.isSpace c = false) :
    (before.next d c).Loose := by
  cases h with
  | ended hpostgres => exact (Admits.ended none).loose_next hd hc hspace
  | loose h =>
    rw [List.mem_cons, not_or] at hc
    rcases hd with rfl | rfl <;> rw [Before.next, if_neg hc.1]
    · cases h with
      | nothing | parameter => exact loose_firstPostgres fun hdollar => hc.2 (by simp [hdollar])
      | word | mark =>
        dsimp only [grownPostgres]
        split
        · exact .word
        · exact .nothing
    · refine loose_grownSqlite (fun name => ?_) hc.2
      cases h <;> exact ⟨nofun, nofun⟩

/-- Nothing is left before the next place after a minus sign. -/
theorem Admits.next_minus (hd : d = .postgres ∨ d = .sqlite) (h : before.Admits d) :
    before.next d '-' = .nothing := by
  rcases hd with rfl | rfl <;> cases h <;> rfl

end Before

namespace Place

variable {d : Dialect} {p q r : Place} {c : Char} {cs a b : List Char} {before : Before}

/-- Whether nothing takes in the character that comes next. -/
def admits (d : Dialect) : Place → Bool
  | .outside before => before.Admits d
  | _ => false

/-- Whoever is admitted is outside quotes. -/
theorem exists_of_admits (h : p.admits d = true) :
    ∃ before : Before, p = .outside before ∧ before.Admits d := by
  cases p with
  | outside before => exact ⟨before, rfl, by simpa [admits] using h⟩
  | quoted | escaped | hidden | tagged | comment | suffix => cases h

/-! ## Passages without a minus sign -/

/-- A reader goes over a text and comes to no minus sign outside quotes. -/
inductive Passes (d : Dialect) : Place → List Char → Place → Prop
  | nil (p : Place) : Passes d p [] p
  | cons {p q : Place} {c : Char} {cs : List Char} (hc : p.isQuoted = false → c ≠ '-')
    (hcs : Passes d (p.next d c) cs q) : Passes d p (c :: cs) q

namespace Passes

/-- One passage after the other. -/
theorem append (ha : Passes d p a q) (hb : Passes d q b r) : Passes d p (a ++ b) r := by
  induction ha with
  | nil => exact hb
  | cons hc _ ih => exact .cons hc (ih hb)

/-- A passage that begins and ends between quotes does not matter where. -/
theorem flatMap {α : Type} {f : α → List Char} {xs : List α}
    (h : ∀ x ∈ xs, Passes d p (f x) p) : Passes d p (xs.flatMap f) p := by
  induction xs with
  | nil => exact .nil p
  | cons x xs ih =>
    exact (h x List.mem_cons_self).append (ih fun y hy => h y (List.mem_cons_of_mem _ hy))

/-- Two minus signs do not meet before its end. -/
theorem meetsDashes_append (h : Passes d p cs q) (rest : List Char) :
    meetsDashes d p (cs ++ rest) = meetsDashes d q rest := by
  induction h with
  | nil => rfl
  | @cons p q c cs hc _ ih =>
    have hminus : (!p.isQuoted && c == '-') = false := by
      cases hp : p.isQuoted with
      | true => rfl
      | false => simpa using hc hp
    rw [← ih, meetsDashes, List.cons_append, Text.meets, hminus, Bool.false_and, Bool.false_or]
    rfl

theorem after_eq (h : Passes d p cs q) : p.after d cs = q := by
  induction h with
  | nil => rfl
  | cons _ _ ih => exact ih

end Passes

/-- Outside quotes, what neither opens quotes nor makes a comment, a tag or a suffix. -/
theorem next_outside (h : c ∉ ['\'', '"', '`', '[', '*', '(', '$']) :
    (outside before).next d c = .outside (before.next d c) := by
  simp only [List.mem_cons, List.not_mem_nil, or_false, not_or] at h
  obtain ⟨hsingle, hdouble, htick, hbracket, hstar, hopening, hdollar⟩ := h
  have htag : before.completed? d c = none := by cases before <;> simp [Before.completed?, hdollar]
  rw [next, if_neg hsingle, if_neg (by simp [hdouble, htick]), if_neg (by simp [hbracket]),
    if_neg (by simp [hstar]), if_neg (by simp [hopening]), htag, Option.elim_none]

/-- What stands before a place has no say in where the next character leads but through single
quotes and what then stands before the next place, slashes, tags and variables apart. -/
theorem next_congr {before' : Before} (hopened : c = '\'' → opened d before = opened d before')
    (h : before ≠ .slash ∧ ∀ name, before ≠ .tag name)
    (h' : before' ≠ .slash ∧ ∀ name, before' ≠ .tag name)
    (hnext : before.next d c = before'.next d c) :
    (outside before).next d c = (outside before').next d c := by
  have hplain {b : Before} (hb : b ≠ .slash ∧ ∀ name, b ≠ .tag name) :
      (outside b).next d c =
        if c = '\'' then opened d b
        else if c = '"' ∨ c = '`' ∧ d = .sqlite then .quoted c
        else if c = '[' ∧ d = .sqlite then .quoted ']'
        else .outside (b.next d c) := by
    have hvariable : b.namesVariable d = false := by
      cases b <;> first | rfl | exact absurd rfl (hb.2 _)
    have htag : b.completed? d c = none := by
      cases b <;> first | rfl | exact absurd rfl (hb.2 _)
    rw [next, hvariable, htag]
    simp [hb.1]
  rw [hplain h, hplain h', hnext]
  by_cases hc : c = '\''
  · rw [if_pos hc, if_pos hc, hopened hc]
  · rw [if_neg hc, if_neg hc]

/-- White space goes on with a literal that has ended. -/
theorem next_isSpace (h : Text.isSpace c = true) (gap : Option Bool) :
    start.next .postgres c = start ∧
      (outside (.ended gap)).next .postgres c =
        .outside (.ended (some (gap.getD false || Text.isLineBreak c))) := by
  simp only [Text.isSpace, Text.isLineBreak, Bool.or_eq_true, decide_eq_true_eq, List.mem_cons,
    List.not_mem_nil, or_false, beq_iff_eq] at h
  rcases h with (rfl | rfl | rfl | rfl) | rfl | rfl <;> exact ⟨rfl, rfl⟩

/-- No minus sign opens a section that another one would end. -/
theorem next_ne_quoted_minus (h : p ≠ .quoted '-') : p.next d c ≠ .quoted '-' := by
  cases p with
  | outside before =>
    have hopened : opened d before ≠ .quoted '-' := by
      rw [opened]
      split <;> decide
    rw [next]
    split_ifs with hsingle hquote
    · exact hopened
    · rintro heq
      obtain rfl := quoted.inj heq
      rcases hquote with hc | ⟨hc, -⟩ <;> cases hc
    · decide
    · decide
    · decide
    · cases before.completed? d c <;> exact Place.noConfusion
  | quoted close =>
    rw [next]
    split_ifs
    · decide
    · exact h
  | escaped =>
    rw [next]
    split_ifs <;> decide
  | hidden => exact Place.noConfusion
  | tagged name seen =>
    rw [next]
    split_ifs <;> exact Place.noConfusion
  | comment depth last =>
    cases depth <;> rw [next] <;> split_ifs <;> exact Place.noConfusion
  | suffix =>
    rw [next]
    split_ifs <;> decide

/-- A minus sign between quotes does not end the section. -/
theorem isQuoted_next_minus (h : p ≠ .quoted '-') (hp : p.isQuoted = true) :
    (p.next d '-').isQuoted = true := by
  cases p with
  | outside | comment | suffix => cases hp
  | quoted close =>
    have hclose : close ≠ '-' := fun hc => h (by rw [hc])
    rw [next, if_neg hclose.symm]
    rfl
  | escaped | hidden => rfl
  | tagged name seen => rfl

/-! ## Words and numbers -/

/-- Words and numbers go on after what is settled. -/
theorem passes_bare (hd : d = .postgres ∨ d = .sqlite) (h : ∀ c ∈ cs, Text.isBareChar c = true)
    (hbefore : before.Settled d) :
    ∃ after, Before.Settled d after ∧ Passes d (.outside before) cs (.outside after) := by
  induction cs generalizing before with
  | nil => exact ⟨before, hbefore, .nil _⟩
  | cons c cs ih =>
    rw [List.forall_mem_cons] at h
    obtain ⟨hquote, hbegins, hminus, hspace⟩ := Text.isBareChar_ne h.1
    obtain ⟨after, hafter, hcs⟩ := ih h.2 (.loose (hbefore.next hd hbegins hspace))
    exact ⟨after, hafter, .cons (fun _ => hminus) (by rwa [next_outside hquote])⟩

/-- A word or a number where it is admitted. -/
theorem passes_word (hd : d = .postgres ∨ d = .sqlite) (hne : cs ≠ [])
    (h : ∀ c ∈ cs, Text.isBareChar c = true) (hbefore : before.Admits d) :
    ∃ after, Before.Settled d after ∧ Passes d (.outside before) cs (.outside after) := by
  obtain ⟨c, cs, rfl⟩ := List.exists_cons_of_ne_nil hne
  rw [List.forall_mem_cons] at h
  obtain ⟨hquote, hbegins, hminus, hspace⟩ := Text.isBareChar_ne h.1
  obtain ⟨after, hafter, hcs⟩ := passes_bare hd h.2 (.loose (hbefore.loose_next hd hbegins hspace))
  exact ⟨after, hafter, .cons (fun _ => hminus) (by rwa [next_outside hquote])⟩

/-! ## Placeholders -/

/-- A marker, or in PostgreSQL a number after a `$`. -/
inductive IsMark (d : Dialect) : List Char → Prop
  | marker : IsMark d ['?']
  | ordinal {digits : List Char} (hd : d = .postgres) (h : Inline.IsNumber digits) :
    IsMark d ('$' :: digits)

/-- Digits by themselves leave nothing before the place after them. -/
theorem passes_digits (h : ∀ c ∈ cs, c.isDigit = true) : Passes .postgres start cs start := by
  induction cs with
  | nil => exact .nil _
  | cons c cs ih =>
    rw [List.forall_mem_cons] at h
    obtain ⟨hquote, hbegins, hminus, hspace⟩ :=
      Text.isBareChar_ne (Text.isBareChar_of_isDigit h.1)
    have hslash : c ≠ '/' := fun hc => hbegins (by simp [hc])
    have hnext : start.next .postgres c = start := by
      rw [start, next_outside hquote, Before.Admits.nothing.next_eq hslash hspace,
        Before.firstPostgres_of_isDigit h.1]
    refine .cons (fun _ => hminus) ?_
    rw [hnext]
    exact ih h.2

/-- A placeholder where it is admitted. A marker of SQLite goes on with digits. -/
theorem IsMark.passes (hd : d = .postgres ∨ d = .sqlite) (h : IsMark d cs)
    (hbefore : before.Admits d) :
    ∃ after : Before, after.Loose ∧ (d = .postgres → after = .nothing) ∧
      Passes d (.outside before) cs (.outside after) := by
  cases h with
  | marker =>
    obtain ⟨after, hloose, hpostgres, hnext⟩ : ∃ after : Before, after.Loose ∧
        (d = .postgres → after = .nothing) ∧ before.next d '?' = after := by
      rcases hd with rfl | rfl
      · exact ⟨.nothing, .nothing, fun _ => rfl, hbefore.next_eq (by decide) (by decide)⟩
      · refine ⟨.parameter, .parameter, nofun, ?_⟩
        cases hbefore <;> rfl
    refine ⟨after, hloose, hpostgres, .cons (fun _ => by decide) ?_⟩
    rw [next_outside (by decide), hnext]
    exact .nil _
  | @ordinal digits hpostgres hnumber =>
    subst hpostgres
    -- The `$` might belong to a tag, but then a tag would not admit it.
    have hdollar : (outside before).next .postgres '$' = .outside (.tag []) := by
      cases hbefore with
      | nothing | slash | ended => rfl
      | word h | parameter h => cases h
    obtain ⟨c, digits, rfl⟩ :=
      List.exists_cons_of_ne_nil (show digits ≠ [] by rintro rfl; cases hnumber.start)
    obtain ⟨hc, hdigits⟩ := List.forall_mem_cons.mp hnumber.digits
    obtain ⟨hquote, hbegins, hminus, -⟩ := Text.isBareChar_ne (Text.isBareChar_of_isDigit hc)
    have hslash : c ≠ '/' := fun hc => hbegins (by simp [hc])
    have hdigit : (outside (.tag [])).next .postgres c = start := by
      rw [next_outside hquote, Before.next, if_neg hslash]
      simp [Before.grownPostgres, Text.startsName_of_isDigit hc, start]
    refine ⟨.nothing, .nothing, fun _ => rfl,
      .cons (fun _ => by decide) (.cons (fun _ => hminus) ?_)⟩
    rw [hdollar, hdigit]
    exact passes_digits hdigits

/-! ## Sections between single quotes -/

theorem isQuoted_opened : (opened d before).isQuoted = true := by
  rw [opened]
  split <;> rfl

/-- A passage between single quotes, and the quotes. -/
theorem passes_section (h : Passes d (opened d before) cs (opened d before)) :
    ∃ after, Before.Settled d after ∧
      Passes d (.outside before) ('\'' :: (cs ++ ['\''])) (.outside after) := by
  have hopen : (outside before).next d '\'' = opened d before := by rw [next, if_pos rfl]
  obtain ⟨after, hafter, hclose⟩ : ∃ after, Before.Settled d after ∧
      (opened d before).next d '\'' = .outside after := by
    rw [opened]
    split
    · rename_i hescapes
      exact ⟨_, .ended hescapes.1, rfl⟩
    · exact ⟨_, .loose .nothing, rfl⟩
  refine ⟨after, hafter, .cons (fun _ => by decide) ?_⟩
  rw [hopen]
  refine h.append (.cons (by simp [isQuoted_opened]) ?_)
  rw [hclose]
  exact .nil _

/-- Between single quotes, what is neither a quote nor a backslash. -/
theorem passes_clean (h : ∀ c ∈ cs, c ≠ '\'' ∧ c ≠ '\\') :
    Passes d (opened d before) cs (opened d before) := by
  induction cs with
  | nil => exact .nil _
  | cons c cs ih =>
    rw [List.forall_mem_cons] at h
    have hstay : (opened d before).next d c = opened d before := by
      rw [opened]
      split <;> simp [next, h.1]
    refine .cons (by simp [isQuoted_opened]) ?_
    rw [hstay]
    exact ih h.2

end Place

/-! ## Literals -/

namespace Dialect

open Place (Passes)

variable {d : Dialect} {v : Value} {before : Before}

/-- A database goes over a text from where it is admitted to what is settled. -/
def Inert (d : Dialect) (cs : List Char) : Prop :=
  ∀ before : Before, before.Admits d →
    ∃ after, Before.Settled d after ∧ Passes d (.outside before) cs (.outside after)

theorem inert_quoted {cs : List Char} (h : ∀ c ∈ cs, c ≠ '\'' ∧ c ≠ '\\') :
    Inert d ('\'' :: (cs ++ ['\''])) :=
  fun _ _ => Place.passes_section (Place.passes_clean h)

/-- A byte string is inert, with its cast in PostgreSQL and its mark in SQLite. -/
theorem inert_bytes (hd : d = .postgres ∨ d = .sqlite) (data : List UInt8) :
    Inert d (d.bytes data).toList := by
  have hhex : ∀ c ∈ Text.hexPairs data, c ≠ '\'' ∧ c ≠ '\\' := fun c hc =>
    ⟨(Template.ne_of_mem_hexPairs hc).1, (Template.ne_of_mem_hexPairs hc).2.1⟩
  intro before hbefore
  rcases hd with rfl | rfl
  · have hstart : Passes .postgres (Place.opened .postgres before) ['\\', 'x']
        (Place.opened .postgres before) := by
      rw [Place.opened]
      split <;> exact .cons (by decide) (.cons (by decide) (.nil _))
    obtain ⟨after, hafter, hsection⟩ :=
      Place.passes_section (hstart.append (Place.passes_clean hhex))
    have hcolons : Passes .postgres (.outside after) [':', ':'] (.outside .nothing) := by
      have hfirst : (Place.outside after).next .postgres ':' = .outside .nothing := by
        rcases hafter with ⟨⟨⟩⟩ | _ <;> rfl
      refine .cons (fun _ => by decide) (.cons (fun _ => by decide) ?_)
      rw [hfirst]
      exact .nil _
    have hbytea : ∀ c ∈ "bytea".toList, Text.isBareChar c = true :=
      List.all_eq_true.mp (by decide)
    obtain ⟨after', hafter', hcast⟩ := Place.passes_bare (.inl rfl) hbytea (.loose .nothing)
    refine ⟨after', hafter', ?_⟩
    simpa [bytes, bytesWrapper] using hsection.append (hcolons.append hcast)
  · obtain ⟨after, hafter, hsection⟩ := inert_quoted (d := .sqlite) hhex .word (.word rfl)
    refine ⟨after, hafter, ?_⟩
    have hx : (Place.outside before).next .sqlite 'X' = .outside .word := by
      rw [Place.next_outside (by decide)]
      cases hbefore <;> rfl
    have hall := Passes.cons (d := .sqlite) (p := .outside before) (c := 'X')
      (fun _ => by decide) (by rwa [hx])
    simpa [bytes, bytesWrapper] using hall

/-- A text is inert, whatever it contains, as each of its characters is escaped or doubled. -/
theorem inert_text (hd : d = .postgres ∨ d = .sqlite) (s : String) :
    Inert d (d.text s).toList := by
  intro before hbefore
  rcases hd with rfl | rfl
  · have hbody : Passes .postgres (Place.opened .postgres .mark) (s.toList.flatMap escapedChar)
        (Place.opened .postgres .mark) := by
      refine .flatMap fun c _ => ?_
      rcases escapedChar_cases c with ⟨hc, hquote, hback⟩ | ⟨e, hc, -⟩
      · rw [hc]
        exact Place.passes_clean (by simp [hquote, hback])
      · rw [hc]
        exact .cons (by decide) (.cons (fun h => absurd h (by decide)) (.nil _))
    obtain ⟨after, hafter, hsection⟩ := Place.passes_section hbody
    have hmark : (Place.outside before).next .postgres 'E' = .outside .mark := by
      rw [Place.next_outside (by decide), hbefore.next_eq (by decide) (by decide)]
      rfl
    have hall := Passes.cons (d := .postgres) (p := .outside before) (c := 'E')
      (fun _ => by decide) (by rwa [hmark])
    exact ⟨after, hafter, by simpa [text, textMark, textBody] using hall⟩
  · have hbody : Passes .sqlite (Place.opened .sqlite before) (s.toList.flatMap doubledChar)
        (Place.opened .sqlite before) := by
      have hopened : Place.opened .sqlite before = .quoted '\'' := by simp [Place.opened]
      refine .flatMap fun c _ => ?_
      by_cases hc : c = '\''
      · subst hc
        rw [hopened]
        exact .cons (by decide) (.cons (by decide) (.nil _))
      · have hsame : doubledChar c = [c] := if_neg (by simpa using hc)
        rw [hsame, hopened]
        refine .cons (fun h => absurd h (by decide)) ?_
        simpa [Place.next, hc] using Passes.nil (.quoted '\'')
    simpa [text, textMark, textBody] using Place.passes_section hbody

/-- What takes the place of a placeholder : it is inert but for a minus sign in front, which it has
if it is `negative`, and it does not end in one. -/
def Writes (d : Dialect) (negative : Bool) (cs : List Char) : Prop :=
  ∃ body, cs = (if negative then '-' :: body else body) ∧ (∃ c ∈ body.head?, c ≠ '-') ∧
    body.getLast? ≠ some '-' ∧ d.Inert body

/-- No minus sign is left at its end for another one to meet. -/
theorem Writes.getLast?_ne {negative : Bool} {cs : List Char} (h : d.Writes negative cs) :
    cs.getLast? ≠ some '-' := by
  obtain ⟨body, rfl, ⟨c, hc, -⟩, hlast, -⟩ := h
  obtain ⟨more, rfl⟩ := List.head?_eq_some_iff.mp hc
  cases negative with
  | false => exact hlast
  | true => rwa [if_pos rfl, List.getLast?_cons_cons]

/-- A database goes over it and comes to no two minus signs outside quotes. -/
theorem Writes.meetsDashes_append (hd : d = .postgres ∨ d = .sqlite) {negative : Bool}
    {cs : List Char} (h : d.Writes negative cs) (hbefore : before.Admits d) :
    ∃ after, Before.Settled d after ∧ ∀ rest,
      Place.meetsDashes d (.outside before) (cs ++ rest) =
        Place.meetsDashes d (.outside after) rest := by
  obtain ⟨body, rfl, ⟨c, hc, hminus⟩, -, hinert⟩ := h
  cases negative with
  | false =>
    obtain ⟨after, hafter, hpasses⟩ := hinert before hbefore
    exact ⟨after, hafter, hpasses.meetsDashes_append⟩
  | true =>
    have hsign : (Place.outside before).next d '-' = .outside .nothing := by
      rw [Place.next_outside (by decide), hbefore.next_minus hd]
    obtain ⟨after, hafter, hpasses⟩ := hinert .nothing .nothing
    refine ⟨after, hafter, fun rest => ?_⟩
    obtain ⟨more, rfl⟩ := List.head?_eq_some_iff.mp hc
    rw [← hpasses.meetsDashes_append rest, if_pos rfl, Place.meetsDashes, List.cons_append,
      List.cons_append, Text.meets, hsign]
    simp [Place.meetsDashes, hminus]

/-- A word or a number, with or without a sign. -/
theorem writes_word (hd : d = .postgres ∨ d = .sqlite) {negative : Bool} {cs : List Char}
    (h : Text.Bare negative cs) : d.Writes negative cs := by
  obtain ⟨body, hbody, hne, hchars⟩ := h
  have hminus : ∀ c ∈ body, c ≠ '-' := fun c hc => (Text.isBareChar_ne (hchars c hc)).2.2.1
  refine ⟨body, hbody, ?_, fun hlast => hminus _ (List.mem_of_getLast? hlast) rfl,
    fun _ => Place.passes_word hd hne hchars⟩
  obtain ⟨c, cs, rfl⟩ := List.exists_cons_of_ne_nil hne
  exact ⟨c, rfl, hminus c List.mem_cons_self⟩

theorem writes_mark (hd : d = .postgres ∨ d = .sqlite) {cs : List Char} (h : Place.IsMark d cs) :
    d.Writes false cs := by
  refine ⟨cs, rfl, ?_, ?_, fun before hbefore => ?_⟩
  · cases h <;> simp
  · cases h with
    | marker => decide
    | ordinal _ hnumber =>
      intro hlast
      rcases List.mem_cons.mp (List.mem_of_getLast? hlast) with hdollar | hdigit
      · cases hdollar
      · exact absurd (hnumber.digits _ hdigit) (by decide)
  · obtain ⟨after, hloose, -, hpasses⟩ := h.passes hd hbefore
    exact ⟨after, .loose hloose, hpasses⟩

theorem writes_bytes (hd : d = .postgres ∨ d = .sqlite) (data : List UInt8) :
    d.Writes false (d.bytes data).toList := by
  refine ⟨(d.bytes data).toList, rfl, ?_, ?_, inert_bytes hd data⟩ <;>
    rcases hd with rfl | rfl <;>
    simp [bytes, bytesWrapper, List.getLast?_cons, List.getLast?_append]

/-- Apart from the minus sign of a negative number, a literal is inert. -/
theorem writes_literal (hd : d = .postgres ∨ d = .sqlite) {literal : String}
    (h : d.literal v = .ok literal) : d.Writes v.isNegative literal.toList := by
  cases v with
  | text s =>
    obtain rfl : d.text s = literal := Except.ok.inj h
    refine ⟨(d.text s).toList, rfl, ?_, ?_, inert_text hd s⟩
    · rcases hd with rfl | rfl <;> simp [text, textMark]
    · simp [text, List.getLast?_cons, List.getLast?_append]
  | bytes data =>
    obtain rfl : d.bytes data = literal := Except.ok.inj h
    exact writes_bytes hd data
  | dateTime t =>
    obtain rfl : d.moment t = literal := Except.ok.inj h
    refine ⟨(d.moment t).toList, rfl, by simp [moment], ?_, ?_⟩
    · simp [moment, List.getLast?_cons, List.getLast?_append]
    · simpa [moment] using inert_quoted fun c hc => ne_of_mem_momentBody (d := d) hc
  | null | bool | signed | unsigned | float => exact writes_word hd (bare_literal rfl h)

end Dialect

/-! ## In the text of a query -/

namespace Item

variable {d : Dialect} {t : Target}

theorem isMark_placeholder (hd : d = .postgres ∨ d = .sqlite) (n : Nat) :
    Place.IsMark d (d.placeholder (n + 1)).toList := by
  rcases hd with rfl | rfl
  · rw [Dialect.toList_placeholder]
    exact .ordinal rfl (Inline.isNumber_toDigits (Nat.succ_pos n))
  · have hmark : (Dialect.placeholder .sqlite (n + 1)).toList = ['?'] := by
      simp [Dialect.placeholder]
    rw [hmark]
    exact .marker

/-- A placeholder, the word for the missing value, or a byte string. -/
theorem writes_leafText (hd : t.dialect = .postgres ∨ t.dialect = .sqlite) (n : Nat) (v : Value) :
    t.dialect.Writes false (leafText t n v) := by
  rw [leafText]
  split
  · exact Dialect.writes_mark hd (isMark_placeholder hd n)
  · unfold Target.writtenOut
    split
    · exact Dialect.writes_bytes hd _
    · have hnull : Text.Bare false "NULL".toList :=
        ⟨_, rfl, by decide, List.all_eq_true.mp (by decide)⟩
      exact Dialect.writes_word hd hnull

end Item

end SqlWeave
