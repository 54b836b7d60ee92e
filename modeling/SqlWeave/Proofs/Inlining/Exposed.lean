import SqlWeave.Dialect

/-!
# What a database finds outside quotes

A database has rules of its own for what is quoted (`Place.next`). SQLite quotes literals with `'`,
names with `"`, with a backtick or between brackets, and quotes nothing in the suffix that the name
of a variable can have between parentheses. PostgreSQL quotes literals with `'` and with tags, and
names with `"`. A literal after an `E` that is a word by itself is written with backslashes, and it
goes on at a quote that follows it right away or after a line break. So a reader keeps in mind what
stands before the place where he is outside quotes (`Before`). In a comment between `/*` and `*/`
there are no quotes.

Two minus signs are exposed if they stand next to each other and nothing quotes them
(`Place.exposesDashes`).
-/

namespace SqlWeave

namespace Text

/-- A character that a word can begin with. -/
def startsName (c : Char) : Bool := c.isAlpha || c == '_' || 128 ≤ c.toNat

/-- A character that a word can go on with. -/
def isNamePart (c : Char) : Bool := startsName c || c.isDigit || c == '$'

def isLineBreak (c : Char) : Bool := c == '\n' || c == '\r'

def isSpace (c : Char) : Bool := c ∈ [' ', '\t', '\x0b', '\x0c'] || isLineBreak c

variable {σ : Type} {next : σ → Char → σ} {p : σ → Bool} {a b : Char} {x y : List Char} {s : σ}

/-- Whether a reader comes somewhere in a text to `a` in a state that is `p`, and right after it to
`b`. -/
def meets (next : σ → Char → σ) (p : σ → Bool) (a b : Char) : σ → List Char → Bool
  | _, [] => false
  | s, c :: cs => p s && c == a && cs.head? == some b || meets next p a b (next s c) cs

/-- What he meets in a text that goes on, he meets in its start or in the rest, unless its start
ends with `a`. -/
theorem meets_append (h : x.getLast? ≠ some a) :
    meets next p a b s (x ++ y) =
      (meets next p a b s x || meets next p a b (x.foldl next s) y) := by
  induction x generalizing s with
  | nil => rfl
  | cons c x ih =>
    cases x with
    | nil =>
      have hc : (c == a) = false := by simpa using h
      simp [meets, hc]
    | cons c' x =>
      rw [List.cons_append, meets, ih (by simpa using h)]
      exact (Bool.or_assoc _ _ _).symm

end Text

/-! ## Places -/

/-- What stands before a place outside quotes, as far as it has a say in what follows. -/
inductive Before where
  | nothing
  /-- A word, which goes on with the next character if it can. -/
  | word
  /-- A word of PostgreSQL that is an `E` and no more so far. -/
  | mark
  /-- A character that begins a tag of PostgreSQL or a variable of SQLite, and the name so far. -/
  | tag (name : List Char)
  /-- A `:` after the name of a variable, which goes on with it if another one follows. -/
  | colon (name : List Char)
  /-- A placeholder of SQLite and its digits. -/
  | parameter
  /-- A literal with backslashes and, if there is a `gap` after it, white space, which has a line
  break if the gap is `true`. -/
  | ended (gap : Option Bool)
  | slash
  deriving DecidableEq, Repr

namespace Before

/-- Whether a single quote begins a literal with backslashes here, or takes one up again. -/
def escapes : Before → Bool
  | .mark | .ended none | .ended (some true) => true
  | .tag name => name == ['E'] || name == ['e']
  | .nothing | .word | .colon _ | .parameter | .ended (some false) | .slash => false

/-- What a character becomes in PostgreSQL that belongs to nothing before it. -/
def firstPostgres (c : Char) : Before :=
  if c == 'E' || c == 'e' then .mark
  else if Text.startsName c then .word
  else if c == '$' then .tag []
  else .nothing

/-- What stands before the next place in PostgreSQL after a character that is no quote. -/
def grownPostgres (c : Char) : Before → Before
  | .word | .mark => if Text.isNamePart c then .word else .nothing
  | .tag name =>
    if Text.startsName c || c.isDigit && !name.isEmpty then .tag (name ++ [c]) else .nothing
  | .ended gap =>
    if Text.isSpace c then .ended (some (gap.getD false || Text.isLineBreak c))
    else firstPostgres c
  | .nothing | .colon _ | .parameter | .slash => firstPostgres c

/-- What a character becomes in SQLite that belongs to nothing before it. -/
def firstSqlite (c : Char) : Before :=
  if c ∈ ['$', '@', '#', ':'] then .tag []
  else if c = '?' then .parameter
  else if Text.isNamePart c then .word
  else .nothing

/-- What stands before the next place in SQLite after a character that is no quote. -/
def grownSqlite (c : Char) : Before → Before
  | .word => if Text.isNamePart c then .word else firstSqlite c
  | .parameter => if c.isDigit then .parameter else firstSqlite c
  | .tag name =>
    if Text.isNamePart c then .tag (name ++ [c])
    else if c = ':' then .colon name
    else firstSqlite c
  | .colon name =>
    if Text.isNamePart c then .tag [c]
    else if c = ':' then .tag name
    else firstSqlite c
  | .nothing | .mark | .ended _ | .slash => firstSqlite c

/-- The name of the tag that a character completes. -/
def completed? (d : Dialect) (before : Before) (c : Char) : Option (List Char) :=
  match before with
  | .tag name => if c = '$' ∧ d = .postgres then some name else none
  | _ => none

/-- Whether this is a variable of SQLite, whose name a suffix can end. -/
def namesVariable (d : Dialect) : Before → Bool
  | .tag name => d == .sqlite && !name.isEmpty
  | _ => false

/-- What stands before the next place after a character that is no quote. -/
def next (d : Dialect) (before : Before) (c : Char) : Before :=
  if c = '/' then .slash
  else
    match d with
    | .postgres => before.grownPostgres c
    | .sqlite => before.grownSqlite c
    | .mysql | .clickhouse => .nothing

end Before

/-- Where a reader of a text stands who knows the rules of PostgreSQL or SQLite. -/
inductive Place where
  | outside (before : Before)
  /-- In a literal or name that `close` ends. -/
  | quoted (close : Char)
  /-- In a literal with backslashes. -/
  | escaped
  /-- After a backslash in such a literal. -/
  | hidden
  /-- In a literal between tags, after `seen` if a `$` stands before that. -/
  | tagged (name : List Char) (seen : Option (List Char))
  /-- In a comment that is in `depth` others, after the character `last`. -/
  | comment (depth : Nat) (last : Char)
  /-- Between the parentheses of a variable's name. -/
  | suffix
  deriving DecidableEq, Repr

namespace Place

/-- In a literal or in a quoted name. -/
def isQuoted : Place → Bool
  | .outside _ | .comment _ _ | .suffix => false
  | .quoted _ | .escaped | .hidden | .tagged _ _ => true

/-- Where a text begins. -/
def start : Place := .outside .nothing

/-- Where a single quote brings a reader from outside quotes. -/
def opened (d : Dialect) (before : Before) : Place :=
  if d = .postgres ∧ before.escapes = true then .escaped else .quoted '\''

/-- Where the reader stands after one more character. -/
def next (d : Dialect) : Place → Char → Place
  | .outside before, c =>
    if c = '\'' then opened d before
    else if c = '"' ∨ c = '`' ∧ d = .sqlite then .quoted c
    else if c = '[' ∧ d = .sqlite then .quoted ']'
    else if c = '*' ∧ before = .slash then .comment 0 ' '
    else if c = '(' ∧ before.namesVariable d = true then .suffix
    else (before.completed? d c).elim (.outside (before.next d c)) (.tagged · none)
  | .quoted close, c => if c = close then start else .quoted close
  | .escaped, c =>
    if c = '\\' then .hidden
    else if c = '\'' then .outside (.ended none)
    else .escaped
  | .hidden, _ => .escaped
  | .tagged name seen, c =>
    if c = '$' then if seen = some name then start else .tagged name (some [])
    else .tagged name (seen.map (· ++ [c]))
  | .comment depth last, c =>
    if c = '/' ∧ last = '*' then
      match depth with
      | 0 => start
      | depth + 1 => .comment depth ' '
    else if c = '*' ∧ last = '/' ∧ d = .postgres then .comment (depth + 1) ' '
    else .comment depth c
  | .suffix, c => if c = ')' ∨ Text.isSpace c = true then start else .suffix

/-- Where the reader stands after a text. -/
def after (d : Dialect) (p : Place) (cs : List Char) : Place := cs.foldl (next d) p

/-- Whether a reader who stands at a place comes to two minus signs that nothing quotes. -/
def meetsDashes (d : Dialect) (p : Place) (cs : List Char) : Bool :=
  Text.meets (next d) (fun p => !p.isQuoted) '-' '-' p cs

/-- Whether two minus signs stand next to each other outside quoted literals and names. -/
def exposesDashes (d : Dialect) (text : String) : Bool := meetsDashes d start text.toList

/-- An `E` at the end of a word marks no backslashes. After a literal that has them, a quote on the
next line takes it up again. -/
example : exposesDashes .postgres "LIKEE'\\'--'" = true ∧
    exposesDashes .postgres "LIKE E'\\'--'" = false ∧
    exposesDashes .postgres "E'a'\n'\\'--'" = false ∧
    exposesDashes .postgres "E'a' '\\'--'" = true := by
  decide +kernel

/-- Tags, brackets and variables. -/
example : exposesDashes .postgres "$a$ ' $$ -- $a$ || '-'" = false ∧
    exposesDashes .postgres "[--]" = true ∧ exposesDashes .sqlite "['--] || '-'" = false ∧
    exposesDashes .sqlite "$a::b(') - '--'" = false ∧
    exposesDashes .sqlite "$a (') - '--'" = true := by
  decide +kernel

end Place

end SqlWeave
