import SqlWeave.Proofs.Builtin
import SqlWeave.Proofs.LayoutParts
import SqlWeave.Proofs.Precedence

/-!
# Conditions keep their structure

A condition is a tree, and its text is read as a list of tokens. Both have a value for every
choice of values for the leaves, which are all the conditions that are combined of no others.
The two values are the same (`Condition.keeps_structure`) : where conditions are combined, each
of them is a leaf or stands in parentheses, so AND and OR only ever stand between primaries.

The marker of a fragment is the whole text or stands directly between parentheses, so a fragment
may have any structure of its own.
-/

namespace SqlWeave

open Precedence

/-! ## The value of a condition -/

/-- The value of conditions under a connective. -/
def Connective.holds : Connective → List Bool → Bool
  | .conjunction, values => values.all id
  | .disjunction, values => values.any id

namespace Condition

mutual

/-- The conditions in a condition that are not combined of others, in order. -/
def leaves : Condition → List Condition
  | .combine _ children => leavesOf children
  | c => [c]
termination_by structural c => c

/-- The leaves of conditions one after the other. -/
def leavesOf : List Condition → List Condition
  | [] => []
  | c :: cs => c.leaves ++ leavesOf cs
termination_by structural cs => cs

end

mutual

/-- The value of a condition, where the stream has the values of its leaves in order. Nothing is
a member of the empty list. -/
def holds : Condition → Stream' Bool → Bool
  | .combine connective children, v => connective.holds (values children v)
  | .member _ (.list []) negated, _ => negated
  | _, v => v.head
termination_by structural c => c

/-- The values of conditions one after the other. -/
def values : List Condition → Stream' Bool → List Bool
  | [], _ => []
  | c :: cs, v => c.holds v :: values cs (v.drop c.leaves.length)
termination_by structural cs => cs

end

/-- The lexemes of a condition that is written alone. -/
def run (d : Dialect) (c : Condition) : List Lexeme := lexemes d (c.node.render d).text

/-- The text of a condition has the structure of the condition. -/
structure KeepsStructure (c : Condition) (d : Dialect) : Prop where
  /-- The leaves of the text are the leaves of the condition, each as it is written alone. -/
  leaves : runs (tokens d (c.node.render d).text) = c.leaves.map (run d)
  /-- The text has one value, and it is that of the condition. -/
  value : ∀ v a, Reads .search v (tokens d (c.node.render d).text) a ↔ a = c.holds v
  /-- The marker of a fragment is the text or stands directly between parentheses. -/
  marker : (c.node.render d).text = "?" ∨ Guarded (tokens d (c.node.render d).text)

theorem leavesOf_singleton (c : Condition) : leavesOf [c] = c.leaves := List.append_nil _

theorem leavesOf_append (cs others : List Condition) :
    leavesOf (cs ++ others) = leavesOf cs ++ leavesOf others := by
  induction cs with
  | nil => rfl
  | cons c cs ih => rw [List.cons_append, leavesOf, leavesOf, ih, List.append_assoc]

/-- Later conditions take their values from where the leaves of the earlier ones end. -/
theorem values_append (cs others : List Condition) (v : Stream' Bool) :
    values (cs ++ others) v = values cs v ++ values others (v.drop (leavesOf cs).length) := by
  induction cs generalizing v with
  | nil => rfl
  | cons c cs ih =>
    rw [List.cons_append, values, values, ih, leavesOf, Stream'.drop_drop, List.length_append,
      List.cons_append]

/-- One condition more under a connective. -/
theorem holds_concat (connective : Connective) (values : List Bool) (a : Bool) :
    connective.holds (values ++ [a]) = apply connective (connective.holds values) a := by
  cases connective <;> simp [Connective.holds, apply]

/-- A connective over one condition only says what the condition says. -/
theorem holds_values_singleton (connective : Connective) (c : Condition) :
    (fun v => connective.holds (values [c] v)) = c.holds := by
  funext v
  cases connective <;> simp [values, Connective.holds]

end Condition

/-! ## Layouts that do not fail -/

/-- A layout that does not fail has no part that fails, and its text is that of its parts. -/
theorem Layout.of_append_ok {l m : Layout} (d : Dialect) (h : (l ++ m).failure = none) :
    l.failure = none ∧ m.failure = none ∧ (l ++ m).text d = l.text d ++ m.text d := by
  obtain ⟨hl, hm⟩ := failure_append_eq_none_iff.mp h
  exact ⟨hl, hm, text_append d hl m⟩

theorem Layout.toList_text (d : Dialect) (l : Layout) :
    (l.text d).toList = l.segments.flatMap fun segment => (segment.text d).toList := by
  rw [Layout.text, String.toList_join, List.flatMap_map]

/-! ## Leaves -/

section Leaves

variable {d : Dialect}

/-- A name as a word. -/
def nameWord (d : Dialect) (name : String) : List Char := (d.quoteIdent name).toList

/-- A quoted name is no connective, whatever it is. -/
theorem connective?_nameWord (d : Dialect) (name : String) :
    connective? (nameWord d name) = none := by
  obtain ⟨c, cs, hname, rfl | rfl | rfl⟩ := Template.quoteIdent_eq_cons d name <;>
    rw [nameWord, hname] <;> rfl

/-- A quoted name has quotes, and is no other character by itself. -/
theorem nameWord_ne_singleton (d : Dialect) (name : String) {c : Char}
    (h : ¬(c = '*' ∨ c = '"' ∨ c = '`')) : nameWord d name ≠ [c] := by
  obtain ⟨first, cs, hname, hfirst⟩ := Template.quoteIdent_eq_cons d name
  rw [nameWord, hname]
  rintro ⟨⟩
  exact h hfirst

/-- What begins with a name is no comparison of constants, and its value is opaque. -/
theorem leafValue_nameWord (d : Dialect) (name : String) (ls : List Lexeme) (value : Bool) :
    leafValue (.word (nameWord d name) :: ls) value = value := by
  have hone := nameWord_ne_singleton d name (c := '1') (by decide)
  simp [leafValue, hone]

theorem leaf_nameWord_ne_marker (d : Dialect) (name : String) (ls : List Lexeme) :
    Token.leaf (.word (nameWord d name) :: ls) ≠ .marker := by
  have hmarker := nameWord_ne_singleton d name (c := '?') (by decide)
  simp [Token.marker, hmarker]

/-- A reader meets no separator in a name. -/
theorem over_nameWord (d : Dialect) (name : String) :
    Template.Over d (fun state c => separator? state c = none) .outside (nameWord d name)
      .outside := by
  have hadmits : Template.AdmitsNames fun state c => separator? state c = none :=
    { inside := fun _ _ => rfl
      hidden := fun _ _ => rfl
      outside := by simp [separator?, Char.isWhitespace] }
  exact Template.over_quoteIdent hadmits name

theorem lexemesFrom_quoteIdent (d : Dialect) (name : String) (rest : List Char) :
    lexemesFrom d .outside [] ((d.quoteIdent name).toList ++ rest) =
      lexemesFrom d .outside (nameWord d name) rest := by
  have hover := lexemesFrom_over (over_nameWord d name) [] rest
  rwa [List.nil_append] at hover

/-- What can stand after the words of a leaf. -/
structure LeafEnd (d : Dialect) (text : String) (ls : List Lexeme) : Prop where
  lexed : Lexed d text ls
  endsWord : ∀ rest, EndsWord rest → EndsWord (text.toList ++ rest)
  absorbed : Absorbed ls

theorem leafEnd_empty (d : Dialect) : LeafEnd d "" [] where
  lexed := fun _ _ => rfl
  endsWord := fun _ h => h
  absorbed := absorbed_nil

/-- A marker between parentheses that belong to the leaf. -/
theorem leafEnd_enclosed (d : Dialect) :
    LeafEnd d " (?)" [.opening, .word ['?'], .closing] where
  lexed := fun _ _ => rfl
  endsWord := fun _ _ => endsWord_cons (c := ' ') rfl _
  absorbed := absorbed_enclosed ['?']

/-- A name, words after it and an end are lexemes of a leaf. -/
theorem lexed_name {name text after : String} {words : List (List Char)} {ls : List Lexeme}
    (htext : text.toList = (d.quoteIdent name).toList ++ (spaced words ++ after.toList))
    (h : words.all isPlainWord = true) (hafter : LeafEnd d after ls) :
    Lexed d text (.word (nameWord d name) :: (words.map .word ++ ls)) := by
  obtain ⟨c, cs, hname, -⟩ := Template.quoteIdent_eq_cons d name
  have hgathered : gathered Lexeme.word (nameWord d name) = [.word (nameWord d name)] := by
    simp [gathered, nameWord, hname]
  intro rest hrest
  rw [htext, List.append_assoc, List.append_assoc, lexemesFrom_quoteIdent,
    lexemesFrom_spaced d _ h (hafter.endsWord _ hrest), hafter.lexed _ hrest, hgathered,
    List.singleton_append, List.cons_append, List.append_assoc]

end Leaves

/-! ## What is written for a condition -/

/-- A text is read as tokens that hold together at a grade, with the leaves and the value of
conditions. -/
structure Written (d : Dialect) (g : Grade) (text : String) (ts : List Token)
    (leaves : List Condition) (value : Stream' Bool → Bool) : Prop where
  phrase : Phrase d g text ts value
  runs_eq : runs ts = leaves.map (·.run d)

namespace Condition

variable {d : Dialect} {c : Condition}

/-- A text is read as a condition that others can stand next to. -/
def WrittenGuarded (d : Dialect) (text : String) (c : Condition) : Prop :=
  ∃ ts, Written d .primary text ts c.leaves c.holds ∧ Guarded ts

/-- A leaf that begins with a word that is no connective is written as itself. -/
theorem written_leaf {word : List Char} {ls : List Lexeme} (hleaves : c.leaves = [c])
    (htext : Lexed d (c.layout.text d) (.word word :: ls)) (hword : connective? word = none)
    (hls : Absorbed ls) (hvalue : ∀ v, leafValue (.word word :: ls) v.head = c.holds v) :
    Written d .primary (c.layout.text d) [.leaf (.word word :: ls)] c.leaves c.holds where
  phrase := ⟨.leaf htext hword hls, fun v => hvalue v ▸ .leaf v _⟩
  runs_eq := by
    rw [hleaves]
    exact congrArg (fun run => [run]) htext.lexemes_eq.symm

/-- A condition on a name : the name, words, and how the leaf ends. -/
theorem writtenGuarded_name {name : String} {segments : List Segment} (words : List (List Char))
    {after : String} {ls : List Lexeme} (hleaves : c.leaves = [c])
    (hvalue : ∀ v, c.holds v = v.head) (hsegments : c.layout.segments = .name name :: segments)
    (htext : (segments.flatMap fun segment => (segment.text d).toList) =
      spaced words ++ after.toList)
    (h : words.all isPlainWord = true) (hafter : LeafEnd d after ls) :
    WrittenGuarded d (c.layout.text d) c := by
  have hname : (c.layout.text d).toList =
      (d.quoteIdent name).toList ++ (spaced words ++ after.toList) := by
    rw [Layout.toList_text, hsegments, List.flatMap_cons, htext, Segment.text]
  refine ⟨_, written_leaf hleaves (lexed_name hname h hafter) (connective?_nameWord d name)
    (.words h hafter.absorbed) fun v => ?_, .singleton (leaf_nameWord_ne_marker d name _)⟩
  rw [leafValue_nameWord, hvalue]

/-- The words of an operator. -/
def operatorWords : Comparison → List (List Char)
  | .unlike => [['N', 'O', 'T'], ['L', 'I', 'K', 'E']]
  | comparison => [comparison.symbol.toList]

/-- A comparison is a leaf with one value. -/
theorem writtenGuarded_compare (d : Dialect) (column : String) (comparison : Comparison)
    (arg : Arg) : WrittenGuarded d ((compare column comparison arg).layout.text d)
      (.compare column comparison arg) := by
  refine writtenGuarded_name (operatorWords comparison ++ [['?']]) rfl (fun _ => rfl) rfl ?_ ?_
    (leafEnd_empty d)
  · cases comparison <;>
      simp [Layout.word, Layout.slot, Segment.text, spaced, operatorWords, Comparison.symbol]
  · cases comparison <;> rfl

/-- The words of a null test. -/
def nullWords (negated : Bool) : List (List Char) :=
  if negated then [['I', 'S'], ['N', 'O', 'T'], ['N', 'U', 'L', 'L']]
  else [['I', 'S'], ['N', 'U', 'L', 'L']]

theorem writtenGuarded_nullTest (d : Dialect) (column : String) (negated : Bool) :
    WrittenGuarded d ((nullTest column negated).layout.text d) (.nullTest column negated) := by
  refine writtenGuarded_name (nullWords negated) rfl (fun _ => rfl) rfl ?_ ?_
    (leafEnd_empty d)
  · cases negated <;> simp [Layout.word, Segment.text, spaced, nullWords]
  · cases negated <;> rfl

/-- The words of a membership. -/
def memberWords (negated : Bool) : List (List Char) :=
  if negated then [['N', 'O', 'T'], ['I', 'N']] else [['I', 'N']]

/-- Membership in a list that is not empty, or in rows. -/
theorem writtenGuarded_slot {column : String} {operand : Arg} {negated : Bool}
    (hvalue : ∀ v, (member column operand negated).holds v = v.head)
    (hlayout : (member column operand negated).layout =
      memberLayout.operandLayout column negated (.slot operand)) :
    WrittenGuarded d ((member column operand negated).layout.text d)
      (.member column operand negated) := by
  refine writtenGuarded_name (memberWords negated ++ [['?']]) rfl hvalue
    (congrArg Layout.segments hlayout) ?_ ?_ (leafEnd_empty d)
  · cases negated <;> simp [Layout.word, Layout.slot, Segment.text, spaced, memberWords]
  · cases negated <;> rfl

/-- Membership in what a fragment gives, between parentheses that are part of the leaf. -/
theorem writtenGuarded_fragment (column text : String) (args : List Arg) (negated : Bool) :
    WrittenGuarded d ((member column (.fragment text args) negated).layout.text d)
      (.member column (.fragment text args) negated) := by
  have hsegments : (member column (.fragment text args) negated).layout.segments =
      [.name column, .word (if negated then " NOT IN " else " IN "), .word "(",
        .slot (.fragment text args), .word ")"] := rfl
  refine writtenGuarded_name (memberWords negated) rfl (fun _ => rfl) hsegments ?_ ?_
    (leafEnd_enclosed d)
  · cases negated <;> simp [Segment.text, spaced, memberWords]
  · cases negated <;> rfl

/-- Membership in the empty list, a comparison of constants. -/
theorem writtenGuarded_empty (column : String) (negated : Bool) :
    WrittenGuarded d ((member column (.list []) negated).layout.text d)
      (.member column (.list []) negated) := by
  let digit := if negated then '1' else '0'
  have htext : ((member column (.list []) negated).layout.text d).toList =
      '1' :: spaced [['='], [digit]] := by
    rw [Layout.toList_text]
    cases negated <;> simp [layout, memberLayout, Layout.word, Segment.text, spaced, digit]
  have hwords : [['='], [digit]].all isPlainWord = true := by cases negated <;> rfl
  have hlexed : Lexed d ((member column (.list []) negated).layout.text d)
      (.word ['1'] :: ([['='], [digit]].map .word ++ [])) := by
    intro rest hrest
    rw [htext]
    exact lexemesFrom_spaced d ['1'] hwords hrest
  refine ⟨_, written_leaf rfl hlexed rfl (.words hwords absorbed_nil) fun v => ?_,
    .singleton (by simp [Token.marker])⟩
  cases negated <;> rfl

/-- A membership is a leaf with one value, whatever form its operand has, if it does not fail. -/
theorem writtenGuarded_member (d : Dialect) (column : String) (operand : Arg) (negated : Bool)
    (h : (member column operand negated).layout.failure = none) :
    WrittenGuarded d ((member column operand negated).layout.text d)
      (.member column operand negated) := by
  match operand with
  | .list [] => exact writtenGuarded_empty column negated
  | .list (item :: items) => exact writtenGuarded_slot (fun _ => rfl) rfl
  | .node parens render => exact writtenGuarded_slot (fun _ => rfl) rfl
  | .fragment text args => exact writtenGuarded_fragment column text args negated
  | .value _ | .late _ => exact nomatch h

/-- Comparisons, null tests and memberships. -/
theorem writtenGuarded_atomic {c : Condition} (hatomic : c.isAtomic = true)
    (h : c.layout.failure = none) : WrittenGuarded d (c.layout.text d) c := by
  match c with
  | .compare column comparison arg => exact writtenGuarded_compare d column comparison arg
  | .nullTest column negated => exact writtenGuarded_nullTest d column negated
  | .member column operand negated => exact writtenGuarded_member d column operand negated h
  | .combine .. | .fragment .. => exact nomatch hatomic

/-! ## Conditions combined -/

/-- What is written for a condition by itself. -/
def WrittenAlone (d : Dialect) (c : Condition) : Prop :=
  ∃ ts, Written d .search (c.layout.text d) ts c.leaves c.holds ∧
    (c.layout.text d = "?" ∧ ts = [.marker] ∨ Guarded ts)

/-- An atomic condition needs no parentheses. -/
theorem writtenAlone_atomic {c : Condition} (hatomic : c.isAtomic = true)
    (h : c.layout.failure = none) : WrittenAlone d c := by
  obtain ⟨ts, hwritten, hguarded⟩ := writtenGuarded_atomic (d := d) hatomic h
  exact ⟨ts, ⟨hwritten.phrase.search, hwritten.runs_eq⟩, .inr hguarded⟩

/-- A fragment is written as one leaf. -/
theorem writtenAlone_fragment (d : Dialect) (text : String) (args : List Arg) :
    WrittenAlone d (.fragment text args) := by
  have htext : (fragment text args).layout.text d = "?" := rfl
  have hlexed : Lexed d ((fragment text args).layout.text d) [.word ['?']] := by
    rw [htext]
    exact fun rest hrest => lexemesFrom_of_endsWord d ['?'] hrest
  have hwritten := written_leaf rfl hlexed rfl absorbed_nil fun v => rfl
  exact ⟨_, ⟨hwritten.phrase.search, hwritten.runs_eq⟩, .inl ⟨htext, rfl⟩⟩

/-- The layout of a condition among others. -/
def partLayout (c : Condition) : Layout :=
  if c.isAtomic then c.layout else c.layout.parenthesised

/-- A condition among others is a primary. -/
theorem writtenGuarded_part {c : Condition} (halone : c.layout.failure = none → WrittenAlone d c)
    (h : c.partLayout.failure = none) : WrittenGuarded d (c.partLayout.text d) c := by
  by_cases hatomic : c.isAtomic = true
  · rw [partLayout, if_pos hatomic] at h ⊢
    exact writtenGuarded_atomic hatomic h
  · rw [partLayout, if_neg hatomic] at h ⊢
    obtain ⟨hstart, -, htext⟩ := Layout.of_append_ok d h
    obtain ⟨-, hok, htext'⟩ := Layout.of_append_ok d hstart
    have henclosed : c.layout.parenthesised.text d = "(" ++ c.layout.text d ++ ")" := by
      rw [Layout.parenthesised, htext, htext']
      rfl
    obtain ⟨ts, hwritten, hguarded⟩ := halone hok
    rw [henclosed]
    refine ⟨_, ⟨hwritten.phrase.enclosed, ?_⟩, .enclosed (hguarded.imp And.right id)⟩
    rw [runs_enclosed, hwritten.runs_eq]

/-- What is written for conditions under a connective, as far as they are laid out. -/
def WrittenJoined (d : Dialect) (connective : Connective) (l : Layout) (done : List Condition) :
    Prop :=
  ∃ ts, Written d (gradeOf connective) (l.text d) ts (leavesOf done)
    (fun v => connective.holds (values done v)) ∧ Guarded ts

/-- One condition under a connective is written as if there were none. -/
theorem writtenJoined_singleton (connective : Connective) {l : Layout}
    (h : WrittenGuarded d (l.text d) c) : WrittenJoined d connective l [c] := by
  obtain ⟨ts, hwritten, hguarded⟩ := h
  refine ⟨ts, ?_, hguarded⟩
  rw [holds_values_singleton, leavesOf_singleton]
  exact ⟨hwritten.phrase.graded connective, hwritten.runs_eq⟩

/-- One condition more. -/
theorem WrittenJoined.step {connective : Connective} {l m : Layout} {done : List Condition}
    (h : WrittenJoined d connective l done) (hc : WrittenGuarded d (m.text d) c)
    (hok : (l ++ (.word connective.word ++ m)).failure = none) :
    WrittenJoined d connective (l ++ (.word connective.word ++ m)) (done ++ [c]) := by
  obtain ⟨ts, hwritten, hguarded⟩ := h
  obtain ⟨us, hwritten', hguarded'⟩ := hc
  obtain ⟨-, hright, htext⟩ := Layout.of_append_ok d hok
  obtain ⟨-, -, htext'⟩ := Layout.of_append_ok d hright
  have hword : (Layout.word connective.word).text d = connective.word := by
    cases connective <;> rfl
  have hlength : (runs ts).length = (leavesOf done).length := by
    rw [hwritten.runs_eq, List.length_map]
  refine ⟨ts ++ .connective connective :: us, ?_, hguarded.append (.cons nofun hguarded')⟩
  rw [htext, htext', hword]
  have hphrase := hwritten.phrase.connected hwritten'.phrase
  have hvalue : (fun v => connective.holds (values (done ++ [c]) v)) = fun v =>
      apply connective (connective.holds (values done v)) (c.holds (v.drop (runs ts).length)) := by
    funext v
    rw [values_append, hlength]
    exact holds_concat _ _ _
  rw [hvalue]
  refine ⟨hphrase, ?_⟩
  rw [runs_append, runs_connective, hwritten.runs_eq, hwritten'.runs_eq, leavesOf_append,
    leavesOf_singleton, List.map_append]

/-- All other conditions. -/
theorem WrittenJoined.concat {connective : Connective} {rest : List Condition} {l : Layout}
    {done : List Condition} (h : WrittenJoined d connective l done)
    (hrest : ∀ c ∈ rest, c.partLayout.failure = none → WrittenGuarded d (c.partLayout.text d) c)
    (hok : (l ++ .concat (rest.map fun c => .word connective.word ++ c.partLayout)).failure =
      none) :
    WrittenJoined d connective
      (l ++ .concat (rest.map fun c => .word connective.word ++ c.partLayout)) (done ++ rest) := by
  induction rest generalizing l done with
  | nil => simpa [Layout.concat] using h
  | cons c rest ih =>
    rw [List.forall_mem_cons] at hrest
    obtain ⟨hc, hrest⟩ := hrest
    have hcons : l ++ .concat ((c :: rest).map fun c => .word connective.word ++ c.partLayout) =
        l ++ (.word connective.word ++ c.partLayout) ++
          .concat (rest.map fun c => .word connective.word ++ c.partLayout) := by
      rw [Layout.append_assoc]
      rfl
    rw [hcons] at hok ⊢
    obtain ⟨hstart, -, -⟩ := Layout.of_append_ok d hok
    obtain ⟨-, hright, -⟩ := Layout.of_append_ok d hstart
    obtain ⟨-, hpart, -⟩ := Layout.of_append_ok d hright
    have hstep := ih (h.step (hc hpart) hstart) hrest hok
    rwa [List.append_assoc, List.singleton_append] at hstep

/-- Joined conditions are written with parentheses where their own connective would be read
otherwise. -/
theorem writtenAlone_combine (connective : Connective) {children : List Condition}
    (halone : ∀ c ∈ children, c.layout.failure = none → WrittenAlone d c)
    (h : (combine connective children).layout.failure = none) :
    WrittenAlone d (.combine connective children) := by
  match children with
  | [] => exact nomatch h
  | [only] =>
    have hholds : (combine connective [only]).holds = only.holds :=
      holds_values_singleton connective only
    have hleaves : (combine connective [only]).leaves = only.leaves := leavesOf_singleton only
    rw [WrittenAlone, hholds, hleaves]
    exact halone only List.mem_cons_self h
  | first :: next :: rest =>
    have hlayout : (combine connective (first :: next :: rest)).layout = first.partLayout ++
        .concat ((next :: rest).map fun c => .word connective.word ++ c.partLayout) := by
      rw [layout, layouts_eq_map, List.map_cons, List.map_cons, combinedLayout_cons_cons]
      simp only [Layout.joined, List.map_map, List.map_cons]
      rfl
    have hpart : ∀ c ∈ first :: next :: rest, c.partLayout.failure = none →
        WrittenGuarded d (c.partLayout.text d) c := fun c hc =>
      writtenGuarded_part (halone c hc)
    rw [List.forall_mem_cons] at hpart
    rw [hlayout] at h
    obtain ⟨hfirst, -, -⟩ := Layout.of_append_ok d h
    obtain ⟨ts, hwritten, hguarded⟩ :=
      (writtenJoined_singleton connective (hpart.1 hfirst)).concat hpart.2 h
    rw [← hlayout] at hwritten
    exact ⟨ts, ⟨hwritten.phrase.ofGraded, hwritten.runs_eq⟩, .inr hguarded⟩

mutual

/-- Every condition that does not fail is read as itself, by induction over the tree. -/
theorem writtenAlone (d : Dialect) : ∀ c : Condition, c.layout.failure = none → WrittenAlone d c
  | .compare .., h | .nullTest .., h | .member .., h => writtenAlone_atomic rfl h
  | .combine connective children, h =>
    writtenAlone_combine connective (writtenAlone_children d children) h
  | .fragment text args, _ => writtenAlone_fragment d text args
termination_by structural c => c

theorem writtenAlone_children (d : Dialect) :
    ∀ cs : List Condition, ∀ c ∈ cs, c.layout.failure = none → WrittenAlone d c
  | [] => by simp
  | c :: cs => List.forall_mem_cons.mpr ⟨writtenAlone d c, writtenAlone_children d cs⟩
termination_by structural cs => cs

end

/-- Whatever the condition and the dialect, a condition that can be written is read with its own
structure : leaf by leaf, with the same value whatever the values of the leaves, and with every
fragment by itself or in parentheses. -/
theorem keeps_structure {c : Condition} {d : Dialect} (h : (c.node.render d).failure = none) :
    c.KeepsStructure d := by
  obtain ⟨ts, hwritten, hguarded⟩ := writtenAlone d c h
  have htokens : tokens d (c.node.render d).text = ts := hwritten.phrase.readAs.tokens_eq
  refine ⟨htokens ▸ hwritten.runs_eq, fun v a => ⟨fun ha => ?_, fun ha => ?_⟩, ?_⟩
  · exact Reads.unique (htokens ▸ ha) (hwritten.phrase.reads v)
  · rw [ha, htokens]
    exact hwritten.phrase.reads v
  · exact hguarded.imp And.left fun hguarded => htokens ▸ hguarded

/-- Connectives of both kinds, alone and one inside the other, with fragments at several depths
and membership in the empty list. -/
def mixed : Condition :=
  .and [.or [.nullTest "a" false, .fragment "x OR y" []], .or [.and [.fragment "z" []]],
    .member "b" (.list []) true]

/-- Conditions of both connectives, one within the other, with a fragment, a test and an empty
conjunction. -/
theorem keeps_structure_mixed :
    (mixed.node.render .mysql).failure = none ∧
    (mixed.node.render .mysql).text = "(`a` IS NULL OR (?)) AND (?) AND 1 = 1" ∧
    mixed.KeepsStructure .mysql :=
  ⟨rfl, rfl, keeps_structure rfl⟩

end Condition

end SqlWeave
