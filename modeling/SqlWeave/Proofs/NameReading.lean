import SqlWeave.Dialect.Identifier

/-!
# Names read back

A written name is read item by item, with dots between the items (`Dialect.readName`). An
item is a bare star, or stands between two quote characters of the dialect; in a quoted item
a quote character written twice is one of it, and in ClickHouse a backslash makes the
character after it literal. The reader knows nothing of how names are written. With each
item it gives the text that the item took up, so it can be seen where the item closed.

Whatever the name, the items of its written form are the segments of the name, and each
takes up just what was written for its segment (`Dialect.readName_quoteIdent`). So no
character of a name closes its quotes, and names that are written alike are the same.
-/

namespace SqlWeave

theorem Text.splitAt_eq_splitOn (separator : Char) (cs : List Char) :
    splitAt separator cs = cs.splitOn separator := by
  induction cs with
  | nil => rfl
  | cons c cs ih =>
    rw [List.splitOn, List.splitOnP_cons_eq_if_modifyHead, ← List.splitOn, ← ih]
    by_cases h : c = separator
    · simp [splitAt, h]
    · obtain ⟨piece, rest, heq⟩ := List.exists_cons_of_ne_nil (splitAt_ne_nil separator cs)
      simp [splitAt, h, heq, extendFirst]

/-! ## The reader -/

/-- What an item of a written name stands for. -/
inductive NameItem where
  | star
  | quoted (segment : List Char)
  deriving DecidableEq, Repr

namespace Dialect

/-- What a quoted item holds, read after its opening quote, and the text after the quote that
closes it. -/
def readQuoted (d : Dialect) : List Char → Option (List Char × List Char)
  | [] => none
  | [c] => if c = d.identifierQuote then some ([], []) else none
  | c :: next :: rest =>
    if c = d.identifierQuote then
      if next = d.identifierQuote then (readQuoted d rest).map (Prod.map (c :: ·) id)
      else some ([], next :: rest)
    else if c == '\\' && d == .clickhouse then (readQuoted d rest).map (Prod.map (next :: ·) id)
    else (readQuoted d (next :: rest)).map (Prod.map (c :: ·) id)

/-- The first item of a text, and the text after it. -/
def readItem (d : Dialect) : List Char → Option (NameItem × List Char)
  | [] => none
  | c :: cs =>
    if c = d.identifierQuote then (readQuoted d cs).map (Prod.map .quoted id)
    else if c = '*' then some (.star, cs)
    else none

variable {d : Dialect}

/-! ### Reading gets on -/

theorem length_of_map_readQuoted {c : Char} {cs content rest : List Char} {bound : Nat}
    (ih : ∀ {content rest}, readQuoted d cs = some (content, rest) → rest.length < bound)
    (h : (readQuoted d cs).map (Prod.map (c :: ·) id) = some (content, rest)) :
    rest.length < bound := by
  obtain ⟨⟨content', rest'⟩, hread, heq⟩ := Option.map_eq_some_iff.mp h
  obtain rfl := (Prod.mk.inj heq).2
  exact ih hread

/-- Reading something quoted uses up characters. -/
theorem length_readQuoted {cs content rest : List Char}
    (h : readQuoted d cs = some (content, rest)) : rest.length < cs.length := by
  fun_induction readQuoted d cs generalizing content rest with
  | case1 => simp at h
  | case2 => simp_all
  | case3 => simp at h
  | case4 rest' ih | case6 c next rest' _ _ ih =>
    have hlt := length_of_map_readQuoted ih h
    simp only [List.length_cons]
    omega
  | case5 next rest' =>
    obtain ⟨-, rfl⟩ := Prod.mk.inj (Option.some.inj h)
    simp
  | case7 c next rest' _ _ ih =>
    have hlt := length_of_map_readQuoted ih h
    simp only [List.length_cons] at hlt ⊢
    omega

theorem length_readItem {cs rest : List Char} {item : NameItem}
    (h : readItem d cs = some (item, rest)) : rest.length < cs.length := by
  cases cs with
  | nil => simp [readItem] at h
  | cons c cs =>
    simp only [readItem] at h
    split at h
    · obtain ⟨⟨content, rest'⟩, hread, heq⟩ := Option.map_eq_some_iff.mp h
      obtain rfl := (Prod.mk.inj heq).2
      exact Nat.lt_succ_of_lt (length_readQuoted hread)
    · split at h
      · obtain ⟨-, rfl⟩ := Prod.mk.inj (Option.some.inj h)
        simp
      · simp at h

/-- The items of a whole text with dots between them, each with the text that it took up. -/
def readName (d : Dialect) (cs : List Char) : Option (List (List Char × NameItem)) :=
  match h : readItem d cs with
  | none => none
  | some (item, []) => some [(cs, item)]
  | some (item, c :: rest) =>
    have := length_readItem h
    if c = '.' then
      (readName d rest).map ((cs.take (cs.length - (rest.length + 1)), item) :: ·)
    else none
termination_by cs.length
decreasing_by
  simp only [List.length_cons] at this
  omega

theorem readName_last {cs : List Char} {item : NameItem} (h : readItem d cs = some (item, [])) :
    readName d cs = some [(cs, item)] := by
  rw [readName]
  split <;> simp_all

/-- A name goes on after a dot. -/
theorem readName_dot {source rest : List Char} {item : NameItem}
    (h : readItem d (source ++ '.' :: rest) = some (item, '.' :: rest)) :
    readName d (source ++ '.' :: rest) = (readName d rest).map ((source, item) :: ·) := by
  rw [readName]
  split <;> simp_all

/-! ## Written names -/

/-- Only in ClickHouse does a backslash hide a character of a name. -/
theorem backslashHides_identifierQuote (d : Dialect) :
    d.backslashHides d.identifierQuote = (d == .clickhouse) := by
  cases d <;> rfl

/-- A character of a name is read back as itself, and reading goes on after it. -/
theorem readQuoted_identifierChar (c : Char) {more : List Char} (hmore : more ≠ []) :
    readQuoted d (d.identifierChar c ++ more) =
      (readQuoted d more).map (Prod.map (c :: ·) id) := by
  obtain ⟨next, rest, rfl⟩ := List.exists_cons_of_ne_nil hmore
  have hquote : '\\' ≠ d.identifierQuote := by cases d <;> decide
  by_cases hc : c = d.identifierQuote
  · simp [identifierChar, hc, readQuoted]
  by_cases hback : c = '\\' ∧ d = .clickhouse
  · obtain ⟨rfl, rfl⟩ := hback
    simp [identifierChar, backslashHides_identifierQuote, readQuoted, hquote]
  · have hplain : (c == '\\' && d == .clickhouse) = false := by simpa using hback
    simp [identifierChar, backslashHides_identifierQuote, readQuoted, hc, hplain]

/-- No character of a segment closes the quotes around it. The quote after it does, if no
second one follows. -/
theorem readQuoted_segment (segment : List Char) {rest : List Char}
    (hrest : rest.head? ≠ some d.identifierQuote) :
    readQuoted d (segment.flatMap d.identifierChar ++ d.identifierQuote :: rest) =
      some (segment, rest) := by
  induction segment with
  | nil =>
    cases rest with
    | nil => simp [readQuoted]
    | cons next rest =>
      have hnext : next ≠ d.identifierQuote := by simpa using hrest
      simp [readQuoted, hnext]
  | cons c segment ih =>
    rw [List.flatMap_cons, List.append_assoc, readQuoted_identifierChar c (by simp), ih]
    rfl

/-- What a segment of a name is read as. -/
def segmentItem (segment : List Char) : NameItem :=
  if segment = ['*'] then .star else .quoted segment

/-- Segments of names are told apart by what is read of them. -/
theorem segmentItem_injective : Function.Injective segmentItem := by
  intro segment other h
  unfold segmentItem at h
  split at h <;> split at h <;> simp_all

/-- What is written for a segment is one item, which closes at its last character. -/
theorem readItem_identifierSegment (segment : List Char) {rest : List Char}
    (hrest : rest.head? ≠ some d.identifierQuote) :
    readItem d (d.identifierSegment segment ++ rest) = some (segmentItem segment, rest) := by
  have hstar : '*' ≠ d.identifierQuote := by cases d <;> decide
  unfold identifierSegment segmentItem
  split
  · simp [readItem, hstar]
  · simp [readItem, readQuoted_segment segment hrest]

/-- Segments that are written with dots between them are read as they are. -/
theorem readName_intercalate {segments : List (List Char)} (h : segments ≠ []) :
    readName d (['.'].intercalate (segments.map d.identifierSegment)) =
      some (segments.map fun segment => (d.identifierSegment segment, segmentItem segment)) := by
  have hdot : '.' ≠ d.identifierQuote := by cases d <;> decide
  induction segments with
  | nil => exact absurd rfl h
  | cons segment segments ih =>
    cases segments with
    | nil =>
      have hread : readItem d (d.identifierSegment segment ++ []) =
          some (segmentItem segment, []) := readItem_identifierSegment segment (by simp)
      rw [List.append_nil] at hread
      simpa using readName_last hread
    | cons next segments =>
      let others := ['.'].intercalate ((next :: segments).map d.identifierSegment)
      have hread : readItem d (d.identifierSegment segment ++ '.' :: others) =
          some (segmentItem segment, '.' :: others) :=
        readItem_identifierSegment segment (by simpa using hdot)
      rw [List.map_cons, List.map_cons, List.intercalate_cons_cons, List.append_assoc,
        List.singleton_append, ← List.map_cons, readName_dot hread, ih (by simp)]
      rfl

/-- A quoted name is read as its segments, each as it was written. -/
theorem readName_written (d : Dialect) (name : String) :
    d.readName (d.quoteIdent name).toList =
      some ((name.toList.splitOn '.').map fun segment =>
        (d.identifierSegment segment, segmentItem segment)) := by
  rw [quoteIdent, String.toList_ofList, readName_intercalate (Text.splitAt_ne_nil '.' _),
    Text.splitAt_eq_splitOn]

/-- Whatever the name, its written form is read as the segments of the name, of which only a
lone star is bare, and each item takes up what was written for its segment. So the written
form tells which name it is. -/
theorem readName_quoteIdent (d : Dialect) :
    (∀ name : String, d.readName (d.quoteIdent name).toList =
      some ((name.toList.splitOn '.').map fun segment =>
        (d.identifierSegment segment, segmentItem segment))) ∧
    Function.Injective d.quoteIdent := by
  refine ⟨readName_written d, fun name other h => ?_⟩
  have hread := readName_written d other
  rw [← h, readName_written d name] at hread
  have hsegments := (List.map_inj_right fun _ _ heq =>
    segmentItem_injective (Prod.mk.inj heq).2).mp (Option.some.inj hread)
  have htext : name.toList = other.toList := by
    calc name.toList = ['.'].intercalate (name.toList.splitOn '.') :=
          (List.intercalate_splitOn '.').symm
      _ = other.toList := by rw [hsegments, List.intercalate_splitOn]
  exact String.toList_inj.mp htext

end Dialect

end SqlWeave
