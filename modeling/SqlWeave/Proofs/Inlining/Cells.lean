import SqlWeave.Proofs.Inlining.Bytewise
import SqlWeave.Proofs.Inlining.MarkerLoops
import SqlWeave.Proofs.Inlining.Refilled

/-!
# What is copied and what is filled

The text of a query is read as characters that are copied and placeholders that are filled
(`Inline.cells`), and inlining writes it cell by cell, with the literal of its value in the place
of each placeholder (`Inline.rewrites_cells`). A template of scalars becomes the text of its query
in the same way, with a placeholder or what is written out in the place of each marker
(`Inline.rewrites_templateCells`).
-/

namespace SqlWeave

namespace Inline

/-! ## Characters and placeholders -/

/-- A character that is copied, or a placeholder with the number of its value, counted from
zero. -/
inductive Cell where
  | copied (c : Char)
  | filled (mark : List Char) (index : Nat)
  deriving DecidableEq, Repr

/-- The characters that a cell was read from. -/
def Cell.spelling : Cell → List Char
  | .copied c => [c]
  | .filled mark _ => mark

/-- The text that cells were read from. -/
def spelled (cells : List Cell) : List Char := cells.flatMap Cell.spelling

theorem spelled_copied (c : Char) (rest : List Cell) :
    spelled (.copied c :: rest) = c :: spelled rest :=
  rfl

def Token.cells : Token → List Cell
  | .copied cs => cs.map .copied
  | .ordinal digits => [.filled ('$' :: digits) (numberOf digits - 1)]

/-- The cells of a text for a reader of markers who has passed `index` of them. -/
def markedCells (d : Dialect) (state : Quoting) (index : Nat) : List Char → List Cell
  | [] => []
  | c :: cs =>
    if Template.isMarker state c then .filled [c] index :: markedCells d .outside (index + 1) cs
    else .copied c :: markedCells d (state.next d c) index cs

/-- The cells of a template. -/
def templateCells (d : Dialect) (template : String) : List Cell :=
  markedCells d .outside 0 template.toList

/-- The cells of a text with placeholders. -/
def cells (d : Dialect) (text : String) : List Cell :=
  match d with
  | .postgres => (tokens text.toList).flatMap Token.cells
  | .mysql | .sqlite | .clickhouse => markedCells d .outside 0 text.toList

/-- What a cell becomes in the finished text. -/
def Cell.written (d : Dialect) (values : List Value) : Cell → List Char
  | .copied c => [c]
  | .filled mark index => (literalAt d values index).toOption.getD mark

/-- Cells become a text with something that is `ok` in the place of each placeholder. -/
inductive Rewrites (ok : Nat → List Char → Prop) : List Cell → List Char → Prop
  | nil : Rewrites ok [] []
  | copied (c : Char) {rest : List Cell} {cs : List Char} (h : Rewrites ok rest cs) :
    Rewrites ok (.copied c :: rest) (c :: cs)
  | filled (mark : List Char) {index : Nat} {x : List Char} {rest : List Cell} {cs : List Char}
    (hx : ok index x) (h : Rewrites ok rest cs) :
    Rewrites ok (.filled mark index :: rest) (x ++ cs)

/-- The literal of value number `index`. -/
def IsLiteral (d : Dialect) (values : List Value) (index : Nat) (x : List Char) : Prop :=
  literalAt d values index = .ok x

section Cells

variable {d : Dialect} {values : List Value} {state : Quoting} {ok : Nat → List Char → Prop}

theorem Rewrites.append {a b : List Cell} {x y : List Char} (ha : Rewrites ok a x)
    (hb : Rewrites ok b y) : Rewrites ok (a ++ b) (x ++ y) := by
  induction ha with
  | nil => exact hb
  | copied c _ ih => exact .copied c ih
  | filled mark hx _ ih =>
    rw [List.append_assoc]
    exact .filled mark hx ih

theorem rewrites_copied (cs : List Char) : Rewrites ok (cs.map .copied) cs := by
  induction cs with
  | nil => exact .nil
  | cons c cs ih => exact .copied c ih

/-! ### Markers -/

/-- The cells of a text spell it. -/
theorem spelled_markedCells (state : Quoting) (index : Nat) (cs : List Char) :
    spelled (markedCells d state index cs) = cs := by
  induction cs generalizing state index with
  | nil => rfl
  | cons c cs ih =>
    rw [markedCells]
    split <;> exact congrArg (c :: ·) (ih _ _)

/-- Only markers are filled. -/
theorem eq_of_mem_markedCells {index : Nat} {cs mark : List Char} {n : Nat}
    (h : .filled mark n ∈ markedCells d state index cs) : mark = ['?'] := by
  induction cs generalizing state index with
  | nil => simp [markedCells] at h
  | cons c cs ih =>
    rw [markedCells] at h
    split at h
    · rename_i hmarker
      rcases List.mem_cons.mp h with heq | hrest
      · rw [(Cell.filled.inj heq).1, Template.eq_of_isMarker hmarker]
      · exact ih hrest
    · rcases List.mem_cons.mp h with heq | hrest
      · cases heq
      · exact ih hrest

theorem exists_of_map_eq_ok {α β : Type} {f : α → β} {r : Except RenderError α} {b : β}
    (h : r.map f = .ok b) : ∃ a, r = .ok a ∧ f a = b := by
  cases r with
  | error e => cases h
  | ok a => exact ⟨a, rfl, Except.ok.inj h⟩

/-- Filling the markers of a text writes each cell, with the literals of the values. -/
theorem rewrites_markedCells {index : Nat} {cs r : List Char}
    (h : markedFrom d values state index cs = .ok r) :
    Rewrites (IsLiteral d values) (markedCells d state index cs) r := by
  induction cs generalizing state index r with
  | nil =>
    obtain rfl : [] = r := Except.ok.inj h
    exact .nil
  | cons c cs ih =>
    rw [markedFrom] at h
    rw [markedCells]
    cases hmarker : Template.isMarker state c with
    | true =>
      rw [hmarker, if_pos rfl] at h
      cases hliteral : literalAt d values index with
      | error e => simp [hliteral] at h
      | ok literal =>
        rw [hliteral] at h
        obtain ⟨more, hrest, rfl⟩ := exists_of_map_eq_ok h
        exact .filled [c] hliteral (ih hrest)
    | false =>
      rw [hmarker, if_neg Bool.false_ne_true] at h
      obtain ⟨more, hrest, rfl⟩ := exists_of_map_eq_ok h
      exact .copied c (ih hrest)

/-! ### Ordinals -/

/-- The cells of tokens spell the text that the tokens were read from. -/
theorem spelled_tokens (s : Section) (text : List Char) :
    spelled ((tokensFrom s text).flatMap Token.cells) = text := by
  induction s, text using reading_induction with
  | nil s => simp [tokensFrom, spelled]
  | @step s text token s' rest hstep ih =>
    have htoken : spelled token.cells = token.spelling := by
      cases token with
      | copied cs => simp [spelled, Token.cells, Token.spelling, Cell.spelling, List.flatMap_map]
      | ordinal digits => simp [spelled, Token.cells, Token.spelling, Cell.spelling]
    rw [hstep.tokensFrom_eq, List.flatMap_cons, hstep.spelling, ← htoken]
    rw [spelled, List.flatMap_append]
    exact congrArg _ ih

/-- Replacing the numbers among tokens writes each cell. -/
theorem rewrites_tokens {ts : List Token} {r : List Char} (h : replaceAll values ts = .ok r) :
    Rewrites (IsLiteral .postgres values) (ts.flatMap Token.cells) r := by
  induction ts generalizing r with
  | nil =>
    obtain rfl : [] = r := Except.ok.inj h
    exact .nil
  | cons token ts ih =>
    rw [replaceAll] at h
    cases hreplacement : token.replacement values with
    | error e => simp [hreplacement] at h
    | ok cs =>
      rw [hreplacement] at h
      obtain ⟨more, hrest, rfl⟩ := exists_of_map_eq_ok h
      refine Rewrites.append ?_ (ih hrest)
      cases token with
      | copied cs' =>
        obtain rfl : cs' = cs := Except.ok.inj hreplacement
        exact rewrites_copied cs'
      | ordinal digits =>
        rw [Token.replacement] at hreplacement
        split at hreplacement
        · simpa [Token.cells] using Rewrites.filled ('$' :: digits) hreplacement .nil
        · cases hreplacement

/-- Only numbers after a `$` are replaced. -/
theorem exists_digits_of_mem_cells {s : Section} {text mark : List Char} {n : Nat}
    (h : .filled mark n ∈ (tokensFrom s text).flatMap Token.cells) :
    ∃ digits, mark = '$' :: digits ∧ IsNumber digits := by
  obtain ⟨token, htoken, hcell⟩ := List.mem_flatMap.mp h
  cases token with
  | copied cs => simp [Token.cells] at hcell
  | ordinal digits =>
    rw [Token.cells, List.mem_singleton] at hcell
    exact ⟨digits, (Cell.filled.inj hcell).1, isNumber_of_mem_tokensFrom htoken⟩

/-! ### Cells of a text -/

theorem spelled_cells (d : Dialect) (text : String) : spelled (cells d text) = text.toList := by
  cases d with
  | postgres => exact spelled_tokens .outside _
  | mysql | sqlite | clickhouse => exact spelled_markedCells .outside 0 _

/-- A text that is inlined becomes what its cells become, with the literals of its values. -/
theorem rewrites_cells {text r : String} (h : d.inline text values = .ok r) :
    Rewrites (IsLiteral d values) (cells d text) r.toList := by
  cases d with
  | postgres =>
    obtain ⟨cs, hcs, rfl⟩ := exists_of_map_eq_ok h
    rw [String.toList_ofList]
    exact rewrites_tokens hcs
  | mysql | sqlite | clickhouse =>
    obtain ⟨cs, hcs, rfl⟩ := exists_of_map_eq_ok h
    rw [String.toList_ofList]
    exact rewrites_markedCells hcs

end Cells

end Inline

/-! ## Templates of scalars -/

namespace Item

variable {t : Target}

/-- What stands in the place of a scalar after `n` bound values. -/
def leafText (t : Target) (n : Nat) (v : Value) : List Char :=
  if t.binds v then (t.dialect.placeholder (n + 1)).toList else (t.writtenOut v).toList

/-- The text of items that begin with a scalar. -/
theorem exists_spelling_leaf (n : Nat) (v : Value) (rest : List Item) :
    ∃ n', (spelling t n (.leaf v :: rest)).toList =
      leafText t n v ++ (spelling t n' rest).toList := by
  rw [spelling, leafText]
  split
  · exact ⟨n + 1, String.toList_append⟩
  · exact ⟨n, String.toList_append⟩

end Item

namespace Inline

variable {t : Target}

/-- What stands in the place of some scalar. -/
def IsLeafText (t : Target) (x : List Char) : Prop := ∃ n v, x = Item.leafText t n v

theorem length_extendFirst {c : Char} {pieces : List (List Char)} (hne : pieces ≠ []) :
    (Text.extendFirst c pieces).length = pieces.length := by
  cases pieces with
  | nil => exact absurd rfl hne
  | cons => rfl

/-- A character in front of the first piece. -/
theorem spelling_extendFirst (n : Nat) (c : Char) {pieces : List (List Char)} (hne : pieces ≠ [])
    (vs : List Value) :
    (Item.spelling t n (Item.scalars ((Text.extendFirst c pieces).map .ofList) vs)).toList =
      c :: (Item.spelling t n (Item.scalars (pieces.map .ofList) vs)).toList := by
  obtain ⟨piece, pieces, rfl⟩ := List.exists_cons_of_ne_nil hne
  cases vs <;> simp [Item.scalars, Item.weave, Item.spelling, Text.extendFirst]

/-- The cells of a template become what is written for its pieces and the scalars between them. -/
theorem rewrites_cut {state : Quoting} {cs : List Char} {vs : List Value} (n index : Nat)
    (hcount : (Template.cut t.dialect state cs).length = vs.length + 1) :
    Rewrites (fun _ => IsLeafText t) (markedCells t.dialect state index cs)
      (Item.spelling t n
        (Item.scalars ((Template.cut t.dialect state cs).map .ofList) vs)).toList := by
  induction cs generalizing state vs n index with
  | nil =>
    obtain rfl : vs = [] := by simpa [Template.cut] using hcount
    exact .nil
  | cons c cs ih =>
    rw [markedCells]
    rw [Template.cut] at hcount ⊢
    cases hmarker : Template.isMarker state c with
    | true =>
      rw [hmarker, if_pos rfl, List.length_cons, Nat.add_right_cancel_iff] at hcount
      cases vs with
      | nil => exact absurd (List.length_eq_zero_iff.mp hcount) (Template.cut_ne_nil _ _ _)
      | cons v vs =>
        obtain ⟨n', hleaf⟩ := Item.exists_spelling_leaf (t := t) n v
          (Item.scalars ((Template.cut t.dialect .outside cs).map .ofList) vs)
        have hspelling : (Item.spelling t n (Item.scalars (([] ::
            Template.cut t.dialect .outside cs).map .ofList) (v :: vs))).toList =
              Item.leafText t n v ++ (Item.spelling t n' (Item.scalars
                ((Template.cut t.dialect .outside cs).map .ofList) vs)).toList := by
          rw [← hleaf, Item.scalars_cons]
          simp [Item.spelling]
        rw [if_pos rfl, if_pos rfl, hspelling]
        exact .filled [c] ⟨n, v, rfl⟩ (ih n' (index + 1) hcount)
    | false =>
      rw [hmarker, if_neg Bool.false_ne_true, length_extendFirst (Template.cut_ne_nil _ _ _)]
        at hcount
      rw [if_neg Bool.false_ne_true, if_neg Bool.false_ne_true,
        spelling_extendFirst n c (Template.cut_ne_nil _ _ _)]
      exact .copied c (ih n index hcount)

/-- A template becomes the text of its query, cell by cell. -/
theorem rewrites_templateCells {template : String} {vs : List Value} {q : Query}
    (h : (({} : Query).interpolate t template (vs.map .value)).result = .ok q) :
    Rewrites (fun _ => IsLeafText t) (templateCells t.dialect template) q.text.toList := by
  have hcount := Template.length_pieces t.dialect template
  rw [Query.markers_of_scalars h, Template.pieces, List.length_map] at hcount
  rw [(Query.interpolate_scalars h).2.1]
  exact rewrites_cut 0 0 hcount

end Inline

end SqlWeave
