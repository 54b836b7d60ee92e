import SqlWeave.Proofs.Inlining.OnePass

/-!
# Numbered placeholders on the wire

PostgreSQL numbers its placeholders. It reads a `$` outside quotes with all the digits that
follow as one ordinal (`ordinals`), so an ordinal can say more than was written for it : the
texts around placeholders are put in as they are, and a digit right after a placeholder is
read as one more digit of its number.

If own texts have no `$` and no backtick and are balanced, this is all that can go wrong.
Every other text is passed over, whatever names and byte strings there are
(`Item.read_spelling`), and the ordinals that are read are 1, 2, 3 and so on exactly if no
placeholder is followed by a digit (`Query.readsInOrder_interpolate`). That is so if own
texts have no digit in the places right after markers.
-/

namespace SqlWeave

open Template (Balanced)

namespace Ordinal

/-! ## Reading ordinals -/

/-- The digits after each `$` outside quotes, for a reader who is in a quote or in none. -/
def read (quote : Option Char) : List Char → List (List Char)
  | [] => []
  | c :: cs =>
    if quote = none ∧ c = '$' then cs.takeWhile Char.isDigit :: read none cs
    else read (nextQuote quote c) cs

/-- The ordinals of a text, from left to right. -/
def ordinals (text : String) : List String := (read none text.toList).map .ofList

/-- A text without `$` outside quotes is passed over. -/
theorem read_of_undollared {start stop : Option Char} {cs : List Char}
    (h : Undollared start cs stop) (rest : List Char) :
    read start (cs ++ rest) = read stop rest := by
  induction h with
  | nil => rfl
  | cons hc _ ih => rw [List.cons_append, read, if_neg hc, ih]

/-- A placeholder is read as one ordinal, with the digits that follow it. -/
theorem read_placeholder (n : Nat) (rest : List Char) :
    read none ((Dialect.placeholder .postgres n).toList ++ rest) =
      (Nat.toDigits 10 n ++ rest.takeWhile Char.isDigit) :: read none rest := by
  have hdigits : ∀ c ∈ Nat.toDigits 10 n, c.isDigit = true := fun c hc =>
    Nat.isDigit_of_mem_toDigits (by decide) (by decide) hc
  have hundollared : Undollared none (Nat.toDigits 10 n) none :=
    undollared_of_plain fun c hc => isWordChar_of_isDigit (hdigits c hc)
  rw [Dialect.toList_placeholder, List.cons_append, read, if_pos ⟨rfl, rfl⟩,
    List.takeWhile_append_of_pos hdigits, read_of_undollared hundollared]

/-! ### Own texts -/

/-- A text that a caller wrote, without anything that could be taken for a placeholder or
hide one. -/
structure PlainText (text : String) : Prop where
  balanced : Balanced .postgres text
  plain : '$' ∉ text.toList ∧ '`' ∉ text.toList

theorem undollared_pieces_of_regular {free : Bool} {l : Layout} (h : l.Regular free) :
    ∀ p ∈ Template.pieces .postgres (l.text .postgres), Undollared none p.toList none := by
  intro p hp
  rw [h.pieces_text] at hp
  obtain ⟨cs, hcs, rfl⟩ := List.mem_map.mp hp
  rw [String.toList_ofList]
  exact h.segments.forall_between (P := fun cs => Undollared none cs none) (.nil none)
    (fun ha hb => ha.append hb) undollared_of_isWord undollared_quoteIdent cs hcs

end Ordinal

/-- Plain texts everywhere : fragments, and what callers' nodes render to. -/
def Arg.OwnTextsPlain : Arg → Prop :=
  Arg.Composed .postgres (fun f => Ordinal.PlainText f.text) fun n =>
    (n.render .postgres).failure = none → Ordinal.PlainText (n.render .postgres).text

theorem Inline.OwnText.plainText {free : Bool} {text : String}
    (h : Inline.OwnText .postgres free text) : Ordinal.PlainText text :=
  ⟨h.balanced, h.plain rfl⟩

theorem Arg.OwnTextsReadable.plain {a : Arg} (h : a.OwnTextsReadable .postgres) :
    a.OwnTextsPlain :=
  h.imp (fun _ hf => hf.plainText) fun _ hn hok => (hn hok).plainText

/-! ## The ordinals of items -/

/-- What is written in the place of a value that is not bound has no `$` outside quotes. -/
theorem Target.undollared_writtenOut {t : Target} (ht : t.dialect = .postgres) (v : Value) :
    Undollared none (t.writtenOut v).toList none := by
  unfold writtenOut
  rw [ht]
  split
  · exact undollared_bytes _
  · exact undollared_null

namespace Item

/-- An item whose text has no `$` outside quotes. -/
def UndollaredText : Item → Prop
  | .text s => Undollared none s.toList none
  | .leaf _ | .fault _ => True

theorem punctuation_undollaredText : Punctuation UndollaredText where
  leaf _ := trivial
  late _ := trivial
  emptyList := trivial
  opening := undollared_of_isWord (by decide : Layout.isWord true "(" = true)
  comma := undollared_of_isWord (by decide : Layout.isWord true ", " = true)
  closing := undollared_of_isWord (by decide : Layout.isWord true ")" = true)

theorem brings_undollaredText {r : Rendering Arg} (h : r.failure = none →
    ∀ p ∈ Template.pieces .postgres r.text, Undollared none p.toList none) :
    Brings .postgres UndollaredText r where
  failure _ _ := trivial
  count _ _ := trivial
  pieces hok _ := h hok

variable (t : Target)

/-- The ordinals in the text of items that stand after `n` bound values : the number of each
bound leaf, with the digits that follow its placeholder. -/
def ordinals (n : Nat) : List Item → List (List Char)
  | [] => []
  | .text _ :: rest | .fault _ :: rest => ordinals n rest
  | .leaf v :: rest =>
    if t.binds v then
      (Nat.toDigits 10 (n + 1) ++ (spelling t (n + 1) rest).toList.takeWhile Char.isDigit) ::
        ordinals (n + 1) rest
    else ordinals n rest

/-- In the text of items that stand after `n` bound values, no placeholder is followed by a
digit. -/
def Apart (n : Nat) : List Item → Prop
  | [] => True
  | .text _ :: rest | .fault _ :: rest => Apart n rest
  | .leaf v :: rest =>
    if t.binds v then
      Text.startsWithDigit (spelling t (n + 1) rest).toList = false ∧ Apart (n + 1) rest
    else Apart n rest

variable {t} {items : List Item}

/-- Of the text of items, a reader sees the placeholders and passes over everything else. -/
theorem read_spelling (ht : t.dialect = .postgres) (h : ∀ i ∈ items, i.UndollaredText) (n : Nat) :
    Ordinal.read none (spelling t n items).toList = ordinals t n items := by
  induction items generalizing n with
  | nil => rfl
  | cons item items ih =>
    rw [List.forall_mem_cons] at h
    have ih := ih h.2
    cases item with
    | text s =>
      have hs : Undollared none s.toList none := h.1
      rw [spelling, String.toList_append, Ordinal.read_of_undollared hs, ih, ordinals]
    | fault e =>
      rw [spelling, ih, ordinals]
    | leaf v =>
      by_cases hv : t.binds v = true
      · rw [spelling, if_pos hv, String.toList_append, ht, Ordinal.read_placeholder, ih, ordinals,
          if_pos hv]
      · rw [spelling, if_neg hv, String.toList_append,
          Ordinal.read_of_undollared (t.undollared_writtenOut ht v), ih, ordinals, if_neg hv]

/-- The ordinals are the numbers of the bound leaves exactly if no placeholder is followed by
a digit. -/
theorem ordinals_eq_iff (n : Nat) :
    ordinals t n items =
        (List.range (bound t items).length).map (fun k => Nat.toDigits 10 (n + k + 1)) ↔
      Apart t n items := by
  induction items generalizing n with
  | nil => simp [ordinals, Apart]
  | cons item items ih =>
    cases item with
    | text s => exact ih n
    | fault e => exact ih n
    | leaf v =>
      by_cases hv : t.binds v = true
      · have ih := ih (n + 1)
        simp only [Nat.add_right_comm n 1] at ih
        rw [ordinals, bound_leaf, Apart, if_pos hv, if_pos hv, if_pos hv, List.length_cons,
          List.range_succ_eq_map, List.map_cons, List.cons_eq_cons, List.map_map, ← ih,
          ← Inline.takeWhile_isDigit_eq_nil_iff]
        exact and_congr List.append_right_eq_self Iff.rfl
      · rw [ordinals, bound_leaf, Apart, if_neg hv, if_neg hv, if_neg hv]
        exact ih n

/-- Items of which none that begins with a digit follows a leaf. -/
theorem Spaced.apart {free : Bool} (h : Spaced free items) (ht : t.dialect = .postgres)
    (n : Nat) : Apart t n items := by
  induction items generalizing n free with
  | nil => trivial
  | cons item items ih =>
    cases item with
    | text s => exact ih h.2 n
    | fault e => exact ih h.2 n
    | leaf v =>
      have hrest : Spaced false items := h.2
      by_cases hv : t.binds v = true
      · rw [Apart, if_pos hv]
        exact ⟨hrest.startsWithDigit_spelling ht _, ih hrest _⟩
      · rw [Apart, if_neg hv]
        exact ih hrest n

end Item

/-! ## Trees of plain texts -/

theorem Arg.OwnTextsPlain.forall_undollared {a : Arg} (h : a.OwnTextsPlain) (top : Bool) :
    ∀ i ∈ a.frontier .postgres top, i.UndollaredText :=
  h.forall_frontier Item.punctuation_undollaredText
    (fun _ hf =>
      Item.brings_undollaredText fun _ _ => undollared_of_mem_pieces hf.balanced hf.plain)
    (fun b => Item.brings_undollaredText fun _ => by
      rw [b.render_eq]
      exact Ordinal.undollared_pieces_of_regular (b.regular_layout .postgres))
    (fun _ hn => Item.brings_undollaredText fun hok _ =>
      undollared_of_mem_pieces (hn hok).balanced (hn hok).plain) top

theorem Arg.templateFrontier_undollared {template : String} {args : List Arg}
    (ht : Ordinal.PlainText template) (h : ∀ a ∈ args, a.OwnTextsPlain) :
    ∀ i ∈ Arg.templateFrontier .postgres template args, i.UndollaredText := by
  have hbrings : Item.Brings .postgres Item.UndollaredText ⟨template, args, none⟩ :=
    Item.brings_undollaredText fun _ _ => undollared_of_mem_pieces ht.balanced ht.plain
  exact hbrings.forall_templateFrontier fun a ha => (h a ha).forall_undollared

namespace Query

/-- The ordinals in the text of a query are 1, 2, 3 and so on, one for each value. -/
def ReadsInOrder (q : Query) : Prop :=
  Ordinal.ordinals q.text = (List.range q.binds.length).map fun k => toString (k + 1)

instance (q : Query) : Decidable q.ReadsInOrder :=
  inferInstanceAs (Decidable (Ordinal.ordinals q.text = _))

theorem readsInOrder_iff (q : Query) : q.ReadsInOrder ↔
    Ordinal.read none q.text.toList =
      (List.range q.binds.length).map fun k => Nat.toDigits 10 (0 + k + 1) := by
  have hnumber (k : Nat) : toString (k + 1) = .ofList (Nat.toDigits 10 (0 + k + 1)) := by
    rw [Nat.toString_eq_repr, ← Nat.toList_repr, String.ofList_toList, Nat.zero_add]
  have hnumbers : ((List.range q.binds.length).map fun k => toString (k + 1)) =
      ((List.range q.binds.length).map fun k => Nat.toDigits 10 (0 + k + 1)).map .ofList := by
    rw [List.map_map]
    exact List.map_congr_left fun k _ => hnumber k
  rw [ReadsInOrder, hnumbers, Ordinal.ordinals]
  exact List.map_inj_right fun _ _ => String.ofList_injective

/-- The ordinals of a query made of plain texts number its values exactly if no placeholder
is followed by a digit, and so whenever the own texts keep digits from the places right after
markers. -/
theorem readsInOrder_interpolate (bindsBytes : Bool) {template : String} {args : List Arg}
    (ht : Ordinal.PlainText template) (h : ∀ a ∈ args, a.OwnTextsPlain) {q : Query}
    (hq : (({} : Query).interpolate ⟨.postgres, bindsBytes⟩ template args).result = .ok q) :
    (q.ReadsInOrder ↔
      Item.Apart ⟨.postgres, bindsBytes⟩ 0 (Arg.templateFrontier .postgres template args)) ∧
    (Inline.OwnText .postgres true template → (∀ a ∈ args, a.OwnTextsReadable .postgres) →
      q.ReadsInOrder) := by
  have hundollared := Arg.templateFrontier_undollared ht h
  rw [interpolate_eq_follow, follow_result_eq_ok_iff] at hq
  obtain rfl := hq.eq_continued
  have hread := Item.read_spelling (t := ⟨.postgres, bindsBytes⟩) rfl hundollared 0
  have hiff : (continued ⟨.postgres, bindsBytes⟩ {}
      (Arg.templateFrontier .postgres template args)).ReadsInOrder ↔
        Item.Apart ⟨.postgres, bindsBytes⟩ 0 (Arg.templateFrontier .postgres template args) := by
    rw [readsInOrder_iff, ← Item.ordinals_eq_iff, ← hread]
    simp [continued]
  exact ⟨hiff, fun hown hargs => hiff.mpr ((Arg.templateFrontier_spaced hown hargs).apart rfl 0)⟩

/-- Names, texts and byte strings with quotes, markers and placeholders in them. -/
theorem readsInOrder_interpolate_quoted :
    Ordinal.PlainText "? = ? AND '?' <> ?" ∧
    (∀ a ∈ [toArg (Ident.mk "$2`?"), .value (.text "$3'?"),
        .fragment "? || ?" [.value (.bytes [36]), .value (.text "$1")]], a.OwnTextsPlain) ∧
    (({} : Query).interpolate ⟨.postgres, false⟩ "? = ? AND '?' <> ?" [toArg (Ident.mk "$2`?"),
        .value (.text "$3'?"),
        .fragment "? || ?" [.value (.bytes [36]), .value (.text "$1")]]).result =
      .ok ⟨"\"$2`?\" = $1 AND '?' <> '\\x24'::bytea || $2", [.text "$3'?", .text "$1"]⟩ ∧
    Query.ReadsInOrder ⟨"\"$2`?\" = $1 AND '?' <> '\\x24'::bytea || $2",
      [.text "$3'?", .text "$1"]⟩ := by
  have hown : Inline.OwnText .postgres true "? = ? AND '?' <> ?" :=
    ⟨rfl, fun _ => by decide, fun _ => by decide, fun _ hfree => by cases hfree⟩
  have hfragment : Inline.OwnText .postgres false "? || ?" :=
    ⟨rfl, fun _ => by decide, fun _ => by decide, fun _ _ => by decide⟩
  have hreadable : ∀ a ∈ [toArg (Ident.mk "$2`?"), .value (.text "$3'?"),
      .fragment "? || ?" [.value (.bytes [36]), .value (.text "$1")]],
      a.OwnTextsReadable .postgres := by
    intro a ha
    simp only [List.mem_cons, List.not_mem_nil, or_false] at ha
    rcases ha with rfl | rfl | rfl
    · exact .builtin (.ident ⟨"$2`?"⟩) (by simp [Builtin.layout, Layout.name, Layout.args,
        Segment.arg?])
    · exact .value _
    · refine .fragment ⟨_, _⟩ hfragment (List.forall_mem_cons.mpr ⟨.value _, ?_⟩)
      exact List.forall_mem_singleton.mpr (.value _)
  have hplain := fun a ha => (hreadable a ha).plain
  exact ⟨hown.plainText, hplain, rfl,
    (readsInOrder_interpolate false hown.plainText hplain rfl).2 hown hreadable⟩

/-- A digit after a marker is read as part of the placeholder's number. -/
theorem not_readsInOrder_of_digit :
    ¬∀ (bindsBytes : Bool) (template : String) (args : List Arg), Ordinal.PlainText template →
      (∀ a ∈ args, a.OwnTextsPlain) → ∀ q : Query,
      (({} : Query).interpolate ⟨.postgres, bindsBytes⟩ template args).result = .ok q →
        q.ReadsInOrder := by
  intro h
  have hargs : ∀ a ∈ [Arg.value (.signed 7)], a.OwnTextsPlain := by
    intro a ha
    obtain rfl := List.mem_singleton.mp ha
    exact .value _
  have hreads := h true "?1" [.value (.signed 7)] ⟨rfl, by decide⟩ hargs
    ⟨"$11", [.signed 7]⟩ rfl
  exact absurd hreads (by decide)

end Query

end SqlWeave
