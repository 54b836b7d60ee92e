import SqlWeave.Proofs.Inlining.SharedQuotes
import SqlWeave.Proofs.Ordinals
import SqlWeave.Proofs.Wire

/-!
# Bound scalars in their places again

A template of scalars is inlined in two passes, by a reader of markers and then by a reader of
numbered placeholders. If the text between the passes shares the quotes of both, the second finds
what the first has written : each piece of the template is inlined as it would be alone, and the
literal of each scalar stands in the scalar's own place (`Item.replaceAll_scalars`). A digit must
not follow a placeholder, since it would be one of its digits.

Whether this is so can be seen in the template (`Item.sharesQuotes_scalars`) : outside quotes it
has no backtick and no tag, and none comes about when a marker becomes a `$`.
-/

namespace SqlWeave

open Inline
open Template (Balanced)

/-- What is written in the place of a value that is not bound has neither `$` nor backtick. -/
theorem Target.not_mem_writtenOut (v : Value) :
    '$' ∉ ((Target.mk .postgres false).writtenOut v).toList ∧
      '`' ∉ ((Target.mk .postgres false).writtenOut v).toList := by
  unfold writtenOut
  split
  · exact not_mem_bytes _
  · decide

theorem Dialect.balanced_placeholder (d : Dialect) (n : Nat) : Balanced d (d.placeholder n) := by
  by_cases hd : d = .postgres
  · subst hd
    have hunquoted : ∀ c ∈ '$' :: Nat.toDigits 10 n, isQuote c = false :=
      List.forall_mem_cons.mpr ⟨by decide, fun c hc =>
        (isQuote_of_isDigit (Nat.isDigit_of_mem_toDigits (by decide) (by decide) hc)).1⟩
    rw [Template.Balanced, Dialect.toList_placeholder]
    exact Quoting.after_unquoted hunquoted
  · rw [placeholder_of_ne_postgres hd]
    exact Template.balanced_marker d

/-- The text of quiet items is balanced, in every dialect. -/
theorem Item.balanced_spelling {t : Target} {items : List Item}
    (h : ∀ i ∈ items, i.QuietText t.dialect) (n : Nat) :
    Balanced t.dialect (spelling t n items) := by
  induction items generalizing n with
  | nil => rfl
  | cons item items ih =>
    rw [List.forall_mem_cons] at h
    have ih := ih h.2
    cases item with
    | text s => exact (Template.balanced_of_quiet h.1).append (ih n)
    | fault e => exact ih n
    | leaf v =>
      rw [spelling]
      split
      · exact (t.dialect.balanced_placeholder (n + 1)).append (ih (n + 1))
      · exact (Template.balanced_of_quiet (t.quiet_writtenOut v)).append (ih n)

/-! ## Scalars between pieces -/

namespace Item

/-- What an item becomes when a query is inlined : a text is inlined by itself, with the values of
the query, and a leaf is written out. -/
def refill (values : List Value) : Item → Except RenderError (List Char)
  | .text s => numbered values s.toList
  | .leaf v => (Dialect.literal .postgres v).map String.toList
  | .fault e => .error e

/-- Pieces of text with a scalar in the place of the marker between each two of them. -/
def scalars (pieces : List String) (vs : List Value) : List Item :=
  weave pieces (vs.map fun v => [.leaf v])

theorem scalars_cons (pieces : List String) (v : Value) (vs : List Value) :
    scalars pieces (v :: vs) = .text (pieces.headD "") :: .leaf v :: scalars pieces.tail vs :=
  rfl

section Reading

variable {values : List Value} {rest : List Item} {n : Nat} {v : Value}

/-- A piece of text before a leaf is inlined by itself. -/
theorem replaceAll_text {s : String} (hs : Balanced .postgres s)
    (hshares : SharesQuotes .outside
      (spelling ⟨.postgres, false⟩ n (.text s :: .leaf v :: rest)).toList) :
    replaceAll values
        (tokens (spelling ⟨.postgres, false⟩ n (.text s :: .leaf v :: rest)).toList) =
      inOrder (refill values (.text s) ::
        (tokens (spelling ⟨.postgres, false⟩ n (.leaf v :: rest)).toList).map
          (Token.replacement values)) := by
  rw [spelling, String.toList_append] at hshares ⊢
  rw [tokens, Together.outside.tokensFrom_append hshares hs (startsWithDigit_leaf rfl n v rest),
    replaceAll_eq_inOrder, List.map_append, inOrder_append, ← replaceAll_eq_inOrder]
  rfl

/-- A placeholder that no digit follows is replaced by the literal of its value. -/
theorem replaceAll_bound (hv : (Target.mk .postgres false).binds v = true)
    (hn : values[n]? = some v)
    (hdigit : Text.startsWithDigit (spelling ⟨.postgres, false⟩ (n + 1) rest).toList = false) :
    replaceAll values (tokens (spelling ⟨.postgres, false⟩ n (.leaf v :: rest)).toList) =
      inOrder (refill values (.leaf v) ::
        (tokens (spelling ⟨.postgres, false⟩ (n + 1) rest).toList).map
          (Token.replacement values)) := by
  have hlt : n < values.length := (List.getElem?_eq_some_iff.mp hn).1
  have hliteral : literalAt .postgres values n = refill values (.leaf v) := by
    rw [literalAt, hn]
    rfl
  rw [spelling, if_pos hv, String.toList_append, tokens,
    tokensFrom_placeholder (Nat.succ_pos n) hdigit, replaceAll_eq_inOrder, List.map_cons,
    replacement_toDigits hlt, hliteral]
  rfl

/-- A scalar that is not bound stands there as its literal. -/
theorem replaceAll_writtenOut (hv : ¬(Target.mk .postgres false).binds v = true) :
    replaceAll values (tokens (spelling ⟨.postgres, false⟩ n (.leaf v :: rest)).toList) =
      inOrder (refill values (.leaf v) ::
        (tokens (spelling ⟨.postgres, false⟩ n rest).toList).map (Token.replacement values)) := by
  rw [spelling, if_neg hv, String.toList_append, tokens,
    (copied_writtenOut .postgres v).numbered rfl, replaceAll_copied, replaceAll_eq_inOrder,
    refill, literal_of_not_binds hv]
  rfl

/-! ### Sharing quotes -/

/-- A leaf shares all quotes, as a placeholder and when it is written out. -/
theorem sharesQuotes_leaf (n : Nat) (v : Value) (rest : List Item) :
    SharesQuotes .outside (spelling ⟨.postgres, false⟩ n (.leaf v :: rest)).toList ↔
      SharesQuotes .outside (spelling ⟨.postgres, false⟩
        (if (Target.mk .postgres false).binds v then n + 1 else n) rest).toList := by
  by_cases hv : (Target.mk .postgres false).binds v = true
  · have htext : (spelling ⟨.postgres, false⟩ n (.leaf v :: rest)).toList =
        '$' :: (Nat.toDigits 10 (n + 1) ++ (spelling ⟨.postgres, false⟩ (n + 1) rest).toList) := by
      simp [spelling, hv, Dialect.toList_placeholder]
    rw [htext, if_pos hv, SharesQuotes.ordinal_append (isNumber_toDigits (Nat.succ_pos n))]
  · have hafter := (copied_writtenOut .postgres v).quiet.after_eq
    have hplain := Target.not_mem_writtenOut v
    rw [spelling, if_neg hv, if_neg hv, String.toList_append]
    constructor
    · intro h
      have hrest := h.of_append
      rwa [hafter] at hrest
    · exact (SharesQuotes.of_not_mem hplain.2 hplain.1).append hafter

end Reading

/-- A marker without a piece before it comes after nothing. -/
theorem headD_of_forall {P : String → Prop} {pieces : List String} (hempty : P "")
    (h : ∀ p ∈ pieces, P p) : P (pieces.headD "") := by
  cases pieces with
  | nil => exact hempty
  | cons p ps => exact h p List.mem_cons_self

/-- Scalars between pieces that share the readers' quotes with whatever follows them. -/
theorem sharesQuotes_scalars {pieces : List String} (vs : List Value) (n : Nat)
    (hclosed : ∀ p ∈ pieces, Balanced .postgres p)
    (hshares : ∀ p ∈ pieces, SharesQuotes .outside (p.toList ++ ['$'])) :
    SharesQuotes .outside (spelling ⟨.postgres, false⟩ n (scalars pieces vs)).toList := by
  induction vs generalizing pieces n with
  | nil =>
    have hhead : Balanced .postgres (pieces.headD "") := headD_of_forall rfl hclosed
    have hheadShares := headD_of_forall (by decide) hshares
    have htext : (spelling ⟨.postgres, false⟩ n (scalars pieces [])).toList =
        (pieces.headD "").toList ++ [] := by
      simp [scalars, weave, spelling]
    rw [htext]
    exact hheadShares.append hhead trivial
  | cons v vs ih =>
    have hhead : Balanced .postgres (pieces.headD "") := headD_of_forall rfl hclosed
    have hheadShares := headD_of_forall (by decide) hshares
    rw [scalars_cons, spelling, String.toList_append]
    refine hheadShares.append hhead ((sharesQuotes_leaf n v _).mpr ?_)
    exact ih _ (fun p hp => hclosed p (List.mem_of_mem_tail hp))
      fun p hp => hshares p (List.mem_of_mem_tail hp)

/-! ### Inlining -/

/-- The text of a query is inlined by inlining each piece by itself and writing out each scalar. -/
theorem replaceAll_scalars {values : List Value} {pieces : List String} (vs : List Value)
    (before : List Value)
    (hclosed : ∀ p ∈ pieces, Balanced .postgres p)
    (hshares : SharesQuotes .outside
      (spelling ⟨.postgres, false⟩ before.length (scalars pieces vs)).toList)
    (hapart : Apart ⟨.postgres, false⟩ before.length (scalars pieces vs))
    (hvalues : values = before ++ bound ⟨.postgres, false⟩ (scalars pieces vs)) :
    replaceAll values
        (tokens (spelling ⟨.postgres, false⟩ before.length (scalars pieces vs)).toList) =
      inOrder ((scalars pieces vs).map (refill values)) := by
  induction vs generalizing pieces before with
  | nil =>
    have hitems : scalars pieces [] = [.text (pieces.headD "")] := rfl
    rw [hitems, List.map_singleton, spelling, spelling, String.append_empty, refill, numbered]
    cases replaceAll values (tokens (pieces.headD "").toList) <;> simp [inOrder, Except.map]
  | cons v vs ih =>
    rw [scalars_cons] at hshares hapart hvalues ⊢
    have hhead : Balanced .postgres (pieces.headD "") := headD_of_forall rfl hclosed
    have htail : ∀ p ∈ pieces.tail, Balanced .postgres p := fun p hp =>
      hclosed p (List.mem_of_mem_tail hp)
    rw [replaceAll_text hhead hshares, List.map_cons]
    refine inOrder_cons_congr ?_ _
    rw [← replaceAll_eq_inOrder, List.map_cons]
    rw [spelling, String.toList_append] at hshares
    have hrest := hshares.of_append
    rw [show Quoting.after .postgres .outside _ = _ from hhead, sharesQuotes_leaf] at hrest
    by_cases hv : (Target.mk .postgres false).binds v = true
    · rw [bound_text, bound_leaf, if_pos hv] at hvalues
      rw [Apart, Apart, if_pos hv] at hapart
      rw [if_pos hv] at hrest
      have ih := ih (before ++ [v]) htail (by simpa using hrest) (by simpa using hapart.2)
        (by simpa using hvalues)
      rw [List.length_append, List.length_singleton, replaceAll_eq_inOrder] at ih
      rw [replaceAll_bound hv (by simp [hvalues]) hapart.1]
      exact inOrder_cons_congr ih _
    · rw [bound_text, bound_leaf, if_neg hv] at hvalues
      rw [Apart, Apart, if_neg hv] at hapart
      rw [if_neg hv] at hrest
      have ih := ih before htail hrest hapart hvalues
      rw [replaceAll_eq_inOrder] at ih
      rw [replaceAll_writtenOut hv]
      exact inOrder_cons_congr ih _

/-- A result is that of refilling `items` with `values`. Each bound value stands in the place of
its own leaf, between what the items before and after it become. -/
structure Refills (values : List Value) (items : List Item) (r : Except RenderError String) :
    Prop where
  eq_inOrder : r = (inOrder (items.map (refill values))).map .ofList
  succeeds_iff : (∃ s, r = .ok s) ↔ ∀ i ∈ items, ∃ cs, i.refill values = .ok cs
  placed : ∀ k v, values[k]? = some v → ∃ before after, items = before ++ .leaf v :: after ∧
    (bound ⟨.postgres, false⟩ before).length = k ∧ ∀ s, r = .ok s → ∃ pre literal post,
      inOrder (before.map (refill values)) = .ok pre ∧
      Dialect.literal .postgres v = .ok literal ∧
      inOrder (after.map (refill values)) = .ok post ∧
      s = .ofList pre ++ literal ++ .ofList post

theorem refills_inOrder {values : List Value} {items : List Item}
    (hvalues : values = bound ⟨.postgres, false⟩ items) :
    Refills values items ((inOrder (items.map (refill values))).map .ofList) where
  eq_inOrder := rfl
  succeeds_iff := by
    have hall := exists_inOrder_eq_ok_iff (items.map (refill values))
    rw [List.forall_mem_map] at hall
    rw [← hall]
    cases inOrder (items.map (refill values)) <;> simp [Except.map]
  placed k v hk := by
    rw [hvalues] at hk
    obtain ⟨before, after, hitems, -, hlen⟩ := exists_leaf_of_bound _ hk
    refine ⟨before, after, hitems, hlen, fun s hs => ?_⟩
    cases hall : inOrder (items.map (refill values)) with
    | error e => simp [hall, Except.map] at hs
    | ok cs =>
      rw [hitems, List.map_append, List.map_cons] at hall
      obtain ⟨pre, mid, post, hpre, hmid, hpost, hcs⟩ := inOrder_placed hall
      cases hliteral : Dialect.literal .postgres v with
      | error e => simp [refill, hliteral, Except.map] at hmid
      | ok literal =>
        obtain rfl : literal.toList = mid := by simpa [refill, hliteral, Except.map] using hmid
        obtain rfl : String.ofList cs = s := by simpa [hitems, hall, Except.map] using hs
        refine ⟨pre, literal, post, hpre, rfl, hpost, ?_⟩
        simp [hcs, String.append_assoc]

end Item

/-! ## Templates of scalars -/

/-- A template that has no fault has as many markers as there are arguments. -/
theorem Arg.markers_of_faultless {d : Dialect} {template : String} {args : List Arg}
    (h : Item.faults (Arg.templateFrontier d template args) = []) :
    Template.markers d template = args.length := by
  unfold Arg.templateFrontier Item.spliced at h
  split at h
  · rename_i hcount
    rwa [List.length_map] at hcount
  · cases h

/-- A template of scalars is written as its pieces with the scalars between them. -/
theorem Arg.templateFrontier_scalars {d : Dialect} {template : String} {vs : List Value}
    (h : Item.faults (Arg.templateFrontier d template (vs.map .value)) = []) :
    Arg.templateFrontier d template (vs.map .value) =
      Item.scalars (Template.pieces d template) vs := by
  have hcount := markers_of_faultless h
  have hfrontiers : (vs.map .value).map (Arg.frontier d (template == "?")) =
      vs.map fun v => [.leaf v] := by
    simp [Arg.frontier]
  rw [List.length_map] at hcount
  rw [templateFrontier, hfrontiers, Item.spliced, if_pos (by rw [hcount, List.length_map]),
    Item.scalars]

/-- Interpolating a template of scalars writes its pieces with the scalars between them. -/
theorem Query.interpolate_scalars {t : Target} {template : String} {vs : List Value} {q : Query}
    (h : (({} : Query).interpolate t template (vs.map .value)).result = .ok q) :
    Arg.templateFrontier t.dialect template (vs.map .value) =
        Item.scalars (Template.pieces t.dialect template) vs ∧
      q.text = Item.spelling t 0 (Item.scalars (Template.pieces t.dialect template) vs) ∧
      q.binds = Item.bound t (Item.scalars (Template.pieces t.dialect template) vs) := by
  rw [interpolate_eq_follow, follow_result_eq_ok_iff] at h
  have hitems := Arg.templateFrontier_scalars h.faultless
  have hq := h.eq_continued
  rw [hitems] at hq
  exact ⟨hitems, by simp [hq, continued], by simp [hq, continued]⟩

/-- A template that is interpolated has as many markers as there are scalars. -/
theorem Query.markers_of_scalars {t : Target} {template : String} {vs : List Value} {q : Query}
    (h : (({} : Query).interpolate t template (vs.map .value)).result = .ok q) :
    Template.markers t.dialect template = vs.length := by
  rw [interpolate_eq_follow, follow_result_eq_ok_iff] at h
  rw [Arg.markers_of_faultless h.faultless, List.length_map]

/-- The text of a balanced template of scalars is balanced. -/
theorem Query.balanced_of_scalars {t : Target} {template : String} {vs : List Value} {q : Query}
    (ht : Balanced t.dialect template)
    (h : (({} : Query).interpolate t template (vs.map .value)).result = .ok q) :
    Balanced t.dialect q.text := by
  obtain ⟨hitems, htext, -⟩ := interpolate_scalars h
  rw [htext, ← hitems]
  refine Item.balanced_spelling (Arg.templateFrontier_quietText ht fun a ha => ?_) 0
  obtain ⟨v, -, rfl⟩ := List.mem_map.mp ha
  exact .value v

/-- The two readers agree about a text whose sections are closed exactly if it shares their quotes.
When the text of a template of scalars does, inlining it puts each bound scalar back into its
place. -/
theorem Dialect.inlineTemplate_refills (template : String) (vs : List Value) :
    (∀ text, Closed text → (ReadAlike text ↔ SharesQuotes .outside text)) ∧
    ∀ q : Query, Balanced .postgres template →
      (({} : Query).interpolate ⟨.postgres, false⟩ template (vs.map .value)).result = .ok q →
      ((∀ p ∈ Template.pieces .postgres template, SharesQuotes .outside (p.toList ++ ['$'])) →
        SharesQuotes .outside q.text.toList) ∧
      ((∀ p ∈ (Template.pieces .postgres template).tail, Text.startsWithDigit p.toList = false) →
        Item.Apart ⟨.postgres, false⟩ 0
          (Arg.templateFrontier .postgres template (vs.map .value))) ∧
      (SharesQuotes .outside q.text.toList →
        Item.Apart ⟨.postgres, false⟩ 0
          (Arg.templateFrontier .postgres template (vs.map .value)) →
        Closed q.text.toList ∧ ReadAlike q.text.toList ∧
          Item.Refills q.binds (Arg.templateFrontier .postgres template (vs.map .value))
            (Dialect.inlineTemplate .postgres template (vs.map .value))) := by
  refine ⟨fun text => readAlike_iff, fun q ht hq => ?_⟩
  have hinline : Dialect.inlineTemplate .postgres template (vs.map .value) =
      (numbered q.binds q.text.toList).map .ofList := by
    simp [Dialect.inlineTemplate, hq, Dialect.inline]
  obtain ⟨hitems, htext, hbinds⟩ := Query.interpolate_scalars hq
  have hpieces : ∀ p ∈ Template.pieces .postgres template, Balanced .postgres p :=
    fun p hp => Template.balanced_of_quiet (Template.quiet_of_mem_pieces ht hp)
  rw [hitems]
  refine ⟨fun hshares => ?_, fun hdigits => ?_, fun hshares hapart => ?_⟩
  · rw [htext]
    exact Item.sharesQuotes_scalars vs 0 hpieces hshares
  · have hspaced : Item.Spaced true (Item.scalars (Template.pieces .postgres template) vs) :=
      .weave (.inl rfl) hdigits (List.forall_mem_map.mpr fun v _ => ⟨trivial, trivial⟩)
    exact hspaced.apart rfl 0
  · have hclosed := hshares.closed (Query.balanced_of_scalars ht hq)
    refine ⟨hclosed, (readAlike_iff hclosed).mpr hshares, ?_⟩
    rw [htext] at hshares
    have hread := Item.replaceAll_scalars vs [] hpieces hshares hapart hbinds
    rw [List.length_nil, ← htext] at hread
    rw [hinline, numbered, hread]
    exact Item.refills_inOrder hbinds

/-- A marker and tags between quotes that both readers know, and a number of a caller's own. -/
theorem Dialect.inlineTemplate_refills_quoted :
    Balanced .postgres "a = ? AND b <> '$$?$$' OR $1 = ?" ∧
    (({} : Query).interpolate ⟨.postgres, false⟩ "a = ? AND b <> '$$?$$' OR $1 = ?"
        ([.signed 5, .text "x"].map .value)).result =
      .ok ⟨"a = $1 AND b <> '$$?$$' OR $1 = $2", [.signed 5, .text "x"]⟩ ∧
    SharesQuotes .outside "a = $1 AND b <> '$$?$$' OR $1 = $2".toList ∧
    Closed "a = $1 AND b <> '$$?$$' OR $1 = $2".toList ∧
    ReadAlike "a = $1 AND b <> '$$?$$' OR $1 = $2".toList ∧
    Item.Refills [.signed 5, .text "x"]
      (Arg.templateFrontier .postgres "a = ? AND b <> '$$?$$' OR $1 = ?"
        ([.signed 5, .text "x"].map .value))
      (Dialect.inlineTemplate .postgres "a = ? AND b <> '$$?$$' OR $1 = ?"
        ([.signed 5, .text "x"].map .value)) ∧
    Dialect.inlineTemplate .postgres "a = ? AND b <> '$$?$$' OR $1 = ?"
        ([.signed 5, .text "x"].map .value) =
      .ok "a = 5 AND b <> '$$?$$' OR 5 = E'x'" := by
  have ht : Balanced .postgres "a = ? AND b <> '$$?$$' OR $1 = ?" := by
    unfold Template.Balanced
    decide +kernel
  have hq : (({} : Query).interpolate ⟨.postgres, false⟩ "a = ? AND b <> '$$?$$' OR $1 = ?"
        ([.signed 5, .text "x"].map .value)).result =
      .ok ⟨"a = $1 AND b <> '$$?$$' OR $1 = $2", [.signed 5, .text "x"]⟩ := by decide +kernel
  obtain ⟨halike, hscalars⟩ := Dialect.inlineTemplate_refills
    "a = ? AND b <> '$$?$$' OR $1 = ?" [.signed 5, .text "x"]
  obtain ⟨hshares, hapart, hrefills⟩ := hscalars _ ht hq
  have hshared := hshares (by decide +kernel)
  obtain ⟨hclosed, -, hrefilled⟩ := hrefills hshared (hapart (by decide +kernel))
  exact ⟨ht, hq, hshared, hclosed, (halike _ hclosed).mpr hshared, hrefilled, by decide +kernel⟩

/-- Tags that only the reader of numbers knows hide a value from him, backticks that only the
reader of markers knows do not hide a number, and a digit changes one. -/
theorem Dialect.not_inlineTemplate_refills :
    (Closed "$$?$$".toList ∧ ¬ReadAlike "$$?$$".toList ∧
      (({} : Query).interpolate ⟨.postgres, false⟩ "$$?$$" [.value (.signed 5)]).result =
        .ok ⟨"$$$1$$", [.signed 5]⟩ ∧
      Dialect.inlineTemplate .postgres "$$?$$" [.value (.signed 5)] = .ok "$$$1$$") ∧
    (Closed "`$1` = ?".toList ∧ ¬ReadAlike "`$1` = ?".toList ∧
      Dialect.inlineTemplate .postgres "`$1` = ?" [.value (.signed 5)] = .ok "`5` = 5") ∧
    Dialect.inlineTemplate .postgres "?1" [.value (.signed 5)] =
      .error (.placeholderCount 11 1) := by
  have hdollars : Closed "$$?$$".toList := ⟨by decide, by decide +kernel⟩
  have hticks : Closed "`$1` = ?".toList := ⟨by decide, by decide +kernel⟩
  refine ⟨⟨hdollars, ?_, by decide, by decide +kernel⟩, ⟨hticks, ?_, by decide +kernel⟩,
    by decide +kernel⟩
  · rw [readAlike_iff hdollars]
    decide
  · rw [readAlike_iff hticks]
    decide

end SqlWeave
