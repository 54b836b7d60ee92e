import SqlWeave.Proofs.Composed

/-!
# Placeholders on the wire

A database reads the text of a query by the quoting rules of its own dialect. Where every
placeholder is a `?`, it must find as many of them outside quotes as values are bound, in
the order in which they are bound.

The text is put together from pieces of templates, names, literals and placeholders. If the
templates, fragments and callers' nodes are balanced, each of these is quiet but for the
placeholders (`Arg.forall_quietText`), so the text of the whole is balanced and
its markers are the placeholders (`Item.spelling_markers`). The `n`-th marker that the
database finds is then the one that was written for the `n`-th value
(`Query.markers_interpolate`).
-/

namespace SqlWeave

open Template (Balanced MarkerAt Quiet)

/-- An item whose text can stand between any others : it has no marker, and a reader who
comes from outside quotes is left there. -/
def Item.QuietText (d : Dialect) : Item → Prop
  | .text s => Quiet d s.toList
  | .leaf _ | .fault _ => True

/-- Balanced texts everywhere : fragments, and what callers' nodes render to. -/
def Arg.OwnTextsBalanced (d : Dialect) : Arg → Prop :=
  Arg.Composed d (fun f => Balanced d f.text) fun n => Balanced d (n.render d).text

section Frontier

variable {d : Dialect}

theorem Item.punctuation_quietText : Item.Punctuation (Item.QuietText d) where
  leaf _ := trivial
  late _ := trivial
  emptyList := trivial
  opening := Template.quiet_of_plain (by decide)
  comma := Template.quiet_of_plain (by decide)
  closing := Template.quiet_of_plain (by decide)

theorem Item.brings_quietText {r : Rendering Arg} (h : Balanced d r.text) :
    Item.Brings d (Item.QuietText d) r where
  failure _ _ := trivial
  count _ _ := trivial
  pieces _ _ _ hp := Template.quiet_of_mem_pieces h hp

/-- Whatever its arguments, the text of a node of the library leaves quotes as it found them. -/
theorem Builtin.balanced_render (d : Dialect) (b : Builtin) :
    Balanced d (b.node.render d).text := by
  rw [b.render_eq]
  exact (b.sound_layout d).balanced_text

/-- A tree of balanced texts is written in quiet pieces, whatever its names are. -/
theorem Arg.forall_quietText {a : Arg} (h : a.OwnTextsBalanced d) (top : Bool) :
    ∀ i ∈ a.frontier d top, i.QuietText d :=
  h.forall_frontier Item.punctuation_quietText (fun _ hf => Item.brings_quietText hf)
    (fun b => Item.brings_quietText (b.balanced_render d))
    (fun _ hn => Item.brings_quietText hn) top

/-- What is written for a template is quiet if its own texts are balanced. -/
theorem Arg.templateFrontier_quietText {template : String} {args : List Arg}
    (ht : Balanced d template) (h : ∀ a ∈ args, a.OwnTextsBalanced d) :
    ∀ i ∈ Arg.templateFrontier d template args, i.QuietText d := by
  have hbrings : Item.Brings d (Item.QuietText d) ⟨template, args, none⟩ :=
    Item.brings_quietText ht
  exact hbrings.forall_templateFrontier fun a ha => Arg.forall_quietText (h a ha)

end Frontier

/-! ## The text of quiet items -/

/-- What is written in the place of a value is quiet. -/
theorem Target.quiet_writtenOut (t : Target) (v : Value) :
    Quiet t.dialect (t.writtenOut v).toList := by
  unfold writtenOut
  split
  · exact Template.quiet_bytes t.dialect _
  · rw [Dialect.null]
    exact Template.quiet_of_plain (by decide)

/-- The markers in the text of quiet items are the placeholders of the bound scalars. -/
theorem Item.spelling_markers {t : Target} (hd : t.dialect ≠ .postgres) {items : List Item}
    (h : ∀ i ∈ items, i.QuietText t.dialect) (n : Nat) :
    Balanced t.dialect (spelling t n items) ∧
      Template.markers t.dialect (spelling t n items) = (bound t items).length := by
  induction items generalizing n with
  | nil => exact ⟨rfl, rfl⟩
  | cons item items ih =>
    have ih := ih fun i hi => h i (List.mem_cons_of_mem _ hi)
    have hitem := h item List.mem_cons_self
    cases item with
    | text s =>
      obtain ⟨hbalanced, hmarkers⟩ := ih n
      have hs := Template.balanced_of_quiet hitem
      refine ⟨hs.append hbalanced, ?_⟩
      rw [spelling, Template.markers_append hs, Template.markers_of_quiet hitem, hmarkers,
        bound_text, Nat.zero_add]
    | fault e => exact ih n
    | leaf v =>
      by_cases hv : t.binds v
      · obtain ⟨hbalanced, hmarkers⟩ := ih (n + 1)
        have hone := Template.balanced_marker t.dialect
        simp only [spelling, hv, if_true, Dialect.placeholder_of_ne_postgres hd, bound_leaf]
        refine ⟨hone.append hbalanced, ?_⟩
        rw [Template.markers_append hone, Template.markers_marker, hmarkers, List.length_cons,
          Nat.add_comm]
      · obtain ⟨hbalanced, hmarkers⟩ := ih n
        have hquiet := t.quiet_writtenOut v
        have hs := Template.balanced_of_quiet hquiet
        simp only [spelling, hv, bound_leaf]
        refine ⟨hs.append hbalanced, ?_⟩
        rw [if_neg (by simp), if_neg (by simp), Template.markers_append hs,
          Template.markers_of_quiet hquiet, hmarkers, Nat.zero_add]

namespace Query

/-- Where all placeholders are `?`, the text of a query made of balanced texts has as many
markers as values are bound, and marker number `n` is the placeholder that was written in
the place of the `n`-th bound leaf. -/
theorem markers_interpolate {t : Target} (hd : t.dialect ≠ .postgres) {template : String}
    {args : List Arg} (ht : Balanced t.dialect template)
    (h : ∀ a ∈ args, a.OwnTextsBalanced t.dialect) {q : Query}
    (hq : (({} : Query).interpolate t template args).result = .ok q) :
    Template.markers t.dialect q.text = q.binds.length ∧
      ∀ n v, q.binds[n]? = some v →
        ∃ before after, Arg.templateFrontier t.dialect template args =
            before ++ .leaf v :: after ∧ (Item.bound t before).length = n ∧
          MarkerAt t.dialect q.text n (Item.spelling t 0 before) := by
  have hquiet := Arg.templateFrontier_quietText ht h
  rw [interpolate_eq_follow, follow_result_eq_ok_iff] at hq
  obtain rfl := hq.eq_continued
  constructor
  · simpa [continued] using (Item.spelling_markers hd hquiet 0).2
  · intro n v hn
    obtain ⟨before, after, hitems, hlen, htext⟩ := hq.placed n v (by simpa using hn)
    refine ⟨before, after, hitems, hlen, ?_⟩
    have hbefore : ∀ i ∈ before, i.QuietText t.dialect := fun i hi =>
      hquiet i (by simp [hitems, hi])
    obtain ⟨hbalanced, hmarkers⟩ := Item.spelling_markers hd hbefore 0
    have hat := Template.markerAt_of_balanced hbalanced
      (Item.spelling t (n + 1) after)
    rw [hmarkers, hlen] at hat
    simpa [htext, Dialect.placeholder_of_ne_postgres hd] using hat

/-- Names, texts and byte strings with quotes and markers in them, where byte strings are
written out : the only marker is the placeholder of the text. -/
theorem markers_interpolate_quoted :
    (({} : Query).interpolate ⟨.mysql, false⟩ "? = ? AND ?" [toArg (Ident.mk "a`?"),
      .value (.text "?'"), .fragment "'?' <> ?" [.value (.bytes [63])]]).result =
        .ok ⟨"`a``?` = ? AND '?' <> X'3F'", [.text "?'"]⟩ ∧
    Template.markers .mysql "`a``?` = ? AND '?' <> X'3F'" = 1 := by
  have hargs : ∀ a ∈ [toArg (Ident.mk "a`?"), .value (.text "?'"),
      .fragment "'?' <> ?" [.value (.bytes [63])]], a.OwnTextsBalanced .mysql := by
    intro a ha
    simp only [List.mem_cons, List.not_mem_nil, or_false] at ha
    rcases ha with rfl | rfl | rfl
    · exact .builtin (.ident ⟨"a`?"⟩) (by simp [Builtin.layout, Layout.name, Layout.args,
        Segment.arg?])
    · exact .value _
    · refine .fragment ⟨_, _⟩ rfl fun b hb => ?_
      obtain rfl := List.mem_singleton.mp hb
      exact .value _
  have hresult : (({} : Query).interpolate ⟨.mysql, false⟩ "? = ? AND ?" [toArg (Ident.mk "a`?"),
      .value (.text "?'"), .fragment "'?' <> ?" [.value (.bytes [63])]]).result =
        .ok ⟨"`a``?` = ? AND '?' <> X'3F'", [.text "?'"]⟩ := rfl
  have htemplate : Balanced .mysql "? = ? AND ?" := rfl
  exact ⟨hresult, (markers_interpolate (t := ⟨.mysql, false⟩) (by decide) htemplate hargs
    hresult).1⟩

end Query

end SqlWeave
