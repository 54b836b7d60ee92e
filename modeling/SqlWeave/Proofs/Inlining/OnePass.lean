import SqlWeave.Proofs.Inlining.Spacing

/-!
# Inlining in one pass

A template is inlined in two passes : it is interpolated, and then the text of the query is
read again and its placeholders are replaced. The text could also be written at once, from
the frontier of the arguments, with the literal of each leaf in the leaf's own place
(`Item.inlined`).

For readable texts the two come to the same (`Dialect.inlineTemplate_writesOut`) : the
reader finds exactly the placeholders that interpolation wrote, in the same order, and takes
nothing else for one, whatever names and values there are.
-/

namespace SqlWeave

/-! ## Items written out -/

namespace Item

/-- The text of items with every leaf written out. The first leaf without a literal, or the
first fault, decides the failure. -/
def inlined (d : Dialect) : List Item → Except RenderError String
  | [] => .ok ""
  | .text s :: rest => (inlined d rest).map (s ++ ·)
  | .leaf v :: rest =>
    match d.literal v with
    | .error e => .error e
    | .ok literal => (inlined d rest).map (literal ++ ·)
  | .fault e :: _ => .error e

variable {d : Dialect}

theorem inlined_append (items more : List Item) :
    inlined d (items ++ more) =
      match inlined d items with
      | .error e => .error e
      | .ok s => (inlined d more).map (s ++ ·) := by
  induction items with
  | nil => cases hmore : inlined d more <;> simp [inlined, hmore, Except.map]
  | cons item items ih =>
    cases item with
    | text s =>
      rw [List.cons_append, inlined, ih, inlined]
      cases inlined d items with
      | error e => rfl
      | ok pre => cases inlined d more <;> simp [Except.map, String.append_assoc]
    | leaf v =>
      rw [List.cons_append, inlined, ih, inlined]
      cases d.literal v with
      | error e => rfl
      | ok literal =>
        cases inlined d items with
        | error e => rfl
        | ok pre => cases inlined d more <;> simp [Except.map, String.append_assoc]
    | fault e => rfl

/-- Why a scalar has no literal. -/
def literalFailure? (d : Dialect) (v : Value) : Option RenderError :=
  match d.literal v with
  | .error e => some e
  | .ok _ => none

/-- A result is that of writing out `items` in one pass. It fails with the first bound leaf
that has no literal, and otherwise each leaf's literal stands between what the items before
it and after it are written out as. -/
structure WritesOut (d : Dialect) (items : List Item) (r : Except RenderError String) : Prop where
  eq_inlined : r = inlined d items
  fails_iff : ∀ e, r = .error e ↔
    (bound ⟨d, false⟩ items).findSome? (literalFailure? d) = some e
  placed : ∀ s, r = .ok s → ∀ before v after, items = before ++ .leaf v :: after →
    ∃ pre literal post, inlined d before = .ok pre ∧ d.literal v = .ok literal ∧
      inlined d after = .ok post ∧ s = pre ++ literal ++ post

/-- A scalar that is not bound is written out as its literal. -/
theorem literal_of_not_binds {v : Value} (h : ¬(Target.mk d false).binds v = true) :
    d.literal v = .ok ((Target.mk d false).writtenOut v) := by
  cases v <;> simp_all [Target.binds, Dialect.literal, Target.writtenOut]

theorem map_eq_error_iff {α β : Type} (f : α → β) (r : Except RenderError α) (e : RenderError) :
    r.map f = .error e ↔ r = .error e := by
  cases r <;> simp [Except.map]

theorem inlined_eq_error_iff {items : List Item} (h : faults items = []) (e : RenderError) :
    inlined d items = .error e ↔
      (bound ⟨d, false⟩ items).findSome? (literalFailure? d) = some e := by
  induction items with
  | nil => simp [inlined]
  | cons item items ih =>
    cases item with
    | text s =>
      rw [inlined, map_eq_error_iff, bound_text]
      exact ih h
    | leaf v =>
      by_cases hv : (Target.mk d false).binds v = true
      · rw [inlined, bound_leaf, if_pos hv, List.findSome?_cons, literalFailure?]
        cases d.literal v with
        | error e' => simp
        | ok literal => simpa [map_eq_error_iff] using ih h
      · rw [inlined, bound_leaf, if_neg hv, literal_of_not_binds hv]
        simpa [map_eq_error_iff] using ih h
    | fault e' => simp at h

theorem inlined_placed {before after : List Item} {v : Value} {s : String}
    (h : inlined d (before ++ .leaf v :: after) = .ok s) :
    ∃ pre literal post, inlined d before = .ok pre ∧ d.literal v = .ok literal ∧
      inlined d after = .ok post ∧ s = pre ++ literal ++ post := by
  rw [inlined_append, inlined] at h
  cases hbefore : inlined d before with
  | error e => simp [hbefore] at h
  | ok pre =>
    cases hv : d.literal v with
    | error e => simp [hbefore, hv, Except.map] at h
    | ok literal =>
      cases hafter : inlined d after with
      | error e => simp [hbefore, hv, hafter, Except.map] at h
      | ok post =>
        refine ⟨pre, literal, post, rfl, rfl, rfl, ?_⟩
        simpa [hbefore, hv, hafter, Except.map, String.append_assoc, eq_comm] using h

theorem writesOut_inlined {items : List Item} (h : faults items = []) :
    WritesOut d items (inlined d items) where
  eq_inlined := rfl
  fails_iff := inlined_eq_error_iff h
  placed s hs before v after hitems := by
    rw [hitems] at hs
    exact inlined_placed hs

end Item

/-! ## Reading the text of items -/

namespace Inline

variable {d : Dialect}

theorem copied_writtenOut (d : Dialect) (v : Value) :
    Copied d ((Target.mk d false).writtenOut v).toList := by
  unfold Target.writtenOut
  split
  · exact copied_bytes d _
  · exact copied_null d

theorem literalAt_of_append {d : Dialect} {values before after : List Value} {v : Value}
    (h : values = before ++ v :: after) :
    literalAt d values before.length = (d.literal v).map String.toList := by
  simp [literalAt, h]

/-- A reader who comes to the text of items, after as many placeholders as there are values
before theirs, writes the items out. -/
theorem Fills.read_spelling {values : List Value}
    {read : Nat → List Char → Except RenderError (List Char)} (h : Fills d values read)
    {items : List Item} (hcopied : ∀ i ∈ items, i.CopiedText d) (hfaults : Item.faults items = [])
    {free : Bool} (hspaced : d = .postgres → Item.Spaced free items) (before : List Value)
    (hvalues : values = before ++ Item.bound ⟨d, false⟩ items) :
    read before.length (Item.spelling ⟨d, false⟩ before.length items).toList =
      (Item.inlined d items).map String.toList := by
  induction items generalizing before free with
  | nil => exact h.nil _
  | cons item items ih =>
    rw [List.forall_mem_cons] at hcopied
    cases item with
    | text s =>
      have ih := ih hcopied.2 hfaults (fun hd => (hspaced hd).2) before hvalues
      rw [Item.spelling, String.toList_append, h.copied hcopied.1, ih, Item.inlined]
      cases Item.inlined d items <;> simp [Except.map]
    | leaf v =>
      have hrest : d = .postgres → Item.Spaced false items := fun hd => (hspaced hd).2
      by_cases hv : (Target.mk d false).binds v = true
      · rw [Item.bound_leaf, if_pos hv] at hvalues
        have ih := ih hcopied.2 hfaults hrest (before ++ [v]) (by simpa using hvalues)
        rw [List.length_append, List.length_singleton] at ih
        have hdigit : d = .postgres → Text.startsWithDigit
            (Item.spelling ⟨d, false⟩ (before.length + 1) items).toList = false := by
          intro hd
          subst hd
          exact (hrest rfl).startsWithDigit_spelling rfl _
        rw [Item.spelling, if_pos hv, String.toList_append,
          h.placeholder (by simp [hvalues]) hdigit, literalAt_of_append hvalues, ih, Item.inlined]
        cases d.literal v with
        | error e => rfl
        | ok literal => cases Item.inlined d items <;> simp [Except.map]
      · rw [Item.bound_leaf, if_neg hv] at hvalues
        have ih := ih hcopied.2 hfaults hrest before hvalues
        rw [Item.spelling, if_neg hv, String.toList_append, h.copied (copied_writtenOut d v), ih,
          Item.inlined, Item.literal_of_not_binds hv]
        cases Item.inlined d items <;> simp [Except.map]
    | fault e => simp at hfaults

/-- Each dialect inlines with a reader that fills in literals. -/
theorem exists_fills (d : Dialect) (values : List Value) :
    ∃ read, Fills d values read ∧
      ∀ text : String, d.inline text values = (read 0 text.toList).map .ofList := by
  cases d with
  | postgres => exact ⟨_, fills_numbered values, fun _ => rfl⟩
  | mysql | sqlite | clickhouse =>
    exact ⟨_, fills_marked (by decide) values, fun _ => rfl⟩

end Inline

/-! ## Templates -/

theorem Arg.templateFrontier_copied {d : Dialect} {template : String} {args : List Arg}
    (ht : Inline.OwnText d true template) (h : ∀ a ∈ args, a.OwnTextsReadable d) :
    ∀ i ∈ Arg.templateFrontier d template args, i.CopiedText d := by
  have hbrings : Item.Brings d (Item.CopiedText d) ⟨template, args, none⟩ :=
    Item.brings_copiedText fun _ => ht.readable
  exact hbrings.forall_templateFrontier fun a ha => (h a ha).forall_copied

/-- A template that is nothing but its marker has one argument, which nothing comes before.
The arguments of any other come right after a marker at worst. -/
theorem Arg.templateFrontier_spaced {template : String} {args : List Arg}
    (ht : Inline.OwnText .postgres true template) (h : ∀ a ∈ args, a.OwnTextsReadable .postgres) :
    Item.Spaced true (Arg.templateFrontier .postgres template args) := by
  unfold Arg.templateFrontier
  by_cases htemplate : template = "?"
  · subst htemplate
    unfold Item.spliced
    split
    · rename_i hcount
      rw [Template.markers_marker, List.length_map, eq_comm, List.length_eq_one_iff] at hcount
      obtain ⟨a, rfl⟩ := hcount
      exact ⟨.inl rfl, ((h a List.mem_cons_self).spaced_frontier true).append (.text rfl)⟩
    · trivial
  · rw [show (template == "?") = false by simpa using htemplate]
    exact Item.spaced_spliced ht.readable
      (List.forall_mem_map.mpr fun a ha => (h a ha).spaced_frontier false)

/-- Inlining a template whose texts keep to the rules fails as interpolation does, and
otherwise it is writing out its frontier in one pass. -/
theorem Dialect.inlineTemplate_writesOut {d : Dialect} {template : String} {args : List Arg}
    (ht : Inline.OwnText d true template) (h : ∀ a ∈ args, a.OwnTextsReadable d) :
    match (({} : Query).interpolate ⟨d, false⟩ template args).result with
    | .error e => d.inlineTemplate template args = .error e
    | .ok _ => Item.WritesOut d (Arg.templateFrontier d template args)
        (d.inlineTemplate template args) := by
  cases hresult : (({} : Query).interpolate ⟨d, false⟩ template args).result with
  | error e => simp [Dialect.inlineTemplate, hresult]
  | ok q =>
    have hinline : d.inlineTemplate template args = d.inline q.text q.binds := by
      simp [Dialect.inlineTemplate, hresult]
    rw [Query.interpolate_eq_follow, Query.follow_result_eq_ok_iff] at hresult
    have hq := hresult.eq_continued
    obtain ⟨read, hread, hreads⟩ := Inline.exists_fills d q.binds
    have hspaced : d = .postgres → Item.Spaced true (Arg.templateFrontier d template args) := by
      intro hd
      subst hd
      exact Arg.templateFrontier_spaced ht h
    have hspelling := hread.read_spelling (Arg.templateFrontier_copied ht h)
      hresult.faultless hspaced [] (by simp [hq, Query.continued])
    have htext : q.text = Item.spelling ⟨d, false⟩ 0 (Arg.templateFrontier d template args) := by
      simp [hq, Query.continued]
    have heq : d.inlineTemplate template args =
        Item.inlined d (Arg.templateFrontier d template args) := by
      rw [hinline, hreads, htext]
      rw [List.length_nil] at hspelling
      rw [hspelling]
      cases Item.inlined d (Arg.templateFrontier d template args) <;> simp [Except.map]
    rw [heq]
    exact Item.writesOut_inlined hresult.faultless

/-- Names, texts and byte strings with quotes, markers and placeholders in them. -/
theorem Dialect.inlineTemplate_writesOut_quoted :
    Inline.OwnText .postgres true "? = ? AND '?' <> ?" ∧
    (∀ a ∈ [toArg (Ident.mk "$1`?"), .value (.text "$2'?"),
        .list [.value (.bytes [36]), .value .null]], a.OwnTextsReadable .postgres) ∧
    Dialect.inlineTemplate .postgres "? = ? AND '?' <> ?" [toArg (Ident.mk "$1`?"),
        .value (.text "$2'?"), .list [.value (.bytes [36]), .value .null]] =
      .ok "\"$1`?\" = E'$2\\'?' AND '?' <> ('\\x24'::bytea, NULL)" := by
  have ht : Inline.OwnText .postgres true "? = ? AND '?' <> ?" :=
    ⟨rfl, fun _ => by decide, fun _ => by decide, fun _ hfree => by cases hfree⟩
  have hargs : ∀ a ∈ [toArg (Ident.mk "$1`?"), .value (.text "$2'?"),
      .list [.value (.bytes [36]), .value .null]], a.OwnTextsReadable .postgres := by
    intro a ha
    simp only [List.mem_cons, List.not_mem_nil, or_false] at ha
    rcases ha with rfl | rfl | rfl
    · exact .builtin (.ident ⟨"$1`?"⟩) (by simp [Builtin.layout, Layout.name, Layout.args,
        Segment.arg?])
    · exact .value _
    · refine .list _ fun b hb => ?_
      simp only [List.mem_cons, List.not_mem_nil, or_false] at hb
      rcases hb with rfl | rfl
      · exact .value _
      · exact .value _
  have hok : (({} : Query).interpolate ⟨.postgres, false⟩ "? = ? AND '?' <> ?"
      [toArg (Ident.mk "$1`?"), .value (.text "$2'?"),
        .list [.value (.bytes [36]), .value .null]]).result.isOk = true := by decide +kernel
  have hresult := Dialect.inlineTemplate_writesOut ht hargs
  refine ⟨ht, hargs, ?_⟩
  split at hresult
  · rename_i e he
    rw [he] at hok
    cases hok
  · rw [hresult.eq_inlined]
    rfl

end SqlWeave
