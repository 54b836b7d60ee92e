import SqlWeave.Proofs.Continuation
import SqlWeave.Proofs.Defect

/-!
# How interpolation fails

What fails is the first ill-formed argument that is met. A failure leaves the query with
everything that stands before this argument. `Arg.Breaks` says what that is, by the place of
the argument in the tree : the arguments before it are written in full, together with the
text and the opening parentheses of those it is in, and nothing of its own is written. Only
a node that was rendered and has the wrong number of arguments has its parenthesis opened.

The numbering is sound after a failure too : what was written has a placeholder for each
value that was bound (`Query.Numbered`). All this together is the outcome of an
interpolation (`Query.interpolate_outcome`).
-/

namespace SqlWeave

/-! ## What stands before the first ill-formed argument -/

/-- An opening parenthesis if asked for. -/
def Item.opening (parens : Bool) : List Item := if parens then [.text "("] else []

mutual

/-- The first argument in `a` that is ill formed is so because of `e`, and `written` is what
stands before it. `top` says that `a` is the whole statement. -/
inductive Arg.Breaks (d : Dialect) : (top : Bool) → (a : Arg) → (written : List Item) →
    (e : RenderError) → Prop where
  | late (top : Bool) (cause : String) :
    Arg.Breaks d top (.late (.error cause)) [] (.lateValue cause)
  | emptyList (top : Bool) : Arg.Breaks d top (.list []) [] .emptyList
  /-- The items before the one that breaks are written, each with a comma after it. -/
  | item {top : Bool} {before after : List Arg} {a : Arg} {written : List Item}
      {e : RenderError} (hbefore : ∀ b ∈ before, b.WellFormed d)
      (h : Arg.Breaks d false a written e) :
    Arg.Breaks d top (.list (before ++ a :: after))
      (.text "(" :: (before.flatMap fun b => b.frontier d false ++ [.text ", "]) ++ written) e
  | fragment {top : Bool} {text : String} {args : List Arg} {written : List Item}
      {e : RenderError} (h : Arg.TextBreaks d false text args written e) :
    Arg.Breaks d top (.fragment text args) written e
  /-- A node that cannot be rendered leaves no trace. -/
  | render {top parens : Bool} {render : Dialect → Rendering Arg} {e : RenderError}
      (h : (render d).failure = some e) :
    Arg.Breaks d top (.node parens render) [] e
  /-- A node that was rendered has its parenthesis opened. -/
  | node {top parens : Bool} {render : Dialect → Rendering Arg} {written : List Item}
      {e : RenderError} (hok : (render d).failure = none)
      (h : Arg.TextBreaks d false (render d).text (render d).args written e) :
    Arg.Breaks d top (.node parens render) (Item.opening (parens && !top) ++ written) e

/-- The same for a text with markers and the arguments for them. -/
inductive Arg.TextBreaks (d : Dialect) : (top : Bool) → (text : String) → (args : List Arg) →
    (written : List Item) → (e : RenderError) → Prop where
  | count {top : Bool} {text : String} {args : List Arg}
      (h : Template.markers d text ≠ args.length) :
    Arg.TextBreaks d top text args [] (.placeholderCount (Template.markers d text) args.length)
  /-- The arguments before the one that breaks are written, with the pieces of text around
  them. -/
  | arg {top : Bool} {text : String} {before after : List Arg} {a : Arg}
      {written : List Item} {e : RenderError}
      (hcount : Template.markers d text = (before ++ a :: after).length)
      (hbefore : ∀ b ∈ before, b.WellFormed d) (h : Arg.Breaks d top a written e) :
    Arg.TextBreaks d top text (before ++ a :: after)
      (Item.weave (Template.pieces d text) (before.map (Arg.frontier d top)) ++ written) e

end

namespace Item

/-- A weave up to one of its fillings, that filling, and the rest. -/
theorem weave_append_cons (pieces : List String) (before : List (List Item)) (f : List Item)
    (later : List (List Item)) :
    weave pieces (before ++ f :: later) =
      weave pieces before ++ (f ++ weave (pieces.drop (before.length + 1)) later) := by
  induction before generalizing pieces with
  | nil => simp [weave]
  | cons b bs ih => simp [weave, ih]

/-- A list up to one of its items, that item, and the rest. -/
theorem listed_append_cons (before : List (List Item)) (f : List Item)
    (later : List (List Item)) :
    listed (before ++ f :: later) =
      .text "(" :: before.flatMap (· ++ [.text ", "]) ++
        (f ++ (later.flatMap ([.text ", "] ++ ·) ++ [.text ")"])) := by
  rw [listed_of_ne_nil (by simp), Text.intercalate_append_cons]
  simp

/-- The first fault in `items` is `e`, and `written` is what stands before it. -/
def StopsAt (items written : List Item) (e : RenderError) : Prop :=
  faults written = [] ∧ ∃ rest, items = written ++ .fault e :: rest

namespace StopsAt

variable {items written : List Item} {e : RenderError}

/-- What comes after the fault is not written. -/
theorem append (h : StopsAt items written e) (more : List Item) :
    StopsAt (items ++ more) written e := by
  obtain ⟨hwritten, rest, rfl⟩ := h
  exact ⟨hwritten, rest ++ more, by simp⟩

theorem after (h : StopsAt items written e) {before : List Item} (hbefore : faults before = []) :
    StopsAt (before ++ items) (before ++ written) e := by
  obtain ⟨hwritten, rest, rfl⟩ := h
  exact ⟨by simp [hbefore, hwritten], rest, by simp⟩

/-- In a template, the pieces and the arguments before it are. -/
theorem weave (h : StopsAt items written e) (pieces : List String) {before : List (List Item)}
    (hbefore : ∀ f ∈ before, faults f = []) (later : List (List Item)) :
    StopsAt (weave pieces (before ++ items :: later)) (Item.weave pieces before ++ written) e := by
  rw [weave_append_cons]
  exact (h.append _).after (by simpa [faults_weave] using hbefore)

/-- In a list, the elements before it are, with their commas. -/
theorem listed (h : StopsAt items written e) {before : List (List Item)}
    (hbefore : ∀ f ∈ before, faults f = []) (later : List (List Item)) :
    StopsAt (listed (before ++ items :: later))
      (.text "(" :: before.flatMap (· ++ [.text ", "]) ++ written) e := by
  rw [listed_append_cons]
  exact (h.append _).after (by simpa [faults_flatMap] using hbefore)

theorem enclosed (h : StopsAt items written e) (parens : Bool) :
    StopsAt (enclosed parens items) (opening parens ++ written) e := by
  cases parens with
  | false => exact h
  | true => exact (h.append [.text ")"]).after rfl

end StopsAt

end Item

namespace Arg

variable {d : Dialect} {top : Bool}

/-- A node that renders is written as the template that it renders to. -/
theorem frontier_node {parens : Bool} {render : Dialect → Rendering Arg}
    (hok : (render d).failure = none) :
    (Arg.node parens render).frontier d top =
      Item.enclosed (parens && !top)
        (Item.spliced d (render d).text ((render d).args.map (frontier d false))) := by
  rw [frontier]
  generalize render d = r at hok
  obtain ⟨text, args, failure⟩ := r
  obtain rfl : failure = none := hok
  rw [renderingFrontier, frontiers_eq_map]

/-- A node that does not render is its failure. -/
theorem frontier_node_of_failure {parens : Bool} {render : Dialect → Rendering Arg}
    {e : RenderError} (h : (render d).failure = some e) :
    (Arg.node parens render).frontier d top = [.fault e] := by
  rw [frontier]
  generalize render d = r at h
  obtain ⟨text, args, failure⟩ := r
  obtain rfl : failure = some e := h
  rfl

/-- Arguments that are well formed have no faults. -/
theorem WellFormed.faults_map (top : Bool) {before : List Arg} (h : ∀ b ∈ before, b.WellFormed d) :
    ∀ f ∈ before.map (frontier d top), Item.faults f = [] := by
  intro f hf
  obtain ⟨b, hb, rfl⟩ := List.mem_map.mp hf
  exact (wellFormed_iff top b).mp (h b hb)

/-- Where a text breaks off, the items that are written for it stop. -/
theorem TextBreaks.stopsAt {text : String} {args : List Arg} {written : List Item}
    {e : RenderError} (h : TextBreaks d top text args written e)
    (ih : ∀ a ∈ args, ∀ {written e}, a.Breaks d top written e →
      Item.StopsAt (a.frontier d top) written e) :
    Item.StopsAt (Item.spliced d text (args.map (frontier d top))) written e := by
  unfold Item.spliced
  cases h with
  | count h => exact ⟨rfl, [], by rw [List.length_map, if_neg h, List.nil_append]⟩
  | @arg _ _ before after a written _ hcount hbefore h =>
    rw [List.length_map, if_pos hcount, List.map_append, List.map_cons]
    exact (ih a (by simp) h).weave _ (WellFormed.faults_map top hbefore) _

/-- What stands before the first ill-formed argument is the frontier up to its first
fault. -/
theorem Breaks.stopsAt {a : Arg} {written : List Item} {e : RenderError}
    (h : a.Breaks d top written e) : Item.StopsAt (a.frontier d top) written e := by
  induction a using Arg.tree_induction generalizing top written e with
  | value v => cases h
  | late outcome =>
    cases h with
    | late => exact ⟨rfl, [], rfl⟩
  | list items ih =>
    rw [frontier, frontiers_eq_map]
    cases h with
    | emptyList => exact ⟨rfl, [], rfl⟩
    | @item _ before after a written _ hbefore h =>
      have hlisted := (ih a (by simp) h).listed (WellFormed.faults_map false hbefore)
        (after.map (frontier d false))
      rw [List.flatMap_map] at hlisted
      rwa [List.map_append, List.map_cons]
  | fragment text args ih =>
    rw [frontier, frontiers_eq_map]
    cases h with
    | fragment h => exact h.stopsAt fun a ha _ _ => ih a ha
  | node parens render ih =>
    cases h with
    | render h => exact ⟨rfl, [], frontier_node_of_failure h⟩
    | node hok h =>
      rw [frontier_node hok]
      exact (h.stopsAt fun a ha _ _ => ih d a ha).enclosed _

/-- A text with a defect breaks off somewhere. -/
theorem exists_textBreaks (top : Bool) {text : String} {args : List Arg} {e : RenderError}
    (h : (countDefect? d text args.length).or ((args.flatMap (met d)).findSome? (defect? d)) =
      some e)
    (ih : ∀ a ∈ args, ∀ e, (a.met d).findSome? (defect? d) = some e →
      ∃ written, a.Breaks d top written e) :
    ∃ written, TextBreaks d top text args written e := by
  unfold countDefect? at h
  split at h
  · rename_i hcount
    rw [Option.none_or, findSome?_flatMap_met] at h
    obtain ⟨before, a, later, rfl, ha, hbefore⟩ := List.findSome?_eq_some_iff.mp h
    obtain ⟨written, hwritten⟩ := ih a (by simp) e ha
    exact ⟨_, .arg hcount (fun b hb => List.findSome?_eq_none_iff.mp (hbefore b hb)) hwritten⟩
  · rename_i hcount
    obtain rfl := Option.some_inj.mp h
    exact ⟨_, .count hcount⟩

/-- So does an argument with a defect, by induction over what it is made of. -/
theorem exists_breaks (top : Bool) {a : Arg} {e : RenderError}
    (h : (a.met d).findSome? (defect? d) = some e) : ∃ written, a.Breaks d top written e := by
  induction a using Arg.tree_induction generalizing top e with
  | value v => cases h
  | late outcome =>
    cases outcome with
    | ok v => cases h
    | error cause =>
      obtain rfl := Option.some_inj.mp h
      exact ⟨_, .late top cause⟩
  | list items ih =>
    cases items with
    | nil =>
      obtain rfl := Option.some_inj.mp h
      exact ⟨_, .emptyList top⟩
    | cons first rest =>
      rw [met, metIn_eq_flatMap, List.findSome?_cons, defect?, findSome?_flatMap_met] at h
      obtain ⟨before, a, later, hsplit, ha, hbefore⟩ := List.findSome?_eq_some_iff.mp h
      obtain ⟨written, hwritten⟩ := ih a (by simp [hsplit]) false ha
      rw [hsplit]
      exact ⟨_, .item (fun b hb => List.findSome?_eq_none_iff.mp (hbefore b hb)) hwritten⟩
  | fragment text args ih =>
    rw [findSome?_met_fragment] at h
    obtain ⟨written, hwritten⟩ := exists_textBreaks false h fun a ha _ => ih a ha false
    exact ⟨written, .fragment hwritten⟩
  | node parens render ih =>
    rw [findSome?_met_node] at h
    cases hfailure : (render d).failure with
    | some e' =>
      rw [hfailure] at h
      obtain rfl := Option.some_inj.mp h
      exact ⟨_, .render hfailure⟩
    | none =>
      rw [hfailure, Option.none_or] at h
      obtain ⟨written, hwritten⟩ := exists_textBreaks false h fun a ha _ => ih d a ha false
      exact ⟨_, .node hfailure hwritten⟩

end Arg

/-! ## Numbers after a failure -/

/-- A part of a written text. -/
inductive Chunk where
  | text (s : String)
  /-- The placeholder with a number, for a bound value. -/
  | placeholder (v : Value) (number : Nat)

namespace Chunk

/-- How a chunk is written. -/
def written (d : Dialect) : Chunk → String
  | .text s => s
  | .placeholder _ number => d.placeholder number

/-- The value and the number of a placeholder. -/
def placeholder? : Chunk → Option (Value × Nat)
  | .text _ => none
  | .placeholder v number => some (v, number)

end Chunk

namespace Item

/-- The chunks of items that stand after `n` bound values. -/
def chunks (t : Target) (n : Nat) : List Item → List Chunk
  | [] => []
  | .text s :: rest => .text s :: chunks t n rest
  | .leaf v :: rest =>
    if t.binds v then .placeholder v (n + 1) :: chunks t (n + 1) rest
    else .text (t.writtenOut v) :: chunks t n rest
  | .fault _ :: rest => chunks t n rest

/-- Chunks one after the other are the text. -/
theorem join_chunks (t : Target) (n : Nat) (items : List Item) :
    String.join ((chunks t n items).map (Chunk.written t.dialect)) = spelling t n items := by
  induction items generalizing n with
  | nil => rfl
  | cons item rest ih =>
    cases item with
    | text s => simp [chunks, spelling, Chunk.written, ih]
    | fault e => simp [chunks, spelling, ih]
    | leaf v => by_cases hv : t.binds v <;> simp [chunks, spelling, Chunk.written, hv, ih]

/-- The placeholders are one for each value that is bound, numbered from the one after
`n`. -/
theorem placeholders_chunks (t : Target) (n : Nat) (items : List Item) :
    (chunks t n items).filterMap Chunk.placeholder? = (bound t items).zipIdx (n + 1) := by
  induction items generalizing n with
  | nil => rfl
  | cons item rest ih =>
    cases item with
    | text s => simp [chunks, Chunk.placeholder?, List.filterMap_cons, ih]
    | fault e => simp [chunks, ih]
    | leaf v =>
      by_cases hv : t.binds v <;>
        simp [chunks, Chunk.placeholder?, List.filterMap_cons, bound_leaf, hv, ih]

@[simp] theorem faults_beforeFault (items : List Item) : faults (beforeFault items) = [] := by
  induction items with
  | nil => rfl
  | cons item rest ih => cases item <;> simp [ih]

end Item

namespace Query

/-- `q'` is `q` continued by faultless items, and the placeholders in what these are written
as are one for each new value, at its place and numbered from the values of `q` on. -/
def Numbered (t : Target) (q q' : Query) : Prop :=
  ∃ items, q.Continues t items q' ∧
    q'.text = q.text ++
      String.join ((Item.chunks t q.binds.length items).map (Chunk.written t.dialect)) ∧
    (Item.chunks t q.binds.length items).filterMap Chunk.placeholder? =
      (q'.binds.drop q.binds.length).zipIdx (q.binds.length + 1)

/-- Placeholders are numbered from the values that were there before. -/
theorem numbered_continued (t : Target) (q : Query) {items : List Item}
    (h : Item.faults items = []) : q.Numbered t (q.continued t items) := by
  refine ⟨items, continues_continued t q h, ?_, ?_⟩
  · rw [Item.join_chunks, continued]
  · rw [Item.placeholders_chunks, continued, List.drop_left]

/-! ## The outcome -/

/-- What becomes of a query `q` that an argument is added to. It fails with the first
ill-formed argument that is met, if there is one; the query it fails with is then `q`
continued by what stands before that argument, and no number is out of order. -/
structure Outcome (t : Target) (q : Query) (a : Arg)
    (breaks : (written : List Item) → (e : RenderError) → Prop) (p : Progress) : Prop where
  succeeds_iff : p.failure = none ↔ a.WellFormed t.dialect
  failure : p.failure = (a.met t.dialect).findSome? (Arg.defect? t.dialect)
  fails_iff : ∀ q' e, p = ⟨q', some e⟩ ↔ ∃ written, breaks written e ∧ q.Continues t written q'
  numbered : q.Numbered t p.query

/-- Following items that stop leaves what was written up to there, and the fault. -/
theorem follow_of_stopsAt (t : Target) (q : Query) {items written : List Item} {e : RenderError}
    (h : Item.StopsAt items written e) :
    q.follow t items = ⟨q.continued t written, some e⟩ := by
  obtain ⟨hwritten, rest, rfl⟩ := h
  rw [follow_append, follow_eq, hwritten, Item.beforeFault_of_faults_eq_nil hwritten]
  rfl

/-- Following items whose first fault is that of `a` has the outcome that `a` has. -/
theorem outcome_follow (t : Target) (q : Query) {a : Arg} {items : List Item}
    {breaks : List Item → RenderError → Prop}
    (hfaults : (Item.faults items).head? = (a.met t.dialect).findSome? (Arg.defect? t.dialect))
    (hstops : ∀ written e, breaks written e → Item.StopsAt items written e)
    (hexists : ∀ e, (Item.faults items).head? = some e → ∃ written, breaks written e) :
    q.Outcome t a breaks (q.follow t items) where
  succeeds_iff := by
    rw [follow_eq, hfaults, List.findSome?_eq_none_iff, Arg.WellFormed]
  failure := by rw [follow_eq, hfaults]
  fails_iff q' e := by
    constructor
    · intro h
      obtain ⟨written, hwritten⟩ := hexists e (by rw [follow_eq] at h; simp_all)
      rw [follow_of_stopsAt t q (hstops written e hwritten)] at h
      obtain rfl : q.continued t written = q' := congrArg Progress.query h
      exact ⟨written, hwritten, continues_continued t q (hstops written e hwritten).1⟩
    · rintro ⟨written, hwritten, hq'⟩
      rw [follow_of_stopsAt t q (hstops written e hwritten), hq'.eq_continued]
  numbered := by
    rw [follow_eq]
    exact numbered_continued t q (Item.faults_beforeFault items)

/-- For any tree of arguments and from any query on, interpolation fails with the first
argument that is ill formed, and leaves what stands before it. -/
theorem interpolate_outcome (t : Target) (q : Query) :
    (∀ template args, q.Outcome t (.fragment template args)
      (Arg.TextBreaks t.dialect (template == "?") template args) (q.interpolate t template args)) ∧
    ∀ n : Node, q.Outcome t n.arg (Arg.Breaks t.dialect true n.arg) (q.interpolateNode t n) := by
  constructor
  · intro template args
    have hfaults : (Item.faults (Arg.templateFrontier t.dialect template args)).head? = _ :=
      Arg.head?_faults_text template fun a _ => Arg.head?_faults_frontier _ a
    rw [interpolate_eq_follow]
    refine outcome_follow t q (by rw [hfaults, Arg.findSome?_met_fragment])
      (fun _ _ h => h.stopsAt fun _ _ _ _ h => h.stopsAt) fun e he => ?_
    exact Arg.exists_textBreaks _ (by rw [← hfaults, he]) fun _ _ _ h => Arg.exists_breaks _ h
  · intro n
    rw [interpolateNode_eq_follow]
    have hfrontier : n.frontier t.dialect = n.arg.frontier t.dialect true := by
      simp [Node.frontier, Node.arg, Arg.frontier]
    rw [hfrontier]
    exact outcome_follow t q (Arg.head?_faults_frontier true n.arg) (fun _ _ h => h.stopsAt)
      fun e he => Arg.exists_breaks true (by rwa [← Arg.head?_faults_frontier true])

end Query

end SqlWeave
