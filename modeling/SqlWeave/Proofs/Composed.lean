import SqlWeave.Proofs.Builtin
import SqlWeave.Proofs.Continuation

/-!
# Trees of the library's nodes

An argument is composed of scalars, lists, fragments, the library's own nodes and nodes
that a caller wrote (`Arg.Composed`). What holds of every piece of text and every fault
that such a tree can bring in holds of every item of its frontier
(`Arg.Composed.forall_frontier`).

The text of each node of the library is cut into as many pieces as its arguments ask for,
at its own slots. So a tree of such nodes and of fragments fails for a count of markers
only if one of its fragments has a wrong one (`Builtin.markers_match`).
-/

namespace SqlWeave

/-- An argument whose fragments satisfy `P`, whose nodes are the library's or else satisfy
`Q`, and whose parts are composed in the same way. -/
inductive Arg.Composed (d : Dialect) (P : Fragment → Prop) (Q : Node → Prop) : Arg → Prop
  | value (v : Value) : Composed d P Q (.value v)
  | late (outcome : Except String Value) : Composed d P Q (.late outcome)
  | list (items : List Arg) : (∀ a ∈ items, Composed d P Q a) → Composed d P Q (.list items)
  | fragment (f : Fragment) :
    P f → (∀ a ∈ f.args, Composed d P Q a) → Composed d P Q f.arg
  | builtin (b : Builtin) :
    (∀ a ∈ (b.layout d).args, Composed d P Q a) → Composed d P Q b.node.arg
  | custom (n : Node) :
    Q n → (∀ a ∈ (n.render d).args, Composed d P Q a) → Composed d P Q n.arg

namespace Item

variable {d : Dialect} {I : Item → Prop}

/-- What holds of pieces and of fillings holds of the one between the other. -/
theorem forall_weave {pieces : List String} {fillings : List (List Item)}
    (hlen : pieces.length = fillings.length + 1) (hpieces : ∀ p ∈ pieces, I (.text p))
    (h : ∀ items ∈ fillings, ∀ i ∈ items, I i) : ∀ i ∈ weave pieces fillings, I i := by
  induction fillings generalizing pieces with
  | nil =>
    obtain ⟨p, rfl⟩ := List.length_eq_one_iff.mp hlen
    simpa [weave] using hpieces
  | cons items fillings ih =>
    obtain ⟨p, pieces, rfl⟩ := List.exists_cons_of_length_eq_add_one hlen
    intro i hi
    simp only [weave, List.headD_cons, List.tail_cons, List.mem_cons, List.mem_append] at hi
    rcases hi with rfl | hi | hi
    · exact hpieces p List.mem_cons_self
    · exact h items List.mem_cons_self i hi
    · exact ih (by simpa using hlen) (fun q hq => hpieces q (List.mem_cons_of_mem _ hq))
        (fun items' h' => h items' (List.mem_cons_of_mem _ h')) i hi

/-- What holds of punctuation and of the elements holds of a list. -/
theorem forall_listed {items : List (List Item)} (hempty : I (.fault .emptyList))
    (hopen : I (.text "(")) (hcomma : I (.text ", ")) (hclose : I (.text ")"))
    (h : ∀ is ∈ items, ∀ i ∈ is, I i) : ∀ i ∈ listed items, I i := by
  cases items with
  | nil => simpa [listed] using hempty
  | cons first rest =>
    intro i hi
    simp only [listed, Text.intercalate_cons_eq_append_flatMap, List.mem_cons, List.mem_append,
      List.mem_flatMap, List.not_mem_nil, or_false] at hi
    rcases hi with rfl | (hi | ⟨is, his, rfl | hi⟩) | rfl
    · exact hopen
    · exact h first List.mem_cons_self i hi
    · exact hcomma
    · exact h is (List.mem_cons_of_mem _ his) i hi
    · exact hclose

/-- What holds of parentheses and of what is between them holds of both. -/
theorem forall_enclosed {parens : Bool} {items : List Item} (hopen : I (.text "("))
    (hclose : I (.text ")")) (h : ∀ i ∈ items, I i) : ∀ i ∈ enclosed parens items, I i := by
  cases parens with
  | false => exact h
  | true =>
    intro i hi
    simp only [enclosed, if_true, List.mem_cons, List.mem_append, List.not_mem_nil,
      or_false] at hi
    rcases hi with rfl | hi | rfl
    · exact hopen
    · exact h i hi
    · exact hclose

/-- What a rendering itself brings into a frontier satisfies `I` : its failure, or a wrong
count of markers, or the pieces of its text. -/
structure Brings (d : Dialect) (I : Item → Prop) (r : Rendering Arg) : Prop where
  failure : ∀ e, r.failure = some e → I (.fault e)
  count : r.failure = none → Template.markers d r.text ≠ r.args.length →
    I (.fault (.placeholderCount (Template.markers d r.text) r.args.length))
  pieces : r.failure = none → Template.markers d r.text = r.args.length →
    ∀ p ∈ Template.pieces d r.text, I (.text p)

/-- What the syntax around arguments brings into a frontier satisfies `I`. -/
structure Punctuation (I : Item → Prop) : Prop where
  leaf : ∀ v, I (.leaf v)
  late : ∀ cause, I (.fault (.lateValue cause))
  emptyList : I (.fault .emptyList)
  opening : I (.text "(")
  comma : I (.text ", ")
  closing : I (.text ")")

/-- What a rendering brings and what its arguments bring make up a template. -/
theorem Brings.forall_spliced {r : Rendering Arg} (hr : Brings d I r) (hok : r.failure = none)
    {fillings : List (List Item)} (hlen : fillings.length = r.args.length)
    (h : ∀ items ∈ fillings, ∀ i ∈ items, I i) : ∀ i ∈ spliced d r.text fillings, I i := by
  unfold spliced
  rw [hlen]
  split
  · rename_i hcount
    refine forall_weave ?_ (hr.pieces hok hcount) h
    rw [Template.length_pieces, hcount, hlen]
  · rename_i hcount
    simpa using hr.count hok hcount

/-- So they do for a node, which may ask for parentheses. -/
theorem Brings.forall_renderingFrontier {r : Rendering Arg} (hr : Brings d I r)
    (hI : Punctuation I) (h : ∀ a ∈ r.args, ∀ i ∈ a.frontier d false, I i) (parens : Bool) :
    ∀ i ∈ Arg.renderingFrontier d parens r, I i := by
  obtain ⟨text, args, failure⟩ := r
  cases failure with
  | some e =>
    intro i hi
    obtain rfl : i = .fault e := by simpa [Arg.renderingFrontier] using hi
    exact hr.failure e rfl
  | none =>
    simp only [Arg.renderingFrontier, Arg.frontiers_eq_map]
    refine forall_enclosed hI.opening hI.closing
      (hr.forall_spliced rfl (List.length_map _) fun items hitems => ?_)
    obtain ⟨a, ha, rfl⟩ := List.mem_map.mp hitems
    exact h a ha

/-- So they do for the whole statement. -/
theorem Brings.forall_templateFrontier {template : String} {args : List Arg}
    (hr : Brings d I ⟨template, args, none⟩)
    (h : ∀ a ∈ args, ∀ top, ∀ i ∈ a.frontier d top, I i) :
    ∀ i ∈ Arg.templateFrontier d template args, I i := by
  refine hr.forall_spliced rfl (List.length_map _) fun items hitems => ?_
  obtain ⟨a, ha, rfl⟩ := List.mem_map.mp hitems
  exact h a ha _

end Item

/-- A fragment as the rendering of its own text and arguments. -/
def Fragment.rendering (f : Fragment) : Rendering Arg := ⟨f.text, f.args, none⟩

/-- What all parts of a composed argument bring in holds of its whole frontier. -/
theorem Arg.Composed.forall_frontier {d : Dialect} {P : Fragment → Prop} {Q : Node → Prop}
    {I : Item → Prop} (hI : Item.Punctuation I) (hP : ∀ f, P f → Item.Brings d I f.rendering)
    (hb : ∀ b : Builtin, Item.Brings d I (b.node.render d))
    (hQ : ∀ n, Q n → Item.Brings d I (n.render d)) {a : Arg} (h : a.Composed d P Q) :
    ∀ top, ∀ i ∈ a.frontier d top, I i := by
  induction h with
  | value v =>
    intro top i hi
    obtain rfl : i = .leaf v := by simpa [Arg.frontier] using hi
    exact hI.leaf v
  | late outcome =>
    intro top i hi
    cases outcome with
    | ok v =>
      obtain rfl : i = .leaf v := by simpa [Arg.frontier] using hi
      exact hI.leaf v
    | error cause =>
      obtain rfl : i = .fault (.lateValue cause) := by simpa [Arg.frontier] using hi
      exact hI.late cause
  | list items _ ih =>
    intro top
    simp only [Arg.frontier, Arg.frontiers_eq_map]
    refine Item.forall_listed hI.emptyList hI.opening hI.comma hI.closing fun is his => ?_
    obtain ⟨a, ha, rfl⟩ := List.mem_map.mp his
    exact ih a ha false
  | fragment f hf _ ih =>
    intro top
    simp only [Fragment.arg, Arg.frontier, Arg.frontiers_eq_map]
    refine (hP f hf).forall_spliced rfl (List.length_map _) fun items hitems => ?_
    obtain ⟨a, ha, rfl⟩ := List.mem_map.mp hitems
    exact ih a ha false
  | builtin b _ ih =>
    intro top
    refine (hb b).forall_renderingFrontier hI (fun a ha => ih a ?_ false) _
    rwa [b.render_eq] at ha
  | custom n hn _ ih =>
    intro top
    exact (hQ n hn).forall_renderingFrontier hI (fun a ha => ih a ha false) _

/-- An argument that is composed of some kinds of parts is composed of wider kinds. -/
theorem Arg.Composed.imp {d : Dialect} {P P' : Fragment → Prop} {Q Q' : Node → Prop}
    (hP : ∀ f, P f → P' f) (hQ : ∀ n, Q n → Q' n) {a : Arg} (h : a.Composed d P Q) :
    a.Composed d P' Q' := by
  induction h with
  | value v => exact .value v
  | late outcome => exact .late outcome
  | list items _ ih => exact .list items ih
  | fragment f hf _ ih => exact .fragment f (hP f hf) ih
  | builtin b _ ih => exact .builtin b ih
  | custom n hn _ ih => exact .custom n (hQ n hn) ih

/-! ## Markers and arguments match -/

namespace Query

/-- A query fails with a fault that is among the items. -/
theorem fault_mem_of_follow_result {t : Target} {q : Query} {items : List Item}
    {e : RenderError} (h : (q.follow t items).result = .error e) : .fault e ∈ items := by
  rw [follow_eq, Progress.result] at h
  have hhead : (Item.faults items).head? = some e := by
    cases hfaults : (Item.faults items).head? <;> simp_all
  obtain ⟨i, hi, he⟩ := List.mem_filterMap.mp (List.mem_of_mem_head? hhead)
  cases i with
  | fault e' =>
    obtain rfl : e' = e := by simpa [Item.fault?] using he
    exact hi
  | text s => cases he
  | leaf v => cases he

end Query

namespace Builtin

/-- An item other than a wrong count of markers. -/
def NoCount (i : Item) : Prop := ∀ expected actual, i ≠ .fault (.placeholderCount expected actual)

/-- No node of the library brings a wrong count of markers. -/
theorem brings_noCount (d : Dialect) (b : Builtin) : Item.Brings d NoCount (b.node.render d) := by
  rw [render_eq]
  have hsound := b.sound_layout d
  refine ⟨fun e he expected actual h => ?_, fun _ hcount => ?_, fun _ _ p _ _ _ => by simp⟩
  · obtain rfl : e = .placeholderCount expected actual := by simpa using h
    exact hsound.failure expected actual he
  · exact absurd hsound.markers_text hcount

/-- The text that a node of the library renders to has one marker for each argument, and
each slot is the marker of its own argument. A statement composed of such nodes and of
fragments with as many arguments as markers therefore never fails for a count. -/
theorem markers_match :
    (∀ (d : Dialect) (b : Builtin), b.node.render d = (b.layout d).rendering d ∧
      Template.markers d (b.node.render d).text = (b.node.render d).args.length ∧
      ∀ n arg, (b.node.render d).args[n]? = some arg →
        ∃ before after, (b.layout d).segments = before ++ .slot arg :: after ∧
          (Layout.argsOf before).length = n ∧
          Template.MarkerAt d (b.node.render d).text n (Layout.textOf d before)) ∧
    ∀ (d : Dialect) (b : Builtin), (∀ a ∈ (b.layout d).args,
        a.Composed d (fun f => Template.markers d f.text = f.args.length) fun _ => False) →
      ∀ expected actual, b.node.toQuery d ≠ .error (.placeholderCount expected actual) := by
  constructor
  · intro d b
    have hsound := b.sound_layout d
    rw [render_eq]
    exact ⟨rfl, hsound.markers_text, fun n arg harg => hsound.markerAt harg⟩
  · intro d b hargs expected actual h
    rw [Node.toQuery, Query.interpolateNode_eq_follow] at h
    have hI : Item.Punctuation NoCount :=
      ⟨by simp [NoCount], by simp [NoCount], by simp [NoCount], by simp [NoCount],
        by simp [NoCount], by simp [NoCount]⟩
    refine (b.brings_noCount d).forall_renderingFrontier hI (fun a ha => ?_) false _
      (Query.fault_mem_of_follow_result h) expected actual rfl
    rw [render_eq] at ha
    refine (hargs a ha).forall_frontier hI (fun f hf => ?_) (fun b => b.brings_noCount d)
      (fun n hn => hn.elim) false
    exact ⟨fun e he => (by cases he), fun _ hcount => absurd hf hcount,
      fun _ _ p _ _ _ => by simp⟩

/-- A name with quotes and a marker in it, beside a fragment with a quoted marker. -/
theorem markers_match_quoted :
    (∀ a ∈ [(⟨"'?' <> ?", [.value (.text "?")]⟩ : Fragment).arg],
      a.Composed .mysql (fun f => Template.markers .mysql f.text = f.args.length)
        fun _ => False) ∧
    ∀ expected actual, (Builtin.condition (.eq "a`?\\" (.fragment "'?' <> ?"
      [.value (.text "?")]))).node.toQuery .mysql ≠ .error (.placeholderCount expected actual) := by
  have hargs : ∀ a ∈ [(⟨"'?' <> ?", [.value (.text "?")]⟩ : Fragment).arg],
      a.Composed .mysql (fun f => Template.markers .mysql f.text = f.args.length)
        fun _ => False := by
    intro a ha
    obtain rfl := List.mem_singleton.mp ha
    refine .fragment _ (by decide) fun b hb => ?_
    obtain rfl := List.mem_singleton.mp hb
    exact .value _
  exact ⟨hargs, markers_match.2 .mysql (.condition (.eq "a`?\\" (.fragment "'?' <> ?"
    [.value (.text "?")]))) hargs⟩

end Builtin

end SqlWeave
