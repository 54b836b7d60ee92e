import Mathlib.Data.List.Basic
import SqlWeave.Proofs.Composed

/-!
# One tree in several dialects

A dialect decides how names are quoted, how placeholders look and which clauses a statement
has, but not what is bound and not whether a statement can be rendered. The content of a
frontier is what it holds besides text, its leaves and faults in order (`Item.content`).
Interpolation binds and fails by the content alone (`Query.follow_content`).

The content of a tree is that of its arguments, as long as their number fits
(`Item.content_spliced`). A text without a backslash is cut into the same pieces in every
dialect (`Template.cut_eq_of_not_mem`), and a node of the library fits its arguments in
every dialect, so a tree of these has one content (`Arg.Portable.content_frontier`). It binds
the same values in all dialects, or fails in all of them alike (`Node.toQuery_dialect`).
-/

namespace SqlWeave

/-! ## The content of a frontier -/

namespace Item

/-- Whether an item is a piece of text. -/
def isText : Item → Bool
  | .text _ => true
  | .leaf _ | .fault _ => false

/-- Leaves and faults, from left to right. -/
def content (items : List Item) : List Item := items.filter fun i => !i.isText

@[simp] theorem content_nil : content [] = [] :=
  rfl

@[simp] theorem content_text (s : String) (items : List Item) :
    content (.text s :: items) = content items :=
  rfl

@[simp] theorem content_leaf (v : Value) (items : List Item) :
    content (.leaf v :: items) = .leaf v :: content items :=
  rfl

@[simp] theorem content_fault (e : RenderError) (items : List Item) :
    content (.fault e :: items) = .fault e :: content items :=
  rfl

@[simp] theorem content_append (items more : List Item) :
    content (items ++ more) = content items ++ content more :=
  List.filter_append ..

theorem content_flatMap {α : Type} (f : α → List Item) (xs : List α) :
    content (xs.flatMap f) = xs.flatMap fun x => content (f x) :=
  List.filter_flatMap

/-- Whatever the pieces of a text are, its content is that of what stands between them. -/
theorem content_weave (pieces : List String) (fillings : List (List Item)) :
    content (weave pieces fillings) = fillings.flatMap content := by
  induction fillings generalizing pieces with
  | nil => rfl
  | cons items fillings ih => simp [weave, ih]

/-- What a template contains is what its arguments contain, unless they are not as many as its
markers. -/
theorem content_spliced (d : Dialect) (template : String) (fillings : List (List Item)) :
    content (spliced d template fillings) =
      if Template.markers d template = fillings.length then fillings.flatMap content
      else [.fault (.placeholderCount (Template.markers d template) fillings.length)] := by
  unfold spliced
  split
  · exact content_weave _ _
  · rfl

/-- A list contains what its elements contain, or the fault of being empty. -/
theorem content_listed (items : List (List Item)) :
    content (listed items) =
      if items.isEmpty then [.fault .emptyList] else items.flatMap content := by
  cases items with
  | nil => rfl
  | cons first rest =>
    simp [listed, Text.intercalate_cons_eq_append_flatMap, content_flatMap]

/-- Parentheses are text, which is no content. -/
theorem content_enclosed (parens : Bool) (items : List Item) :
    content (enclosed parens items) = content items := by
  cases parens <;> simp [enclosed]

/-- All faults are content. -/
theorem faults_content (items : List Item) : faults (content items) = faults items := by
  induction items with
  | nil => rfl
  | cons item items ih => cases item <;> simp [ih]

/-- What is bound before the first fault is content. -/
theorem bound_content (t : Target) (items : List Item) :
    bound t (beforeFault (content items)) = bound t (beforeFault items) := by
  induction items with
  | nil => rfl
  | cons item items ih => cases item <;> simp [bound_leaf, ih]

end Item

/-- What is bound, and how it ends, is decided by the content. -/
theorem Query.follow_content (t : Target) (q : Query) (items : List Item) :
    (q.follow t items).query.binds =
        q.binds ++ Item.bound t (Item.beforeFault (Item.content items)) ∧
      (q.follow t items).failure = (Item.faults (Item.content items)).head? := by
  rw [follow_eq, Item.bound_content, Item.faults_content]
  exact ⟨rfl, rfl⟩

/-! ## Texts without a backslash -/

/-- Dialects differ as readers only in what a backslash hides. -/
theorem Quoting.next_eq {c : Char} (hc : c ≠ '\\') (d d' : Dialect) (state : Quoting) :
    state.next d c = state.next d' c := by
  cases state <;> simp [Quoting.next, hc]

namespace Template

/-- Without a backslash a text is cut in the same way in every dialect. -/
theorem cut_eq_of_not_mem {cs : List Char} (h : '\\' ∉ cs) (d d' : Dialect) (state : Quoting) :
    cut d state cs = cut d' state cs := by
  induction cs generalizing state with
  | nil => rfl
  | cons c cs ih =>
    rw [List.mem_cons, not_or] at h
    simp only [cut, ih h.2, Quoting.next_eq (Ne.symm h.1) d d']

/-- So it has as many markers in every dialect. -/
theorem markers_eq_of_not_mem {text : String} (h : '\\' ∉ text.toList) (d d' : Dialect) :
    markers d text = markers d' text := by
  rw [markers, markers, pieces, pieces, cut_eq_of_not_mem h d d']

end Template

/-! ## Nodes of the library -/

/-- Layouts with the same arguments and the same failure. -/
structure Layout.SameSlots (l m : Layout) : Prop where
  args : l.args = m.args
  failure : l.failure = m.failure

namespace Layout.SameSlots

variable {l l' m m' : Layout}

theorem refl (l : Layout) : SameSlots l l :=
  ⟨rfl, rfl⟩

theorem symm (h : SameSlots l m) : SameSlots m l :=
  ⟨h.args.symm, h.failure.symm⟩

theorem trans {n : Layout} (hl : SameSlots l m) (hm : SameSlots m n) : SameSlots l n :=
  ⟨hl.args.trans hm.args, hl.failure.trans hm.failure⟩

/-- The same slots one after the other, and where the first layout fails, neither has those of the
second. -/
theorem append (hl : SameSlots l l') (hm : SameSlots m m') : SameSlots (l ++ m) (l' ++ m') := by
  cases h : l.failure with
  | some e =>
    rwa [append_of_failure m h, append_of_failure m' (hl.failure ▸ h)]
  | none =>
    rw [append_of_ok m h, append_of_ok m' (hl.failure ▸ h)]
    refine ⟨?_, hm.failure⟩
    have hargs : l.args ++ m.args = l'.args ++ m'.args := by rw [hl.args, hm.args]
    simpa [Layout.args] using hargs

/-! A clause of words alone has no slot, whether it is there or not. -/

theorem word (s : String) : SameSlots (.word s) .empty :=
  ⟨rfl, rfl⟩

/-- What has no slots may be left out. -/
theorem onlyIf (condition : Bool) (h : SameSlots l .empty) :
    SameSlots (.onlyIf condition l) .empty := by
  cases condition
  · exact refl _
  · exact h

theorem count (keyword : String) (count : Option UInt64) :
    SameSlots (countLayout keyword count) .empty := by
  cases count with
  | none => exact refl _
  | some n => exact word _

end Layout.SameSlots

/-- The dialect has no say in the slots of a query. -/
theorem Select.sameSlots_layout (s : Select) (d d' : Dialect) :
    (s.layout d).SameSlots (s.layout d') := by
  have hlock : ∀ d, (s.lockLayout d).SameSlots .empty := fun d => .onlyIf _ (.word _)
  exact .append (.refl _) ((hlock d).trans (hlock d').symm)

theorem Insert.sameSlots_layout (s : Insert) (d d' : Dialect) :
    (s.layout d).SameSlots (s.layout d') := by
  have hverb : (Layout.word (s.verb d)).SameSlots (.word (s.verb d')) :=
    (Layout.SameSlots.word _).trans (Layout.SameSlots.word _).symm
  have hconflict : ∀ d, (s.conflictLayout d).SameSlots .empty := fun d => .onlyIf _ (.word _)
  unfold layout
  refine .append (.append (.append (.append (.append (.append (.append (.append (.append
    (.refl _) hverb) ?_) ?_) ?_) ?_) ?_) ?_) ((hconflict d).trans (hconflict d').symm)) ?_
  all_goals exact .refl _

/-- A limit has no slots, in a dialect that writes it as in one that does not. -/
theorem sameSlots_mutationLimitLayout (limit : Option UInt64) (d d' : Dialect) :
    (mutationLimitLayout d limit).SameSlots (mutationLimitLayout d' limit) := by
  have hlimit : ∀ d, (mutationLimitLayout d limit).SameSlots .empty := fun d =>
    .onlyIf _ (.count _ _)
  exact (hlimit d).trans (hlimit d').symm

/-- A node of the library has the same arguments in every dialect, and fails alike. -/
theorem Builtin.sameSlots_layout (b : Builtin) (d d' : Dialect) :
    (b.layout d).SameSlots (b.layout d') := by
  match b with
  | .ident _ | .fragment _ | .condition _ => exact .refl _
  | .statement (.select (.text _)) | .statement (.insert (.text _)) => exact .refl _
  | .statement (.update (.text _)) | .statement (.delete (.text _)) => exact .refl _
  | .statement (.select (.clauses s)) => exact s.sameSlots_layout d d'
  | .statement (.insert (.clauses s)) => exact s.sameSlots_layout d d'
  | .statement (.update (.clauses s)) =>
    exact .append (.refl _) (sameSlots_mutationLimitLayout s.limit d d')
  | .statement (.delete (.clauses s)) =>
    exact .append (.refl _) (sameSlots_mutationLimitLayout s.limit d d')

/-! ## Trees -/

/-- No backslash in the texts of fragments and of callers' nodes, and callers' nodes that
render alike in every dialect. -/
def Arg.Portable (d : Dialect) : Arg → Prop :=
  Arg.Composed d (fun f => '\\' ∉ f.text.toList) fun n =>
    (∀ d', n.render d' = n.render d) ∧ '\\' ∉ (n.render d).text.toList

section Trees

variable {d d' : Dialect}

/-- Arguments that contain the same alone contain the same together. -/
theorem Item.content_fillings {args : List Arg}
    (h : ∀ a ∈ args, ∀ top, Item.content (a.frontier d top) = Item.content (a.frontier d' top)) :
    (args.map (Arg.frontier d false)).flatMap Item.content =
      (args.map (Arg.frontier d' false)).flatMap Item.content := by
  rw [List.flatMap_map, List.flatMap_map]
  exact List.flatMap_congr fun a ha => h a ha false

/-- Renderings of the same arguments that have as many markers and fail alike have one
content. -/
theorem Item.content_renderingFrontier (r r' : Rendering Arg) (hargs : r.args = r'.args)
    (hfailure : r.failure = r'.failure)
    (hmarkers : Template.markers d r.text = Template.markers d' r'.text)
    (h : ∀ a ∈ r.args, ∀ top, Item.content (a.frontier d top) = Item.content (a.frontier d' top))
    (parens : Bool) :
    Item.content (Arg.renderingFrontier d parens r) =
      Item.content (Arg.renderingFrontier d' parens r') := by
  obtain ⟨text, args, failure⟩ := r
  obtain ⟨text', args', failure'⟩ := r'
  obtain rfl : args = args' := hargs
  obtain rfl : failure = failure' := hfailure
  cases failure with
  | some e => rfl
  | none =>
    dsimp only at hmarkers
    simp only [Arg.renderingFrontier, Arg.frontiers_eq_map, Item.content_enclosed,
      Item.content_spliced, Item.content_fillings h, List.length_map, hmarkers]

/-- A tree has one content in all dialects. -/
theorem Arg.Portable.content_frontier {a : Arg} (h : a.Portable d) (d' : Dialect) :
    ∀ top, Item.content (a.frontier d top) = Item.content (a.frontier d' top) := by
  induction h with
  | value v =>
    intro top
    rfl
  | late outcome =>
    intro top
    cases outcome <;> rfl
  | list items _ ih =>
    intro top
    simp only [Arg.frontier, Arg.frontiers_eq_map, Item.content_listed, Item.content_fillings ih,
      List.isEmpty_map]
  | fragment f hf _ ih =>
    intro top
    simp only [Fragment.arg, Arg.frontier, Arg.frontiers_eq_map, Item.content_spliced,
      Item.content_fillings ih, List.length_map, Template.markers_eq_of_not_mem hf d d']
  | builtin b _ ih =>
    intro top
    have hslots := b.sameSlots_layout d d'
    -- The texts differ, but in each dialect the text fits the arguments.
    have hmarkers : Template.markers d ((b.layout d).text d) =
        Template.markers d' ((b.layout d').text d') := by
      rw [(b.sound_layout d).markers_text, (b.sound_layout d').markers_text, hslots.args]
    simp only [Node.arg, Arg.frontier, b.render_eq]
    exact Item.content_renderingFrontier ((b.layout d).rendering d) ((b.layout d').rendering d')
      hslots.args hslots.failure hmarkers ih _
  | custom n hn _ ih =>
    intro top
    simp only [Node.arg, Arg.frontier, hn.1 d']
    exact Item.content_renderingFrontier _ _ rfl rfl (Template.markers_eq_of_not_mem hn.2 d d') ih _

end Trees

/-- A portable tree binds the same values in any two dialects, or fails in both with the
same failure. -/
theorem Node.toQuery_dialect {d : Dialect} {n : Node} (h : n.arg.Portable d) (d' : Dialect) :
    (∃ q q', n.toQuery d = .ok q ∧ n.toQuery d' = .ok q' ∧ q.binds = q'.binds) ∨
      ∃ e, n.toQuery d = .error e ∧ n.toQuery d' = .error e := by
  have hcontent : Item.content (n.frontier d) = Item.content (n.frontier d') := by
    simpa [Node.arg, Arg.frontier, Node.frontier] using h.content_frontier d' true
  obtain ⟨hbinds, hfailure⟩ := Query.follow_content ⟨d, true⟩ {} (n.frontier d)
  obtain ⟨hbinds', hfailure'⟩ := Query.follow_content ⟨d', true⟩ {} (n.frontier d')
  have hbound : Item.bound ⟨d, true⟩ = Item.bound ⟨d', true⟩ := rfl
  rw [hcontent, hbound] at hbinds
  rw [hcontent] at hfailure
  simp only [toQuery, Query.interpolateNode_eq_follow, Progress.result, hfailure, hfailure']
  cases (Item.faults (Item.content (n.frontier d'))).head? with
  | none => exact .inl ⟨_, _, rfl, rfl, hbinds.trans hbinds'.symm⟩
  | some e => exact .inr ⟨e, rfl, rfl⟩

/-- An insertion with quotes, markers and backslashes in its names and its value, and with
clauses that only one of the two dialects writes. -/
theorem Node.toQuery_dialect_insert :
    let s := (Insert.into "a`\\").applyAll [.columns ["b\"?"], .ignoreDuplicates,
      .row [.fragment "'?' || ?" [.value (.text "\\'?")]]]
    (Statement.insert (.clauses s)).node.arg.Portable .clickhouse ∧
      ∃ q q', (Statement.insert (.clauses s)).node.toQuery .clickhouse = .ok q ∧
        (Statement.insert (.clauses s)).node.toQuery .postgres = .ok q' ∧ q.binds = q'.binds := by
  intro s
  have hportable : (Statement.insert (.clauses s)).node.arg.Portable .clickhouse := by
    refine .builtin (.statement (.insert (.clauses s))) fun a ha => ?_
    obtain rfl := List.mem_singleton.mp ha
    refine .fragment ⟨_, _⟩ (by decide) fun b hb => ?_
    obtain rfl := List.mem_singleton.mp hb
    exact .value _
  have hok : ((Statement.insert (.clauses s)).node.toQuery .clickhouse).isOk = true := by
    decide +kernel
  rcases Node.toQuery_dialect hportable .postgres with h | ⟨e, he, -⟩
  · exact ⟨hportable, h⟩
  · rw [he] at hok
    cases hok

end SqlWeave
