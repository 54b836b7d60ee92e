import SqlWeave.Proofs.Frontier

/-!
# Ill-formed arguments

Interpolation meets the arguments of a tree in depth-first order from left to right
(`Arg.met`). Each of them can be ill formed for a reason of its own, whatever is in it : a
node that cannot be rendered, a text with the wrong number of arguments, an empty list, a
late value that could not be computed (`Arg.defect?`).

The first fault of a tree's frontier is that of the first ill-formed argument that is met
(`Arg.head?_faults_frontier`).
-/

namespace SqlWeave

namespace Arg

mutual

/-- An argument and all that is in it, in the order in which they are met. -/
def met (d : Dialect) : Arg → List Arg
  | .value v => [.value v]
  | .late outcome => [.late outcome]
  | .list items => .list items :: metIn d items
  | .fragment text args => .fragment text args :: metIn d args
  | .node parens render => .node parens render :: metInRendering d (render d)
termination_by structural a => a

/-- Several arguments and all that is in them. -/
def metIn (d : Dialect) : List Arg → List Arg
  | [] => []
  | a :: as => met d a ++ metIn d as
termination_by structural as => as

/-- What is met in a rendering. -/
def metInRendering (d : Dialect) : Rendering Arg → List Arg
  | ⟨_, args, _⟩ => metIn d args
termination_by structural r => r

end

@[simp] theorem metIn_eq_flatMap (d : Dialect) (args : List Arg) :
    metIn d args = args.flatMap (met d) := by
  induction args with
  | nil => rfl
  | cons a as ih => simp [metIn, ih]

@[simp] theorem metInRendering_eq_flatMap (d : Dialect) (r : Rendering Arg) :
    metInRendering d r = r.args.flatMap (met d) := by
  obtain ⟨text, args, failure⟩ := r
  exact metIn_eq_flatMap d args

/-- What is wrong with a text that has to take `count` arguments. -/
def countDefect? (d : Dialect) (text : String) (count : Nat) : Option RenderError :=
  if Template.markers d text = count then none
  else some (.placeholderCount (Template.markers d text) count)

/-- What is wrong with an argument itself, whatever is in it. A node is rendered before the
markers of its text are counted. -/
def defect? (d : Dialect) : Arg → Option RenderError
  | .value _ => none
  | .late (.ok _) => none
  | .late (.error cause) => some (.lateValue cause)
  | .list [] => some .emptyList
  | .list (_ :: _) => none
  | .fragment text args => countDefect? d text args.length
  | .node _ render =>
    (render d).failure.or (countDefect? d (render d).text (render d).args.length)

/-- Nothing is wrong with an argument or with anything in it. -/
def WellFormed (d : Dialect) (a : Arg) : Prop := ∀ b ∈ a.met d, b.defect? d = none

end Arg

namespace Item

theorem faults_flatMap {α : Type} (l : List α) (f : α → List Item) :
    faults (l.flatMap f) = l.flatMap fun a => faults (f a) :=
  List.filterMap_flatMap

theorem faults_weave (pieces : List String) (fillings : List (List Item)) :
    faults (weave pieces fillings) = fillings.flatMap faults := by
  induction fillings generalizing pieces with
  | nil => rfl
  | cons f fs ih => simp [weave, ih]

/-- The first fault of a template is the wrong count of its markers, and else that of the first
argument that has one. -/
theorem head?_faults_spliced (d : Dialect) (template : String) (fillings : List (List Item)) :
    (faults (spliced d template fillings)).head? =
      (Arg.countDefect? d template fillings.length).or
        (fillings.findSome? fun f => (faults f).head?) := by
  unfold spliced Arg.countDefect?
  split
  · rw [faults_weave, List.head?_flatMap]
    rfl
  · rfl

/-- The first fault of a list is that of the first element that has one. -/
theorem head?_faults_listed (first : List Item) (rest : List (List Item)) :
    (faults (listed (first :: rest))).head? =
      (first :: rest).findSome? fun f => (faults f).head? := by
  rw [← List.head?_flatMap]
  simp [listed, Text.intercalate_cons_eq_append_flatMap, faults_flatMap]

@[simp] theorem faults_enclosed (parens : Bool) (items : List Item) :
    faults (enclosed parens items) = faults items := by
  cases parens <;> simp [enclosed]

end Item

namespace Arg

variable {d : Dialect}

/-- The first defect of arguments met one by one is that of the first argument that has one. -/
theorem findSome?_flatMap_met (args : List Arg) :
    (args.flatMap (met d)).findSome? (defect? d) =
      args.findSome? fun a => (a.met d).findSome? (defect? d) := by
  simp only [← List.head?_filterMap, List.filterMap_flatMap, List.head?_flatMap]

/-- What fails first in the frontiers of several arguments, given what fails in each. -/
theorem findSome?_frontiers {top : Bool} {args : List Arg}
    (h : ∀ a ∈ args, (Item.faults (a.frontier d top)).head? = (a.met d).findSome? (defect? d)) :
    (args.map (frontier d top)).findSome? (fun f => (Item.faults f).head?) =
      (args.flatMap (met d)).findSome? (defect? d) := by
  rw [findSome?_flatMap_met, List.findSome?_map]
  induction args with
  | nil => rfl
  | cons a as ih =>
    rw [List.findSome?_cons, List.findSome?_cons, Function.comp, h a List.mem_cons_self,
      ih fun b hb => h b (List.mem_cons_of_mem _ hb)]

/-- What fails first in a text with arguments : the count, or else the first argument that
fails. -/
theorem head?_faults_text {top : Bool} (text : String) {args : List Arg}
    (h : ∀ a ∈ args, (Item.faults (a.frontier d top)).head? = (a.met d).findSome? (defect? d)) :
    (Item.faults (Item.spliced d text (args.map (frontier d top)))).head? =
      (countDefect? d text args.length).or ((args.flatMap (met d)).findSome? (defect? d)) := by
  rw [Item.head?_faults_spliced, findSome?_frontiers h, List.length_map]

/-- The first defect of a fragment, and where it is looked for. -/
theorem findSome?_met_fragment (text : String) (args : List Arg) :
    ((Arg.fragment text args).met d).findSome? (defect? d) =
      (countDefect? d text args.length).or ((args.flatMap (met d)).findSome? (defect? d)) := by
  rw [met, metIn_eq_flatMap, List.findSome?_cons, defect?]
  cases countDefect? d text args.length <;> rfl

/-- The first defect of a node : its own failure, then the count, then its arguments. -/
theorem findSome?_met_node (parens : Bool) (render : Dialect → Rendering Arg) :
    ((Arg.node parens render).met d).findSome? (defect? d) =
      (render d).failure.or ((countDefect? d (render d).text (render d).args.length).or
        (((render d).args.flatMap (met d)).findSome? (defect? d))) := by
  rw [met, metInRendering_eq_flatMap, List.findSome?_cons, defect?, ← Option.or_assoc]
  cases (render d).failure.or (countDefect? d (render d).text (render d).args.length) <;> rfl

/-- What fails in a tree of arguments is the first of them that is ill formed. -/
theorem head?_faults_frontier (top : Bool) (a : Arg) :
    (Item.faults (a.frontier d top)).head? = (a.met d).findSome? (defect? d) := by
  induction a using Arg.tree_induction generalizing top with
  | value v => rfl
  | late outcome => cases outcome <;> rfl
  | list items ih =>
    cases items with
    | nil => rfl
    | cons a as =>
      have hargs := findSome?_frontiers fun b hb => ih b hb false
      rw [List.map_cons] at hargs
      rw [frontier, frontiers_eq_map, List.map_cons, Item.head?_faults_listed, hargs, met,
        metIn_eq_flatMap, List.findSome?_cons, defect?]
  | fragment text args ih =>
    rw [frontier, frontiers_eq_map, head?_faults_text text fun b hb => ih b hb false,
      findSome?_met_fragment]
  | node parens render ih =>
    have hargs := head?_faults_text (d := d) (render d).text fun b hb => ih d b hb false
    rw [findSome?_met_node, ← hargs, frontier]
    generalize render d = r
    obtain ⟨text, args, failure⟩ := r
    cases failure with
    | some e => rfl
    | none => rw [renderingFrontier, Item.faults_enclosed, frontiers_eq_map, Option.none_or]

/-- Well formed is what has no fault. -/
theorem wellFormed_iff (top : Bool) (a : Arg) :
    a.WellFormed d ↔ Item.faults (a.frontier d top) = [] := by
  rw [← List.head?_eq_none_iff, head?_faults_frontier, List.findSome?_eq_none_iff, WellFormed]

end Arg

end SqlWeave
