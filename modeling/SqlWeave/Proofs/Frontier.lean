import SqlWeave.Interpolation
import SqlWeave.Proofs.Quoting

/-!
# The frontier of an argument tree

Arguments nest : a list holds arguments, a fragment holds one for each of its markers, and
a node renders to a text whose markers stand for further ones. The frontier of such a tree
is the list of what it is written as, from left to right : pieces of text, scalar leaves,
and faults where the tree is not well formed. It is found by recursion over the tree and
knows no query and no number.

Interpolation is the frontier written after a query up to the first fault
(`Query.addArg_eq_follow`, `Query.interpolate_eq_follow`).
-/

namespace SqlWeave

/-! ## Induction on arguments -/

/-- What holds of scalars, and of a list, a fragment or a node as soon as it holds of the
arguments in it, holds of every argument. -/
@[elab_as_elim] theorem Arg.tree_induction {P : Arg → Prop} (value : ∀ v, P (.value v))
    (late : ∀ outcome, P (.late outcome))
    (list : ∀ items, (∀ a ∈ items, P a) → P (.list items))
    (fragment : ∀ text args, (∀ a ∈ args, P a) → P (.fragment text args))
    (node : ∀ parens render, (∀ d, ∀ a ∈ (render d).args, P a) → P (.node parens render)) :
    ∀ a, P a := by
  intro a
  refine @Arg.rec P (fun as => ∀ a ∈ as, P a) (fun r => ∀ a ∈ r.args, P a) value late list
    fragment node ?_ ?_ ?_ a
  · simp
  · intro head tail hhead htail a ha
    rcases List.mem_cons.mp ha with rfl | ha
    · exact hhead
    · exact htail a ha
  · intro text args failure hargs
    exact hargs

/-! ## Items -/

/-- A part of what a tree of arguments is written as. -/
inductive Item where
  | text (s : String)
  /-- A scalar in the place of a marker. -/
  | leaf (v : Value)
  /-- Where the tree is not well formed. -/
  | fault (e : RenderError)
  deriving DecidableEq, Repr

namespace Item

/-- The scalar of an item. -/
def leaf? : Item → Option Value
  | .leaf v => some v
  | .text _ | .fault _ => none

/-- The fault of an item. -/
def fault? : Item → Option RenderError
  | .fault e => some e
  | .text _ | .leaf _ => none

/-- The scalars of items, from left to right. -/
def leaves (items : List Item) : List Value := items.filterMap leaf?

/-- The faults of items, from left to right. -/
def faults (items : List Item) : List RenderError := items.filterMap fault?

/-- The items before the first fault. -/
def beforeFault (items : List Item) : List Item := items.takeWhile fun i => i.fault?.isNone

@[simp] theorem faults_nil : faults [] = [] :=
  rfl

@[simp] theorem faults_text (s : String) (rest : List Item) :
    faults (.text s :: rest) = faults rest :=
  rfl

@[simp] theorem faults_leaf (v : Value) (rest : List Item) :
    faults (.leaf v :: rest) = faults rest :=
  rfl

/-- The first fault stops whoever writes the items, and all of them are counted. -/
@[simp] theorem faults_fault (e : RenderError) (rest : List Item) :
    faults (.fault e :: rest) = e :: faults rest :=
  rfl

@[simp] theorem faults_append (items more : List Item) :
    faults (items ++ more) = faults items ++ faults more :=
  List.filterMap_append

@[simp] theorem beforeFault_nil : beforeFault [] = [] :=
  rfl

@[simp] theorem beforeFault_text (s : String) (rest : List Item) :
    beforeFault (.text s :: rest) = .text s :: beforeFault rest :=
  rfl

@[simp] theorem beforeFault_leaf (v : Value) (rest : List Item) :
    beforeFault (.leaf v :: rest) = .leaf v :: beforeFault rest :=
  rfl

@[simp] theorem beforeFault_fault (e : RenderError) (rest : List Item) :
    beforeFault (.fault e :: rest) = [] :=
  rfl

/-- Pieces of text with items in the place of the marker between each two of them. -/
def weave (pieces : List String) : List (List Item) → List Item
  | [] => [.text (pieces.headD "")]
  | items :: rest => .text (pieces.headD "") :: (items ++ weave pieces.tail rest)

/-- A template with items in the place of its markers, or the fault that they are not as
many. -/
def spliced (d : Dialect) (template : String) (fillings : List (List Item)) : List Item :=
  if Template.markers d template = fillings.length then
    weave (Template.pieces d template) fillings
  else [.fault (.placeholderCount (Template.markers d template) fillings.length)]

/-- Items between parentheses with commas between them. An empty list is a fault. -/
def listed : List (List Item) → List Item
  | [] => [.fault .emptyList]
  | items => .text "(" :: ([.text ", "].intercalate items ++ [.text ")"])

/-- A list that is not empty has no fault of its own. -/
theorem listed_of_ne_nil {items : List (List Item)} (h : items ≠ []) :
    listed items = .text "(" :: ([.text ", "].intercalate items ++ [.text ")"]) := by
  cases items with
  | nil => exact absurd rfl h
  | cons => rfl

/-- Items between parentheses if asked for. -/
def enclosed (parens : Bool) (items : List Item) : List Item :=
  if parens then .text "(" :: (items ++ [.text ")"]) else items

end Item

/-! ## The frontier -/

namespace Arg

mutual

/-- What an argument is written as. `top` says that it is the whole statement. -/
def frontier (d : Dialect) (top : Bool) : Arg → List Item
  | .value v => [.leaf v]
  | .late (.ok v) => [.leaf v]
  | .late (.error cause) => [.fault (.lateValue cause)]
  | .list items => Item.listed (frontiers d items)
  | .fragment text args => Item.spliced d text (frontiers d args)
  | .node parens render => renderingFrontier d (parens && !top) (render d)
termination_by structural a => a

/-- What each of several arguments is written as. -/
def frontiers (d : Dialect) : List Arg → List (List Item)
  | [] => []
  | a :: as => frontier d false a :: frontiers d as
termination_by structural as => as

/-- What a rendering is written as, in parentheses if asked for. -/
def renderingFrontier (d : Dialect) (parens : Bool) : Rendering Arg → List Item
  | ⟨text, args, failure⟩ =>
    match failure with
    | some e => [.fault e]
    | none => Item.enclosed parens (Item.spliced d text (frontiers d args))
termination_by structural r => r

end

/-- Arguments of a fragment are written one by one, none of them as the whole statement. -/
@[simp] theorem frontiers_eq_map (d : Dialect) (args : List Arg) :
    frontiers d args = args.map (frontier d false) := by
  induction args with
  | nil => rfl
  | cons a as ih => simp [frontiers, ih]

/-- What a template is written as. Its argument is the whole statement if the template is
nothing but its marker. -/
def templateFrontier (d : Dialect) (template : String) (args : List Arg) : List Item :=
  Item.spliced d template (args.map (frontier d (template == "?")))

end Arg

/-- What a node is written as when it is the whole statement. -/
def Node.frontier (d : Dialect) (n : Node) : List Item :=
  Arg.renderingFrontier d false (n.render d)

/-! ## Interpolation follows the frontier -/

namespace Progress

theorem write_nothing (p : Progress) : p.write "" = p := by
  obtain ⟨q, failure⟩ := p
  cases failure <;> simp [write, andThen, Query.write]

end Progress

namespace Query

/-- The query continued by items up to the first fault. -/
def follow (t : Target) (q : Query) : List Item → Progress
  | [] => ⟨q, none⟩
  | .text s :: rest => follow t (q.write s) rest
  | .leaf v :: rest => follow t (q.addValue t v) rest
  | .fault e :: _ => ⟨q, some e⟩

/-- Writing items one after the other stops at the first fault. -/
theorem follow_append (t : Target) (q : Query) (items more : List Item) :
    q.follow t (items ++ more) = (q.follow t items).andThen (·.follow t more) := by
  induction items generalizing q with
  | nil => rfl
  | cons item items ih =>
    cases item with
    | text s => exact ih _
    | leaf v => exact ih _
    | fault e => rfl

/-- A text that is written after items is one more item. -/
theorem follow_write (t : Target) (q : Query) (items : List Item) (s : String) :
    (q.follow t items).write s = q.follow t (items ++ [.text s]) := by
  rw [follow_append]
  rfl

section Recursion

/- Each list of arguments is written item by item, given that each argument is. -/
variable {t : Target} {top : Bool}

/-- Adding pieces of a template and its arguments is following the pieces with the items of the
arguments between them. -/
theorem addPieces_eq_follow (pieces : List String) {args : List Arg}
    (h : ∀ a ∈ args, ∀ q : Query, q.addArg t top a = q.follow t (a.frontier t.dialect top)) :
    ∀ q : Query, q.addPieces t top pieces args =
      q.follow t (Item.weave pieces (args.map (Arg.frontier t.dialect top))) := by
  induction args generalizing pieces with
  | nil =>
    intro q
    rfl
  | cons a as ih =>
    intro q
    have ih := ih pieces.tail fun b hb => h b (List.mem_cons_of_mem _ hb)
    simp only [addPieces, h a List.mem_cons_self, List.map_cons, Item.weave, follow,
      follow_append, ih]

/-- Where there are as many arguments as markers, a template is followed piece by piece, and else
fails before anything is written. -/
theorem cutInto_eq_follow (template : String) {args : List Arg}
    (h : ∀ a ∈ args, ∀ q : Query, q.addArg t top a = q.follow t (a.frontier t.dialect top))
    (q : Query) :
    (q.cutInto t template args.length fun pieces => addPieces t top q pieces args) =
      q.follow t (Item.spliced t.dialect template (args.map (Arg.frontier t.dialect top))) := by
  unfold cutInto Item.spliced
  rw [List.length_map]
  split
  · exact addPieces_eq_follow _ h q
  · rfl

/-- The items of a list after the first come after a comma each. -/
theorem addItems_eq_follow {items : List Arg}
    (h : ∀ a ∈ items, ∀ q : Query, q.addArg t false a = q.follow t (a.frontier t.dialect false)) :
    ∀ q : Query, q.addItems t items =
      q.follow t (items.flatMap fun a => .text ", " :: a.frontier t.dialect false) := by
  induction items with
  | nil =>
    intro q
    rfl
  | cons a as ih =>
    intro q
    have ih := ih fun b hb => h b (List.mem_cons_of_mem _ hb)
    simp only [addItems, h a List.mem_cons_self, List.flatMap_cons, List.cons_append, follow,
      follow_append, ih]

/-- A list is followed between parentheses, and an empty one fails. -/
theorem addList_eq_follow {items : List Arg}
    (h : ∀ a ∈ items, ∀ q : Query, q.addArg t false a = q.follow t (a.frontier t.dialect false))
    (q : Query) :
    q.addList t items = q.follow t (Item.listed (items.map (Arg.frontier t.dialect false))) := by
  cases items with
  | nil => rfl
  | cons a as =>
    have has := addItems_eq_follow fun b hb => h b (List.mem_cons_of_mem _ hb)
    have hlist : Item.listed ((a :: as).map (Arg.frontier t.dialect false)) =
        .text "(" :: ((a.frontier t.dialect false ++
          as.flatMap fun a => .text ", " :: a.frontier t.dialect false) ++ [.text ")"]) := by
      simp [Item.listed, Text.intercalate_cons_eq_append_flatMap, List.flatMap_map]
    simp only [addList, h a List.mem_cons_self, has, ← follow_append, follow_write, hlist, follow]

/-- What a node renders to is followed, in parentheses if it asks for them, or fails as it does. -/
theorem addRendering_eq_follow (parens : Bool) {r : Rendering Arg}
    (h : ∀ a ∈ r.args, ∀ q : Query, q.addArg t false a = q.follow t (a.frontier t.dialect false))
    (q : Query) :
    q.addRendering t parens r = q.follow t (Arg.renderingFrontier t.dialect parens r) := by
  obtain ⟨text, args, failure⟩ := r
  cases failure with
  | some e => rfl
  | none =>
    have hcut := cutInto_eq_follow text h
    cases parens with
    | false => simp [addRendering, hcut, Arg.renderingFrontier, Item.enclosed,
        Progress.write_nothing]
    | true => simp [addRendering, hcut, Arg.renderingFrontier, Item.enclosed, follow, follow_write]

end Recursion

/-! ### Whole statements -/

/-- An argument is added to a query by following its frontier. -/
theorem addArg_eq_follow (t : Target) (top : Bool) (q : Query) (a : Arg) :
    q.addArg t top a = q.follow t (a.frontier t.dialect top) := by
  induction a using Arg.tree_induction generalizing top q with
  | value v => rfl
  | late outcome => cases outcome <;> rfl
  | list items ih =>
    simpa [addArg, Arg.frontier] using addList_eq_follow (fun a ha q => ih a ha false q) q
  | fragment text args ih =>
    simpa [addArg, Arg.frontier] using cutInto_eq_follow text (fun a ha q => ih a ha false q) q
  | node parens render ih =>
    exact addRendering_eq_follow _ (fun a ha q => ih t.dialect a ha false q) q

/-- Interpolating a template is following its frontier. -/
theorem interpolate_eq_follow (t : Target) (q : Query) (template : String) (args : List Arg) :
    q.interpolate t template args =
      q.follow t (Arg.templateFrontier t.dialect template args) :=
  cutInto_eq_follow template (fun a _ q => addArg_eq_follow t _ q a) q

/-- Interpolating a node is following the frontier of the node. -/
theorem interpolateNode_eq_follow (t : Target) (q : Query) (n : Node) :
    q.interpolateNode t n = q.follow t (n.frontier t.dialect) :=
  addRendering_eq_follow false (fun a _ q => addArg_eq_follow t false q a) q

end Query

end SqlWeave
