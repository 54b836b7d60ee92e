import SqlWeave.Proofs.Continuation
import SqlWeave.Proofs.LayoutParts

/-!
# Layouts as items

A layout can be read as items at once, without a text that is cut again at its markers : a
word and a name are text, and in place of a slot stands the frontier of its argument
(`Layout.items`). The query that a node with a sound layout makes is the empty query continued
by these items (`Layout.Sound.toQuery_eq`), so parts of the layout that come one after the other
come one after the other in the query, in its text as well as in its values.
-/

namespace SqlWeave

/-- The items of a part of a layout. -/
def Segment.items (d : Dialect) : Segment → List Item
  | .word s => [.text s]
  | .name ident => [.text (d.quoteIdent ident)]
  | .slot arg => arg.frontier d false

/-- The values that an argument binds in the place of a marker, where byte strings are bound. -/
def Arg.boundIn (d : Dialect) (arg : Arg) : List Value :=
  Item.bound ⟨d, true⟩ (arg.frontier d false)

namespace Query

theorem write_nothing (q : Query) : q.write "" = q := by
  simp [write]

/-- Text at the beginning of the first piece can be written before. -/
theorem follow_weave_append (t : Target) (q : Query) (s piece : String)
    (pieces : List String) (fillings : List (List Item)) :
    q.follow t (Item.weave ((s ++ piece) :: pieces) fillings) =
      (q.write s).follow t (Item.weave (piece :: pieces) fillings) := by
  cases fillings <;> simp [Item.weave, follow, write, String.append_assoc]

end Query

namespace Layout

variable {d : Dialect} {l m : Layout} {ls : List Layout}

/-- The items of a layout. -/
def items (d : Dialect) (l : Layout) : List Item := l.segments.flatMap (Segment.items d)

/-- The items of a layout that does not fail come before those of the next. -/
theorem items_append (h : l.failure = none) (m : Layout) :
    (l ++ m).items d = l.items d ++ m.items d := by
  simp [items, segments_append h]

/-- So they do in a layout of any number of parts. -/
theorem items_concat (h : ∀ l ∈ ls, l.failure = none) :
    (concat ls).items d = ls.flatMap (items d) := by
  induction ls with
  | nil => rfl
  | cons l ls ih =>
    rw [List.forall_mem_cons] at h
    rw [concat_cons, items_append h.1, ih h.2, List.flatMap_cons]

/-- Only slots bind values. -/
theorem bound_items (d : Dialect) (l : Layout) :
    Item.bound ⟨d, true⟩ (l.items d) = l.args.flatMap (Arg.boundIn d) := by
  obtain ⟨segments, failure⟩ := l
  induction segments with
  | nil => rfl
  | cons s segments ih =>
    simp only [items, args, Item.bound] at ih ⊢
    cases s <;>
      simp [Segment.items, Segment.arg?, List.filterMap_cons, Arg.boundIn, Item.bound,
        Item.bound?, ih]

/-- The text between slots woven with the frontiers of their arguments is followed like the
items. -/
theorem follow_weave_between (t : Target) (segments : List Segment) (q : Query) :
    q.follow t (Item.weave ((between d segments).map .ofList)
      ((argsOf segments).map (Arg.frontier d false))) =
        q.follow t (segments.flatMap (Segment.items d)) := by
  induction segments generalizing q with
  | nil => simp [between, argsOf, Item.weave, Query.follow, Query.write_nothing]
  | cons s segments ih =>
    -- words and names alike : their text comes before the first of the other pieces
    have hword {text : String} (hitems : s.items d = [.text text]) (hargs : s.arg? = none)
        (hbetween : between d (s :: segments) =
          text.toList.foldr Text.extendFirst (between d segments)) :
        q.follow t (Item.weave ((between d (s :: segments)).map .ofList)
          ((argsOf (s :: segments)).map (Arg.frontier d false))) =
            q.follow t ((s :: segments).flatMap (Segment.items d)) := by
      obtain ⟨piece, pieces, hpieces⟩ :=
        List.exists_cons_of_ne_nil (between_ne_nil d segments)
      have ih := ih (q.write text)
      rw [hpieces, List.map_cons] at ih
      rw [hbetween, hpieces, Text.foldr_extendFirst_cons, List.map_cons, String.ofList_append,
        String.ofList_toList, argsOf, List.filterMap_cons_none hargs,
        Query.follow_weave_append, ← argsOf, ih, List.flatMap_cons, hitems]
      rfl
    cases s with
    | word text => exact hword rfl rfl rfl
    | name ident => exact hword rfl rfl rfl
    | slot arg =>
      have hargs : argsOf (.slot arg :: segments) = arg :: argsOf segments := rfl
      rw [between, hargs, List.map_cons, List.map_cons, Item.weave, List.headD_cons,
        List.tail_cons, Query.follow, String.ofList_nil, Query.write_nothing,
        Query.follow_append, List.flatMap_cons, Query.follow_append]
      simp only [ih]
      rfl

variable {n : Node}

/-- A node with a sound layout that does not fail makes the query that its items make. -/
theorem Sound.toQuery_eq_follow (hl : l.Sound d) (hfailure : l.failure = none)
    (hn : n.render d = l.rendering d) :
    n.toQuery d = (({} : Query).follow ⟨d, true⟩ (l.items d)).result := by
  have hpieces : Template.pieces d (l.text d) = (between d l.segments).map .ofList :=
    congrArg _ (cut_textOf hl.segments)
  have hfrontier : n.frontier d = Item.weave ((between d l.segments).map .ofList)
      ((argsOf l.segments).map (Arg.frontier d false)) := by
    rw [Node.frontier, hn, rendering, hfailure, Arg.renderingFrontier]
    simp [Item.enclosed, Item.spliced, hl.markers_text, hpieces, args, argsOf]
  rw [Node.toQuery, Query.interpolateNode_eq_follow, hfrontier, follow_weave_between]
  rfl

/-- A query made of a node with a sound layout is the empty one continued by the layout's
items. -/
theorem Sound.toQuery_eq (hl : l.Sound d) (hn : n.render d = l.rendering d) {q : Query}
    (hq : n.toQuery d = .ok q) :
    l.failure = none ∧ q = ({} : Query).continued ⟨d, true⟩ (l.items d) := by
  have hfailure : l.failure = none := by
    cases hfailure : l.failure with
    | none => rfl
    | some e =>
      rw [Node.toQuery, Query.interpolateNode, hn, rendering, hfailure] at hq
      cases hq
  rw [hl.toQuery_eq_follow hfailure hn, Query.follow_result_eq_ok_iff] at hq
  exact ⟨hfailure, hq.eq_continued⟩

end Layout

end SqlWeave
