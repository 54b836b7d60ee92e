import SqlWeave.Layout
import SqlWeave.Proofs.Quoting

/-!
# Slots and markers

A layout writes a marker only in a slot, together with the slot's argument. The text that
it renders to is cut again by a reader who sees no slots, so the two agree only if nothing
else in the text reads as a marker and nothing opens a quote that it leaves open. That is
so once every word of the layout is quiet (`Layout.Sound`) : names are quiet whatever they
are.

`Layout.Sound` is kept by every way of putting layouts together. The text of a sound layout
has as many markers as the layout has arguments (`Layout.Sound.markers_text`), and each
slot is the marker of its own number (`Layout.Sound.markerAt`).
-/

namespace SqlWeave

open Template (Balanced MarkerAt Quiet)

/-- A part that writes no marker besides its own. -/
def Segment.Sound (d : Dialect) : Segment → Prop
  | .word s => Quiet d s.toList
  | .name _ | .slot _ => True

namespace Layout

variable {d : Dialect}

/-- A layout whose words are quiet, and which does not fail for a count of markers. -/
structure Sound (d : Dialect) (l : Layout) : Prop where
  segments : ∀ s ∈ l.segments, s.Sound d
  failure : ∀ expected actual, l.failure ≠ some (.placeholderCount expected actual)

/-! ## The text of parts -/

/-- The text of parts of a layout. -/
def textOf (d : Dialect) (segments : List Segment) : String :=
  .join (segments.map (·.text d))

/-- The arguments of parts of a layout. -/
def argsOf (segments : List Segment) : List Arg := segments.filterMap Segment.arg?

theorem balanced_segment {s : Segment} (h : s.Sound d) : Balanced d (s.text d) := by
  cases s with
  | word text => exact Template.balanced_of_quiet h
  | name ident => exact Template.balanced_of_quiet (Template.quiet_quoteIdent d ident)
  | slot arg => exact Template.balanced_marker d

theorem markers_segment {s : Segment} (h : s.Sound d) :
    Template.markers d (s.text d) = s.arg?.toList.length := by
  cases s with
  | word text => exact Template.markers_of_quiet h
  | name ident => exact Template.markers_of_quiet (Template.quiet_quoteIdent d ident)
  | slot arg => exact Template.markers_marker d

/-- Parts of a sound layout are balanced together, and a marker in them is a slot. -/
theorem textOf_sound {segments : List Segment} (h : ∀ s ∈ segments, s.Sound d) :
    Balanced d (textOf d segments) ∧
      Template.markers d (textOf d segments) = (argsOf segments).length := by
  induction segments with
  | nil => exact ⟨rfl, rfl⟩
  | cons s segments ih =>
    have hs := h s List.mem_cons_self
    obtain ⟨hbalanced, hmarkers⟩ := ih fun s' hs' => h s' (List.mem_cons_of_mem _ hs')
    have htext : textOf d (s :: segments) = s.text d ++ textOf d segments := by
      simp [textOf]
    have hargs : argsOf (s :: segments) = s.arg?.toList ++ argsOf segments := by
      cases s <;> simp [argsOf, Segment.arg?, List.filterMap_cons]
    rw [htext, hargs, Template.markers_append (balanced_segment hs), markers_segment hs, hmarkers]
    exact ⟨(balanced_segment hs).append hbalanced, by simp⟩

/-- The pieces between the slots of parts. -/
def between (d : Dialect) : List Segment → List (List Char)
  | [] => [[]]
  | .word s :: rest => s.toList.foldr Text.extendFirst (between d rest)
  | .name ident :: rest => (d.quoteIdent ident).toList.foldr Text.extendFirst (between d rest)
  | .slot _ :: rest => [] :: between d rest

theorem between_ne_nil (d : Dialect) (segments : List Segment) : between d segments ≠ [] := by
  induction segments with
  | nil => simp [between]
  | cons s segments ih =>
    obtain ⟨first, others, hfirst⟩ := List.exists_cons_of_ne_nil ih
    cases s <;> simp [between, hfirst, Text.foldr_extendFirst_cons]

/-- The text of parts of a sound layout is cut at the slots. -/
theorem cut_textOf {segments : List Segment} (h : ∀ s ∈ segments, s.Sound d) :
    Template.cut d .outside (textOf d segments).toList = between d segments := by
  induction segments with
  | nil => rfl
  | cons s segments ih =>
    rw [List.forall_mem_cons] at h
    have htext : (textOf d (s :: segments)).toList =
        (s.text d).toList ++ (textOf d segments).toList := by
      simp [textOf]
    have hquiet {cs : List Char} (hcs : Quiet d cs) :
        Template.cut d .outside (cs ++ (textOf d segments).toList) =
          cs.foldr Text.extendFirst (between d segments) := by
      rw [Template.cut_append, hcs.cut_eq, hcs.after_eq, ih h.2]
      rfl
    rw [htext]
    cases s with
    | word text => exact hquiet h.1
    | name ident => exact hquiet (Template.quiet_quoteIdent d ident)
    | slot arg =>
      rw [between, ← ih h.2]
      simp [Segment.text, Template.cut, Template.isMarker]

namespace Sound

variable {l : Layout}

theorem balanced_text (h : Sound d l) : Balanced d (l.text d) :=
  (textOf_sound h.segments).1

theorem markers_text (h : Sound d l) : Template.markers d (l.text d) = l.args.length :=
  (textOf_sound h.segments).2

/-- The slot of an argument is the marker with the argument's number. -/
theorem markerAt (h : Sound d l) {n : Nat} {arg : Arg} (harg : l.args[n]? = some arg) :
    ∃ before after, l.segments = before ++ .slot arg :: after ∧ (argsOf before).length = n ∧
      MarkerAt d (l.text d) n (textOf d before) := by
  obtain ⟨before, s, after, hl, hs, hn⟩ := Text.exists_split_of_getElem?_filterMap harg
  obtain rfl : s = .slot arg := by
    cases s with
    | slot a => exact congrArg _ (Option.some.inj hs)
    | word _ => cases hs
    | name _ => cases hs
  have hbefore : ∀ s ∈ before, s.Sound d := fun s hs => h.segments s (by simp [hl, hs])
  have htext : l.text d = textOf d before ++ "?" ++ textOf d after := by
    simp [Layout.text, textOf, hl, Segment.text, String.append_assoc]
  obtain ⟨hbalanced, hmarkers⟩ := textOf_sound hbefore
  refine ⟨before, after, hl, hn, ?_⟩
  have hat := Template.markerAt_of_balanced hbalanced (textOf d after)
  rw [hmarkers] at hat
  rwa [htext, ← hn]

end Sound

end Layout

end SqlWeave
