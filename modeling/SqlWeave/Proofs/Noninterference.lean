import SqlWeave.Proofs.Calls

/-!
# Noninterference of values with texts

Two runs of the same calls that put different scalars in the same places send one text to
the database, as long as the missing value stands in the same places in both. Only the
bound values differ, and they are those that the two runs put in the same places. Where
one run fails, so does the other, with the same failure (`Calls.toQuery_run`).
-/

namespace SqlWeave

/-- A scalar argument whose value is left open, given at once or when it is rendered. -/
inductive OpenScalar (L : Type) where
  | value (l : L)
  | late (outcome : Except String L)

/-- The scalar with its value put in. -/
def OpenScalar.arg {L : Type} (σ : L → Value) : OpenScalar L → Arg
  | .value l => .value (σ l)
  | .late (.ok l) => .late (.ok (σ l))
  | .late (.error cause) => .late (.error cause)

/-- Two values in the same open place of two runs. -/
def SamePlace {L : Type} (σ τ : L → Value) (v w : Value) : Prop :=
  ∃ l, v = σ l ∧ w = τ l

section

variable {L : Type} {σ τ : L → Value}

theorem OpenScalar.alike_arg (l : OpenScalar L) :
    (l.arg σ).Alike (SamePlace σ τ) (l.arg τ) := by
  match l with
  | .value l => exact .value ⟨l, rfl, rfl⟩
  | .late (.ok l) => exact .late ⟨l, rfl, rfl⟩
  | .late (.error cause) => exact .failing cause

theorem OpenScalar.isNull_arg (h : ∀ l, (σ l).isNull = (τ l).isNull) (l : OpenScalar L) :
    (l.arg σ).isNull = (l.arg τ).isNull := by
  match l with
  | .value l => exact h l
  | .late (.ok _) | .late (.error _) => rfl

/-- Values in the same places one by one are those of one list of places. -/
theorem exists_places {vs ws : List Value} (h : List.Forall₂ (SamePlace σ τ) vs ws) :
    ∃ ls : List L, vs = ls.map σ ∧ ws = ls.map τ := by
  induction h with
  | nil => exact ⟨[], rfl, rfl⟩
  | cons hvw _ ih =>
    obtain ⟨l, rfl, rfl⟩ := hvw
    obtain ⟨ls, rfl, rfl⟩ := ih
    exact ⟨l :: ls, rfl, rfl⟩

end

/-- Two runs of the same calls, with values that are missing in the same places, give one
text with the values of the same places bound in the same order, or they fail alike. -/
theorem Calls.toQuery_run {L : Type} (σ τ : L → Value) (h : ∀ l, (σ l).isNull = (τ l).isNull)
    (c : Calls (OpenScalar L) .node) (d : Dialect) :
    (∃ (text : String) (ls : List L),
      (c.run (OpenScalar.arg σ)).node.toQuery d = .ok ⟨text, ls.map σ⟩ ∧
        (c.run (OpenScalar.arg τ)).node.toQuery d = .ok ⟨text, ls.map τ⟩) ∨
      ∃ e, (c.run (OpenScalar.arg σ)).node.toQuery d = .error e ∧
        (c.run (OpenScalar.arg τ)).node.toQuery d = .error e := by
  have hnull : ∀ v w, SamePlace σ τ v w → v.isNull = w.isNull := by
    rintro v w ⟨l, rfl, rfl⟩
    exact h l
  have halike := c.run_alike OpenScalar.alike_arg (OpenScalar.isNull_arg h)
  rcases Node.toQuery_alike hnull (halike.render d) with ⟨q, q', hq, hq', hqq'⟩ | herror
  · obtain ⟨ls, hbinds, hbinds'⟩ := exists_places hqq'.binds
    obtain ⟨text, binds⟩ := q
    obtain ⟨text', binds'⟩ := q'
    obtain rfl : text = text' := hqq'.text
    obtain rfl : binds = ls.map σ := hbinds
    obtain rfl : binds' = ls.map τ := hbinds'
    exact .inl ⟨text, ls, hq, hq'⟩
  · exact .inr herror

/-- A text with a quote and a marker in it in one run, and a number in its place in the
other; the second value is missing in both. -/
theorem Calls.toQuery_run_text_number :
    (∀ l : Bool, (bif l then Value.text "' OR ?" else .null).isNull =
      (bif l then Value.signed 1 else .null).isNull) ∧
    ∃ (text : String) (ls : List Bool),
      (Condition.eq "a?" (.list [.value (.text "' OR ?"), .late (.ok .null)])).node.toQuery .mysql =
        .ok ⟨text, ls.map fun l => bif l then Value.text "' OR ?" else .null⟩ ∧
      (Condition.eq "a?" (.list [.value (.signed 1), .late (.ok .null)])).node.toQuery .mysql =
        .ok ⟨text, ls.map fun l => bif l then Value.signed 1 else .null⟩ := by
  have hnull : ∀ l : Bool, (bif l then Value.text "' OR ?" else .null).isNull =
      (bif l then Value.signed 1 else .null).isNull := by decide
  rcases Calls.toQuery_run (fun l => bif l then Value.text "' OR ?" else .null)
      (fun l => bif l then Value.signed 1 else .null) hnull
      (.ofCondition (.equality "a?" (.list (.cons (.leaf (.value true))
        (.cons (.leaf (.late (.ok false))) .nil))) false)) .mysql with h | ⟨e, he, -⟩
  · exact ⟨hnull, h⟩
  · cases he

end SqlWeave
