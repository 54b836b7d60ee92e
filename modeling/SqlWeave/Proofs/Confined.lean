import SqlWeave.Proofs.Reporting

/-!
# Steps on a route

A route names one receiver, one handle and one context. A statement that is run on it tells
this receiver only, and calls the database on this handle only, in this context or in one
that the receiver derived from it (`Route.ExecTrace.keepsTo`, `Route.LoadTrace.keepsTo`).
-/

namespace SqlWeave

/-- A step that a statement may cause on a route : its receiver is told and no other, and its
handle is called and no other. Unless the receiver is traced the call is made in the context
of the route, and otherwise in one that the receiver derived from it. -/
def Step.KeepsTo (r : Route) : Step → Prop
  | .notify receiver _ | .failSpan receiver _ _ | .finishSpan receiver _ => receiver = r.receiver
  | .startSpan receiver outer _ _ _ => receiver = r.receiver ∧ outer = r.context
  | .execute h ctx _ _ | .query h ctx _ _ =>
    h = r.handle ∧ (r.receiver.traced = false → ctx = r.context)
  | .clock _ => True
  | .connect .. | .begin .. | .commit .. | .rollback .. | .silentReceiver .. | .record .. => False

namespace Route

variable {r : Route} {n : Node}

/-- Reading the clock and reporting the time keep to the route. -/
theorem keepsTo_clocked {name : String} {q : Query} {start stop : Nat} {steps : List Step}
    (h : ∀ step ∈ steps, step.KeepsTo r) :
    ∀ step ∈ r.clocked name q start stop steps, step.KeepsTo r := by
  intro step hstep
  simp only [clocked, List.mem_append, List.mem_cons, List.not_mem_nil, or_false] at hstep
  obtain (rfl | hstep) | rfl | rfl := hstep
  · trivial
  · exact h step hstep
  · trivial
  · rfl

/-- A call keeps to the route, with a span around it as without. -/
theorem keepsTo_passage {α : Type} {name : String} {q : Query}
    {call : Context → Except DriverError α → Step} {inner : Context}
    {reply : Except DriverError α} (htraced : r.receiver.traced = true →
      (call inner reply).KeepsTo r) (hplain : (call r.context reply).KeepsTo r) :
    ∀ step ∈ r.passage name q call inner reply, step.KeepsTo r := by
  have hmark : ∀ step ∈ r.mark inner reply, step.KeepsTo r := by
    cases reply <;> simp [mark, Step.KeepsTo]
  unfold passage
  split
  next h =>
    simp only [List.forall_mem_append, List.forall_mem_cons]
    exact ⟨⟨⟨⟨rfl, rfl⟩, htraced h, by simp⟩, hmark⟩, rfl, by simp⟩
  next => simpa using hplain

/-- Reporting a failure keeps to the route. -/
theorem keepsTo_failure {name : String} {q : Query} {error : String} :
    ∀ step ∈ [r.failure name q error], step.KeepsTo r :=
  List.forall_mem_singleton.mpr rfl

/-- Running a statement that changes rows keeps to the route. -/
theorem ExecTrace.keepsTo {result : Except Error ExecResult} {steps : List Step}
    (h : r.ExecTrace n result steps) : ∀ step ∈ steps, step.KeepsTo r := by
  have hcall (q : Query) (inner : Context) (reply : Except DriverError ExecResult) :
      ∀ step ∈ r.passage "dbr.exec" q (fun ctx reply => .execute r.handle ctx q reply) inner reply,
        step.KeepsTo r :=
    keepsTo_passage (fun htraced => ⟨rfl, fun hplain => by simp [htraced] at hplain⟩)
      ⟨rfl, fun _ => rfl⟩
  cases h with
  | refused => exact List.forall_mem_singleton.mpr rfl
  | failed _ start stop inner e =>
    exact keepsTo_clocked (List.forall_mem_append.mpr ⟨hcall _ inner _, keepsTo_failure⟩)
  | done _ start stop inner result => exact keepsTo_clocked (hcall _ inner _)

/-- Running a query and loading its rows keeps to the route. -/
theorem LoadTrace.keepsTo {δ : Type} [Load δ] {dest : δ} {result : δ × Except Error Nat}
    {steps : List Step} (h : r.LoadTrace n dest result steps) :
    ∀ step ∈ steps, step.KeepsTo r := by
  have hcall (q : Query) (inner : Context) (reply : Except DriverError Cursor) :
      ∀ step ∈ r.passage "dbr.select" q (fun ctx reply => .query r.handle ctx q reply) inner reply,
        step.KeepsTo r :=
    keepsTo_passage (fun htraced => ⟨rfl, fun hplain => by simp [htraced] at hplain⟩)
      ⟨rfl, fun _ => rfl⟩
  cases h with
  | refused => exact List.forall_mem_singleton.mpr rfl
  | failed _ start stop inner | unloaded _ start stop inner =>
    exact keepsTo_clocked (List.forall_mem_append.mpr ⟨hcall _ inner _, keepsTo_failure⟩)
  | loaded _ start stop inner => exact keepsTo_clocked (hcall _ inner _)

end Route

end SqlWeave
