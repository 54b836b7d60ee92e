import SqlWeave.Pipeline
import SqlWeave.Proofs.Recorded

/-!
# What a statement causes

Running a statement makes calls of the database, of the receiver and of the clock. The
sequences in which they come are few, and they are written down here (`Route.ExecTrace`,
`Route.LoadTrace`) together with the result that goes with each : a refused rendering is
reported and nothing else happens; otherwise the database is called once, in a span if the
receiver is traced, then a failure is reported, and the time is reported last.

The functions of the pipeline each have one lemma that says what they note when their
parts do, and the runs are put together from these (`Route.run_records`).
-/

namespace SqlWeave

namespace Route

/-! ## The sequences -/

/-- The report of a statement that could not be rendered, with what there was of it. -/
def refusal (r : Route) (name : String) (q : Query) (e : RenderError) : Step :=
  .notify r.receiver <| .failureWith name e.message <|
    .ofList [("sql", q.text), ("args", Value.listing q.binds)]

/-- The report of a failure of a statement that was rendered. -/
def failure (r : Route) (name : String) (q : Query) (error : String) : Step :=
  .notify r.receiver (.failureWith name error (.sql q.text))

/-- What is done on the clock, and the report of how long it took. -/
def clocked (r : Route) (name : String) (q : Query) (start stop : Nat) (steps : List Step) :
    List Step :=
  .clock start :: steps ++
    [.clock stop, .notify r.receiver (.timingWith name (stop - start) (.sql q.text))]

/-- The mark on a span of a call that failed. -/
def mark {α : Type} (r : Route) (inner : Context) : Except DriverError α → List Step
  | .error e => [.failSpan r.receiver inner e.message]
  | .ok _ => []

/-- A database call that was answered with `reply`. For a traced receiver it is made in the
context `inner` that the new span came with, and the span is marked if the call failed and
closed in any case. For a plain one it is made in the caller's context. -/
def passage {α : Type} (r : Route) (name : String) (q : Query)
    (call : Context → Except DriverError α → Step) (inner : Context)
    (reply : Except DriverError α) : List Step :=
  if r.receiver.traced then
    [.startSpan r.receiver r.context name q.text inner, call inner reply] ++
      r.mark inner reply ++ [.finishSpan r.receiver inner]
  else [call r.context reply]

/-- What a node is rendered to as a whole statement on a route. -/
def rendered (r : Route) (n : Node) : Progress :=
  ({} : Query).interpolateNode ⟨r.dialect, true⟩ n

/-- The results of running a statement that changes rows, and the steps that go with each. -/
inductive ExecTrace (r : Route) (n : Node) : Except Error ExecResult → List Step → Prop where
  | refused {q : Query} {e : RenderError} (h : r.rendered n = ⟨q, some e⟩) :
    ExecTrace r n (.error (.render e)) [r.refusal "dbr.exec.interpolate" q e]
  | failed {q : Query} (h : r.rendered n = ⟨q, none⟩) (start stop : Nat) (inner : Context)
      (e : DriverError) :
    ExecTrace r n (.error (.driver e)) <| r.clocked "dbr.exec" q start stop <|
      r.passage "dbr.exec" q (fun ctx reply => .execute r.handle ctx q reply) inner (.error e) ++
        [r.failure "dbr.exec.exec" q e.message]
  | done {q : Query} (h : r.rendered n = ⟨q, none⟩) (start stop : Nat) (inner : Context)
      (result : ExecResult) :
    ExecTrace r n (.ok result) <| r.clocked "dbr.exec" q start stop <|
      r.passage "dbr.exec" q (fun ctx reply => .execute r.handle ctx q reply) inner (.ok result)

/-- The results of running a query and loading its rows into `dest`, and the steps that go
with each. -/
inductive LoadTrace {δ : Type} [Load δ] (r : Route) (n : Node) (dest : δ) :
    δ × Except Error Nat → List Step → Prop where
  | refused {q : Query} {e : RenderError} (h : r.rendered n = ⟨q, some e⟩) :
    LoadTrace r n dest (dest, .error (.render e)) [r.refusal "dbr.select.interpolate" q e]
  | failed {q : Query} (h : r.rendered n = ⟨q, none⟩) (start stop : Nat) (inner : Context)
      (e : DriverError) :
    LoadTrace r n dest (dest, .error (.driver e)) <| r.clocked "dbr.select" q start stop <|
      r.passage "dbr.select" q (fun ctx reply => .query r.handle ctx q reply) inner (.error e) ++
        [r.failure "dbr.select.load.query" q e.message]
  | unloaded {q : Query} (h : r.rendered n = ⟨q, none⟩) (start stop : Nat) (inner : Context)
      (cursor : Cursor) {dest' : δ} {e : LoadError}
      (hload : Load.load dest cursor = (dest', .error e)) :
    LoadTrace r n dest (dest', .error (.load e)) <| r.clocked "dbr.select" q start stop <|
      r.passage "dbr.select" q (fun ctx reply => .query r.handle ctx q reply) inner (.ok cursor) ++
        [r.failure "dbr.select.load.scan" q e.message]
  | loaded {q : Query} (h : r.rendered n = ⟨q, none⟩) (start stop : Nat) (inner : Context)
      (cursor : Cursor) {dest' : δ} {count : Nat}
      (hload : Load.load dest cursor = (dest', .ok count)) :
    LoadTrace r n dest (dest', .ok count) <| r.clocked "dbr.select" q start stop <|
      r.passage "dbr.select" q (fun ctx reply => .query r.handle ctx q reply) inner (.ok cursor)

/-! ## What the parts of the pipeline note -/

variable {W α β : Type}

/-- Rendering makes a call only to report that it failed. -/
theorem prepare_records (b : Backend (StateM W)) (r : Route) (names : CallNames) (n : Node) :
    Records (r.prepare b.recorded names n) (r.prepare b names n) fun result steps =>
      (∃ q, r.rendered n = ⟨q, none⟩ ∧ result = .ok q ∧ steps = []) ∨
        ∃ q e, r.rendered n = ⟨q, some e⟩ ∧ result = .error (.render e) ∧
          steps = [r.refusal names.interpolate q e] := by
  unfold prepare
  cases h : r.rendered n with
  | mk q failure =>
    change ({} : Query).interpolateNode ⟨r.dialect, true⟩ n = _ at h
    simp only [h]
    cases failure with
    | none => exact .pure (.inl ⟨q, rfl, rfl, rfl⟩)
    | some e =>
      refine (Records.noted _ _).bind fun _ steps hsteps => .pure (.inr ⟨q, e, rfl, rfl, ?_⟩)
      rw [hsteps]
      rfl

/-- A call in a span is one call of the database, with the span's own calls around it. -/
theorem inSpan_records {step : Context → Except DriverError α → Step}
    {call' : Context → StateT (List Step) (StateM W) (Except DriverError α)}
    {call : Context → StateM W (Except DriverError α)}
    (hcall : ∀ ctx, Records (call' ctx) (call ctx) fun reply steps => steps = [step ctx reply])
    (b : Backend (StateM W)) (r : Route) (names : CallNames) (q : Query) :
    Records (r.inSpan b.recorded names q call') (r.inSpan b names q call) fun reply steps =>
      ∃ inner, steps = r.passage names.call q step inner reply := by
  unfold inSpan
  cases htraced : r.receiver.traced with
  | false =>
    refine (hcall r.context).mono fun reply steps hsteps => ⟨r.context, ?_⟩
    simp [hsteps, passage, htraced]
  | true =>
    refine (Records.noted _ _).bind fun inner opened hopened => ?_
    refine (hcall inner).bind fun reply called hcalled => ?_
    cases reply with
    | error e =>
      refine (Records.noted _ _).bind fun _ marked hmarked => ?_
      refine (Records.noted _ _).bind fun _ closed hclosed => .pure ⟨inner, ?_⟩
      simp [hopened, hcalled, hmarked, hclosed, passage, htraced, mark]
    | ok a =>
      refine (Records.noted _ _).bind fun _ closed hclosed => .pure ⟨inner, ?_⟩
      simp [hopened, hcalled, hclosed, passage, htraced, mark]

/-- A failure of the database is reported after the span is closed. -/
theorem reported_records {step : Context → Except DriverError α → Step}
    {call' : Context → StateT (List Step) (StateM W) (Except DriverError α)}
    {call : Context → StateM W (Except DriverError α)}
    (hcall : ∀ ctx, Records (call' ctx) (call ctx) fun reply steps => steps = [step ctx reply])
    (b : Backend (StateM W)) (r : Route) (names : CallNames) (q : Query) :
    Records (r.reported b.recorded names q call') (r.reported b names q call)
      fun result steps => ∃ inner,
        (∃ a, result = .ok a ∧ steps = r.passage names.call q step inner (.ok a)) ∨
          ∃ e, result = .error (.driver e) ∧
            steps = r.passage names.call q step inner (.error e) ++
              [r.failure names.database q e.message] := by
  unfold reported
  refine (inSpan_records hcall b r names q).bind fun reply steps ⟨inner, hsteps⟩ => ?_
  cases reply with
  | ok a => exact .pure ⟨inner, .inl ⟨a, rfl, by rw [hsteps, List.append_nil]⟩⟩
  | error e =>
    refine (Records.noted _ _).bind fun _ told htold => .pure ⟨inner, .inr ⟨e, rfl, ?_⟩⟩
    rw [hsteps, htold, List.append_nil, failure]

/-- The clock is read before and after a call whose time is reported, whatever the two
readings are. -/
theorem timed_records {call' : StateT (List Step) (StateM W) α} {call : StateM W α}
    {P : α → List Step → Prop} (b : Backend (StateM W)) (r : Route) (names : CallNames)
    (q : Query)
    (hcall : Records call' call fun a steps =>
      ∀ start stop, P a (r.clocked names.call q start stop steps)) :
    Records (r.timed b.recorded names q call') (r.timed b names q call) P := by
  unfold timed
  refine (Records.noted _ _).bind fun start before hbefore => ?_
  refine hcall.bind fun a inside hinside => ?_
  refine (Records.noted _ _).bind fun stop after hafter => ?_
  refine (Records.noted _ _).bind fun _ told htold => .pure ?_
  have hsteps : before ++ (inside ++ (after ++ (told ++ []))) =
      r.clocked names.call q start stop inside := by
    simp [hbefore, hafter, htold, clocked]
  rw [hsteps]
  exact hinside start stop

/-! ## The runs -/

/-- Running a node takes one of the steps that are written down for it, for any database. -/
theorem exec_records (b : Backend (StateM W)) (r : Route) (n : Node) :
    Records (r.exec b.recorded n) (r.exec b n) (r.ExecTrace n) := by
  unfold exec
  refine (prepare_records b r .exec n).bind fun result steps hprepared => ?_
  obtain ⟨q, hq, rfl, rfl⟩ | ⟨q, e, hq, rfl, rfl⟩ := hprepared
  · have hcall (ctx : Context) :=
      Records.noted (Step.execute r.handle ctx q) (b.execute r.handle ctx q)
    refine timed_records b r .exec q ((reported_records hcall b r .exec q).mono ?_)
    intro result steps ⟨inner, hsteps⟩ start stop
    obtain ⟨a, rfl, rfl⟩ | ⟨e, rfl, rfl⟩ := hsteps
    · exact .done hq start stop inner a
    · exact .failed hq start stop inner e
  · exact .pure (.refused hq)

/-- So does loading from one, into any destination. -/
theorem load_records {δ : Type} [Load δ] (b : Backend (StateM W)) (r : Route) (n : Node)
    (dest : δ) :
    Records (r.load b.recorded n dest) (r.load b n dest) (r.LoadTrace n dest) := by
  unfold load
  refine (prepare_records b r .select n).bind fun result steps hprepared => ?_
  obtain ⟨q, hq, rfl, rfl⟩ | ⟨q, e, hq, rfl, rfl⟩ := hprepared
  · have hcall (ctx : Context) :=
      Records.noted (Step.query r.handle ctx q) (b.query r.handle ctx q)
    refine timed_records b r .select q ((reported_records hcall b r .select q).bind ?_)
    intro result steps ⟨inner, hsteps⟩
    obtain ⟨cursor, rfl, rfl⟩ | ⟨e, rfl, rfl⟩ := hsteps
    · cases hload : Load.load dest cursor with
      | mk dest' outcome =>
        cases outcome with
        | ok count =>
          simp only [hload]
          refine .pure fun start stop => ?_
          rw [List.append_nil]
          exact .loaded hq start stop inner cursor hload
        | error e =>
          simp only [hload]
          refine (Records.noted _ _).bind fun _ told htold => .pure fun start stop => ?_
          rw [htold, List.append_nil]
          exact .unloaded hq start stop inner cursor hload
    · refine .pure fun start stop => ?_
      rw [List.append_nil]
      exact .failed hq start stop inner e
  · exact .pure (.refused hq)

/-- Whatever the database, the receiver and the clock do, running a statement or a query
makes one of the sequences of calls written down above, with the result that goes with
it. -/
theorem run_records (b : Backend (StateM W)) (r : Route) (n : Node) :
    Records (r.exec b.recorded n) (r.exec b n) (r.ExecTrace n) ∧
      ∀ {δ : Type} [Load δ] (dest : δ),
        Records (r.load b.recorded n dest) (r.load b n dest) (r.LoadTrace n dest) :=
  ⟨exec_records b r n, load_records b r n⟩

end Route

end SqlWeave
