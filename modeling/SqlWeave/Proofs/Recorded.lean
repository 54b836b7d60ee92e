import SqlWeave.Backend

/-!
# Recorded runs

A backend can be made to note every call that is made of it, together with the answer
(`Backend.recorded`). A program that calls the backend cannot tell : it does what it did
before, and the notes grow at their end. `Records` says this of a program and also what the
new notes are, and it is closed under running one program after the other, so the notes of
a function are found from those of the functions it calls.
-/

namespace SqlWeave

/-- A call of a backend, with the answer if there is one. -/
inductive Step where
  | connect (driver source : String) (reply : Except DriverError Nat)
  | execute (h : Handle) (ctx : Context) (q : Query) (reply : Except DriverError ExecResult)
  | query (h : Handle) (ctx : Context) (q : Query) (reply : Except DriverError Cursor)
  | begin (database : Nat) (ctx : Context) (reply : Except DriverError Nat)
  | commit (transaction : Nat) (reply : Except DriverError Unit)
  | rollback (transaction : Nat) (reply : Except DriverError Unit)
  | silentReceiver (reply : Receiver)
  | notify (r : Receiver) (s : Signal)
  /-- A span was opened in the context `outer` and is carried by `inner`. -/
  | startSpan (r : Receiver) (outer : Context) (event sql : String) (inner : Context)
  | failSpan (r : Receiver) (ctx : Context) (error : String)
  | finishSpan (r : Receiver) (ctx : Context)
  | record (entry : Record)
  | clock (now : Nat)

section

variable {m : Type → Type} [Monad m]

/-- A call that is noted once it has been answered. -/
def noted {α : Type} (step : α → Step) (call : m α) : StateT (List Step) m α :=
  fun log => do
    let reply ← call
    return (reply, log ++ [step reply])

/-- A backend that behaves as `b` does and notes every call. -/
def Backend.recorded (b : Backend m) : Backend (StateT (List Step) m) where
  connect driver source := noted (.connect driver source) (b.connect driver source)
  execute h ctx q := noted (.execute h ctx q) (b.execute h ctx q)
  query h ctx q := noted (.query h ctx q) (b.query h ctx q)
  begin database ctx := noted (.begin database ctx) (b.begin database ctx)
  commit transaction := noted (.commit transaction) (b.commit transaction)
  rollback transaction := noted (.rollback transaction) (b.rollback transaction)
  silentReceiver := noted .silentReceiver b.silentReceiver
  notify r s := noted (fun _ => .notify r s) (b.notify r s)
  startSpan r outer event sql :=
    noted (.startSpan r outer event sql) (b.startSpan r outer event sql)
  failSpan r ctx error := noted (fun _ => .failSpan r ctx error) (b.failSpan r ctx error)
  finishSpan r ctx := noted (fun _ => .finishSpan r ctx) (b.finishSpan r ctx)
  record entry := noted (fun _ => .record entry) (b.record entry)
  clock := noted .clock b.clock

end

variable {W α β : Type}

/-- From any notes and in any state of the world, `x` does what `y` does and adds notes that
`P` allows for the result. -/
def Records (x : StateT (List Step) (StateM W) α) (y : StateM W α)
    (P : α → List Step → Prop) : Prop :=
  ∀ (log : List Step) (w : W), ∃ steps, P (y w).1 steps ∧
    x log w = (((y w).1, log ++ steps), (y w).2)

namespace Records

variable {x : StateT (List Step) (StateM W) α} {y : StateM W α}
  {f : α → StateT (List Step) (StateM W) β} {g : α → StateM W β}
  {P P' : α → List Step → Prop} {Q : β → List Step → Prop}

theorem noted (step : α → Step) (call : StateM W α) :
    Records (noted step call) call fun a steps => steps = [step a] :=
  fun _ _ => ⟨_, rfl, rfl⟩

theorem pure {a : α} (h : P a []) : Records (pure a) (pure a : StateM W α) P :=
  fun log _ => ⟨[], h, by rw [List.append_nil]; rfl⟩

theorem mono (h : Records x y P) (hP : ∀ a steps, P a steps → P' a steps) :
    Records x y P' := by
  intro log w
  obtain ⟨steps, hsteps, heq⟩ := h log w
  exact ⟨steps, hP _ _ hsteps, heq⟩

/-- One program after the other : what the second may note depends on what the first
returned and noted. -/
theorem bind (h : Records x y P)
    (hf : ∀ a before, P a before → Records (f a) (g a) fun b after => Q b (before ++ after)) :
    Records (x >>= f) (y >>= g) Q := by
  intro log w
  obtain ⟨before, hbefore, heq⟩ := h log w
  obtain ⟨after, hafter, heq'⟩ := hf _ before hbefore (log ++ before) (y w).2
  refine ⟨before ++ after, hafter, ?_⟩
  calc (x >>= f) log w = f (y w).1 (log ++ before) (y w).2 :=
        congrArg (fun p : (α × List Step) × W => f p.1.1 p.1.2 p.2) heq
    _ = (((g (y w).1 (y w).2).1, log ++ (before ++ after)), (g (y w).1 (y w).2).2) := by
        rw [heq', List.append_assoc]

end Records

end SqlWeave
