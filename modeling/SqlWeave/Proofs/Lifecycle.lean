import SqlWeave.Proofs.Confined
import SqlWeave.Session

/-!
# The life of a transaction

A caller ends a transaction by committing it, by rolling it back, or by rolling back what
was not committed, and he may call any of these any number of times, between statements
that he runs. The database hears only of the first of these calls. It is reported once,
whatever the database answers, and the transaction is done from then on; later calls are
refused and cause nothing (`Transaction.Finish`). Running a statement never ends a
transaction (`BoundStatement.exec_records`, `BoundStatement.load_records`).

So over any calls the database is asked at most once to end a transaction, and a
transaction that was begun is done exactly if a call that ends it has been made
(`Transaction.performAll_life`).
-/

namespace SqlWeave

/-! ## Calls -/

/-- The calls by which a transaction is ended. -/
inductive Ending where
  | commit
  | rollback
  | rollbackUnlessCommitted
  deriving DecidableEq, Repr

/-- A call that a caller makes while he has a transaction : one that ends it, or one that
runs a statement. The statement may be bound by this transaction or by anything else, or
not at all. -/
inductive TransactionCall : Type 1 where
  | ending (e : Ending)
  | exec (s : BoundStatement) (context : Option Context)
  | load {δ : Type} [Load δ] (s : BoundStatement) (dest : δ) (context : Option Context)

/-- Whether a call is one of those that end a transaction. -/
def TransactionCall.isEnding : TransactionCall → Bool
  | .ending _ => true
  | _ => false

/-- What a call returns. -/
inductive TransactionReply where
  | ended (result : Except Error Unit)
  | nothing
  | executed (result : Except Error ExecResult)
  | loaded (count : Except Error Nat)

namespace Transaction

variable {m : Type → Type} [Monad m]

/-- Make a call. The answer comes with the transaction as it is afterwards. -/
def perform (b : Backend m) (t : Transaction) :
    TransactionCall → m (TransactionReply × Transaction)
  | .ending .commit => do
    let (result, ended) ← t.commit b
    return (.ended result, ended)
  | .ending .rollback => do
    let (result, ended) ← t.rollback b
    return (.ended result, ended)
  | .ending .rollbackUnlessCommitted => do
    let ended ← t.rollbackUnlessCommitted b
    return (.nothing, ended)
  | .exec s context => do
    let result ← s.exec b context
    return (.executed result, t)
  | @TransactionCall.load _ _ s dest context => do
    let (_, count) ← s.load b dest context
    return (.loaded count, t)

/-- Make calls one after the other. -/
def performAll (b : Backend m) (t : Transaction) :
    List TransactionCall → m (List (TransactionReply × Transaction))
  | [] => return []
  | c :: cs => do
    let answer ← t.perform b c
    let answers ← answer.2.performAll b cs
    return answer :: answers

end Transaction

/-! ## What calls come to -/

/-- Whether a step asks the database to end a transaction. -/
def Step.endsTransaction : Step → Bool
  | .commit .. | .rollback .. => true
  | _ => false

namespace Ending

/-- How the database is asked to end a transaction, with its answer. -/
def request (e : Ending) (transaction : Nat) (outcome : Except DriverError Unit) : Step :=
  match e with
  | .commit => .commit transaction outcome
  | .rollback | .rollbackUnlessCommitted => .rollback transaction outcome

/-- The one event that reports how the database answered. -/
def report : Ending → Except DriverError Unit → Signal
  | .commit, .ok () => .event "dbr.commit"
  | .commit, .error cause => .failure "dbr.commit.error" cause.message
  | .rollback, .ok () | .rollbackUnlessCommitted, .ok () => .event "dbr.rollback"
  | .rollback, .error cause => .failure "dbr.rollback.error" cause.message
  | .rollbackUnlessCommitted, .error cause =>
    .failure "dbr.rollback_unless_committed" cause.message

/-- What the caller learns of the result. -/
def reply : Ending → Except Error Unit → TransactionReply
  | .commit, result | .rollback, result => .ended result
  | .rollbackUnlessCommitted, _ => .nothing

/-- Asking for an end of a transaction is a step of that kind. -/
theorem endsTransaction_request (e : Ending) (transaction : Nat)
    (outcome : Except DriverError Unit) :
    (e.request transaction outcome).endsTransaction = true := by
  cases e <;> rfl

end Ending

namespace Transaction

/-- What a call that ends a transaction comes to, given how it asks the database and how it
reports the answer. The first such call does both and returns the answer as it is; a later
one is refused and causes nothing. -/
inductive Finish (t : Transaction) (request : Except DriverError Unit → Step)
    (report : Except DriverError Unit → Signal) :
    Except Error Unit × Transaction → List Step → Prop
  | first (h : t.done = false) (outcome : Except DriverError Unit) :
    Finish t request report (outcome.mapError .driver, { t with done := true })
      [request outcome, .notify t.receiver (report outcome)]
  | later (h : t.done = true) : Finish t request report (.error .transactionDone, t) []

/-- The answer to a call and the steps that it causes. -/
inductive Responds (t : Transaction) :
    TransactionCall → TransactionReply × Transaction → List Step → Prop
  | ending (e : Ending) {result : Except Error Unit} {ended : Transaction} {steps : List Step}
      (h : t.Finish (e.request t.number) e.report (result, ended) steps) :
    Responds t (.ending e) (e.reply result, ended) steps
  | exec (s : BoundStatement) (context : Option Context) (result : Except Error ExecResult)
      {steps : List Step} (h : ∀ step ∈ steps, step.endsTransaction = false) :
    Responds t (.exec s context) (.executed result, t) steps
  | load {δ : Type} [Load δ] (s : BoundStatement) (dest : δ) (context : Option Context)
      (count : Except Error Nat) {steps : List Step}
      (h : ∀ step ∈ steps, step.endsTransaction = false) :
    Responds t (.load s dest context) (.loaded count, t) steps

/-- The answers to calls and the steps that they cause, call by call. Each call is made on
the transaction as the call before left it. -/
inductive Life :
    Transaction → List TransactionCall → List (TransactionReply × Transaction) → List Step → Prop
  | nil (t : Transaction) : Life t [] [] []
  | cons {t : Transaction} {c : TransactionCall} {answer : TransactionReply × Transaction}
      {caused : List Step} {cs : List TransactionCall}
      {answers : List (TransactionReply × Transaction)} {steps : List Step}
      (h : t.Responds c answer caused) (hrest : Life answer.2 cs answers steps) :
    Life t (c :: cs) (answer :: answers) (caused ++ steps)

/-! ### One call -/

variable {t : Transaction}

namespace Responds

variable {c : TransactionCall} {answer : TransactionReply × Transaction} {steps : List Step}

/-- A call that ends the transaction leaves it done, and every other leaves it as it is. -/
theorem after_eq (h : t.Responds c answer steps) :
    answer.2 = { t with done := t.done || c.isEnding } := by
  cases h with
  | ending e h =>
    cases h with
    | first hdone outcome => simp [TransactionCall.isEnding]
    | later hdone =>
      obtain ⟨number, receiver, dialect, context, done⟩ := t
      obtain rfl : done = true := hdone
      rfl
  | exec | load => simp [TransactionCall.isEnding]

/-- The database is asked to end the transaction if the call does so and is the first. -/
theorem countP_endsTransaction (h : t.Responds c answer steps) :
    steps.countP Step.endsTransaction = if !t.done && c.isEnding then 1 else 0 := by
  cases h with
  | ending e h =>
    cases h with
    | first hdone outcome =>
      rw [List.countP_cons_of_pos (e.endsTransaction_request _ outcome),
        List.countP_cons_of_neg (by simp [Step.endsTransaction])]
      simp [hdone, TransactionCall.isEnding]
    | later hdone => simp [hdone]
  | exec s context result h | load s dest context count h =>
    rw [List.countP_eq_zero.mpr fun step hstep => Bool.eq_false_iff.mp (h step hstep)]
    simp [TransactionCall.isEnding]

end Responds

/-! ### A whole life -/

namespace Life

variable {calls : List TransactionCall} {answers : List (TransactionReply × Transaction)}
  {steps : List Step}

/-- The database is asked once to end the transaction if a call does so, and otherwise
never. -/
theorem countP_endsTransaction (h : t.Life calls answers steps) :
    steps.countP Step.endsTransaction =
      if !t.done && calls.any TransactionCall.isEnding then 1 else 0 := by
  induction h with
  | nil t => simp
  | @cons t c answer caused cs _ _ h _ ih =>
    rw [List.countP_append, h.countP_endsTransaction, ih, h.after_eq, List.any_cons]
    cases t.done <;> cases c.isEnding <;> simp

/-- After some of the calls the transaction is done if it was before or if one of them ends
it, and nothing else about it has changed. -/
theorem after_eq (h : t.Life calls answers steps) {k : Nat}
    {answer : TransactionReply × Transaction} (hk : answers[k]? = some answer) :
    answer.2 =
      { t with done := t.done || (calls.take (k + 1)).any TransactionCall.isEnding } := by
  induction h generalizing k with
  | nil t => simp at hk
  | @cons t c first caused cs _ _ h _ ih =>
    cases k with
    | zero =>
      obtain rfl : first = answer := by simpa using hk
      simp [h.after_eq]
    | succ k =>
      rw [ih hk, h.after_eq, List.take_succ_cons, List.any_cons, Bool.or_assoc]

end Life

end Transaction

/-! ## What statements cause -/

/-- What keeps to a route ends no transaction. -/
theorem Step.KeepsTo.endsTransaction {r : Route} {step : Step} (h : step.KeepsTo r) :
    step.endsTransaction = false := by
  cases step with
  | commit | rollback => exact h.elim
  | _ => rfl

variable {W : Type}

namespace BoundStatement

/-- Running a statement ends no transaction. -/
theorem exec_records (b : Backend (StateM W)) (s : BoundStatement) (context : Option Context) :
    Records (s.exec b.recorded context) (s.exec b context)
      fun _ steps => ∀ step ∈ steps, step.endsTransaction = false := by
  unfold exec
  cases s.routeIn context with
  | error e => exact .pure (by simp)
  | ok r =>
    exact (r.exec_records b s.statement.node).mono fun _ _ h step hstep =>
      (h.keepsTo step hstep).endsTransaction

theorem load_records {δ : Type} [Load δ] (b : Backend (StateM W)) (s : BoundStatement) (dest : δ)
    (context : Option Context) :
    Records (s.load b.recorded dest context) (s.load b dest context)
      fun _ steps => ∀ step ∈ steps, step.endsTransaction = false := by
  unfold load
  cases s.routeIn context with
  | error e => exact .pure (by simp)
  | ok r =>
    exact (r.load_records b s.statement.node dest).mono fun _ _ h step hstep =>
      (h.keepsTo step hstep).endsTransaction

end BoundStatement

/-! ## The beginning and the end -/

/-- The transaction that a session gets when the database has begun one. -/
def Session.opened (s : Session) (number : Nat) : Transaction :=
  { number, receiver := s.receiver, dialect := s.dialect, context := s.context, done := false }

/-- A session begins a transaction by one call of the database and reports the answer. -/
theorem Session.begin_records (b : Backend (StateM W)) (s : Session) :
    Records (s.begin b.recorded) (s.begin b) fun result steps =>
      ∃ reply : Except DriverError Nat, result = (reply.map s.opened).mapError .driver ∧
        steps = [.begin s.connection.database s.context reply, .notify s.receiver <|
          match reply with
          | .ok _ => .event "dbr.begin"
          | .error e => .failure "dbr.begin.error" e.message] := by
  unfold Session.begin
  refine (Records.noted _ _).bind fun reply asked hasked => ?_
  cases reply with
  | ok number =>
    refine (Records.noted _ _).bind fun _ told htold => .pure ⟨.ok number, rfl, ?_⟩
    rw [hasked, htold]
    rfl
  | error e =>
    refine (Records.noted _ _).bind fun _ told htold => .pure ⟨.error e, rfl, ?_⟩
    rw [hasked, htold]
    rfl

namespace Transaction

/-- A call that ends a transaction asks the driver once and reports what it answers. -/
theorem finish_records {call' : StateT (List Step) (StateM W) (Except DriverError Unit)}
    {call : StateM W (Except DriverError Unit)} {request : Except DriverError Unit → Step}
    (report : Except DriverError Unit → Signal) {success failure : String}
    (hcall : Records call' call fun outcome steps => steps = [request outcome])
    (hsuccess : report (.ok ()) = .event success)
    (hfailure : ∀ e, report (.error e) = .failure failure e.message)
    (b : Backend (StateM W)) (t : Transaction) :
    Records (t.finish b.recorded call' success failure) (t.finish b call success failure)
      (t.Finish request report) := by
  unfold finish
  cases hdone : t.done with
  | true => exact .pure (.later hdone)
  | false =>
    refine hcall.bind fun outcome asked hasked => ?_
    cases outcome with
    | ok =>
      refine (Records.noted _ _).bind fun _ told htold => .pure ?_
      rw [hasked, htold, ← hsuccess]
      exact .first hdone (.ok ())
    | error e =>
      refine (Records.noted _ _).bind fun _ told htold => .pure ?_
      rw [hasked, htold, ← hfailure]
      exact .first hdone (.error e)

/-- Each of the three ends responds as it should. -/
theorem perform_ending_records (b : Backend (StateM W)) (t : Transaction) (e : Ending) :
    Records (t.perform b.recorded (.ending e)) (t.perform b (.ending e))
      (t.Responds (.ending e)) := by
  have hrollback := Records.noted (Step.rollback t.number) (b.rollback t.number)
  cases e with
  | commit =>
    have hcommit := Records.noted (Step.commit t.number) (b.commit t.number)
    have hfinish := finish_records (Ending.report .commit) hcommit rfl (fun _ => rfl) b t
    refine hfinish.bind fun p steps h => .pure ?_
    rw [List.append_nil]
    exact .ending .commit h
  | rollback =>
    have hfinish := finish_records (Ending.report .rollback) hrollback rfl (fun _ => rfl) b t
    refine hfinish.bind fun p steps h => .pure ?_
    rw [List.append_nil]
    exact .ending .rollback h
  | rollbackUnlessCommitted =>
    have hfinish := finish_records (Ending.report .rollbackUnlessCommitted) hrollback rfl
      (fun _ => rfl) b t
    have hended : Records (t.rollbackUnlessCommitted b.recorded) (t.rollbackUnlessCommitted b)
        fun ended steps => ∃ result, t.Finish (Step.rollback t.number)
          (Ending.report .rollbackUnlessCommitted) (result, ended) steps :=
      hfinish.bind fun p steps h => .pure ⟨p.1, by rwa [List.append_nil]⟩
    refine hended.bind fun ended steps ⟨result, h⟩ => .pure ?_
    rw [List.append_nil]
    exact .ending .rollbackUnlessCommitted h

/-- A call is answered as `Responds` says, whatever the database answers. -/
theorem perform_records (b : Backend (StateM W)) (t : Transaction) (c : TransactionCall) :
    Records (t.perform b.recorded c) (t.perform b c) (t.Responds c) := by
  cases c with
  | ending e => exact perform_ending_records b t e
  | exec s context =>
    refine (s.exec_records b context).bind fun result steps h => .pure ?_
    rw [List.append_nil]
    exact .exec s context result h
  | load s dest context =>
    refine (s.load_records b dest context).bind fun result steps h => .pure ?_
    rw [List.append_nil]
    exact .load s dest context result.2 h

/-- Any number of calls, one after the other. -/
theorem performAll_records (b : Backend (StateM W)) (t : Transaction)
    (calls : List TransactionCall) :
    Records (t.performAll b.recorded calls) (t.performAll b calls) (t.Life calls) := by
  induction calls generalizing t with
  | nil => exact .pure (.nil t)
  | cons c cs ih =>
    refine (perform_records b t c).bind fun answer caused h => ?_
    refine (ih answer.2).bind fun answers steps hrest => .pure ?_
    rw [List.append_nil]
    exact .cons h hrest

/-- A transaction is not done when it has been begun. Over any calls on it, the database is
asked to end it once if a call does so, by the first such call, and otherwise never; it is
done after this call and not before, whatever the database answers; and the later calls that
would end it are refused without a step. -/
theorem performAll_life (b : Backend (StateM W)) :
    (∀ s : Session, Records (s.begin b.recorded) (s.begin b) fun result _ =>
      ∀ t, result = .ok t → t.done = false) ∧
    ∀ (t : Transaction) (calls : List TransactionCall),
      Records (t.performAll b.recorded calls) (t.performAll b calls) fun answers steps =>
        t.Life calls answers steps ∧
        steps.countP Step.endsTransaction =
          (if !t.done && calls.any TransactionCall.isEnding then 1 else 0) ∧
        ∀ k answer, answers[k]? = some answer → answer.2 =
          { t with done := t.done || (calls.take (k + 1)).any TransactionCall.isEnding } := by
  constructor
  · intro s
    refine (s.begin_records b).mono ?_
    rintro result steps ⟨reply, rfl, -⟩ t ht
    cases reply with
    | ok number =>
      obtain rfl : s.opened number = t := Except.ok.inj ht
      rfl
    | error e => exact nomatch ht
  · intro t calls
    refine (performAll_records b t calls).mono fun answers steps h => ?_
    exact ⟨h, h.countP_endsTransaction, fun k answer hk => h.after_eq hk⟩

end Transaction

end SqlWeave
