import SqlWeave.Proofs.Lifecycle

/-!
# What a statement gets from its session

A session is opened on a connection and forked any number of times, with a receiver or
without one at each step, and a transaction may be begun in it (`SessionChain`). What such a
chain says about its end is written down without following it : the receiver that was given
last, the dialect of the connection, the context that the first session was opened with
(`SessionChain.route`).

All that is reported of the transaction, and of statements that the session or the
transaction makes, goes to this receiver, and the database is called on the handle that the
statement was made on (`SessionChain.Inherits`). Statements that nothing has bound are
refused and cause nothing. Edits of a statement change none of this.
-/

namespace SqlWeave

/-! ## Chains -/

/-- How a session came about. -/
structure SessionChain where
  connection : Connection
  /-- The receiver and the context with which a session was opened on the connection. -/
  receiver : Option Receiver := none
  context : Option Context := none
  /-- The receivers with which it was forked, one fork after the other. -/
  forks : List (Option Receiver) := []

/-- What statements are made on. -/
inductive Workplace where
  | session (s : Session)
  | transaction (t : Transaction)

namespace Workplace

/-- How the statements made here are run. -/
def route : Workplace → Route
  | .session s => s.route
  | .transaction t => t.route

/-- A statement made here. -/
def bind (p : Workplace) (statement : Statement) : BoundStatement := ⟨statement, some p.route⟩

end Workplace

namespace SessionChain

/-- The session at the end of a chain. -/
def session (c : SessionChain) : Session :=
  let first := match c.context with
    | some context => c.connection.session c.receiver context
    | none => c.connection.session c.receiver
  c.forks.foldl Session.fork first

/-- The receiver given last, or that of the connection if none was given. -/
def lastReceiver (c : SessionChain) : Receiver :=
  ((c.receiver :: c.forks).filterMap id).getLastD c.connection.receiver

/-- The context that the first session was opened with. -/
def firstContext (c : SessionChain) : Context := c.context.getD .background

/-- The handle on which the statements of a workplace are run. -/
def handle (c : SessionChain) : Workplace → Handle
  | .session _ => .database c.connection.database
  | .transaction t => .transaction t.number

/-- What a transaction that is begun at the end of a chain has, done or not. -/
def transaction (c : SessionChain) (number : Nat) (done : Bool) : Transaction where
  number
  receiver := c.lastReceiver
  dialect := c.connection.dialect
  context := c.firstContext
  done

/-- How a statement is run that was made at the end of a chain, given the context that it
is run with, if any. -/
def route (c : SessionChain) (p : Workplace) (context : Option Context) : Route where
  handle := c.handle p
  context := context.getD c.firstContext
  receiver := c.lastReceiver
  dialect := c.connection.dialect

/-- What a caller can make statements on at the end of a chain : the session, and transactions
that he begins in it, whatever he has done with them. -/
inductive Reaches {W : Type} (b : Backend (StateM W)) (c : SessionChain) : Workplace → Prop
  | session : Reaches b c (.session c.session)
  | begun {t : Transaction} {w : W} (h : (c.session.begin b w).1 = .ok t) :
    Reaches b c (.transaction t)
  | performed {t : Transaction} (h : Reaches b c (.transaction t)) (call : TransactionCall)
    (w : W) : Reaches b c (.transaction (t.perform b call w).1.2)

end SessionChain

/-- The first row of a query, given what loading one row came to. -/
def BoundStatement.firstRow {α : Type} : Option α × Except Error Nat → Except Error α
  | (_, .error e) => .error e
  | (some a, .ok _) => .ok a
  | (none, .ok _) => .error .notFound

/-! ## What the chain says -/

/-- All that goes by the chain that came before a workplace. -/
structure SessionChain.Inherits {W : Type} (b : Backend (StateM W)) (c : SessionChain) : Prop where
  /-- A transaction is begun on the database of the connection, and it has what the chain says. -/
  begin : Records (c.session.begin b.recorded) (c.session.begin b) fun result steps =>
    ∃ reply : Except DriverError Nat,
      result = (reply.map fun number => c.transaction number false).mapError .driver ∧
      steps = [.begin c.connection.database c.firstContext reply, .notify c.lastReceiver <|
        match reply with
        | .ok _ => .event "dbr.begin"
        | .error e => .failure "dbr.begin.error" e.message]
  /-- A call that ends a transaction is passed on to this transaction and told to the receiver. It
  causes nothing if the transaction is done. -/
  ending : ∀ t, c.Reaches b (.transaction t) → ∀ e : Ending,
    Records (t.perform b.recorded (.ending e)) (t.perform b (.ending e)) fun _ steps =>
      if t.done then steps = []
      else ∃ outcome,
        steps = [e.request t.number outcome, .notify c.lastReceiver (e.report outcome)]
  exec : ∀ p, c.Reaches b p → ∀ statement edits context,
    Records (((p.bind statement).applyAll edits).exec b.recorded context)
      (((p.bind statement).applyAll edits).exec b context) fun result steps =>
        (c.route p context).ExecTrace (statement.applyAll edits).node result steps ∧
        ∀ step ∈ steps, step.KeepsTo (c.route p context)
  load : ∀ p, c.Reaches b p → ∀ statement edits context, ∀ {δ : Type} [Load δ] (dest : δ),
    Records (((p.bind statement).applyAll edits).load b.recorded dest context)
      (((p.bind statement).applyAll edits).load b dest context) fun result steps =>
        (c.route p context).LoadTrace (statement.applyAll edits).node dest result steps ∧
        ∀ step ∈ steps, step.KeepsTo (c.route p context)
  loadOne : ∀ p, c.Reaches b p → ∀ statement edits context, ∀ (α : Type) [FromRow α],
    Records (((p.bind statement).applyAll edits).loadOne α b.recorded context)
      (((p.bind statement).applyAll edits).loadOne α b context) fun result steps =>
        ∃ loaded, ((c.route p context).LoadTrace (statement.applyAll edits).node (none : Option α)
          loaded steps ∧ ∀ step ∈ steps, step.KeepsTo (c.route p context)) ∧
          result = BoundStatement.firstRow loaded

/-- A statement that nothing has bound is refused and causes nothing. -/
structure Statement.Unbound {W : Type} (b : Backend (StateM W)) (statement : Statement) : Prop where
  exec : ∀ edits context,
    Records ((BoundStatement.applyAll ⟨statement, none⟩ edits).exec b.recorded context)
      ((BoundStatement.applyAll ⟨statement, none⟩ edits).exec b context) fun result steps =>
        result = .error .unbound ∧ steps = []
  load : ∀ edits context, ∀ {δ : Type} [Load δ] (dest : δ),
    Records ((BoundStatement.applyAll ⟨statement, none⟩ edits).load b.recorded dest context)
      ((BoundStatement.applyAll ⟨statement, none⟩ edits).load b dest context) fun result steps =>
        result = (dest, .error .unbound) ∧ steps = []
  loadOne : ∀ edits context, ∀ (α : Type) [FromRow α],
    Records ((BoundStatement.applyAll ⟨statement, none⟩ edits).loadOne α b.recorded context)
      ((BoundStatement.applyAll ⟨statement, none⟩ edits).loadOne α b context) fun result steps =>
        result = .error .unbound ∧ steps = []

/-! ## Following the chain -/

namespace SessionChain

variable {W : Type} {b : Backend (StateM W)} (c : SessionChain)

/-- A receiver that is given comes before the one that there was. -/
theorem getLastD_given (given : Option Receiver) (r : Receiver) (later : List (Option Receiver)) :
    (later.filterMap id).getLastD (given.getD r) =
      ((given :: later).filterMap id).getLastD r := by
  cases given with
  | none => rfl
  | some receiver => exact List.getLastD_cons.symm

/-- Forking changes the receiver only, to the last one given. -/
theorem foldl_fork (s : Session) (forks : List (Option Receiver)) :
    forks.foldl Session.fork s =
      { s with receiver := (forks.filterMap id).getLastD s.receiver } := by
  induction forks generalizing s with
  | nil => rfl
  | cons given forks ih =>
    rw [List.foldl_cons, ih, ← getLastD_given]
    rfl

/-- The session that a chain comes to, at once. -/
theorem session_eq : c.session = ⟨c.connection, c.lastReceiver, c.firstContext⟩ := by
  unfold session lastReceiver firstContext
  rw [foldl_fork, ← getLastD_given]
  cases c.context <;> rfl

/-- A transaction of the session is a transaction of the chain. -/
theorem opened_session (number : Nat) : c.session.opened number = c.transaction number false := by
  rw [session_eq]
  rfl

variable {c}

/-- Whatever is done with a transaction, it has what the chain says. -/
theorem Reaches.eq {p : Workplace} (h : c.Reaches b p) :
    p = .session c.session ∨ ∃ number done, p = .transaction (c.transaction number done) := by
  induction h with
  | session => exact .inl rfl
  | @begun t w h =>
    obtain ⟨_, ⟨reply, hreply, -⟩, -⟩ := c.session.begin_records b [] w
    rw [h] at hreply
    cases reply with
    | error e => exact nomatch hreply
    | ok number =>
      obtain rfl : t = c.session.opened number := Except.ok.inj hreply
      exact .inr ⟨number, false, by rw [opened_session]⟩
  | @performed t h call w ih =>
    rcases ih with hsession | ⟨number, done, heq⟩
    · exact nomatch hsession
    · obtain rfl := Workplace.transaction.inj heq
      obtain ⟨_, hresponds, -⟩ := (c.transaction number done).perform_records b call [] w
      exact .inr ⟨number, _, congrArg Workplace.transaction hresponds.after_eq⟩

/-- A statement that is bound anywhere in the chain goes the way of the chain. -/
theorem Reaches.route_eq {p : Workplace} (h : c.Reaches b p) (context : Option Context) :
    { p.route with context := context.getD p.route.context } = c.route p context := by
  rcases h.eq with rfl | ⟨number, done, rfl⟩
  · simp only [Workplace.route, session_eq]
    rfl
  · rfl

/-- A transaction reports to the receiver of its session. -/
theorem Reaches.receiver_eq {t : Transaction} (h : c.Reaches b (.transaction t)) :
    t.receiver = c.lastReceiver := by
  rcases h.eq with hsession | ⟨number, done, heq⟩
  · exact nomatch hsession
  · rw [Workplace.transaction.inj heq]
    rfl

end SessionChain

/-! ## The end of a chain -/

variable {W : Type}

/-- Loading one row causes what loading does. -/
theorem BoundStatement.loadOne_records (b : Backend (StateM W)) (s : BoundStatement)
    (context : Option Context) {α : Type} [FromRow α]
    {P : Option α × Except Error Nat → List Step → Prop}
    (h : Records (s.load b.recorded (none : Option α) context) (s.load b none context) P) :
    Records (s.loadOne α b.recorded context) (s.loadOne α b context) fun result steps =>
      ∃ loaded, P loaded steps ∧ result = firstRow loaded := by
  refine h.bind fun loaded steps hloaded => ?_
  obtain ⟨_ | a, _ | count⟩ := loaded <;>
    exact .pure ⟨_, by rwa [List.append_nil], rfl⟩

/-- A statement that nothing has bound is refused, and nothing is done. -/
theorem Statement.unbound (b : Backend (StateM W)) (statement : Statement) :
    statement.Unbound b where
  exec _ _ := .pure ⟨rfl, rfl⟩
  load _ _ _ _ _ := .pure ⟨rfl, rfl⟩
  loadOne _ _ _ _ := .pure ⟨rfl, rfl⟩

namespace SessionChain

/-- Wherever a statement of the chain is bound, it is run as the chain says. -/
theorem inherits_of_chain (b : Backend (StateM W)) (c : SessionChain) : c.Inherits b where
  begin := by
    refine (c.session.begin_records b).mono ?_
    rintro result steps ⟨reply, rfl, rfl⟩
    refine ⟨reply, ?_, ?_⟩
    · rw [← funext c.opened_session]
    · exact c.session_eq ▸ rfl
  ending := by
    intro t h e
    refine (t.perform_ending_records b e).mono fun answer steps hresponds => ?_
    cases hresponds with
    | ending _ hfinish =>
      cases hfinish with
      | first hdone outcome =>
        rw [if_neg (by simp [hdone])]
        exact ⟨outcome, by rw [h.receiver_eq]⟩
      | later hdone => rw [if_pos hdone]
  exec := by
    intro p h statement edits context
    rw [← h.route_eq]
    exact (Route.exec_records b _ _).mono fun _ _ htrace => ⟨htrace, htrace.keepsTo⟩
  load := by
    intro p h statement edits context δ _ dest
    rw [← h.route_eq]
    exact (Route.load_records b _ _ dest).mono fun _ _ htrace => ⟨htrace, htrace.keepsTo⟩
  loadOne := by
    intro p h statement edits context α _
    rw [← h.route_eq]
    refine BoundStatement.loadOne_records b _ context ?_
    exact (Route.load_records b _ _ none).mono fun _ _ htrace => ⟨htrace, htrace.keepsTo⟩

/-- Whatever the chain and whatever the database does, all that is reported of transactions
and of statements at the end of the chain goes to the receiver that was given last, in the
dialect of the connection and on the handle that the statement was made on. Statements that
nothing has bound are refused. -/
theorem inherits (b : Backend (StateM W)) :
    (∀ c : SessionChain, c.Inherits b) ∧ ∀ statement : Statement, statement.Unbound b :=
  ⟨inherits_of_chain b, Statement.unbound b⟩

end SessionChain

end SqlWeave
