import SqlWeave.Session
import SqlWeave.Trace.History

/-!
# A scripted backend

A backend without a real database, for rehearsing a program. Its one database answers as
its script says and keeps a list of what it was asked; its receivers ignore what they are
told, note it down under a label, or write a trace. Spans of a receiver that notes are
numbered from one.

A statement is refused when its context has ended, and otherwise when the script says so. A
transaction is refused in the other order, before the database takes note of it.

A receiver lives as long as something holds it. When nothing does, its open spans close.
-/

namespace SqlWeave.Scripted

/-- What the database will answer. Texts are the words of a refusal. -/
structure Script where
  refuseConnect : Option String := none
  refuse : Option String := none
  refuseBegin : Option String := none
  refuseCommit : Option String := none
  refuseRollback : Option String := none
  rowsAffected : UInt64 := 1
  lastInsertId : Option Int64 := none
  columns : List String := []
  rows : List (List Value) := []
  /-- The number of the read that fails, counted from zero. -/
  brokenRead : Option Nat := none

/-- What the database was asked. -/
inductive Request where
  | connect (driver source : String)
  | execute (handle : Handle) (query : Query) (span : Option SpanId)
  | query (handle : Handle) (query : Query) (span : Option SpanId)
  | begin
  | commit
  | rollback

/-- What a receiver noted. -/
inductive Note where
  | signal (s : Signal)
  | spanStart (outer : Option SpanId) (span : SpanId) (event sql : String)
  | spanError (span : Option SpanId) (error : String)
  | spanFinish (span : Option SpanId)

/-- What a receiver does with what it is told. -/
inductive Sink where
  | ignoring
  /-- Noting under a label; `spans` spans have been opened. -/
  | noting (label : String) (spans : Nat)
  | tracing (tracer : Tracer)

/-- Everything outside the library. Receiver number `n` is number `n` of the sinks. -/
structure World where
  script : Script := {}
  requests : List Request := []
  notes : List (String × Note) := []
  trace : Trace := {}
  sinks : List Sink := []
  flags : Cancellations := {}
  begun : Nat := 0
  now : Instant := 0

abbrev Sim := StateM World

/-! ## Receivers -/

/-- A new receiver. -/
def receiver (sink : Sink) (traced : Bool) : Sim Receiver := do
  let w ← get
  set { w with sinks := w.sinks ++ [sink] }
  return ⟨w.sinks.length, traced⟩

/-- What stands behind a receiver. -/
def sinkOf (r : Receiver) : Sim Sink := do return (← get).sinks.getD r.number .ignoring

/-- Put a sink behind a receiver. -/
def setSink (r : Receiver) (sink : Sink) : Sim Unit :=
  modify fun w => { w with sinks := w.sinks.set r.number sink }

def note (label : String) (n : Note) : Sim Unit :=
  modify fun w => { w with notes := w.notes ++ [(label, n)] }

def notify (r : Receiver) (s : Signal) : Sim Unit := do
  match ← sinkOf r with
  | .ignoring => return
  | .noting label _ => note label (.signal s)
  | .tracing tracer => modify fun w => { w with trace := tracer.notify s w.trace }

def startSpan (r : Receiver) (ctx : Context) (event sql : String) : Sim Context := do
  match ← sinkOf r with
  | .ignoring => return ctx
  | .noting label spans =>
    let id : SpanId := ⟨.ofNat (spans + 1)⟩
    setSink r (.noting label (spans + 1))
    note label (.spanStart ctx.span id event sql)
    return ctx.withSpan id
  | .tracing tracer =>
    let w ← get
    let (tracer, trace, ctx) := tracer.startSpan ctx event sql w.trace
    set { w with trace }
    setSink r (.tracing tracer)
    return ctx

def failSpan (r : Receiver) (ctx : Context) (error : String) : Sim Unit := do
  match ← sinkOf r with
  | .ignoring => return
  | .noting label _ => note label (.spanError ctx.span error)
  | .tracing tracer => modify fun w => { w with trace := tracer.failSpan ctx error w.trace }

def finishSpan (r : Receiver) (ctx : Context) : Sim Unit := do
  match ← sinkOf r with
  | .ignoring => return
  | .noting label _ => note label (.spanFinish ctx.span)
  | .tracing tracer =>
    let w ← get
    let (tracer, trace) := tracer.finishSpan ctx w.trace
    set { w with trace }
    setSink r (.tracing tracer)

/-- Close all open spans of a receiver. -/
def finishAll (r : Receiver) : Sim Unit := do
  match ← sinkOf r with
  | .tracing tracer =>
    let w ← get
    let (tracer, trace) := tracer.finishAll w.trace
    set { w with trace }
    setSink r (.tracing tracer)
  | _ => return

/-- Let go of the receivers that were held before and are not held after, in the order in
which they were held. -/
def release (before after : List Receiver) : Sim Unit :=
  (before.filter fun r => !after.any r.sameInstance).forM finishAll

/-- Make a call on a receiver, in one of the given contexts. Only a traced receiver takes
calls about spans. -/
def tell (r : Receiver) (contexts : List Context) (call : TracerCall) : Sim Unit := do
  let context (place : Nat) : Context := contexts.getD place .background
  match call with
  | .signal s => notify r s
  | .start place event sql =>
    if r.traced then discard <| startSpan r (context place) event sql
  | .fail place error => if r.traced then failSpan r (context place) error
  | .finish place => if r.traced then finishSpan r (context place)

/-! ## The database -/

/-- A refusal in the words of a script. -/
def refusal (words : String) : DriverError := .failed ("fake driver: " ++ words)

def request (r : Request) : Sim Unit := modify fun w => { w with requests := w.requests ++ [r] }

/-- Why a context has ended, if it has. -/
def interruption (ctx : Context) : Sim (Option Interruption) := do
  let w ← get
  return ctx.interruption w.flags w.now

/-- A result with the reads of a script. A read that fails takes no row. -/
def Script.cursor (s : Script) : Cursor :=
  let rows : List (Except DriverError (List Value)) := s.rows.map .ok
  match s.brokenRead with
  | some n =>
    if n ≤ rows.length then
      ⟨s.columns, rows.take n ++ .error (refusal "broken row") :: rows.drop n⟩
    else ⟨s.columns, rows⟩
  | none => ⟨s.columns, rows⟩

/-- The answer to a request for a statement. -/
def answer {α : Type} (r : Request) (ctx : Context) (reply : Script → α) :
    Sim (Except DriverError α) := do
  request r
  let script := (← get).script
  match ← interruption ctx, script.refuse with
  | some cause, _ => return .error (.interrupted cause)
  | none, some words => return .error (refusal words)
  | none, none => return .ok (reply script)

/-- The answer to the end of a transaction. -/
def answerEnd (r : Request) (refuse : Script → Option String) :
    Sim (Except DriverError Unit) := do
  request r
  match refuse (← get).script with
  | some words => return .error (refusal words)
  | none => return .ok ()

def begin (ctx : Context) : Sim (Except DriverError Nat) := do
  let w ← get
  match w.script.refuseBegin, ← interruption ctx with
  | some words, _ => return .error (refusal words)
  | none, some cause => return .error (.interrupted cause)
  | none, none =>
    request .begin
    modify fun w => { w with begun := w.begun + 1 }
    return .ok w.begun

/-- The scripted database and its receivers. -/
def backend : Backend Sim where
  connect driver source := do
    request (.connect driver source)
    match (← get).script.refuseConnect with
    | some words => return .error (refusal words)
    | none => return .ok 0
  execute h ctx q :=
    answer (.execute h q ctx.span) ctx fun s => ⟨s.rowsAffected, s.lastInsertId⟩
  query h ctx q := answer (.query h q ctx.span) ctx Script.cursor
  begin _ ctx := begin ctx
  commit _ := answerEnd .commit (·.refuseCommit)
  rollback _ := answerEnd .rollback (·.refuseRollback)
  silentReceiver := receiver .ignoring false
  notify := notify
  startSpan := startSpan
  failSpan := failSpan
  finishSpan := finishSpan
  record r := modify fun w => { w with trace := w.trace.add r }
  clock := return (← get).now.toNat

end SqlWeave.Scripted
