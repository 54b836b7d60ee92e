import SqlWeave.Receiver
import SqlWeave.Trace

/-!
# A receiver that writes a trace

A `Tracer` turns what a receiver is told into trace events, and keeps a table of the spans
it has opened and not yet finished, each under the number that the call's context carries.
Numbers are given out in order. Finishing a span takes it out of the table; a context
whose span is not in the table has no effect. With the tracer itself all its spans close.

The text of a statement is cut to a number of bytes, never inside a character.
-/

namespace SqlWeave

/-- The longest beginning of a text that takes at most `budget` bytes. -/
def fittingChars (budget : Nat) : List Char → List Char
  | [] => []
  | c :: cs => if c.utf8Size ≤ budget then c :: fittingChars (budget - c.utf8Size) cs else []

/-- A text, cut and marked with dots if it takes more than `limit` bytes. -/
def truncated (limit : Option Nat) (s : String) : String :=
  match limit with
  | some budget =>
    if s.utf8ByteSize > budget then .ofList (fittingChars budget s.toList) ++ "..." else s
  | none => s

/-- A receiver that writes a trace. -/
structure Tracer where
  /-- The level of events and timings. -/
  level : Level := .debug
  /-- How many bytes of a statement are shown, if not all. -/
  sqlLimit : Option Nat := some 200
  nextSpan : SpanId := ⟨1⟩
  /-- The open spans under their numbers, the latest first. -/
  openSpans : List (SpanId × Nat) := []
  deriving Repr

namespace Tracer

/-- Details as `key=value` pairs with a space between them; only the statement is cut. -/
def renderDetails (t : Tracer) (details : Details) : String :=
  " ".intercalate <| details.entries.map fun (key, value) =>
    key ++ "=" ++ if key = "sql" then truncated t.sqlLimit value else value

/-- The longest time that a timing shows. -/
def maxElapsed : Nat := UInt64.size - 1

/-- A time as it is shown. -/
def elapsedText (elapsed : Nat) : String := toString (min elapsed maxElapsed)

/-- The event that a signal is written as. Failures are errors, all else has the level of
the tracer. -/
def event (t : Tracer) : Signal → Level × Fields
  | .event name => (t.level, [("event", name)])
  | .eventWith name details =>
    (t.level, [("event", name), ("kvs", t.renderDetails details)])
  | .failure name error => (.error, [("event", name), ("error", error)])
  | .failureWith name error details =>
    (.error, [("event", name), ("error", error), ("kvs", t.renderDetails details)])
  | .timing name elapsed => (t.level, [("event", name), ("elapsed_ns", elapsedText elapsed)])
  | .timingWith name elapsed details =>
    (t.level,
      [("event", name), ("elapsed_ns", elapsedText elapsed), ("kvs", t.renderDetails details)])

/-- The trace after a signal. -/
def notify (t : Tracer) (s : Signal) (trace : Trace) : Trace :=
  let (level, fields) := t.event s
  trace.add (.event level traceTarget none fields)

/-- The trace span under a number, if it is open. -/
def spanOf? (t : Tracer) (id : SpanId) : Option Nat :=
  (t.openSpans.find? (·.1 == id)).map Prod.snd

/-- Open a span for a call : the context for the call carries its number. -/
def startSpan (t : Tracer) (ctx : Context) (event sql : String) (trace : Trace) :
    Tracer × Trace × Context :=
  let id := t.nextSpan
  let (trace, span) := trace.openSpan "dbr.query" traceTarget .info
    [("event", event), ("sql", truncated t.sqlLimit sql)]
  ({ t with nextSpan := ⟨id.number + 1⟩, openSpans := (id, span) :: t.openSpans }, trace,
    ctx.withSpan id)

/-- The trace after a failure of the call in a context, written inside the context's span
if it is open. -/
def failSpan (t : Tracer) (ctx : Context) (error : String) (trace : Trace) : Trace :=
  match ctx.span.bind t.spanOf? with
  | some span =>
    trace.add (.event .error traceTarget (some span)
      [("message", "driver call failed"), ("error", error)])
  | none => trace

/-- Close the span of a context if it is open. -/
def finishSpan (t : Tracer) (ctx : Context) (trace : Trace) : Tracer × Trace :=
  match ctx.span with
  | none => (t, trace)
  | some id =>
    match t.spanOf? id with
    | none => (t, trace)
    | some span =>
      ({ t with openSpans := t.openSpans.filter (·.1 != id) }, trace.add (.spanClosed span))

/-- Close all open spans, in the order in which they opened. -/
def finishAll (t : Tracer) (trace : Trace) : Tracer × Trace :=
  ({ t with openSpans := [] },
    t.openSpans.foldr (fun (_, span) trace => trace.add (.spanClosed span)) trace)

end Tracer

end SqlWeave
