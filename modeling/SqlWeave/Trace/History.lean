import SqlWeave.Trace.Tracer

/-!
# What a tracer was told

The calls on a tracer as data. A call names its context by its place among the contexts
known so far : those given at the start, and after them one for each span opened.
-/

namespace SqlWeave

/-- A call on a tracer. -/
inductive TracerCall where
  | signal (s : Signal)
  | start (context : Nat) (event sql : String)
  | fail (context : Nat) (error : String)
  | finish (context : Nat)

/-- A tracer with the trace it has written and the contexts known so far. -/
structure TracerHistory where
  tracer : Tracer := {}
  trace : Trace := {}
  contexts : List Context := [.background]

namespace TracerHistory

/-- The context at a place. -/
def context (h : TracerHistory) (place : Nat) : Context :=
  h.contexts.getD place .background

/-- The history after one call. -/
def step (h : TracerHistory) : TracerCall → TracerHistory
  | .signal s => { h with trace := h.tracer.notify s h.trace }
  | .start place event sql =>
    let (tracer, trace, ctx) := h.tracer.startSpan (h.context place) event sql h.trace
    ⟨tracer, trace, h.contexts ++ [ctx]⟩
  | .fail place error =>
    { h with trace := h.tracer.failSpan (h.context place) error h.trace }
  | .finish place =>
    let (tracer, trace) := h.tracer.finishSpan (h.context place) h.trace
    { h with tracer, trace }

end TracerHistory

end SqlWeave
