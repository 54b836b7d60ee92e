/-!
# Contexts

What goes along with a call : the cancellation flags that it heeds, a deadline, and the
span that it runs in. A context is derived from another by adding one of these, and the
one derived from is unchanged. Flags are shared, so cancelling one ends every context that
was derived after the flag was added, and no other.
-/

namespace SqlWeave

/-- The number of a span. -/
structure SpanId where
  number : UInt64
  deriving DecidableEq, Repr

/-- Why a context has ended. -/
inductive Interruption where
  | canceled
  | deadlineExceeded
  deriving DecidableEq, Repr

/-- The interruption in words. -/
def Interruption.message : Interruption → String
  | .canceled => "context canceled"
  | .deadlineExceeded => "context deadline exceeded"

/-- A reading of the clock, in nanoseconds. -/
abbrev Instant := Int

/-- A cancellation flag. Whoever holds it can set it. -/
structure CancelHandle where
  number : Nat
  deriving DecidableEq, Repr

/-- The flags made so far, and those of them that are set. -/
structure Cancellations where
  made : Nat := 0
  set : List CancelHandle := []
  deriving Repr

/-- Set a flag. -/
def Cancellations.cancel (flags : Cancellations) (h : CancelHandle) : Cancellations :=
  { flags with set := h :: flags.set }

/-- What goes along with a call. -/
structure Context where
  handles : List CancelHandle := []
  deadline : Option Instant := none
  span : Option SpanId := none
  deriving DecidableEq, Repr

namespace Context

/-- The context that never ends by itself. -/
def background : Context := {}

/-- A context with one more flag, which is new and not set. -/
def withCancel (ctx : Context) (flags : Cancellations) :
    Context × CancelHandle × Cancellations :=
  let handle := ⟨flags.made⟩
  ({ ctx with handles := ctx.handles ++ [handle] }, handle,
    { flags with made := flags.made + 1 })

/-- A context that ends at `deadline`, or earlier if `ctx` does. -/
def withDeadline (ctx : Context) (deadline : Instant) : Context :=
  { ctx with
    deadline := some <| match ctx.deadline with
      | some earlier => if earlier < deadline then earlier else deadline
      | none => deadline }

/-- A context that ends a while after `now`, or earlier if `ctx` does. -/
def withTimeout (ctx : Context) (now : Instant) (timeout : Int) : Context :=
  ctx.withDeadline (now + timeout)

/-- A context in a span. -/
def withSpan (ctx : Context) (span : SpanId) : Context := { ctx with span := some span }

/-- Why a context has ended by `now`, if it has. A set flag comes before the deadline. -/
def interruption (ctx : Context) (flags : Cancellations) (now : Instant) :
    Option Interruption :=
  if ctx.handles.any fun h => h ∈ flags.set then some .canceled
  else
    match ctx.deadline with
    | some deadline => if deadline ≤ now then some .deadlineExceeded else none
    | none => none

/-- Whether a context has ended by `now`. -/
def isDone (ctx : Context) (flags : Cancellations) (now : Instant) : Bool :=
  (ctx.interruption flags now).isSome

end Context

end SqlWeave
