import Mathlib.Data.List.Nodup
import SqlWeave.Proofs.Derivation
import SqlWeave.Trace.History

/-!
# The spans of a tracer

A caller opens, marks and closes spans in any order, in contexts that he got from the tracer
or derived from those (`SpanCall`). A context can be stale, or without a span, or the same as
that of another call. What the caller sees is noted beside the run (`SpanHistory`) : the spans
that were started, each under the number that the returned context carries, and those that
he asked to finish.

The table of the tracer has the spans that were started and not finished, each under a
number of its own (`SpanHistory.Sound`), and so a call has an effect on the span of its
context and on no other, if that one is open (`SpanHistory.Does`). The numbers run out after
2^64 - 1 starts, so this is shown for fewer than 2^64 (`SpanHistory.after_sound`).
-/

namespace SqlWeave

/-! ## Calls -/

/-- Whether a context derived in this way is in the span of the one that it is derived from. -/
def Derivation.keepsSpan : Derivation → Bool
  | .copy | .withCancel | .withDeadline _ | .withTimeout .. => true
  | .withSpan _ => false

theorem Context.span_derive {how : Derivation} (h : how.keepsSpan = true) (ctx : Context)
    (flags : Cancellations) : (ctx.derive flags how).1.span = ctx.span := by
  cases how with
  | withSpan => simp [Derivation.keepsSpan] at h
  | copy | withCancel | withDeadline | withTimeout => rfl

/-- A call of a caller who has a tracer : one on the tracer, or a step by which he derives a
context from one that he has. He does not make up spans. -/
inductive SpanCall where
  | tell (c : TracerCall)
  | derive (parent : Nat) (how : Derivation) (h : how.keepsSpan = true)

/-- Whether a call starts a span. -/
def SpanCall.isStart : SpanCall → Bool
  | .tell (.start ..) => true
  | _ => false

/-- A tracer with its contexts, and what the caller has seen of spans. -/
structure SpanHistory extends TracerHistory where
  flags : Cancellations := {}
  /-- The spans that were started, each with its number in the trace. -/
  started : List (SpanId × Nat) := []
  /-- The spans that the caller asked to finish. -/
  finished : List SpanId := []

namespace SpanHistory

/-- A new tracer with its settings, before any call. -/
def begun (level : Level) (sqlLimit : Option Nat) (trace : Trace) : SpanHistory :=
  { tracer := { level, sqlLimit }, trace }

/-- The history after one call. -/
def call (h : SpanHistory) : SpanCall → SpanHistory
  | .tell c =>
    let next := h.toTracerHistory.step c
    match c with
    | .signal _ | .fail .. => { h with toTracerHistory := next }
    | .start .. =>
      let returned := next.contexts.getLast?.bind Context.span
      { h with
        toTracerHistory := next
        started := h.started ++ returned.toList.map (·, next.trace.opened) }
    | .finish place =>
      { h with
        toTracerHistory := next
        finished := h.finished ++ (h.context place).span.toList }
  | .derive parent how _ =>
    let (derived, _, flags) := (h.context parent).derive h.flags how
    { h with contexts := h.contexts ++ [derived], flags }

/-- The history after calls. -/
def after (h : SpanHistory) (calls : List SpanCall) : SpanHistory := calls.foldl call h

/-- A span was started and not finished. -/
def IsOpen (h : SpanHistory) (id : SpanId) (number : Nat) : Prop :=
  (id, number) ∈ h.started ∧ id ∉ h.finished

/-! ## What holds -/

/-- The tracer knows which spans are open. -/
structure Sound (h : SpanHistory) : Prop where
  /-- No two spans were started under one number, -/
  ids : (h.started.map Prod.fst).Nodup
  /-- nor as one span of the trace. -/
  numbers : (h.started.map Prod.snd).Nodup
  /-- The table has the spans that were started and not finished, the latest first. -/
  table : h.tracer.openSpans.reverse = h.started.filter fun span => span.1 ∉ h.finished
  count : h.tracer.openSpans.length = (h.started.filter fun span => span.1 ∉ h.finished).length

/-- What a call does to the table, to the trace and to the contexts. -/
inductive Does (h h' : SpanHistory) : SpanCall → Prop
  /-- A signal is written outside all spans. -/
  | signal (s : Signal) (level : Level) (fields : Fields)
    (tracer : h'.tracer = h.tracer)
    (trace : h'.trace = h.trace.add (.event level traceTarget none fields))
    (contexts : h'.contexts = h.contexts) : Does h h' (.tell (.signal s))
  /-- A span is started under a number that no earlier one had, and the context is returned
  with only its span replaced. -/
  | start (place : Nat) (event sql : String) (id : SpanId) (number : Nat)
    (fresh : id ∉ h.started.map Prod.fst) (fresh_number : number ∉ h.started.map Prod.snd)
    (table : h'.tracer.openSpans = (id, number) :: h.tracer.openSpans)
    (trace : h'.trace.records = h.trace.records ++ [.spanOpened number "dbr.query" traceTarget
      .info [("event", event), ("sql", truncated h.tracer.sqlLimit sql)]])
    (contexts : h'.contexts = h.contexts ++ [{ h.context place with span := some id }])
    (started : h'.started = h.started ++ [(id, number)]) :
    Does h h' (.tell (.start place event sql))
  /-- A failure is written once inside the span of the context, if it is open. -/
  | fail (place : Nat) (error : String) {id : SpanId} {number : Nat}
    (span : (h.context place).span = some id) (isOpen : h.IsOpen id number)
    (tracer : h'.tracer = h.tracer)
    (trace : h'.trace = h.trace.add (.event .error traceTarget (some number)
      [("message", "driver call failed"), ("error", error)]))
    (contexts : h'.contexts = h.contexts) : Does h h' (.tell (.fail place error))
  | failIdle (place : Nat) (error : String)
    (notOpen : ∀ id number, (h.context place).span = some id → ¬h.IsOpen id number)
    (same : h' = h) : Does h h' (.tell (.fail place error))
  /-- The span of the context is closed, if it is open, and no other. -/
  | finish (place : Nat) {id : SpanId} {number : Nat}
    (span : (h.context place).span = some id) (isOpen : h.IsOpen id number)
    (table : h'.tracer.openSpans = h.tracer.openSpans.filter (·.1 != id))
    (trace : h'.trace = h.trace.add (.spanClosed number))
    (contexts : h'.contexts = h.contexts) : Does h h' (.tell (.finish place))
  | finishIdle (place : Nat)
    (notOpen : ∀ id number, (h.context place).span = some id → ¬h.IsOpen id number)
    (same : h'.toTracerHistory = h.toTracerHistory) : Does h h' (.tell (.finish place))
  /-- A derived context is in the span of the one that it is derived from. -/
  | derive (parent : Nat) (how : Derivation) (hkeeps : how.keepsSpan = true) (derived : Context)
    (tracer : h'.tracer = h.tracer) (trace : h'.trace = h.trace)
    (contexts : h'.contexts = h.contexts ++ [derived])
    (span : derived.span = (h.context parent).span) : Does h h' (.derive parent how hkeeps)

/-! ## The numbers of spans -/

/-- Start number `k`, counted from zero, of a tracer whose trace had `first` spans before. -/
def startedSpan (first k : Nat) : SpanId × Nat := (⟨.ofNat (k + 1)⟩, first + k + 1)

/-- Spans are told apart by how many were started before them, as long as the count does not wrap
around. -/
theorem startedSpan_inj {first k l : Nat} (hk : k + 1 < UInt64.size) (hl : l + 1 < UInt64.size)
    (h : (startedSpan first k).1 = (startedSpan first l).1) : k = l := by
  have hnumber := congrArg UInt64.toNat (SpanId.mk.inj h)
  rw [UInt64.toNat_ofNat_of_lt' hk, UInt64.toNat_ofNat_of_lt' hl] at hnumber
  omega

/-- A tracer after `n` starts and any other calls. -/
structure Tracks (first n : Nat) (h : SpanHistory) : Prop where
  started : h.started = (List.range n).map (startedSpan first)
  nextSpan : h.tracer.nextSpan = (startedSpan first n).1
  opened : h.trace.opened = first + n
  table : h.tracer.openSpans.reverse = h.started.filter fun span => span.1 ∉ h.finished
  /-- The caller asks only for spans that were started. -/
  finished : ∀ id ∈ h.finished, id ∈ h.started.map Prod.fst
  contexts : ∀ ctx ∈ h.contexts, ∀ id, ctx.span = some id → id ∈ h.started.map Prod.fst

/-- In a list of pairs with different keys a key is found with what it is paired with. -/
theorem find?_key {α β : Type} [DecidableEq α] {pairs : List (α × β)}
    (hkeys : (pairs.map Prod.fst).Nodup) {a : α} {b : β} :
    (pairs.find? (·.1 == a)).map Prod.snd = some b ↔ (a, b) ∈ pairs := by
  constructor
  · intro h
    obtain ⟨⟨a', b'⟩, hfind, rfl⟩ := Option.map_eq_some_iff.mp h
    have ha : a' = a := by simpa using List.find?_some hfind
    rw [← ha]
    exact List.mem_of_find?_eq_some hfind
  · intro hmem
    cases hfind : pairs.find? (·.1 == a) with
    | none => simpa using List.find?_eq_none.mp hfind _ hmem
    | some pair =>
      have ha : pair.1 = a := by simpa using List.find?_some hfind
      have heq := List.inj_on_of_nodup_map hkeys (List.mem_of_find?_eq_some hfind) hmem ha
      rw [heq]
      rfl

namespace Tracks

variable {first n : Nat} {h : SpanHistory}

theorem begun (level : Level) (sqlLimit : Option Nat) (trace : Trace) :
    Tracks trace.opened 0 (begun level sqlLimit trace) where
  started := rfl
  nextSpan := rfl
  opened := rfl
  table := rfl
  finished := by simp [SpanHistory.begun]
  contexts := by simp [SpanHistory.begun, Context.background]

/-- Identifiers are fresh. -/
theorem nodup_ids (ht : h.Tracks first n) (hn : n < UInt64.size) :
    (h.started.map Prod.fst).Nodup := by
  rw [ht.started, List.map_map]
  refine List.Nodup.map_on (fun k hk l hl heq => ?_) List.nodup_range
  rw [List.mem_range] at hk hl
  exact startedSpan_inj (by omega) (by omega) heq

theorem nodup_numbers (ht : h.Tracks first n) : (h.started.map Prod.snd).Nodup := by
  rw [ht.started, List.map_map]
  refine List.Nodup.map (fun k l heq => ?_) List.nodup_range
  simp only [Function.comp_apply, startedSpan] at heq
  omega

/-- A history that tracks its spans is sound. -/
theorem sound (ht : h.Tracks first n) (hn : n < UInt64.size) : h.Sound where
  ids := ht.nodup_ids hn
  numbers := ht.nodup_numbers
  table := ht.table
  count := by rw [← ht.table, List.length_reverse]

/-- A span is open if it was started and has not been finished. -/
theorem mem_openSpans (ht : h.Tracks first n) {id : SpanId} {number : Nat} :
    (id, number) ∈ h.tracer.openSpans ↔ h.IsOpen id number := by
  rw [← List.mem_reverse, ht.table, List.mem_filter, decide_eq_true_eq]
  rfl

/-- The table is asked for a span as the caller would look into his notes. -/
theorem spanOf?_eq_some_iff (ht : h.Tracks first n) (hn : n < UInt64.size) {id : SpanId}
    {number : Nat} : h.tracer.spanOf? id = some number ↔ h.IsOpen id number := by
  have hkeys : (h.tracer.openSpans.map Prod.fst).Nodup := by
    rw [← List.nodup_reverse, ← List.map_reverse, ht.table]
    exact (ht.nodup_ids hn).sublist (List.filter_sublist.map Prod.fst)
  rw [Tracer.spanOf?, find?_key hkeys, ht.mem_openSpans]

/-- A span in which a context is was started. -/
theorem mem_of_span (ht : h.Tracks first n) {place : Nat} {id : SpanId}
    (hspan : (h.context place).span = some id) : id ∈ h.started.map Prod.fst := by
  rw [TracerHistory.context, List.getD_eq_getElem?_getD] at hspan
  cases hctx : h.contexts[place]? with
  | none => simp [hctx, Context.background] at hspan
  | some ctx =>
    rw [hctx, Option.getD_some] at hspan
    exact ht.contexts ctx (List.mem_of_getElem? hctx) id hspan

/-- The number of the next span is new, in the notes and in the trace. -/
theorem fresh (ht : h.Tracks first n) (hn : n + 1 < UInt64.size) :
    (startedSpan first n).1 ∉ h.started.map Prod.fst ∧
      (startedSpan first n).2 ∉ h.started.map Prod.snd := by
  rw [ht.started, List.map_map, List.map_map, List.mem_map, List.mem_map]
  constructor
  · rintro ⟨k, hk, heq⟩
    rw [List.mem_range] at hk
    have hkn := startedSpan_inj (by omega) hn heq
    omega
  · rintro ⟨k, hk, heq⟩
    rw [List.mem_range] at hk
    simp only [Function.comp_apply, startedSpan] at heq
    omega

/-! ### One call -/

theorem signal (ht : h.Tracks first n) (s : Signal) :
    (h.call (.tell (.signal s))).Tracks first n ∧
      h.Does (h.call (.tell (.signal s))) (.tell (.signal s)) :=
  ⟨{ ht with opened := ht.opened }, .signal s _ _ rfl rfl rfl⟩

/-- Starting a span puts it into the table under a new identifier. -/
theorem start (ht : h.Tracks first n) (hn : n + 1 < UInt64.size) (place : Nat)
    (event sql : String) :
    (h.call (.tell (.start place event sql))).Tracks first (n + 1) ∧
      h.Does (h.call (.tell (.start place event sql))) (.tell (.start place event sql)) := by
  obtain ⟨hid, hnumber⟩ := ht.fresh hn
  have hspan : (h.tracer.nextSpan, h.trace.opened + 1) = startedSpan first n := by
    rw [ht.nextSpan, ht.opened]
    rfl
  have hnext : (h.call (.tell (.start place event sql))).tracer.nextSpan =
      (startedSpan first (n + 1)).1 := by
    show SpanId.mk (h.tracer.nextSpan.number + 1) = _
    rw [ht.nextSpan]
    simp [startedSpan, UInt64.ofNat_add]
  have htable : (h.call (.tell (.start place event sql))).tracer.openSpans =
      startedSpan first n :: h.tracer.openSpans := by
    rw [← hspan]
    rfl
  have hcontexts : (h.call (.tell (.start place event sql))).contexts =
      h.contexts ++ [{ h.context place with span := some (startedSpan first n).1 }] := by
    rw [← hspan]
    rfl
  have hstarted : (h.call (.tell (.start place event sql))).started =
      h.started ++ [startedSpan first n] := by
    rw [← hspan]
    simp [call, TracerHistory.step, Tracer.startSpan, Context.withSpan, Trace.openSpan, Trace.add]
  have hfinished : (h.call (.tell (.start place event sql))).finished = h.finished := rfl
  have htrace : (h.call (.tell (.start place event sql))).trace.records = h.trace.records ++
      [.spanOpened (startedSpan first n).2 "dbr.query" traceTarget .info
        [("event", event), ("sql", truncated h.tracer.sqlLimit sql)]] := by
    rw [← hspan]
    rfl
  have hids : (h.started ++ [startedSpan first n]).map Prod.fst =
      h.started.map Prod.fst ++ [(startedSpan first n).1] := by
    rw [List.map_append, List.map_singleton]
  refine ⟨?_, .start place event sql _ _ hid hnumber htable htrace hcontexts hstarted⟩
  exact {
    started := by rw [hstarted, ht.started, List.range_succ, List.map_append, List.map_singleton]
    nextSpan := hnext
    opened := by
      show h.trace.opened + 1 = _
      rw [ht.opened, Nat.add_assoc]
    table := by
      have hopen : (startedSpan first n).1 ∉ h.finished := fun hmem => hid (ht.finished _ hmem)
      rw [htable, hstarted, hfinished, List.reverse_cons, ht.table, List.filter_append]
      simp [hopen]
    finished := by
      intro id hmem
      rw [hstarted, hids]
      exact List.mem_append_left _ (ht.finished id hmem)
    contexts := by
      intro ctx hctx id heq
      rw [hcontexts] at hctx
      rw [hstarted, hids]
      rcases List.mem_append.mp hctx with hctx | hctx
      · exact List.mem_append_left _ (ht.contexts ctx hctx id heq)
      · obtain rfl := List.mem_singleton.mp hctx
        exact List.mem_append_right _ (List.mem_singleton.mpr (Option.some.inj heq).symm) }

/-- A failure is reported of an open span, and changes nothing in the table. -/
theorem fail (ht : h.Tracks first n) (hn : n < UInt64.size) (place : Nat) (error : String) :
    (h.call (.tell (.fail place error))).Tracks first n ∧
      h.Does (h.call (.tell (.fail place error))) (.tell (.fail place error)) := by
  have hcall : h.call (.tell (.fail place error)) =
      { h with trace := h.tracer.failSpan (h.context place) error h.trace } := rfl
  cases hfound : (h.context place).span.bind h.tracer.spanOf? with
  | some number =>
    obtain ⟨id, hspan, hnumber⟩ := Option.bind_eq_some_iff.mp hfound
    have htrace : h.tracer.failSpan (h.context place) error h.trace =
        h.trace.add (.event .error traceTarget (some number)
          [("message", "driver call failed"), ("error", error)]) := by
      simp only [Tracer.failSpan, hfound]
    rw [hcall, htrace]
    have hopen := (ht.spanOf?_eq_some_iff hn).mp hnumber
    exact ⟨{ ht with opened := ht.opened }, .fail place error hspan hopen rfl rfl rfl⟩
  | none =>
    have htrace : h.tracer.failSpan (h.context place) error h.trace = h.trace := by
      simp only [Tracer.failSpan, hfound]
    rw [hcall, htrace]
    refine ⟨ht, .failIdle place error (fun id number hspan hopen => ?_) rfl⟩
    rw [hspan, Option.bind_some, (ht.spanOf?_eq_some_iff hn).mpr hopen] at hfound
    exact nomatch hfound

/-- The notes after a span is finished, without it. -/
theorem filter_finished (ht : h.Tracks first n) (id : SpanId) :
    (h.tracer.openSpans.filter (·.1 != id)).reverse =
      h.started.filter fun span => span.1 ∉ h.finished ++ [id] := by
  rw [← List.filter_reverse, ht.table, List.filter_filter]
  refine List.filter_congr fun span _ => ?_
  rw [Bool.eq_iff_iff]
  simp [and_comm]

/-- Finishing takes the span out of the table, if it is there. -/
theorem finish (ht : h.Tracks first n) (hn : n < UInt64.size) (place : Nat) :
    (h.call (.tell (.finish place))).Tracks first n ∧
      h.Does (h.call (.tell (.finish place))) (.tell (.finish place)) := by
  have hcall : h.call (.tell (.finish place)) =
      { h with
        tracer := (h.tracer.finishSpan (h.context place) h.trace).1
        trace := (h.tracer.finishSpan (h.context place) h.trace).2
        finished := h.finished ++ (h.context place).span.toList } := rfl
  cases hspan : (h.context place).span with
  | none =>
    have hsame : h.call (.tell (.finish place)) = h := by
      rw [hcall]
      simp [Tracer.finishSpan, hspan]
    rw [hsame]
    refine ⟨ht, .finishIdle place (fun id number hsome => ?_) rfl⟩
    rw [hspan] at hsome
    exact nomatch hsome
  | some id =>
    have hfinished : ∀ id' ∈ h.finished ++ [id], id' ∈ h.started.map Prod.fst := by
      intro id' hmem
      rcases List.mem_append.mp hmem with hmem | hmem
      · exact ht.finished id' hmem
      · rw [List.mem_singleton.mp hmem]
        exact ht.mem_of_span hspan
    have htable := ht.filter_finished id
    cases hnumber : h.tracer.spanOf? id with
    | some number =>
      have hclose : h.tracer.finishSpan (h.context place) h.trace =
          ({ h.tracer with openSpans := h.tracer.openSpans.filter (·.1 != id) },
            h.trace.add (.spanClosed number)) := by
        simp only [Tracer.finishSpan, hspan, hnumber]
      have hopen := (ht.spanOf?_eq_some_iff hn).mp hnumber
      rw [hcall, hclose, hspan]
      exact ⟨{ ht with opened := ht.opened, table := htable, finished := hfinished },
        .finish place hspan hopen rfl rfl rfl⟩
    | none =>
      have hidle : h.tracer.finishSpan (h.context place) h.trace = (h.tracer, h.trace) := by
        simp only [Tracer.finishSpan, hspan, hnumber]
      have hclosed (number : Nat) : ¬h.IsOpen id number := by
        intro hopen
        rw [(ht.spanOf?_eq_some_iff hn).mpr hopen] at hnumber
        exact nomatch hnumber
      -- The span was finished before, so it is not in the table and the notes lose nothing.
      have hothers : h.tracer.openSpans.filter (·.1 != id) = h.tracer.openSpans := by
        refine List.filter_eq_self.mpr fun span hmem => bne_iff_ne.mpr ?_
        rintro rfl
        exact hclosed span.2 (ht.mem_openSpans.mp hmem)
      rw [hothers] at htable
      rw [hcall, hidle, hspan]
      refine ⟨{ ht with table := htable, finished := hfinished },
        .finishIdle place (fun id' number hsome => ?_) rfl⟩
      obtain rfl : id = id' := Option.some.inj (hspan.symm.trans hsome)
      exact hclosed number

theorem derive (ht : h.Tracks first n) (parent : Nat) (how : Derivation)
    (hkeeps : how.keepsSpan = true) :
    (h.call (.derive parent how hkeeps)).Tracks first n ∧
      h.Does (h.call (.derive parent how hkeeps)) (.derive parent how hkeeps) := by
  have hspan := Context.span_derive hkeeps (h.context parent) h.flags
  refine ⟨{ ht with contexts := ?_ }, .derive parent how hkeeps _ rfl rfl rfl hspan⟩
  intro ctx hctx id heq
  rcases List.mem_append.mp hctx with hctx | hctx
  · exact ht.contexts ctx hctx id heq
  · have hlast : ctx = ((h.context parent).derive h.flags how).1 := List.mem_singleton.mp hctx
    rw [hlast, hspan] at heq
    exact ht.mem_of_span heq

/-- A call has its effect if the numbers do not run out with it. -/
theorem call (ht : h.Tracks first n) (c : SpanCall)
    (hn : n + [c].countP SpanCall.isStart < UInt64.size) :
    (h.call c).Tracks first (n + [c].countP SpanCall.isStart) ∧ h.Does (h.call c) c := by
  cases c with
  | derive parent how hkeeps => exact ht.derive parent how hkeeps
  | tell c =>
    cases c with
    | signal s => exact ht.signal s
    | start place event sql => exact ht.start hn place event sql
    | fail place error => exact ht.fail hn place error
    | finish place => exact ht.finish hn place

/-- Any calls keep track, one after the other, as long as the count of spans does not wrap around.
-/
theorem after (ht : h.Tracks first n) (calls : List SpanCall)
    (hn : n + calls.countP SpanCall.isStart < UInt64.size) :
    (h.after calls).Tracks first (n + calls.countP SpanCall.isStart) := by
  induction calls generalizing h n with
  | nil => exact ht
  | cons c calls ih =>
    rw [← List.singleton_append, List.countP_append, ← Nat.add_assoc] at hn ⊢
    exact ih (ht.call c (by omega)).1 hn

end Tracks

/-- Over any calls with fewer than 2^64 starts, the tracer knows which spans are open, and each
call has an effect on the span of its context and on no other. -/
theorem after_sound (level : Level) (sqlLimit : Option Nat) (trace : Trace)
    (calls : List SpanCall) (hstarts : calls.countP SpanCall.isStart < UInt64.size) :
    ((begun level sqlLimit trace).after calls).Sound ∧
      ∀ before c later, calls = before ++ c :: later →
        ((begun level sqlLimit trace).after before).Does
          ((begun level sqlLimit trace).after (before ++ [c])) c := by
  have hbegun := Tracks.begun level sqlLimit trace
  constructor
  · exact (hbegun.after calls (by rwa [Nat.zero_add])).sound (by rwa [Nat.zero_add])
  · rintro before c later rfl
    rw [← List.singleton_append, List.countP_append, List.countP_append] at hstarts
    have hbefore := hbegun.after before (by rw [Nat.zero_add]; omega)
    have hafter : (begun level sqlLimit trace).after (before ++ [c]) =
        ((begun level sqlLimit trace).after before).call c := List.foldl_append
    rw [hafter]
    exact (hbefore.call c (by rw [Nat.zero_add]; omega)).2

/-- A span in a context derived from that of another one, which is finished first, and once
more in the context that it was started with. -/
def interleaved : List SpanCall :=
  [.tell (.start 0 "dbr.exec" "DELETE FROM t"), .derive 1 .withCancel rfl,
    .tell (.start 2 "dbr.select" "SELECT 1"), .tell (.finish 2), .tell (.fail 2 "late"),
    .tell (.fail 3 "refused"), .tell (.finish 1), .tell (.finish 0)]

/-- The second span is left open, and the first is finished twice. -/
theorem after_sound_interleaved :
    interleaved.countP SpanCall.isStart < UInt64.size ∧
      ((begun .debug none {}).after interleaved).Sound ∧
      ((begun .debug none {}).after interleaved).tracer.openSpans = [(⟨2⟩, 2)] ∧
      ((begun .debug none {}).after interleaved).finished = [⟨1⟩, ⟨1⟩] :=
  ⟨by decide, (after_sound .debug none {} interleaved (by decide)).1, rfl, rfl⟩

end SpanHistory

end SqlWeave
