import Mathlib.Data.List.Forall2
import SqlWeave.Proofs.Genealogy

/-!
# Contexts and how they were derived

A caller derives contexts, copies handles and sets flags (`ContextPool`). Whatever he calls,
each of his contexts ends as its path in the genealogy tells : it is canceled if a handle that
a step on its path gave out has been cancelled, by itself or by a copy, and otherwise it ends
at the earliest deadline that was set on its path, if one was (`ContextPool.after_follows`).

Contexts share flags, and a flag does not know of the contexts that heed it. So what the
pool and the genealogy agree on is kept flag by flag, where a flag is known by the context
that it was made for (`Tracks`).
-/

namespace SqlWeave

open List (Forall₂)

/-! ## Calls -/

/-- The contexts and handles of a caller, and the flags. He starts with the background
context. -/
structure ContextPool where
  contexts : List Context := [.background]
  handles : List CancelHandle := []
  flags : Cancellations := {}

/-- Derive a context, with the handle that this gives out. -/
def Context.derive (ctx : Context) (flags : Cancellations) :
    Derivation → Context × List CancelHandle × Cancellations
  | .copy => (ctx, [], flags)
  | .withCancel =>
    let (derived, handle, flags) := ctx.withCancel flags
    (derived, [handle], flags)
  | .withDeadline deadline => (ctx.withDeadline deadline, [], flags)
  | .withTimeout now timeout => (ctx.withTimeout now timeout, [], flags)
  | .withSpan span => (ctx.withSpan span, [], flags)

namespace ContextPool

/-- Make a call. One on a context or a handle that is not there does nothing. -/
def call (pool : ContextPool) : ContextCall → ContextPool
  | .derive parent how =>
    match pool.contexts[parent]? with
    | some ctx =>
      let (derived, given, flags) := ctx.derive pool.flags how
      { contexts := pool.contexts ++ [derived], handles := pool.handles ++ given, flags }
    | none => pool
  | .copyHandle handle => { pool with handles := pool.handles ++ pool.handles[handle]?.toList }
  | .cancel handle =>
    match pool.handles[handle]? with
    | some flag => { pool with flags := pool.flags.cancel flag }
    | none => pool

/-- What a caller has after calls. -/
def after (calls : List ContextCall) : ContextPool := calls.foldl call {}

/-- Why a context has ended by `now`, if it has. -/
def interruption (pool : ContextPool) (i : Nat) (now : Instant) : Option Interruption :=
  pool.contexts[i]?.bind fun ctx => ctx.interruption pool.flags now

/-- Whether a context has ended by `now`. -/
def isDone (pool : ContextPool) (i : Nat) (now : Instant) : Bool :=
  pool.contexts[i]?.any fun ctx => ctx.isDone pool.flags now

/-- The deadline of a context. -/
def deadline (pool : ContextPool) (i : Nat) : Option Instant :=
  pool.contexts[i]?.bind Context.deadline

end ContextPool

/-! ## Flags -/

/-- A flag was made for context `n`, where `flagged` has the contexts that flags were made
for, in order. -/
def CancelHandle.MadeFor (flagged : List Nat) (h : CancelHandle) (n : Nat) : Prop :=
  flagged[h.number]? = some n

theorem CancelHandle.MadeFor.append {flagged : List Nat} {h : CancelHandle} {n : Nat}
    (hmade : h.MadeFor flagged n) (more : List Nat) : h.MadeFor (flagged ++ more) n := by
  obtain ⟨hlt, -⟩ := List.getElem?_eq_some_iff.mp hmade
  rwa [MadeFor, List.getElem?_append_left hlt]

/-- No two flags are made for one context. -/
theorem CancelHandle.MadeFor.biUnique {flagged : List Nat} (hnodup : flagged.Nodup) :
    Relator.BiUnique (MadeFor flagged) := by
  constructor
  · intro h n h' hmade hmade'
    obtain ⟨hlt, -⟩ := List.getElem?_eq_some_iff.mp hmade
    have hnumber := (List.getElem?_inj hlt hnodup).mp (hmade.trans hmade'.symm)
    exact congrArg CancelHandle.mk hnumber
  · intro h n n' hmade hmade'
    exact Option.some.inj (hmade.symm.trans hmade')

/-- A context heeds the flags that were added on its path, and its deadline is the earliest
that was set on it. -/
structure Context.Heeds (flagged : List Nat) (ctx : Context) (path : DerivationPath) : Prop where
  handles : Forall₂ (CancelHandle.MadeFor flagged) ctx.handles path.flagged
  deadline : ctx.deadline = path.deadlines.min?

namespace Context

variable {flagged : List Nat} {ctx : Context} {path : DerivationPath}

/-- A context goes on heeding its flags when more are made. -/
theorem Heeds.append (h : ctx.Heeds flagged path) (more : List Nat) :
    ctx.Heeds (flagged ++ more) path :=
  ⟨h.handles.imp fun _ _ hmade => hmade.append more, h.deadline⟩

/-- A derived context heeds the flags of its path, if the flags so far were made for
`flagged`. -/
theorem Heeds.derive (h : ctx.Heeds flagged path) {flags : Cancellations}
    (hmade : flags.made = flagged.length) (n : Nat) (how : Derivation) :
    (ctx.derive flags how).1.Heeds (flagged ++ how.flagged n) (path ++ [(n, how)]) where
  handles := by
    rw [DerivationPath.flagged_concat]
    cases how with
    | withCancel =>
      have hnew : CancelHandle.MadeFor (flagged ++ [n]) ⟨flags.made⟩ n := by
        rw [hmade]
        exact List.getElem?_concat_length
      exact List.rel_append (h.append [n]).handles (.cons hnew .nil)
    | copy | withDeadline | withTimeout | withSpan =>
      rw [Derivation.flagged, List.append_nil, List.append_nil]
      exact h.handles
  deadline := by
    rw [DerivationPath.deadlines_concat]
    cases how with
    | withDeadline | withTimeout =>
      rw [Derivation.deadlines, min?_concat, ← h.deadline]
      rfl
    | copy | withCancel | withSpan =>
      rw [Derivation.deadlines, List.append_nil]
      exact h.deadline

/-- The handle that a derivation gives out, if it gives one, is that of the new flag. -/
theorem derive_given {flags : Cancellations} (hmade : flags.made = flagged.length) (n : Nat)
    (how : Derivation) :
    Forall₂ (CancelHandle.MadeFor (flagged ++ how.flagged n)) (ctx.derive flags how).2.1
      (how.flagged n) := by
  cases how with
  | withCancel =>
    refine .cons ?_ .nil
    show (flagged ++ [n])[flags.made]? = some n
    rw [hmade]
    exact List.getElem?_concat_length
  | copy | withDeadline | withTimeout | withSpan => exact .nil

/-- It makes as many flags as it says. -/
theorem derive_made {flags : Cancellations} (hmade : flags.made = flagged.length) (n : Nat)
    (how : Derivation) :
    (ctx.derive flags how).2.2.made = (flagged ++ how.flagged n).length := by
  cases how with
  | withCancel => simp [derive, withCancel, Derivation.flagged, hmade]
  | copy | withDeadline | withTimeout | withSpan =>
    rw [Derivation.flagged, List.append_nil]
    exact hmade

theorem derive_set (flags : Cancellations) (how : Derivation) :
    (ctx.derive flags how).2.2.set = flags.set := by
  cases how <;> rfl

end Context

/-! ## The pool and the genealogy -/

/-- A caller has what the genealogy says, where `flagged` has the contexts that flags were
made for, in order. -/
structure Tracks (flagged : List Nat) (pool : ContextPool) (g : Genealogy) : Prop where
  grown : Grown g.paths
  contexts : Forall₂ (Context.Heeds flagged) pool.contexts g.paths
  handles : Forall₂ (CancelHandle.MadeFor flagged) pool.handles g.origins
  set : Forall₂ (CancelHandle.MadeFor flagged) pool.flags.set g.cancelled
  made : pool.flags.made = flagged.length
  nodup : flagged.Nodup
  there : ∀ n ∈ flagged, n < g.paths.length

/-- Related lists are related place by place. -/
theorem forall₂_getElem? {α β : Type} {R : α → β → Prop} {l : List α} {l' : List β}
    (h : Forall₂ R l l') (i : Nat) :
    (l[i]? = none ∧ l'[i]? = none) ∨ ∃ a b, l[i]? = some a ∧ l'[i]? = some b ∧ R a b := by
  induction h generalizing i with
  | nil => exact .inl ⟨rfl, rfl⟩
  | @cons a b _ _ h _ ih =>
    cases i with
    | zero => exact .inr ⟨a, b, rfl, rfl, h⟩
    | succ i => simpa only [List.getElem?_cons_succ] using ih i

namespace Tracks

variable {flagged : List Nat} {pool : ContextPool} {g : Genealogy}

/-- In the beginning there is the background context, and no flag. -/
theorem start : Tracks [] {} {} where
  grown := .background
  contexts := .cons ⟨.nil, rfl⟩ .nil
  handles := .nil
  set := .nil
  made := rfl
  nodup := .nil
  there := by simp

/-- A new flag is made for the context that the step makes, and no flag was made for that
before. -/
theorem nodup_append (h : Tracks flagged pool g) (how : Derivation) :
    (flagged ++ how.flagged g.paths.length).Nodup := by
  refine List.nodup_append.mpr ⟨h.nodup, by cases how <;> simp [Derivation.flagged], ?_⟩
  intro n hn n' hn' heq
  have hlt := h.there n hn
  have hlast := Derivation.eq_of_mem_flagged hn'
  omega

/-- A derivation keeps track, and the flag that it may make is one more. -/
theorem derive (h : Tracks flagged pool g) (parent : Nat) (how : Derivation) :
    ∃ flagged', Tracks flagged' (pool.call (.derive parent how)) (g.call (.derive parent how)) := by
  simp only [ContextPool.call, Genealogy.call]
  rcases forall₂_getElem? h.contexts parent with ⟨hctx, hpath⟩ | ⟨ctx, path, hctx, hpath, hheeds⟩
  · rw [hctx, hpath]
    exact ⟨flagged, h⟩
  · rw [hctx, hpath]
    let n := g.paths.length
    have hold {h : CancelHandle} {n' : Nat} (hmade : h.MadeFor flagged n') :
        h.MadeFor (flagged ++ how.flagged n) n' := hmade.append _
    refine ⟨flagged ++ how.flagged n, ?_⟩
    exact {
      grown := h.grown.derive how hpath
      contexts := List.rel_append (h.contexts.imp fun _ _ hheeds => hheeds.append _)
        (.cons (hheeds.derive h.made n how) .nil)
      handles := List.rel_append (h.handles.imp fun _ _ => hold) (Context.derive_given h.made n how)
      set := by
        rw [Context.derive_set]
        exact h.set.imp fun _ _ => hold
      made := Context.derive_made h.made n how
      nodup := h.nodup_append how
      there := by
        intro n' hn'
        rw [List.length_append, List.length_singleton]
        rcases List.mem_append.mp hn' with hn' | hn'
        · exact Nat.lt_succ_of_lt (h.there n' hn')
        · exact Nat.lt_succ_of_le (Nat.le_of_eq (Derivation.eq_of_mem_flagged hn')) }

/-- A copy of a handle is a handle of the same flag. -/
theorem copyHandle (h : Tracks flagged pool g) (handle : Nat) :
    Tracks flagged (pool.call (.copyHandle handle)) (g.call (.copyHandle handle)) := by
  have hcopy : Forall₂ (CancelHandle.MadeFor flagged) pool.handles[handle]?.toList
      g.origins[handle]?.toList := by
    rcases forall₂_getElem? h.handles handle with ⟨hflag, hn⟩ | ⟨flag, n, hflag, hn, hmade⟩
    · rw [hflag, hn]
      exact .nil
    · rw [hflag, hn]
      exact .cons hmade .nil
  exact { h with handles := List.rel_append h.handles hcopy }

/-- Cancelling sets the flag that was made for the context of the handle. -/
theorem cancel (h : Tracks flagged pool g) (handle : Nat) :
    Tracks flagged (pool.call (.cancel handle)) (g.call (.cancel handle)) := by
  simp only [ContextPool.call, Genealogy.call]
  rcases forall₂_getElem? h.handles handle with ⟨hflag, hn⟩ | ⟨flag, n, hflag, hn, hmade⟩
  · rw [hflag, hn]
    exact h
  · rw [hflag, hn]
    exact { h with set := .cons hmade h.set }

/-- Whatever the call, the contexts keep to their genealogy. -/
theorem call (h : Tracks flagged pool g) (c : ContextCall) :
    ∃ flagged', Tracks flagged' (pool.call c) (g.call c) := by
  cases c with
  | derive parent how => exact h.derive parent how
  | copyHandle handle => exact ⟨flagged, h.copyHandle handle⟩
  | cancel handle => exact ⟨flagged, h.cancel handle⟩

/-- So they do over any sequence of calls. -/
theorem calls (h : Tracks flagged pool g) (cs : List ContextCall) :
    ∃ flagged', Tracks flagged' (cs.foldl ContextPool.call pool) (cs.foldl Genealogy.call g) := by
  induction cs generalizing flagged pool g with
  | nil => exact ⟨flagged, h⟩
  | cons c cs ih =>
    obtain ⟨flagged', h'⟩ := h.call c
    exact ih h'

/-- Whatever the calls, the caller has what the genealogy says. -/
theorem after (cs : List ContextCall) :
    ∃ flagged, Tracks flagged (ContextPool.after cs) (Genealogy.after cs) :=
  start.calls cs

end Tracks

/-! ## What ends a context -/

namespace Tracks

variable {flagged : List Nat} {pool : ContextPool} {g : Genealogy}

/-- Some flag that a context heeds is set exactly if a handle that its path gave out has
been cancelled. -/
theorem canceled_iff (h : Tracks flagged pool g) {ctx : Context} {path : DerivationPath}
    (hheeds : ctx.Heeds flagged path) :
    (ctx.handles.any fun flag => flag ∈ pool.flags.set) = true ↔ g.Canceled path := by
  -- A flag and the context that it was made for determine each other, so either list has the
  -- one exactly if the other list has the other.
  have hset {flag : CancelHandle} {n : Nat} (hmade : flag.MadeFor flagged n) :
      flag ∈ pool.flags.set ↔ n ∈ g.cancelled :=
    List.rel_mem (CancelHandle.MadeFor.biUnique h.nodup) hmade h.set
  have hany {flags : List CancelHandle} {ns : List Nat}
      (hmade : Forall₂ (CancelHandle.MadeFor flagged) flags ns) :
      (flags.any fun flag => flag ∈ pool.flags.set) = true ↔ ∃ n ∈ ns, n ∈ g.cancelled := by
    induction hmade with
    | nil => simp
    | cons hmade _ ih =>
      simp only [List.any_cons, Bool.or_eq_true, decide_eq_true_eq, List.mem_cons,
        exists_eq_or_imp, hset hmade, ih]
  exact hany hheeds.handles

/-- What the program finds out about a context is what its path tells. -/
theorem interruption_eq (h : Tracks flagged pool g) (i : Nat) (now : Instant) :
    pool.interruption i now = g.interruption i now := by
  unfold ContextPool.interruption Genealogy.interruption
  rcases forall₂_getElem? h.contexts i with ⟨hctx, hpath⟩ | ⟨ctx, path, hctx, hpath, hheeds⟩
  · rw [hctx, hpath]
    rfl
  · rw [hctx, hpath, Option.bind_some, Option.bind_some, Context.interruption, hheeds.deadline]
    simp only [h.canceled_iff hheeds]
    cases path.deadlines.min? <;> simp

theorem deadline_eq (h : Tracks flagged pool g) (i : Nat) : pool.deadline i = g.deadline i := by
  unfold ContextPool.deadline Genealogy.deadline
  rcases forall₂_getElem? h.contexts i with ⟨hctx, hpath⟩ | ⟨ctx, path, hctx, hpath, hheeds⟩
  · rw [hctx, hpath]
    rfl
  · rw [hctx, hpath]
    exact hheeds.deadline

end Tracks

/-! ## The contexts of a caller -/

namespace ContextPool

/-- Done is what has an interruption. -/
theorem isDone_eq (pool : ContextPool) (i : Nat) (now : Instant) :
    pool.isDone i now = (pool.interruption i now).isSome := by
  unfold isDone interruption
  cases pool.contexts[i]? <;> rfl

/-- What can be told of a caller's contexts after calls from how they came about. -/
structure Follows (calls : List ContextCall) : Prop where
  contexts : (after calls).contexts.length = (Genealogy.after calls).paths.length
  handles : (after calls).handles.length = (Genealogy.after calls).origins.length
  /-- Whether and why a context has ended can be told from its path. -/
  interruption : ∀ i now,
    (after calls).interruption i now = (Genealogy.after calls).interruption i now
  deadline : ∀ i, (after calls).deadline i = (Genealogy.after calls).deadline i
  /-- Cancelling a handle spares every context that does not descend from the one with which
  it was given out. -/
  spared : ∀ handle n i now, (Genealogy.after calls).origins[handle]? = some n →
    ¬(Genealogy.after calls).Descends i n →
    (after (calls ++ [.cancel handle])).interruption i now = (after calls).interruption i now
  /-- The contexts that one is derived from and its siblings are among those. -/
  ancestor_or_sibling : ∀ n i,
    (Genealogy.after calls).Descends n i ∧ i ≠ n ∨ (Genealogy.after calls).Siblings n i →
    ¬(Genealogy.after calls).Descends i n
  /-- A context is done when one that it descends from is. -/
  done : ∀ i a now, (Genealogy.after calls).Descends i a → (after calls).isDone a now →
    (after calls).isDone i now
  /-- A context that is canceled stays so, whatever is called later. -/
  canceled : ∀ i now, (after calls).interruption i now = some .canceled →
    ∀ more later, (after (calls ++ more)).interruption i later = some .canceled
  /-- A context has no later deadline than one that it descends from. -/
  deadline_le : ∀ i a d, (Genealogy.after calls).Descends i a →
    (after calls).deadline a = some d → ∃ d' ≤ d, (after calls).deadline i = some d'
  /-- A span changes nothing about when a context ends, and neither does a copy. -/
  same : ∀ parent how, parent < (after calls).contexts.length →
    (how = .copy ∨ ∃ span, how = .withSpan span) →
    (∀ now, (after (calls ++ [.derive parent how])).interruption (after calls).contexts.length
      now = (after calls).interruption parent now) ∧
    (after (calls ++ [.derive parent how])).deadline (after calls).contexts.length =
      (after calls).deadline parent

variable (calls : List ContextCall)

/-- After any calls, the genealogy tells why a context has ended. -/
theorem interruption_after (i : Nat) (now : Instant) :
    (after calls).interruption i now = (Genealogy.after calls).interruption i now := by
  obtain ⟨_, h⟩ := Tracks.after calls
  exact h.interruption_eq i now

theorem deadline_after (i : Nat) :
    (after calls).deadline i = (Genealogy.after calls).deadline i := by
  obtain ⟨_, h⟩ := Tracks.after calls
  exact h.deadline_eq i

/-- There are as many contexts and handles as the genealogy knows. -/
theorem length_after :
    (after calls).contexts.length = (Genealogy.after calls).paths.length ∧
      (after calls).handles.length = (Genealogy.after calls).origins.length := by
  obtain ⟨_, h⟩ := Tracks.after calls
  exact ⟨h.contexts.length_eq, h.handles.length_eq⟩

/-- Later calls go on from the genealogy of the earlier ones. -/
theorem genealogy_append (more : List ContextCall) :
    Genealogy.after (calls ++ more) = more.foldl Genealogy.call (.after calls) :=
  List.foldl_append

/-- A copy of a context, or one in a span, ends when the context does. -/
theorem same_after {parent : Nat} (hparent : parent < (after calls).contexts.length)
    {how : Derivation} (hhow : how = .copy ∨ ∃ span, how = .withSpan span) :
    (∀ now, (after (calls ++ [.derive parent how])).interruption (after calls).contexts.length
      now = (after calls).interruption parent now) ∧
    (after (calls ++ [.derive parent how])).deadline (after calls).contexts.length =
      (after calls).deadline parent := by
  simp only [interruption_after, deadline_after, genealogy_append, (length_after calls).1] at *
  refine Genealogy.same_of_derive hparent ?_ ?_ <;>
    rcases hhow with rfl | ⟨span, rfl⟩ <;> rfl

/-- Whatever contexts a caller derives and whatever handles he cancels, when each context
ends can be told from its own path. -/
theorem after_follows : Follows calls where
  contexts := (length_after calls).1
  handles := (length_after calls).2
  interruption := interruption_after calls
  deadline := deadline_after calls
  spared := by
    intro handle n i now hhandle hnot
    obtain ⟨_, h⟩ := Tracks.after calls
    rw [interruption_after, interruption_after, genealogy_append]
    exact Genealogy.interruption_cancel h.grown hhandle hnot now
  ancestor_or_sibling := by
    obtain ⟨_, h⟩ := Tracks.after calls
    rintro n i (⟨hdescends, hne⟩ | hsiblings)
    · exact hdescends.not_symm hne h.grown
    · exact hsiblings.not_descends
  done := by
    intro i a now hdescends hdone
    rw [isDone_eq, interruption_after] at hdone ⊢
    exact hdescends.isSome_interruption hdone
  canceled := by
    intro i now hcanceled more later
    rw [interruption_after] at hcanceled
    rw [interruption_after, genealogy_append]
    exact Genealogy.interruption_calls more hcanceled later
  deadline_le := by
    intro i a d hdescends hd
    rw [deadline_after] at hd ⊢
    exact hdescends.deadline_le hd
  same _ _ hparent hhow := same_after calls hparent hhow

end ContextPool

end SqlWeave
