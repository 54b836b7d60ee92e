import SqlWeave.Context

/-!
# The genealogy of contexts

Contexts are derived one from another, handles are copied, and flags are set, in any order
(`ContextCall`). The genealogy keeps what a caller would write down of this : for each
context the steps by which it was derived from the background context, for each handle the
context with which it was given out, and which of these were cancelled (`Genealogy`). It
knows no flag and no deadline of a context.

When a context ends is told from its path alone (`Genealogy.interruption`). A path is longer
than those of the contexts that it comes from, so a context ends when one of these does
(`Genealogy.Descends.isSome_interruption`), and a handle is heeded only by the contexts that
descend from the one with which it was given out (`Genealogy.interruption_cancel`).
-/

namespace SqlWeave

/-! ## Calls -/

/-- A way to derive a context from another. -/
inductive Derivation where
  | copy
  | withCancel
  | withDeadline (deadline : Instant)
  | withTimeout (now : Instant) (timeout : Int)
  | withSpan (span : SpanId)

/-- A call of a caller who has contexts and handles. They are numbered in the order in which
he got them. -/
inductive ContextCall where
  | derive (parent : Nat) (how : Derivation)
  | copyHandle (handle : Nat)
  | cancel (handle : Nat)

/-! ## Genealogy -/

namespace Derivation

/-- The new flag that a step adds, as the number of the context that it makes. -/
def flagged (how : Derivation) (n : Nat) : List Nat :=
  match how with
  | .withCancel => [n]
  | .copy | .withDeadline _ | .withTimeout .. | .withSpan _ => []

theorem eq_of_mem_flagged {how : Derivation} {n n' : Nat} (h : n' ∈ how.flagged n) : n' = n := by
  cases how with
  | withCancel => exact List.mem_singleton.mp h
  | copy | withDeadline | withTimeout | withSpan => simp [flagged] at h

/-- The deadline that a step sets. -/
def deadlines : Derivation → List Instant
  | .withDeadline deadline => [deadline]
  | .withTimeout now timeout => [now + timeout]
  | .copy | .withCancel | .withSpan _ => []

end Derivation

/-- The steps by which a context was derived from the background context, each with the
number of the context that it made. -/
abbrev DerivationPath := List (Nat × Derivation)

namespace DerivationPath

/-- The contexts on a path that were made with a new flag. -/
def flagged (path : DerivationPath) : List Nat := path.flatMap fun step => step.2.flagged step.1

/-- The deadlines that were set on a path. -/
def deadlines (path : DerivationPath) : List Instant := path.flatMap fun step => step.2.deadlines

theorem flagged_concat (path : DerivationPath) (n : Nat) (how : Derivation) :
    flagged (path ++ [(n, how)]) = path.flagged ++ how.flagged n := by
  simp [flagged]

/-- The flags on a path are those of the steps that made contexts with one. -/
theorem mem_flagged {path : DerivationPath} {n : Nat} :
    n ∈ path.flagged ↔ (n, .withCancel) ∈ path := by
  unfold flagged
  constructor
  · intro h
    obtain ⟨⟨n', how⟩, hmem, hn⟩ := List.mem_flatMap.mp h
    obtain rfl := Derivation.eq_of_mem_flagged hn
    cases how with
    | withCancel => exact hmem
    | copy | withDeadline | withTimeout | withSpan => simp [Derivation.flagged] at hn
  · intro h
    exact List.mem_flatMap.mpr ⟨_, h, List.mem_singleton.mpr rfl⟩

theorem deadlines_concat (path : DerivationPath) (n : Nat) (how : Derivation) :
    deadlines (path ++ [(n, how)]) = path.deadlines ++ how.deadlines := by
  simp [deadlines]

end DerivationPath

/-- How the contexts came about, the contexts with which the handles were given out, and
which of these have been cancelled. -/
structure Genealogy where
  paths : List DerivationPath := [[]]
  origins : List Nat := []
  cancelled : List Nat := []

namespace Genealogy

/-- Note a call. -/
def call (g : Genealogy) : ContextCall → Genealogy
  | .derive parent how =>
    match g.paths[parent]? with
    | some path =>
      let n := g.paths.length
      { g with
        paths := g.paths ++ [path ++ [(n, how)]]
        origins := g.origins ++ how.flagged n }
    | none => g
  | .copyHandle handle => { g with origins := g.origins ++ g.origins[handle]?.toList }
  | .cancel handle => { g with cancelled := g.origins[handle]?.toList ++ g.cancelled }

/-- The genealogy after calls. -/
def after (calls : List ContextCall) : Genealogy := calls.foldl call {}

/-- A handle that a step on the path gave out has been cancelled. -/
def Canceled (g : Genealogy) (path : DerivationPath) : Prop :=
  ∃ n ∈ path.flagged, n ∈ g.cancelled

instance (g : Genealogy) (path : DerivationPath) : Decidable (g.Canceled path) :=
  inferInstanceAs (Decidable (∃ n ∈ path.flagged, n ∈ g.cancelled))

/-- Why a context has ended by `now`, if it has, told from its path. -/
def interruption (g : Genealogy) (i : Nat) (now : Instant) : Option Interruption :=
  g.paths[i]?.bind fun path =>
    if g.Canceled path then some .canceled
    else if path.deadlines.min?.any (· ≤ now) then some .deadlineExceeded
    else none

/-- The deadline of a context, told from its path. -/
def deadline (g : Genealogy) (i : Nat) : Option Instant :=
  g.paths[i]?.bind fun path => path.deadlines.min?

/-- Context `i` is context `a`, or was derived from it in some steps. -/
def Descends (g : Genealogy) (i a : Nat) : Prop :=
  ∃ path ancestral, g.paths[i]? = some path ∧ g.paths[a]? = some ancestral ∧ ancestral <+: path

/-- Two contexts that were derived from the same one. -/
def Siblings (g : Genealogy) (i j : Nat) : Prop :=
  i ≠ j ∧ ∃ path how how', g.paths[i]? = some (path ++ [(i, how)]) ∧
    g.paths[j]? = some (path ++ [(j, how')])

end Genealogy

/-! ## Paths -/

/-- Paths of contexts that were derived one after the other from the background context. -/
inductive Grown : List DerivationPath → Prop
  | background : Grown [[]]
  | derive {paths : List DerivationPath} {parent : Nat} {path : DerivationPath} (how : Derivation)
      (h : Grown paths) (hparent : paths[parent]? = some path) :
      Grown (paths ++ [path ++ [(paths.length, how)]])

namespace Grown

variable {paths : List DerivationPath} {i n : Nat} {path : DerivationPath} {how : Derivation}

/-- A path is one of the old ones, or it is the new one. -/
theorem getElem?_concat_cases {last : DerivationPath} (h : (paths ++ [last])[i]? = some path) :
    paths[i]? = some path ∨ i = paths.length ∧ path = last := by
  rcases Nat.lt_or_ge i paths.length with hi | hi
  · rw [List.getElem?_append_left hi] at h
    exact .inl h
  · obtain ⟨hlt, -⟩ := List.getElem?_eq_some_iff.mp h
    obtain rfl : i = paths.length := by simp at hlt; omega
    rw [List.getElem?_concat_length] at h
    exact .inr ⟨rfl, (Option.some.inj h).symm⟩

/-- A context that a path names was not made later than the one that the path is for, and its
own path is where this one comes from. -/
theorem prefix_of_mem (h : Grown paths) (hpath : paths[i]? = some path) (hn : (n, how) ∈ path) :
    n ≤ i ∧ ∃ ancestral, paths[n]? = some ancestral ∧ ancestral <+: path := by
  induction h generalizing i path with
  | background =>
    obtain rfl : path = [] := by
      rcases i with _ | i <;> simp_all
    simp at hn
  | @derive paths parent parental how' h hparent ih =>
    have hold {i : Nat} {path : DerivationPath} (hpath : paths[i]? = some path)
        (hn : (n, how) ∈ path) : n ≤ i ∧ ∃ ancestral,
          (paths ++ [parental ++ [(paths.length, how')]])[n]? = some ancestral ∧
            ancestral <+: path := by
      obtain ⟨hle, ancestral, hn, hpre⟩ := ih hpath hn
      obtain ⟨hlt, -⟩ := List.getElem?_eq_some_iff.mp hn
      exact ⟨hle, ancestral, by rwa [List.getElem?_append_left hlt], hpre⟩
    rcases getElem?_concat_cases hpath with hpath | ⟨rfl, rfl⟩
    · exact hold hpath hn
    · rcases List.mem_append.mp hn with hn | hn
      · obtain ⟨hlt, -⟩ := List.getElem?_eq_some_iff.mp hparent
        obtain ⟨hle, ancestral, hn, hpre⟩ := hold hparent hn
        exact ⟨by omega, ancestral, hn, hpre.trans (List.prefix_append _ _)⟩
      · obtain ⟨rfl, rfl⟩ : n = paths.length ∧ how = how' := by simpa using hn
        exact ⟨Nat.le_refl _, _, List.getElem?_concat_length, List.prefix_rfl⟩

/-- The path of a context other than the first names it. -/
theorem mem_own (h : Grown paths) (hpath : paths[i]? = some path) :
    i = 0 ∨ ∃ how, (i, how) ∈ path := by
  induction h generalizing i path with
  | background =>
    rcases i with _ | i
    · exact .inl rfl
    · simp at hpath
  | @derive paths parent parental how' h hparent ih =>
    rcases getElem?_concat_cases hpath with hpath | ⟨rfl, rfl⟩
    · exact ih hpath
    · exact .inr ⟨how', by simp⟩

end Grown

namespace Genealogy

variable {g : Genealogy} {i a : Nat}

/-- A context was made after those that it descends from. -/
theorem Descends.le (h : g.Descends i a) (hg : Grown g.paths) : a ≤ i := by
  obtain ⟨path, ancestral, hi, ha, hpre⟩ := h
  rcases hg.mem_own ha with rfl | ⟨how, hown⟩
  · exact Nat.zero_le i
  · exact (hg.prefix_of_mem hi (hpre.subset hown)).1

/-- No context descends from one that is derived from it. -/
theorem Descends.not_symm (h : g.Descends i a) (hne : a ≠ i) (hg : Grown g.paths) :
    ¬g.Descends a i :=
  fun h' => hne (Nat.le_antisymm (h.le hg) (h'.le hg))

/-- Siblings do not descend from each other. -/
theorem Siblings.not_descends (h : g.Siblings i a) : ¬g.Descends a i := by
  obtain ⟨hne, path, how, how', hi, ha⟩ := h
  rintro ⟨_, _, ha', hi', hpre⟩
  obtain rfl := Option.some.inj (ha.symm.trans ha')
  obtain rfl := Option.some.inj (hi.symm.trans hi')
  have heq := hpre.eq_of_length (by simp)
  exact hne (by simpa using heq : i = a ∧ how = how').1

end Genealogy

/-- The earlier of the deadlines so far and of one more. -/
theorem min?_concat (deadlines : List Instant) (d : Instant) :
    (deadlines ++ [d]).min? = some (match deadlines.min? with
      | some earlier => if earlier < d then earlier else d
      | none => d) := by
  have hmin (earlier : Int) : min earlier d = if earlier < d then earlier else d := by
    split <;> omega
  cases deadlines with
  | nil => rfl
  | cons first rest =>
    simp only [List.cons_append, List.min?_cons', List.foldl_append, List.foldl_cons,
      List.foldl_nil, hmin]

/-! ## What a path tells -/

namespace DerivationPath

variable {path more : DerivationPath}

/-- A longer path has all the flags of a shorter one. -/
theorem flagged_subset (h : path <+: more) : path.flagged ⊆ more.flagged :=
  fun _ hn => mem_flagged.mpr (h.subset (mem_flagged.mp hn))

/-- The earliest deadline of a longer path is no later. -/
theorem min?_deadlines_le (h : path <+: more) {d : Instant} (hd : path.deadlines.min? = some d) :
    ∃ d' ≤ d, more.deadlines.min? = some d' := by
  obtain ⟨rest, rfl⟩ := h
  have hmem : d ∈ deadlines (path ++ rest) := by
    rw [deadlines, List.flatMap_append]
    exact List.mem_append_left _ (List.min?_mem hd)
  cases hmin : (deadlines (path ++ rest)).min? with
  | none =>
    rw [List.min?_eq_none_iff] at hmin
    simp [hmin] at hmem
  | some d' => exact ⟨d', (List.min?_eq_some_iff.mp hmin).2 d hmem, rfl⟩

end DerivationPath

namespace Genealogy

variable {g g' : Genealogy} {i a : Nat}

/-- A context stays cancelled when more is, and when it is derived from. -/
theorem Canceled.mono {path more : DerivationPath} (h : g.Canceled path)
    (hflagged : path.flagged ⊆ more.flagged) (hcancelled : g.cancelled ⊆ g'.cancelled) :
    g'.Canceled more := by
  obtain ⟨n, hn, hset⟩ := h
  exact ⟨n, hflagged hn, hcancelled hset⟩

/-- Cancelling comes before every deadline. -/
theorem interruption_eq_canceled {now : Instant} :
    g.interruption i now = some .canceled ↔ ∃ path, g.paths[i]? = some path ∧ g.Canceled path := by
  unfold interruption
  cases g.paths[i]? with
  | none => simp
  | some path =>
    by_cases h : g.Canceled path
    · simp [h]
    · simp [h]

/-- A context has ended if it was cancelled, or if its earliest deadline has passed. -/
theorem isSome_interruption {now : Instant} :
    (g.interruption i now).isSome ↔ ∃ path, g.paths[i]? = some path ∧
      (g.Canceled path ∨ ∃ d ≤ now, path.deadlines.min? = some d) := by
  unfold interruption
  cases g.paths[i]? with
  | none => simp
  | some path =>
    by_cases h : g.Canceled path
    · simp [h]
    · simp [h, Option.any_eq_true, and_comm]

/-- A context ends when one that it descends from does. -/
theorem Descends.isSome_interruption (h : g.Descends i a) {now : Instant}
    (hdone : (g.interruption a now).isSome) : (g.interruption i now).isSome := by
  obtain ⟨path, ancestral, hi, ha, hpre⟩ := h
  obtain ⟨_, ha', hended⟩ := Genealogy.isSome_interruption.mp hdone
  obtain rfl := Option.some.inj (ha.symm.trans ha')
  refine Genealogy.isSome_interruption.mpr ⟨path, hi, ?_⟩
  rcases hended with hcanceled | ⟨d, hd, hmin⟩
  · exact .inl (hcanceled.mono (DerivationPath.flagged_subset hpre) (List.Subset.refl _))
  · obtain ⟨d', hd', hmin'⟩ := DerivationPath.min?_deadlines_le hpre hmin
    exact .inr ⟨d', Int.le_trans hd' hd, hmin'⟩

/-- A context has no later deadline than one that it descends from. -/
theorem Descends.deadline_le (h : g.Descends i a) {d : Instant} (hd : g.deadline a = some d) :
    ∃ d' ≤ d, g.deadline i = some d' := by
  obtain ⟨path, ancestral, hi, ha, hpre⟩ := h
  simp only [deadline, hi, ha, Option.bind_some] at hd ⊢
  exact DerivationPath.min?_deadlines_le hpre hd

/-- Cancelling a handle says nothing about contexts that do not descend from the one with
which it was given out. -/
theorem interruption_cancel (hg : Grown g.paths) {handle n : Nat}
    (hhandle : g.origins[handle]? = some n) (h : ¬g.Descends i n) (now : Instant) :
    (g.call (.cancel handle)).interruption i now = g.interruption i now := by
  have hpaths : (g.call (.cancel handle)).paths = g.paths := rfl
  have hcancelled : (g.call (.cancel handle)).cancelled = n :: g.cancelled := by
    simp [call, hhandle]
  unfold interruption
  rw [hpaths]
  cases hi : g.paths[i]? with
  | none => rfl
  | some path =>
    have hn : n ∉ path.flagged := by
      intro hn
      obtain ⟨-, ancestral, hancestral, hpre⟩ :=
        hg.prefix_of_mem hi (DerivationPath.mem_flagged.mp hn)
      exact h ⟨path, ancestral, hi, hancestral, hpre⟩
    have hsame : (g.call (.cancel handle)).Canceled path ↔ g.Canceled path := by
      refine exists_congr fun m => and_congr_right fun hm => ?_
      have hne : m ≠ n := fun heq => hn (heq ▸ hm)
      simp [hcancelled, hne]
    simp only [Option.bind_some, hsame]

/-! ## Later calls -/

/-- A call adds to the contexts and to what is cancelled, and takes nothing away. -/
theorem prefix_call (g : Genealogy) (c : ContextCall) :
    g.paths <+: (g.call c).paths ∧ g.cancelled ⊆ (g.call c).cancelled := by
  cases c with
  | derive parent how =>
    simp only [call]
    split
    · exact ⟨List.prefix_append _ _, List.Subset.refl _⟩
    · exact ⟨List.prefix_rfl, List.Subset.refl _⟩
  | copyHandle handle => exact ⟨List.prefix_rfl, List.Subset.refl _⟩
  | cancel handle => exact ⟨List.prefix_rfl, List.subset_append_right _ _⟩

/-- Calls only add to what there is. -/
theorem prefix_calls (g : Genealogy) (cs : List ContextCall) :
    g.paths <+: (cs.foldl call g).paths ∧ g.cancelled ⊆ (cs.foldl call g).cancelled := by
  induction cs generalizing g with
  | nil => exact ⟨List.prefix_rfl, List.Subset.refl _⟩
  | cons c cs ih =>
    obtain ⟨hpaths, hcancelled⟩ := g.prefix_call c
    obtain ⟨hpaths', hcancelled'⟩ := ih (g.call c)
    exact ⟨hpaths.trans hpaths', fun _ hn => hcancelled' (hcancelled hn)⟩

/-- A context that is canceled stays so. -/
theorem interruption_calls (cs : List ContextCall) {now : Instant}
    (h : g.interruption i now = some .canceled) (later : Instant) :
    (cs.foldl call g).interruption i later = some .canceled := by
  obtain ⟨path, hi, hcanceled⟩ := interruption_eq_canceled.mp h
  obtain ⟨⟨rest, hpaths⟩, hcancelled⟩ := g.prefix_calls cs
  refine interruption_eq_canceled.mpr ⟨path, ?_, hcanceled.mono (List.Subset.refl _) hcancelled⟩
  obtain ⟨hlt, -⟩ := List.getElem?_eq_some_iff.mp hi
  rw [← hpaths, List.getElem?_append_left hlt, hi]

/-- A context that is derived by a step without flag and deadline is, as far as its end goes,
the one that it is derived from. -/
theorem same_of_derive {parent : Nat} (hparent : parent < g.paths.length) {how : Derivation}
    (hflagged : how.flagged g.paths.length = []) (hdeadlines : how.deadlines = []) :
    (∀ now, (g.call (.derive parent how)).interruption g.paths.length now =
      g.interruption parent now) ∧
    (g.call (.derive parent how)).deadline g.paths.length = g.deadline parent := by
  have hpath := List.getElem?_eq_getElem hparent
  generalize g.paths[parent] = path at hpath
  have hflags : DerivationPath.flagged (path ++ [(g.paths.length, how)]) = path.flagged := by
    rw [DerivationPath.flagged_concat, hflagged, List.append_nil]
  have hends : DerivationPath.deadlines (path ++ [(g.paths.length, how)]) = path.deadlines := by
    rw [DerivationPath.deadlines_concat, hdeadlines, List.append_nil]
  have hnew : (g.call (.derive parent how)).paths[g.paths.length]? =
      some (path ++ [(g.paths.length, how)]) := by
    simp [call, hpath]
  have hcanceled : (g.call (.derive parent how)).Canceled (path ++ [(g.paths.length, how)]) ↔
      g.Canceled path := by
    simp [Canceled, call, hpath, hflags]
  unfold interruption deadline
  simp only [hnew, hpath, Option.bind_some, hcanceled, hends, implies_true, and_self]

end Genealogy

end SqlWeave
