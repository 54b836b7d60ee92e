import Mathlib.Data.List.Forall2
import SqlWeave.Proofs.Inheritance

/-!
# What is loaded

A destination asks a cursor for one read after the other. A list stores each row as soon as it is
decoded and asks for the next one (`Cursor.storeAll`), an optional member asks once
(`Cursor.storeFirst`). Written down with what they leave unread, the two do what `Load.load` does.

How far a cursor gets does not depend on the destination : up to the end, or to the first read that
is no row or that is not decoded (`Cursor.Goes`). All rows before it are stored and no other, and
it decides the result (`Cursor.LoadsAll`, `Cursor.LoadsFirst`).

A statement that is bound and can be rendered is queried once, and what the database answers is what
there is to load (`BoundStatement.Finds`). The first row is told from that alone : it is not found
exactly if the database answered with a result that has no row (`BoundStatement.FirstRow`).
-/

namespace SqlWeave

namespace Cursor

/-- What a driver hands out when it is asked for a row. -/
abbrev Read := Except DriverError (List Value)

/-! ## Rows and failures -/

section Reads

variable {α : Type} [FromRow α] {columns : List String} {read : Read} {a : α} {e : LoadError}

/-- A read is a row, and the row is decoded as `a`. -/
inductive Gives (columns : List String) : Read → α → Prop
  | decoded {values : List Value} {a : α} (h : fromRow ⟨columns, values⟩ = .ok a) :
    Gives columns (.ok values) a

variable (α) in
/-- A read is no row, or the row is not decoded. -/
inductive Fails (columns : List String) : Read → LoadError → Prop
  | unread (e : DriverError) : Fails columns (.error e) (.rows e)
  | undecoded {values : List Value} {e : LoadError}
    (h : fromRow (α := α) ⟨columns, values⟩ = .error e) : Fails columns (.ok values) e

/-- A row that gives something is decoded to it. -/
theorem decodeRead_eq_ok_iff : decodeRead columns read = .ok a ↔ Gives columns read a := by
  constructor
  · intro h
    cases read with
    | error e => cases h
    | ok values => exact .decoded h
  · rintro ⟨h⟩
    exact h

/-- A row that fails is decoded to its failure. -/
theorem decodeRead_eq_error_iff :
    decodeRead (α := α) columns read = .error e ↔ Fails α columns read e := by
  constructor
  · intro h
    cases read with
    | error e' =>
      obtain rfl := Except.error.inj h
      exact .unread e'
    | ok values => exact .undecoded h
  · rintro (_ | h)
    · rfl
    · exact h

/-- How far reads get : `stored` are the rows before the first one that fails, if there is one, and
`left` is what follows it. -/
inductive Goes (columns : List String) : List Read → List α → Option LoadError → List Read → Prop
  | all {reads : List Read} {stored : List α} (h : List.Forall₂ (Gives columns) reads stored) :
    Goes columns reads stored none []
  | stops {before left : List Read} {read : Read} {stored : List α} {e : LoadError}
    (h : List.Forall₂ (Gives columns) before stored) (he : Fails α columns read e) :
    Goes columns (before ++ read :: left) stored (some e) left

theorem Goes.cons {reads left : List Read} {stored : List α} {failure : Option LoadError}
    (ha : Gives columns read a) (h : Goes columns reads stored failure left) :
    Goes columns (read :: reads) (a :: stored) failure left := by
  cases h with
  | all h => exact .all (.cons ha h)
  | stops h he => exact .stops (.cons ha h) he

/-- Reads get to their end, or to the first of them that fails. -/
theorem exists_goes (columns : List String) (reads : List Read) :
    ∃ (stored : List α) (failure : Option LoadError) (left : List Read),
      Goes columns reads stored failure left := by
  induction reads with
  | nil => exact ⟨[], none, [], .all .nil⟩
  | cons read reads ih =>
    cases hread : decodeRead (α := α) columns read with
    | error e => exact ⟨[], some e, reads, .stops .nil (decodeRead_eq_error_iff.mp hread)⟩
    | ok a =>
      obtain ⟨stored, failure, left, h⟩ := ih
      exact ⟨a :: stored, failure, left, h.cons (decodeRead_eq_ok_iff.mp hread)⟩

/-! ## Asking for one row after the other -/

/-- A list is filled. After `count` rows the next one is asked for, and it is stored if it is
decoded. What is not asked for is left. -/
def storeAll (columns : List String) (dest : List α) (count : Nat) :
    List Read → (List α × Except LoadError Nat) × List Read
  | [] => ((dest, .ok count), [])
  | .error e :: left => ((dest, .error (.rows e)), left)
  | .ok values :: left =>
    match fromRow ⟨columns, values⟩ with
    | .error e => ((dest, .error e), left)
    | .ok a => storeAll columns (dest ++ [a]) (count + 1) left

/-- An optional member is filled. One row is asked for. -/
def storeFirst (columns : List String) (dest : Option α) :
    List Read → (Option α × Except LoadError Nat) × List Read
  | [] => ((dest, .ok 0), [])
  | .error e :: left => ((dest, .error (.rows e)), left)
  | .ok values :: left =>
    match fromRow ⟨columns, values⟩ with
    | .error e => ((dest, .error e), left)
    | .ok a => ((some a, .ok 1), left)

/-- How loading ends after it has stored some rows. -/
def outcome (count : Nat) : Option LoadError → Except LoadError Nat
  | none => .ok count
  | some e => .error e

/-- A row that gives something is stored, and loading goes on. -/
theorem storeAll_gives (ha : Gives columns read a) (dest : List α) (count : Nat)
    (reads : List Read) :
    storeAll columns dest count (read :: reads) =
      storeAll columns (dest ++ [a]) (count + 1) reads := by
  obtain ⟨h⟩ := ha
  rw [storeAll, h]

/-- A row that fails ends loading, and those after it are left. -/
theorem storeAll_fails (he : Fails α columns read e) (dest : List α) (count : Nat)
    (left : List Read) :
    storeAll columns dest count (read :: left) = ((dest, .error e), left) := by
  cases he with
  | unread e => rfl
  | undecoded h => rw [storeAll, h]

/-- The rows before the first failure are stored, and nothing after it is asked for. -/
theorem Goes.storeAll_eq {reads left : List Read} {stored : List α} {failure : Option LoadError}
    (h : Goes columns reads stored failure left) (dest : List α) (count : Nat) :
    storeAll columns dest count reads =
      ((dest ++ stored, outcome (count + stored.length) failure), left) := by
  cases h with
  | all h =>
    induction h generalizing dest count with
    | nil => simp [storeAll, outcome]
    | cons ha _ ih =>
      rw [storeAll_gives ha, ih]
      simp [Nat.add_assoc, Nat.add_comm 1]
  | stops h he =>
    induction h generalizing dest count with
    | nil => simp [storeAll_fails he, outcome]
    | cons ha _ ih =>
      rw [List.cons_append, storeAll_gives ha, ih]
      simp [outcome]

theorem decodeReads_cons (read : Read) (reads : List Read) :
    decodeReads (α := α) columns (read :: reads) =
      match decodeRead columns read with
      | .error e => ([], some e)
      | .ok a => (decodeReads columns reads).map (a :: ·) id := by
  rw [decodeReads]
  cases decodeRead (α := α) columns read <;> rfl

/-- Decoding gives what loading stores, and the same failure. -/
theorem Goes.decodeReads_eq {reads left : List Read} {stored : List α}
    {failure : Option LoadError} (h : Goes columns reads stored failure left) :
    decodeReads columns reads = (stored, failure) := by
  cases h with
  | all h =>
    induction h with
    | nil => rfl
    | cons ha _ ih =>
      rw [decodeReads_cons, decodeRead_eq_ok_iff.mpr ha, ih]
      rfl
  | stops h he =>
    induction h with
    | nil => rw [List.nil_append, decodeReads_cons, decodeRead_eq_error_iff.mpr he]
    | cons ha _ ih =>
      rw [List.cons_append, decodeReads_cons, decodeRead_eq_ok_iff.mpr ha, ih]
      rfl

end Reads

/-! ## Lists -/

/-- A list takes the rows of a cursor up to its end or its first failure. -/
structure LoadsAll (α : Type) [FromRow α] (c : Cursor) : Prop where
  goes : ∃ (stored : List α) (failure : Option LoadError) (left : List Read),
    Goes c.columns c.reads stored failure left
  /-- All rows before the failure are stored after what was there, and no other. -/
  load_eq : ∀ {stored : List α} {failure : Option LoadError} {left : List Read},
    Goes c.columns c.reads stored failure left →
      ∀ dest : List α, Load.load dest c = (dest ++ stored, outcome stored.length failure)
  /-- Nothing after the failure is asked for. -/
  storeAll_eq : ∀ {stored : List α} {failure : Option LoadError} {left : List Read},
    Goes c.columns c.reads stored failure left →
      ∀ dest : List α, storeAll c.columns dest 0 c.reads = (Load.load dest c, left)
  ok_iff : ∀ (dest : List α) (n : Nat), (Load.load dest c).2 = .ok n ↔
    n = c.reads.length ∧ ∀ read ∈ c.reads, ∃ a : α, Gives c.columns read a
  error_iff : ∀ (dest : List α) (e : LoadError), (Load.load dest c).2 = .error e ↔
    ∃ before read left, c.reads = before ++ read :: left ∧
      (∀ read ∈ before, ∃ a : α, Gives c.columns read a) ∧ Fails α c.columns read e

section Lists

variable {α : Type} [FromRow α] {columns : List String}

/-- If every row gives something, there is a list of what they give. -/
theorem exists_stored {reads : List Read} (h : ∀ read ∈ reads, ∃ a : α, Gives columns read a) :
    ∃ stored : List α, List.Forall₂ (Gives columns) reads stored := by
  induction reads with
  | nil => exact ⟨[], .nil⟩
  | cons read reads ih =>
    rw [List.forall_mem_cons] at h
    obtain ⟨⟨a, ha⟩, hrest⟩ := h
    obtain ⟨stored, hstored⟩ := ih hrest
    exact ⟨a :: stored, .cons ha hstored⟩

theorem gives_of_stored {reads : List Read} {stored : List α}
    (h : List.Forall₂ (Gives columns) reads stored) :
    ∀ read ∈ reads, ∃ a : α, Gives columns read a := by
  induction h with
  | nil => exact nofun
  | cons ha _ ih => exact List.forall_mem_cons.mpr ⟨⟨_, ha⟩, ih⟩

/-- Loading stores in order, after what was there, and counts what it stored. -/
theorem Goes.load_eq {c : Cursor} {stored : List α} {failure : Option LoadError}
    {left : List Read} (h : Goes c.columns c.reads stored failure left) (dest : List α) :
    Load.load dest c = (dest ++ stored, outcome stored.length failure) := by
  simp only [Load.load, h.decodeReads_eq]
  cases failure <;> rfl

/-- Loading all rows, in every case. -/
theorem loadsAll (α : Type) [FromRow α] (c : Cursor) : LoadsAll α c where
  goes := exists_goes c.columns c.reads
  load_eq := Goes.load_eq
  storeAll_eq h dest := by rw [h.storeAll_eq, h.load_eq, Nat.zero_add]
  ok_iff dest n := by
    constructor
    · intro hok
      obtain ⟨stored, failure, left, h⟩ := exists_goes (α := α) c.columns c.reads
      rw [h.load_eq] at hok
      generalize c.reads = reads at h ⊢
      cases h with
      | all h =>
        obtain rfl : stored.length = n := Except.ok.inj hok
        exact ⟨h.length_eq.symm, gives_of_stored h⟩
      | stops _ _ => cases hok
    · rintro ⟨rfl, hall⟩
      obtain ⟨stored, hstored⟩ := exists_stored hall
      have hgoes : Goes c.columns c.reads stored none [] := .all hstored
      rw [hgoes.load_eq, hstored.length_eq, outcome]
  error_iff dest e := by
    constructor
    · intro herror
      obtain ⟨stored, failure, left, h⟩ := exists_goes (α := α) c.columns c.reads
      rw [h.load_eq] at herror
      generalize c.reads = reads at h ⊢
      cases h with
      | all _ => cases herror
      | stops h he =>
        obtain rfl := Except.error.inj herror
        exact ⟨_, _, left, rfl, gives_of_stored h, he⟩
    · rintro ⟨before, read, left, hreads, hbefore, he⟩
      obtain ⟨stored, hstored⟩ := exists_stored hbefore
      have hgoes : Goes c.columns c.reads stored (some e) left := hreads ▸ .stops hstored he
      rw [hgoes.load_eq, outcome]

end Lists

/-! ## Optional members -/

/-- An optional member takes the first row of a cursor, if there is one. -/
structure LoadsFirst (α : Type) [FromRow α] (c : Cursor) : Prop where
  none : c.reads = [] → ∀ dest : Option α, Load.load dest c = (dest, .ok 0)
  gives : ∀ {read : Read} {left : List Read} {a : α}, c.reads = read :: left →
    Gives c.columns read a → ∀ dest : Option α, Load.load dest c = (some a, .ok 1)
  fails : ∀ {read : Read} {left : List Read} {e : LoadError}, c.reads = read :: left →
    Fails α c.columns read e → ∀ dest : Option α, Load.load dest c = (dest, .error e)
  /-- One read is asked for at most. -/
  storeFirst_eq : ∀ dest : Option α,
    storeFirst c.columns dest c.reads = (Load.load dest c, c.reads.tail)
  /-- What follows the first read makes no difference. -/
  load_take : ∀ dest : Option α, Load.load dest { c with reads := c.reads.take 1 } =
    Load.load dest c

section Options

variable {α : Type} [FromRow α]

theorem load_option_nil {c : Cursor} (h : c.reads = []) (dest : Option α) :
    Load.load dest c = (dest, .ok 0) := by
  simp only [Load.load, h]

/-- One row is stored, in the place of what was there. -/
theorem load_option_cons {c : Cursor} {read : Read} {left : List Read} (h : c.reads = read :: left)
    (dest : Option α) :
    Load.load dest c =
      match decodeRead c.columns read with
      | .error e => (dest, .error e)
      | .ok a => (some a, .ok 1) := by
  cases hread : decodeRead (α := α) c.columns read <;> simp only [Load.load, h, hread]

/-- Loading the first row, in every case. -/
theorem loadsFirst (α : Type) [FromRow α] (c : Cursor) : LoadsFirst α c where
  none h dest := load_option_nil h dest
  gives h ha dest := by rw [load_option_cons h, decodeRead_eq_ok_iff.mpr ha]
  fails h he dest := by rw [load_option_cons h, decodeRead_eq_error_iff.mpr he]
  storeFirst_eq dest := by
    cases hreads : c.reads with
    | nil => rw [load_option_nil hreads, storeFirst, List.tail_nil]
    | cons read left =>
      rw [load_option_cons hreads, List.tail_cons]
      cases read with
      | error e => rfl
      | ok values =>
        rw [storeFirst, decodeRead]
        cases fromRow (α := α) ⟨c.columns, values⟩ <;> rfl
  load_take dest := by
    cases hreads : c.reads with
    | nil => rw [load_option_nil hreads, load_option_nil rfl]
    | cons read left => rw [load_option_cons hreads, load_option_cons rfl]

end Options

end Cursor

/-! ## What there is to load -/

/-- The queries among steps : where each was made, its text and values, and the answer. -/
def queries : List Step → List (Handle × Query × Except DriverError Cursor) :=
  List.filterMap fun
    | .query handle _ q reply => some (handle, q, reply)
    | _ => none

/-- What a statement finds to load : a cursor, or why there is none. Nothing is asked for a
statement that nothing has bound, and no query is made of one that cannot be rendered. Any other is
queried once, as it is rendered and where it is bound, and finds what the database answers. -/
inductive BoundStatement.Finds (s : BoundStatement) : List Step → Except Error Cursor → Prop
  | unbound (hs : s.route = none) : Finds s [] (.error .unbound)
  | refused {r : Route} {q : Query} {e : RenderError} {steps : List Step} (hs : s.route = some r)
    (hq : r.rendered s.statement.node = ⟨q, some e⟩) (hsteps : queries steps = []) :
    Finds s steps (.error (.render e))
  | answered {r : Route} {q : Query} {reply : Except DriverError Cursor} {steps : List Step}
    (hs : s.route = some r) (hq : r.rendered s.statement.node = ⟨q, none⟩)
    (hsteps : queries steps = [(r.handle, q, reply)]) : Finds s steps (reply.mapError .driver)

/-- Loading what there is to load into a destination. Where there is no cursor, the destination is
left alone. -/
def loadFrom {δ : Type} [Load δ] (dest : δ) : Except Error Cursor → δ × Except Error Nat
  | .error e => (dest, .error e)
  | .ok c => ((Load.load dest c).1, (Load.load dest c).2.mapError .load)

section Answers

variable {W δ : Type} [Load δ]

/-- A span around a query does not hide it, and is no query itself. -/
theorem queries_passage (r : Route) (name : String) (q : Query) (inner : Context)
    (reply : Except DriverError Cursor) :
    queries (r.passage name q (fun ctx reply => .query r.handle ctx q reply) inner reply) =
      [(r.handle, q, reply)] := by
  unfold Route.passage
  split
  · cases reply <;> rfl
  · rfl

theorem queries_append (steps more : List Step) :
    queries (steps ++ more) = queries steps ++ queries more :=
  List.filterMap_append

/-- Neither the clock nor the report of the time is a query. -/
theorem queries_clocked (r : Route) (name : String) (q : Query) (start stop : Nat)
    (steps : List Step) : queries (r.clocked name q start stop steps) = queries steps := by
  rw [Route.clocked, queries_append]
  exact List.append_nil _

/-- Every way in which a bound statement can be loaded is one of finding a cursor or none, and of
loading what was found. -/
theorem BoundStatement.finds_of_loadTrace {s : BoundStatement} {r : Route} (hs : s.route = some r)
    {context : Context} {dest : δ} {loaded : δ × Except Error Nat} {steps : List Step}
    (h : { r with context }.LoadTrace s.statement.node dest loaded steps) :
    ∃ found, s.Finds steps found ∧ loaded = loadFrom dest found := by
  cases h with
  | refused hq => exact ⟨_, .refused hs hq rfl, rfl⟩
  | failed hq start stop inner e =>
    refine ⟨(Except.error e).mapError .driver, .answered hs hq ?_, rfl⟩
    rw [queries_clocked, queries_append, queries_passage]
    rfl
  | unloaded hq start stop inner c hload =>
    refine ⟨(Except.ok c).mapError .driver, .answered hs hq ?_,
      by simp [loadFrom, Except.mapError, hload]⟩
    rw [queries_clocked, queries_append, queries_passage]
    rfl
  | loaded hq start stop inner c hload =>
    refine ⟨(Except.ok c).mapError .driver, .answered hs hq ?_,
      by simp [loadFrom, Except.mapError, hload]⟩
    rw [queries_clocked, queries_passage]

/-- A statement loads what it finds. -/
theorem BoundStatement.load_finds (b : Backend (StateM W)) (s : BoundStatement) (dest : δ)
    (context : Option Context) :
    Records (s.load b.recorded dest context) (s.load b dest context) fun loaded steps =>
      ∃ found, s.Finds steps found ∧ loaded = loadFrom dest found := by
  unfold load routeIn
  cases hs : s.route with
  | none => exact .pure ⟨_, .unbound hs, rfl⟩
  | some r => exact (Route.load_records b _ _ dest).mono fun _ _ => finds_of_loadTrace hs

end Answers

/-! ## First rows -/

namespace BoundStatement

open Cursor (Gives Fails Read decodeRead decodeRead_eq_ok_iff decodeRead_eq_error_iff)

/-- The first row of a query, told from what the statement found. -/
structure FirstRow {α : Type} [FromRow α] (found : Except Error Cursor)
    (result : Except Error α) : Prop where
  /-- It is the row that was read first, decoded. -/
  ok_iff : ∀ a, result = .ok a ↔ ∃ (c : Cursor) (read : Read) (left : List Read),
    found = .ok c ∧ c.reads = read :: left ∧ Gives c.columns read a
  /-- There was an answer, and it has no row. -/
  notFound_iff : result = .error .notFound ↔ ∃ c : Cursor, found = .ok c ∧ c.reads = []
  /-- The first row could not be read or decoded. -/
  load_iff : ∀ e, result = .error (.load e) ↔ ∃ (c : Cursor) (read : Read) (left : List Read),
    found = .ok c ∧ c.reads = read :: left ∧ Fails α c.columns read e
  /-- There was no answer. -/
  of_error : ∀ e, found = .error e → result = .error e

section

variable {α : Type} [FromRow α]

/-- The first row of a cursor is its first read, decoded. -/
theorem firstRow_loadFrom (c : Cursor) :
    firstRow (loadFrom (none : Option α) (.ok c)) =
      match c.reads with
      | [] => .error .notFound
      | read :: _ => (decodeRead c.columns read).mapError .load := by
  simp only [loadFrom]
  cases hreads : c.reads with
  | nil =>
    rw [Cursor.load_option_nil hreads]
    rfl
  | cons read left =>
    rw [Cursor.load_option_cons hreads]
    dsimp only
    cases decodeRead (α := α) c.columns read <;> rfl

/-- A statement that finds no cursor fails otherwise than a query without a row, or with a row that
cannot be loaded. -/
theorem Finds.ne_of_error {s : BoundStatement} {steps : List Step} {e : Error}
    (h : s.Finds steps (.error e)) : e ≠ .notFound ∧ ∀ e', e ≠ .load e' := by
  generalize hfound : (Except.error e : Except Error Cursor) = found at h
  cases h with
  | unbound =>
    obtain rfl := Except.error.inj hfound
    exact ⟨by decide, fun _ => nofun⟩
  | refused =>
    obtain rfl := Except.error.inj hfound
    exact ⟨nofun, fun _ => nofun⟩
  | @answered _ _ reply =>
    cases reply with
    | error e' =>
      obtain rfl := Except.error.inj hfound
      exact ⟨nofun, fun _ => nofun⟩
    | ok c => cases hfound

/-- The first row of what was found, or why there is none. -/
theorem Finds.firstRow {s : BoundStatement} {steps : List Step} {found : Except Error Cursor}
    (h : s.Finds steps found) : FirstRow (α := α) found (firstRow (loadFrom none found)) := by
  cases found with
  | error e =>
    have hne := h.ne_of_error
    constructor <;> simp [BoundStatement.firstRow, loadFrom, hne]
  | ok c =>
    rw [firstRow_loadFrom]
    cases hreads : c.reads with
    | nil => constructor <;> simp [hreads]
    | cons read left =>
      constructor <;> cases hread : decodeRead (α := α) c.columns read <;>
        simp [hreads, ← decodeRead_eq_ok_iff, ← decodeRead_eq_error_iff, hread, Except.mapError]

end

end BoundStatement

/-- Whatever a cursor hands out and however rows are decoded, loading stores the rows before the
first failure, in a list all of them and in an optional member the first, and says how many they
are or what the failure is. A statement that is bound and can be rendered is queried once, and
loaded from what the database answers; the first row of a query is the one that this answer has
first. -/
theorem Cursor.loads_exactly {W : Type} (b : Backend (StateM W)) (α : Type) [FromRow α] :
    (∀ c : Cursor, LoadsAll α c ∧ LoadsFirst α c) ∧
    ∀ (s : BoundStatement) (context : Option Context),
      (∀ (δ : Type) [Load δ] (dest : δ),
        Records (s.load b.recorded dest context) (s.load b dest context) fun loaded steps =>
          ∃ found, s.Finds steps found ∧ loaded = loadFrom dest found) ∧
      Records (s.loadOne α b.recorded context) (s.loadOne α b context) fun result steps =>
        ∃ found, s.Finds steps found ∧ BoundStatement.FirstRow found result := by
  refine ⟨fun c => ⟨loadsAll α c, loadsFirst α c⟩, fun s context => ⟨fun δ _ dest => ?_, ?_⟩⟩
  · exact s.load_finds b dest context
  · refine (BoundStatement.loadOne_records b s context (s.load_finds b none context)).mono ?_
    rintro result steps ⟨loaded, ⟨found, hfound, rfl⟩, rfl⟩
    exact ⟨found, hfound, hfound.firstRow⟩

/-- A database that gives one answer to every query. -/
def Backend.answering (reply : Except DriverError Cursor) : Backend (StateM Unit) where
  connect _ _ := pure (.ok 0)
  execute _ _ _ := pure (.ok ⟨0, none⟩)
  query _ _ _ := pure reply
  begin _ _ := pure (.ok 0)
  commit _ := pure (.ok ())
  rollback _ := pure (.ok ())
  silentReceiver := pure ⟨0, false⟩
  notify _ _ := pure ()
  startSpan _ outer _ _ := pure outer
  failSpan _ _ _ := pure ()
  finishSpan _ _ := pure ()
  record _ := pure ()
  clock := pure 0

/-- A query that is bound to a transaction with a traced receiver. -/
def BoundStatement.above (n : Int64) : BoundStatement :=
  ⟨.select (.text ⟨"SELECT n FROM t WHERE n > ?", [.value (.signed n)]⟩),
    some ⟨.transaction 4, .background, ⟨0, true⟩, .postgres⟩⟩

/-- Two rows, and then a read that fails. -/
def Cursor.cutOff : Cursor :=
  ⟨["n"], [.ok [.signed 7], .ok [.signed 8], .error (.failed "lost")]⟩

open BoundStatement in
/-- The query is made once. Its first row is loaded alone, and both rows into a list before the
failure. -/
theorem Cursor.loads_exactly_cut_off :
    (∃ steps found, (above 6).Finds steps found ∧
      queries steps =
        [(.transaction 4, ⟨"SELECT n FROM t WHERE n > $1", [.signed 6]⟩, .ok cutOff)] ∧
      FirstRow found (.ok (7 : Int64))) ∧
    ∃ steps found, (above 6).Finds steps found ∧
      loadFrom [(1 : Int64)] found = ([1, 7, 8], .error (.load (.rows (.failed "lost")))) := by
  obtain ⟨hload, hfirst⟩ :=
    (loads_exactly (Backend.answering (.ok cutOff)) Int64).2 (above 6) none
  constructor
  · obtain ⟨steps, ⟨found, hfinds, hrow⟩, hrun⟩ := hfirst [] ()
    have hqueries := congrArg (fun run => queries run.1.2) hrun
    exact ⟨steps, found, hfinds, hqueries.symm, hrow⟩
  · obtain ⟨steps, ⟨found, hfinds, hloaded⟩, -⟩ := hload (List Int64) [1] [] ()
    exact ⟨steps, found, hfinds, hloaded.symm⟩

end SqlWeave
