import SqlWeave.Proofs.Composed
import SqlWeave.Proofs.Inlining.Reading

/-!
# Texts that can be read again

A text that a tree brings in is cut at its markers, and its pieces come to stand between
placeholders. The pieces can be read again (`Inline.Readable`) if each of them is copied and
none that comes right after a placeholder begins with a digit, which would run into the
placeholder's number. The texts of the library's nodes are of this kind
(`Builtin.readable_render`), and so are own texts that keep to a few rules
(`Inline.OwnText`).

In the frontier of a tree of such texts every piece of text is copied
(`Arg.OwnTextsReadable.forall_copied`), and none that begins with a digit follows a leaf
(`Arg.OwnTextsReadable.spaced_frontier`).
-/

namespace SqlWeave

open Template (Balanced)

namespace Inline

/-- A text that a caller wrote, without anything that a reader of placeholders could take for
his own. For PostgreSQL it has no `$`, no backtick, and no digit right after a marker, and
unless it is `free` to it does not begin with a digit. -/
structure OwnText (d : Dialect) (free : Bool) (text : String) : Prop where
  balanced : Balanced d text
  plain : d = .postgres → '$' ∉ text.toList ∧ '`' ∉ text.toList
  spaced : d = .postgres → ∀ p ∈ (Template.pieces d text).tail,
    Text.startsWithDigit p.toList = false
  start : d = .postgres → free = false → Text.startsWithDigit text.toList = false

/-- A text whose pieces can be read again between placeholders. Only the first can begin with
a digit, and only if the text is `free`. -/
structure Readable (d : Dialect) (free : Bool) (text : String) : Prop where
  copied : ∀ p ∈ Template.pieces d text, Copied d p.toList
  spaced : d = .postgres → ∀ p ∈ (Template.pieces d text).tail,
    Text.startsWithDigit p.toList = false
  start : d = .postgres → free = false →
    Text.startsWithDigit ((Template.pieces d text).headD "").toList = false

end Inline

/-! ## Spaced items -/

namespace Item

/-- An item that can come right after a leaf, or, if it is `free`, only elsewhere. -/
def Fits (free : Bool) : Item → Prop
  | .text s => free = true ∨ Text.startsWithDigit s.toList = false
  | .leaf _ | .fault _ => True

/-- Whether what comes next does not come right after a leaf. A text that is empty changes
nothing. -/
def freesNext (free : Bool) : Item → Bool
  | .text s => free || !s.toList.isEmpty
  | .leaf _ => false
  | .fault _ => free

/-- No text that begins with a digit stands right after a leaf. `free` says that the first
item does not come right after one. -/
def Spaced (free : Bool) : List Item → Prop
  | [] => True
  | item :: rest => item.Fits free ∧ Spaced (item.freesNext free) rest

theorem Fits.mono {free free' : Bool} (hle : free ≤ free') {item : Item}
    (h : item.Fits free) : item.Fits free' := by
  cases item with
  | text s =>
    refine h.imp_left fun hfree => ?_
    subst hfree
    exact Bool.eq_true_of_true_le hle
  | leaf | fault => trivial

theorem freesNext_mono {free free' : Bool} (hle : free ≤ free') (item : Item) :
    item.freesNext free ≤ item.freesNext free' := by
  cases item with
  | text s =>
    revert hle
    cases free <;> cases free' <;> cases hs : s.toList.isEmpty <;> simp [freesNext, hs]
  | leaf v => exact Bool.le_refl _
  | fault e => exact hle

/-- In PostgreSQL no leaf begins with a digit, bound or written out. -/
theorem startsWithDigit_leaf {t : Target} (ht : t.dialect = .postgres) (n : Nat) (v : Value)
    (rest : List Item) :
    Text.startsWithDigit (spelling t n (.leaf v :: rest)).toList = false := by
  rw [spelling, ht]
  split
  · simp [Dialect.placeholder, Text.startsWithDigit]
  · cases v <;> simp [Target.writtenOut, ht, Dialect.bytes, Dialect.bytesWrapper,
      Dialect.null, Text.startsWithDigit]

namespace Spaced

variable {free free' : Bool} {items more : List Item}

theorem mono (hle : free ≤ free') (h : Spaced free items) : Spaced free' items := by
  induction items generalizing free free' with
  | nil => trivial
  | cons item items ih => exact ⟨h.1.mono hle, ih (freesNext_mono hle item) h.2⟩

/-- Items that may follow a placeholder may follow other items. -/
theorem append (h : Spaced free items) (hmore : Spaced false more) :
    Spaced free (items ++ more) := by
  induction items generalizing free with
  | nil => exact hmore.mono (Bool.false_le free)
  | cons item items ih => exact ⟨h.1, ih h.2⟩

theorem text {s : String} (h : Text.startsWithDigit s.toList = false) : Spaced free [.text s] :=
  ⟨.inr h, trivial⟩

/-- What comes after a text that is not empty does not come right after a leaf. -/
theorem text_cons {s : String} (h : Text.startsWithDigit s.toList = false)
    (hne : s.toList.isEmpty = false) (hitems : Spaced true items) :
    Spaced free (.text s :: items) := by
  refine ⟨.inr h, ?_⟩
  simpa [freesNext, hne] using hitems

theorem flatMap {α : Type} {f : α → List Item} {xs : List α} (h : ∀ x ∈ xs, Spaced false (f x)) :
    Spaced false (xs.flatMap f) := by
  induction xs with
  | nil => trivial
  | cons x xs ih =>
    exact (h x List.mem_cons_self).append (ih fun y hy => h y (List.mem_cons_of_mem _ hy))

/-- Pieces that begin with no digit keep the fillings between them apart. -/
theorem weave {pieces : List String} {fillings : List (List Item)}
    (hfirst : free = true ∨ Text.startsWithDigit (pieces.headD "").toList = false)
    (hpieces : ∀ p ∈ pieces.tail, Text.startsWithDigit p.toList = false)
    (h : ∀ f ∈ fillings, Spaced false f) : Spaced free (weave pieces fillings) := by
  induction fillings generalizing pieces free with
  | nil => exact ⟨hfirst, trivial⟩
  | cons f fs ih =>
    rw [List.forall_mem_cons] at h
    refine ⟨hfirst, (h.1.mono (Bool.false_le _)).append (ih (.inr ?_) (fun p hp => ?_) h.2)⟩
    · cases htail : pieces.tail with
      | nil => rfl
      | cons p ps => exact hpieces p (by simp [htail])
    · exact hpieces p (List.mem_of_mem_tail hp)

theorem listed {fillings : List (List Item)} (h : ∀ f ∈ fillings, Spaced false f) :
    Spaced false (listed fillings) := by
  cases fillings with
  | nil => trivial
  | cons first rest =>
    rw [listed_of_ne_nil (by simp), Text.intercalate_cons_eq_append_flatMap]
    rw [List.forall_mem_cons] at h
    refine text_cons (by decide) (by decide) ?_
    refine ((h.1.mono (Bool.false_le _)).append (.flatMap fun f hf => ?_)).append
      (.text (by decide))
    exact text_cons (by decide) (by decide) ((h.2 f hf).mono (Bool.false_le _))

theorem enclosed (h : Spaced true items) : Spaced false (enclosed true items) :=
  text_cons (by decide) (by decide) (h.append (.text (by decide)))

/-- In PostgreSQL the text of items that may come right after a leaf does not begin with a
digit. -/
theorem startsWithDigit_spelling {t : Target} (ht : t.dialect = .postgres) (n : Nat)
    (h : Spaced false items) : Text.startsWithDigit (spelling t n items).toList = false := by
  induction items generalizing n with
  | nil => rfl
  | cons item items ih =>
    cases item with
    | text s =>
      rw [spelling, String.toList_append]
      obtain ⟨hdigit, hitems⟩ := h
      cases hs : s.toList with
      | nil => exact ih n (by simpa [freesNext, hs] using hitems)
      | cons c cs => simpa [Fits, hs, Text.startsWithDigit] using hdigit
    | leaf v => exact startsWithDigit_leaf ht n v items
    | fault e =>
      rw [spelling]
      exact ih n h.2

end Spaced

end Item

/-! ## Readable texts -/

namespace Template

variable {d : Dialect}

/-- A text that does not begin with a digit has a first piece that does not. -/
theorem startsWithDigit_headD_pieces {text : String}
    (h : Text.startsWithDigit text.toList = false) :
    Text.startsWithDigit ((pieces d text).headD "").toList = false := by
  unfold pieces
  cases htext : text.toList with
  | nil => rfl
  | cons c cs =>
    obtain ⟨p, ps, hp⟩ :=
      List.exists_cons_of_ne_nil (cut_ne_nil d (Quoting.outside.next d c) cs)
    rw [htext] at h
    by_cases hm : isMarker .outside c
    · simp [cut, hm, Text.startsWithDigit]
    · simpa [cut, hm, hp, Text.extendFirst, Text.startsWithDigit] using h

end Template

namespace Inline

variable {d : Dialect} {free : Bool} {text : String}

/-- What a caller wrote so can be read between placeholders. -/
theorem OwnText.readable (h : OwnText d free text) : Readable d free text where
  copied p hp := by
    refine .of_quiet (Template.quiet_of_mem_pieces h.balanced hp) fun hd => ?_
    subst hd
    exact undollared_of_mem_pieces h.balanced (h.plain rfl) hp
  spaced := h.spaced
  start hd hfree := Template.startsWithDigit_headD_pieces (h.start hd hfree)

end Inline

/-- The text of a regular layout is readable. -/
theorem Layout.Regular.readable_text {free : Bool} {l : Layout} (h : l.Regular free)
    (d : Dialect) : Inline.Readable d free (l.text d) := by
  have hpieces := h.pieces_text d
  obtain ⟨first, others, hbetween⟩ := List.exists_cons_of_ne_nil (between_ne_nil d l.segments)
  have hdigits := h.segments.startsWithDigit_between hbetween
  refine ⟨fun p hp => ?_, fun _ p hp => ?_, fun _ hfree => ?_⟩
  · rw [hpieces] at hp
    obtain ⟨cs, hcs, rfl⟩ := List.mem_map.mp hp
    rw [String.toList_ofList]
    exact h.segments.forall_between (.nil d) (fun ha hb => ha.append hb)
      (fun hs => .of_isWord hs) (Inline.copied_quoteIdent d) cs hcs
  · rw [hpieces, hbetween, List.map_cons, List.tail_cons] at hp
    obtain ⟨cs, hcs, rfl⟩ := List.mem_map.mp hp
    rw [String.toList_ofList]
    exact hdigits.2 cs hcs
  · rw [hpieces, hbetween, List.map_cons, List.headD_cons, String.toList_ofList]
    exact hdigits.1 hfree

/-- What a node of the library writes can be read. -/
theorem Builtin.readable_render (d : Dialect) (b : Builtin) :
    Inline.Readable d b.node.parens (b.node.render d).text := by
  rw [b.render_eq]
  exact (b.regular_layout d).readable_text d

/-! ## Trees of readable texts -/

/-- An item whose text is copied. -/
def Item.CopiedText (d : Dialect) : Item → Prop
  | .text s => Inline.Copied d s.toList
  | .leaf _ | .fault _ => True

/-- Own texts everywhere : fragments, which may come right after a marker, and what callers'
nodes render to, which may do so unless the node asks for parentheses. -/
def Arg.OwnTextsReadable (d : Dialect) : Arg → Prop :=
  Arg.Composed d (fun f => Inline.OwnText d false f.text) fun n =>
    (n.render d).failure = none → Inline.OwnText d n.parens (n.render d).text

namespace Item

variable {d : Dialect}

theorem punctuation_copiedText : Punctuation (CopiedText d) where
  leaf _ := trivial
  late _ := trivial
  emptyList := trivial
  opening := .of_isWord (by decide : Layout.isWord true "(" = true)
  comma := .of_isWord (by decide : Layout.isWord true ", " = true)
  closing := .of_isWord (by decide : Layout.isWord true ")" = true)

theorem brings_copiedText {free : Bool} {r : Rendering Arg}
    (h : r.failure = none → Inline.Readable d free r.text) : Brings d (CopiedText d) r where
  failure _ _ := trivial
  count _ _ := trivial
  pieces hok _ p hp := (h hok).copied p hp

theorem spaced_spliced {free : Bool} {template : String}
    (h : Inline.Readable .postgres free template) {fillings : List (List Item)}
    (hfillings : ∀ f ∈ fillings, Spaced false f) :
    Spaced free (spliced .postgres template fillings) := by
  unfold spliced
  split
  · refine .weave ?_ (h.spaced rfl) hfillings
    cases free with
    | false => exact .inr (h.start rfl rfl)
    | true => exact .inl rfl
  · trivial

/-- What a node renders to is spaced if its text can be read and its arguments are spaced. -/
theorem spaced_renderingFrontier {free : Bool} {r : Rendering Arg}
    (h : r.failure = none → Inline.Readable .postgres free r.text)
    (hargs : ∀ a ∈ r.args, Spaced false (a.frontier .postgres false)) (top : Bool) :
    Spaced top (Arg.renderingFrontier .postgres (free && !top) r) := by
  obtain ⟨text, args, failure⟩ := r
  cases failure with
  | some e => trivial
  | none =>
    have hspliced :
        Spaced free (spliced .postgres text (args.map (Arg.frontier .postgres false))) :=
      spaced_spliced (h rfl) (List.forall_mem_map.mpr hargs)
    rw [Arg.renderingFrontier, Arg.frontiers_eq_map]
    cases free with
    | false => exact hspliced.mono (Bool.false_le top)
    | true =>
      cases top with
      | false => exact hspliced.enclosed
      | true => exact hspliced

end Item

namespace Arg.OwnTextsReadable

variable {d : Dialect} {a : Arg}

theorem forall_copied (h : a.OwnTextsReadable d) (top : Bool) :
    ∀ i ∈ a.frontier d top, i.CopiedText d :=
  h.forall_frontier Item.punctuation_copiedText
    (fun _ hf => Item.brings_copiedText fun _ => hf.readable)
    (fun b => Item.brings_copiedText fun _ => b.readable_render d)
    (fun _ hn => Item.brings_copiedText fun hok => (hn hok).readable) top

/-- In PostgreSQL no digit in the frontier of such a tree follows a leaf. -/
theorem spaced_frontier (h : a.OwnTextsReadable .postgres) (top : Bool) :
    Item.Spaced top (a.frontier .postgres top) := by
  induction h generalizing top with
  | value v => trivial
  | late outcome => cases outcome <;> trivial
  | list items _ ih =>
    rw [Arg.frontier, Arg.frontiers_eq_map]
    exact (Item.Spaced.listed (List.forall_mem_map.mpr fun a ha => ih a ha false)).mono
      (Bool.false_le top)
  | fragment f hf _ ih =>
    rw [Fragment.arg, Arg.frontier, Arg.frontiers_eq_map]
    exact (Item.spaced_spliced hf.readable
      (List.forall_mem_map.mpr fun a ha => ih a ha false)).mono (Bool.false_le top)
  | builtin b _ ih =>
    refine Item.spaced_renderingFrontier (fun _ => b.readable_render .postgres)
      (fun a ha => ih a ?_ false) top
    rwa [b.render_eq] at ha
  | custom n hn _ ih =>
    exact Item.spaced_renderingFrontier (fun hok => (hn hok).readable)
      (fun a ha => ih a ha false) top

end Arg.OwnTextsReadable

end SqlWeave
