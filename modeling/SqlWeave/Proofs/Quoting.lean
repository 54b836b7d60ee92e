import SqlWeave.Dialect.Identifier
import SqlWeave.Literal
import SqlWeave.Template

/-!
# Texts put together, and the markers in them

A reader of a text carries one state, so the cut of two texts one after the other is the
cut of the first, glued at its last piece to the cut of the second from the state in which
the first leaves the reader (`cut_append`). A text is balanced if it leaves a reader who
comes from outside quotes outside quotes, and quiet if moreover it has no marker.

Other readers look out for other characters than markers. What they all have in common is how
they go over a text (`Over`), and over a name in particular (`over_quoteIdent`).

What the library writes between markers is quiet in every dialect : words without quotes
and `?` (`quiet_of_plain`), identifiers whatever their name (`quiet_quoteIdent`) and byte
strings (`quiet_bytes`). The pieces of a balanced template are quiet too
(`quiet_of_mem_pieces`). Markers of balanced texts add up (`markers_append`), and a `?`
after a balanced text is the marker that comes next (`markerAt_of_balanced`).
-/

namespace SqlWeave

/-- Without quotes a reader stays outside quotes. -/
theorem Quoting.after_unquoted {d : Dialect} {cs : List Char} (h : ∀ c ∈ cs, isQuote c = false) :
    Quoting.after d .outside cs = .outside := by
  induction cs with
  | nil => rfl
  | cons c cs ih =>
    rw [List.forall_mem_cons] at h
    have hnext : Quoting.outside.next d c = .outside := by simp [Quoting.next, h.1]
    rw [Quoting.after, List.foldl_cons, hnext]
    exact ih h.2

/-! ## Lists and pieces -/

namespace Text

variable {α : Type}

theorem intercalate_cons_eq_append_flatMap (sep first : List α)
    (rest : List (List α)) :
    sep.intercalate (first :: rest) = first ++ rest.flatMap (sep ++ ·) := by
  induction rest generalizing first with
  | nil => simp
  | cons second rest ih => simp [List.intercalate_cons_cons, ih]

/-- Joined pieces up to one of them, that one, and the rest. -/
theorem intercalate_append_cons (sep : List α) (before : List (List α)) (piece : List α)
    (after : List (List α)) :
    sep.intercalate (before ++ piece :: after) =
      before.flatMap (· ++ sep) ++ (piece ++ after.flatMap (sep ++ ·)) := by
  induction before with
  | nil => simp [intercalate_cons_eq_append_flatMap]
  | cons first rest ih => simp [List.intercalate_cons_of_ne_nil, ih]

/-- What a filter keeps at a place, it keeps of some element, with as many kept before. -/
theorem exists_split_of_getElem?_filterMap {β : Type} {f : α → Option β} {xs : List α} {k : Nat}
    {b : β} (h : (xs.filterMap f)[k]? = some b) :
    ∃ before a after, xs = before ++ a :: after ∧ f a = some b ∧
      (before.filterMap f).length = k := by
  induction xs generalizing k with
  | nil => simp at h
  | cons x xs ih =>
    cases hx : f x with
    | none =>
      rw [List.filterMap_cons_none hx] at h
      obtain ⟨before, a, after, rfl, ha, hk⟩ := ih h
      exact ⟨x :: before, a, after, rfl, ha, by rwa [List.filterMap_cons_none hx]⟩
    | some c =>
      rw [List.filterMap_cons_some hx] at h
      cases k with
      | zero => exact ⟨[], x, xs, rfl, by simpa [hx] using h, rfl⟩
      | succ k =>
        obtain ⟨before, a, after, rfl, ha, hk⟩ := ih h
        exact ⟨x :: before, a, after, rfl, ha, by simp [List.filterMap_cons_some hx, hk]⟩

/-- Pieces and more pieces, the last of the first ones running into the first of the
others. -/
def glue : List (List α) → List (List α) → List (List α)
  | [], more => more
  | [piece], more => piece.foldr extendFirst more
  | piece :: next :: rest, more => piece :: glue (next :: rest) more

theorem foldr_extendFirst_cons (start piece : List α) (rest : List (List α)) :
    start.foldr extendFirst (piece :: rest) = (start ++ piece) :: rest := by
  induction start with
  | nil => rfl
  | cons c start ih => simp [ih, extendFirst]

theorem glue_nil_cons {pieces : List (List α)} (h : pieces ≠ []) (more : List (List α)) :
    glue ([] :: pieces) more = [] :: glue pieces more := by
  obtain ⟨p, ps, rfl⟩ := List.exists_cons_of_ne_nil h
  rfl

/-- A character in front of the first piece stays there. -/
theorem glue_extendFirst (c : α) {pieces : List (List α)} (h : pieces ≠ [])
    (more : List (List α)) :
    glue (extendFirst c pieces) more = extendFirst c (glue pieces more) := by
  match pieces with
  | [] => exact absurd rfl h
  | [_] => rfl
  | _ :: _ :: _ => rfl

theorem glue_singleton (piece next : List α) (more : List (List α)) :
    glue [piece] (next :: more) = (piece ++ next) :: more :=
  foldr_extendFirst_cons piece next more

/-- The last piece before the place runs into the first piece after it. -/
theorem glue_concat (before : List (List α)) (last first : List α) (rest : List (List α)) :
    glue (before ++ [last]) (first :: rest) = before ++ (last ++ first) :: rest := by
  induction before with
  | nil => exact glue_singleton last first rest
  | cons piece before ih =>
    obtain ⟨next, more, hnext⟩ : ∃ next more, before ++ [last] = next :: more :=
      List.exists_cons_of_ne_nil (by simp)
    rw [List.cons_append, hnext, glue, ← hnext, ih, List.cons_append]

/-- More pieces whose first one is empty leave the last of the first ones as it is. -/
theorem glue_nil_head {pieces : List (List α)} (h : pieces ≠ []) (more : List (List α)) :
    glue pieces ([] :: more) = pieces ++ more := by
  match pieces with
  | [] => exact absurd rfl h
  | [p] => simp [glue_singleton]
  | p :: q :: qs => simp [glue, glue_nil_head (List.cons_ne_nil q qs)]

/-- One piece less than there were, as two of them have become one. -/
theorem length_glue {pieces more : List (List α)} (hp : pieces ≠ []) (hm : more ≠ []) :
    (glue pieces more).length + 1 = pieces.length + more.length := by
  obtain ⟨m, ms, rfl⟩ := List.exists_cons_of_ne_nil hm
  match pieces with
  | [] => exact absurd rfl hp
  | [p] =>
    rw [glue_singleton]
    simp [Nat.add_comm]
  | p :: q :: qs =>
    have := length_glue (List.cons_ne_nil q qs) hm
    simp only [glue, List.length_cons] at this ⊢
    omega

end Text

namespace Template

variable {d : Dialect}

/-- A reader of two texts reads the second from where the first has left him. -/
theorem after_append (d : Dialect) (state : Quoting) (a b : List Char) :
    state.after d (a ++ b) = (state.after d a).after d b := by
  simp [Quoting.after]

/-- The cut of a text that goes on is the cut of its start, glued to the cut of the rest. -/
theorem cut_append (d : Dialect) (state : Quoting) (a b : List Char) :
    cut d state (a ++ b) = Text.glue (cut d state a) (cut d (state.after d a) b) := by
  induction a generalizing state with
  | nil => rfl
  | cons c a ih =>
    by_cases h : isMarker state c
    · obtain rfl := eq_of_isMarker h
      have hs : state = .outside := by simpa [isMarker] using h
      have hnext : state.after d ('?' :: a) = Quoting.after d .outside a := by
        rw [hs]
        rfl
      simp only [List.cons_append, cut, h, if_true, ih, hnext]
      rw [Text.glue_nil_cons (cut_ne_nil d _ a)]
    · have hnext : state.after d (c :: a) = (state.next d c).after d a := rfl
      simp only [List.cons_append, cut, h, ih, hnext]
      rw [if_neg (by simp), if_neg (by simp), Text.glue_extendFirst c (cut_ne_nil d _ a)]

/-! ## Passages without a marker -/

/-- A reader who comes to a text in one state leaves it in another and meets no marker. -/
structure Passes (d : Dialect) (start : Quoting) (cs : List Char) (stop : Quoting) : Prop where
  cut_eq : cut d start cs = [cs]
  after_eq : start.after d cs = stop

theorem Passes.nil (d : Dialect) (state : Quoting) : Passes d state [] state :=
  ⟨rfl, rfl⟩

/-- A passage goes on where another one ends. -/
theorem Passes.append {start middle stop : Quoting} {a b : List Char}
    (ha : Passes d start a middle) (hb : Passes d middle b stop) :
    Passes d start (a ++ b) stop := by
  refine ⟨?_, by rw [after_append, ha.after_eq, hb.after_eq]⟩
  rw [cut_append, ha.cut_eq, ha.after_eq, hb.cut_eq, Text.glue_singleton]

theorem Passes.char {state : Quoting} {c : Char} (h : isMarker state c = false) :
    Passes d state [c] (state.next d c) :=
  ⟨by simp [cut, h, Text.extendFirst], rfl⟩

theorem Passes.cons {start stop : Quoting} {c : Char} {cs : List Char}
    (h : isMarker start c = false) (hcs : Passes d (start.next d c) cs stop) :
    Passes d start (c :: cs) stop :=
  (Passes.char h).append hcs

/-- What comes after the first character of a passage is a passage of its own. -/
theorem Passes.uncons {start stop : Quoting} {c : Char} {cs : List Char}
    (h : Passes d start (c :: cs) stop) :
    isMarker start c = false ∧ Passes d (start.next d c) cs stop := by
  have hcut := h.cut_eq
  by_cases hm : isMarker start c
  · simp [cut, hm] at hcut
  · obtain ⟨p, ps, hp⟩ := List.exists_cons_of_ne_nil (cut_ne_nil d (start.next d c) cs)
    rw [Bool.not_eq_true] at hm
    simp only [cut, hm, hp, Text.extendFirst] at hcut
    obtain ⟨hhead, rfl⟩ := List.cons.inj hcut
    obtain rfl := (List.cons.inj hhead).2
    exact ⟨hm, hp, h.after_eq⟩

/-- Passages that come back to where they began make up one. -/
theorem Passes.flatMap {α : Type} {state : Quoting} {f : α → List Char} {xs : List α}
    (h : ∀ x ∈ xs, Passes d state (f x) state) : Passes d state (xs.flatMap f) state := by
  induction xs with
  | nil => exact .nil d state
  | cons x xs ih =>
    exact (h x List.mem_cons_self).append (ih fun y hy => h y (List.mem_cons_of_mem _ hy))

/-! ## Readers of every kind -/

/-- A reader goes over a text from one state to another, and each character is `ok` in the
state in which he meets it. -/
inductive Over (d : Dialect) (ok : Quoting → Char → Prop) : Quoting → List Char → Quoting → Prop
  | nil (state : Quoting) : Over d ok state [] state
  | cons {state stop : Quoting} {c : Char} {cs : List Char} (hc : ok state c)
    (hcs : Over d ok (state.next d c) cs stop) : Over d ok state (c :: cs) stop

namespace Over

variable {ok : Quoting → Char → Prop} {start middle stop : Quoting} {a b : List Char}

/-- A reader who goes over a text may go on with another one. -/
theorem append (ha : Over d ok start a middle) (hb : Over d ok middle b stop) :
    Over d ok start (a ++ b) stop := by
  induction ha with
  | nil => exact hb
  | cons hc _ ih => exact .cons hc (ih hb)

theorem flatMap {α : Type} {f : α → List Char} {xs : List α}
    (h : ∀ x ∈ xs, Over d ok start (f x) start) : Over d ok start (xs.flatMap f) start := by
  induction xs with
  | nil => exact .nil start
  | cons x xs ih =>
    exact (h x List.mem_cons_self).append (ih fun y hy => h y (List.mem_cons_of_mem _ hy))

/-- Without quotes a reader stays outside quotes. -/
theorem of_unquoted (h : ∀ c ∈ a, isQuote c = false ∧ ok .outside c) :
    Over d ok .outside a .outside := by
  induction a with
  | nil => exact .nil _
  | cons c a ih =>
    rw [List.forall_mem_cons] at h
    have hnext : Quoting.outside.next d c = .outside := by simp [Quoting.next, h.1.1]
    refine .cons h.1.2 ?_
    rw [hnext]
    exact ih h.2

/-- If no character is a marker where the reader meets it, he passes over the text. -/
theorem passes (h : Over d (fun state c => isMarker state c = false) start a stop) :
    Passes d start a stop := by
  induction h with
  | nil state => exact .nil d state
  | cons hc _ ih => exact .cons hc ih

end Over

/-! ## Quiet texts -/

/-- No marker, and a reader from outside quotes is left outside quotes. -/
def Quiet (d : Dialect) (cs : List Char) : Prop := Passes d .outside cs .outside

theorem Quiet.append {a b : List Char} (ha : Quiet d a) (hb : Quiet d b) : Quiet d (a ++ b) :=
  Passes.append ha hb

/-- A character that a reader outside quotes passes over. -/
def isPlain (c : Char) : Bool := !isQuote c && c != '?'

/-- Without quotes and markers, a text is quiet. -/
theorem quiet_of_plain {cs : List Char} (h : cs.all isPlain = true) : Quiet d cs := by
  refine (Over.of_unquoted fun c hc => ?_).passes
  have hplain := List.all_eq_true.mp h c hc
  simp only [isPlain, Bool.and_eq_true, Bool.not_eq_true', bne_iff_ne] at hplain
  exact ⟨hplain.1, by simp [isMarker, hplain.2]⟩

/-- A quote is no marker, in whatever state the reader meets it. -/
theorem isMarker_of_isQuote {c : Char} (h : isQuote c = true) (state : Quoting) :
    isMarker state c = false := by
  have hc : c ≠ '?' := by
    rintro rfl
    exact absurd h (by decide)
  simp [isMarker, hc]

/-- What passes between two quotes makes with them a quiet text. -/
theorem Passes.quoted {quote : Char} {cs : List Char} (hq : isQuote quote = true)
    (hn : quote ≠ '\\') (h : Passes d (.inside quote) cs (.inside quote)) :
    Quiet d (quote :: (cs ++ [quote])) := by
  have hopen : Quoting.outside.next d quote = .inside quote := by simp [Quoting.next, hq]
  have hclose : (Quoting.inside quote).next d quote = .outside := by simp [Quoting.next, hn]
  refine Passes.cons (isMarker_of_isQuote hq .outside) ?_
  rw [hopen]
  have hend : Passes d (.inside quote) [quote] ((Quoting.inside quote).next d quote) :=
    Passes.char rfl
  rw [hclose] at hend
  exact h.append hend

/-! ## Identifiers and byte strings -/

/-- Names stand between characters that the reader of markers knows as quotes. -/
theorem isQuote_identifierQuote (d : Dialect) : isQuote d.identifierQuote = true := by
  cases d <;> rfl

theorem identifierQuote_ne_backslash (d : Dialect) : d.identifierQuote ≠ '\\' := by
  cases d <;> decide

section Names

variable {ok : Quoting → Char → Prop}

/-- What is `ok` everywhere between quotes, and outside for the characters that separate and
surround the segments of a name. -/
structure AdmitsNames (ok : Quoting → Char → Prop) : Prop where
  inside : ∀ quote c, ok (.inside quote) c
  hidden : ∀ quote c, ok (.hidden quote) c
  outside : ∀ c ∈ ['.', '*', '"', '`'], ok .outside c

variable (hok : AdmitsNames ok)

include hok

theorem AdmitsNames.identifierQuote (d : Dialect) : ok .outside d.identifierQuote :=
  hok.outside _ (by cases d <;> decide)

/-- A character of a name leaves the reader inside the quotes of the name : a quote closes
them and opens them again, and a backslash that would hide what follows hides itself. -/
theorem over_identifierChar (c : Char) :
    Over d ok (.inside d.identifierQuote) (d.identifierChar c) (.inside d.identifierQuote) := by
  by_cases hq : c = d.identifierQuote
  · subst hq
    have hchar : d.identifierChar d.identifierQuote = [d.identifierQuote, d.identifierQuote] := by
      simp [Dialect.identifierChar]
    have hclose : (Quoting.inside d.identifierQuote).next d d.identifierQuote = .outside := by
      simp [Quoting.next, identifierQuote_ne_backslash]
    have hopen : Quoting.outside.next d d.identifierQuote = .inside d.identifierQuote := by
      simp [Quoting.next, isQuote_identifierQuote]
    rw [hchar]
    refine .cons (hok.inside _ _) ?_
    rw [hclose]
    refine .cons (hok.identifierQuote d) ?_
    rw [hopen]
    exact .nil _
  by_cases hb : c = '\\' ∧ d.backslashHides d.identifierQuote = true
  · obtain ⟨rfl, hhides⟩ := hb
    have hchar : d.identifierChar '\\' = ['\\', '\\'] := by
      simp [Dialect.identifierChar, hhides]
    have hnext : (Quoting.inside d.identifierQuote).next d '\\' =
        .hidden d.identifierQuote := by
      simp [Quoting.next, hhides]
    rw [hchar]
    refine .cons (hok.inside _ _) ?_
    rw [hnext]
    exact .cons (hok.hidden _ _) (.nil _)
  · have hchar : d.identifierChar c = [c] := by
      simp [Dialect.identifierChar, hq, hb]
    have hnext : (Quoting.inside d.identifierQuote).next d c = .inside d.identifierQuote := by
      simp [Quoting.next, hq, hb]
    rw [hchar]
    refine .cons (hok.inside _ _) ?_
    rw [hnext]
    exact .nil _

/-- A segment of a name comes back outside its quotes, whatever characters it has. -/
theorem over_identifierSegment (segment : List Char) :
    Over d ok .outside (d.identifierSegment segment) .outside := by
  unfold Dialect.identifierSegment
  split
  · exact .cons (hok.outside _ (by simp)) (.nil _)
  · have hopen : Quoting.outside.next d d.identifierQuote = .inside d.identifierQuote := by
      simp [Quoting.next, isQuote_identifierQuote]
    have hclose : (Quoting.inside d.identifierQuote).next d d.identifierQuote = .outside := by
      simp [Quoting.next, identifierQuote_ne_backslash]
    refine .cons (hok.identifierQuote d) ?_
    rw [hopen]
    refine (Over.flatMap fun c _ => over_identifierChar hok c).append (.cons (hok.inside _ _) ?_)
    rw [hclose]
    exact .nil _

/-- A reader who goes over an identifier is outside quotes again, whatever the name. -/
theorem over_quoteIdent (name : String) :
    Over d ok .outside (d.quoteIdent name).toList .outside := by
  rw [Dialect.quoteIdent, String.toList_ofList]
  obtain ⟨first, rest, hsplit⟩ :=
    List.exists_cons_of_ne_nil (Text.splitAt_ne_nil '.' name.toList)
  rw [hsplit, List.map_cons, Text.intercalate_cons_eq_append_flatMap, List.flatMap_map]
  refine (over_identifierSegment hok first).append (.flatMap fun segment _ => ?_)
  exact .cons (hok.outside _ (by simp)) (over_identifierSegment hok segment)

end Names

/-- An identifier begins with a quote, or it is a star and maybe more. -/
theorem quoteIdent_eq_cons (d : Dialect) (name : String) :
    ∃ c cs, (d.quoteIdent name).toList = c :: cs ∧ (c = '*' ∨ c = '"' ∨ c = '`') := by
  obtain ⟨first, rest, hsplit⟩ :=
    List.exists_cons_of_ne_nil (Text.splitAt_ne_nil '.' name.toList)
  rw [Dialect.quoteIdent, String.toList_ofList, hsplit, List.map_cons,
    Text.intercalate_cons_eq_append_flatMap, Dialect.identifierSegment]
  split
  · exact ⟨'*', _, rfl, .inl rfl⟩
  · exact ⟨_, _, rfl, by cases d <;> simp [Dialect.identifierQuote]⟩

/-- An identifier is quiet, whatever its name. -/
theorem quiet_quoteIdent (d : Dialect) (name : String) : Quiet d (d.quoteIdent name).toList := by
  refine (over_quoteIdent ?_ name).passes
  exact { inside := fun _ _ => rfl, hidden := fun _ _ => rfl, outside := by simp [isMarker] }

/-- Between two quotes a reader passes over what is no such quote and hides nothing. -/
theorem Passes.inside {quote : Char} {cs : List Char}
    (h : ∀ c ∈ cs, c ≠ quote ∧ ¬(c = '\\' ∧ d.backslashHides quote = true)) :
    Passes d (.inside quote) cs (.inside quote) := by
  induction cs with
  | nil => exact .nil d _
  | cons c cs ih =>
    rw [List.forall_mem_cons] at h
    have hnext : (Quoting.inside quote).next d c = .inside quote := by simp [Quoting.next, h.1]
    refine .cons rfl ?_
    rw [hnext]
    exact ih h.2

/-- Bytes are written in hexadecimal digits and nothing else. -/
theorem exists_of_mem_hexPairs {data : List UInt8} {c : Char} (hc : c ∈ Text.hexPairs data) :
    ∃ n < 16, c = Text.hexDigit n := by
  obtain ⟨b, -, hb⟩ := List.mem_flatMap.mp hc
  have hlt := b.toNat_lt
  rcases List.mem_cons.mp hb with rfl | hb
  · exact ⟨_, by omega, rfl⟩
  · exact ⟨_, by omega, List.mem_singleton.mp hb⟩

/-- Hexadecimal digits are no quotes, backslashes or minus signs. -/
theorem ne_of_mem_hexPairs {data : List UInt8} {c : Char} (hc : c ∈ Text.hexPairs data) :
    c ≠ '\'' ∧ c ≠ '\\' ∧ c ≠ '-' := by
  have hdigit : ∀ n < 16, Text.hexDigit n ≠ '\'' ∧ Text.hexDigit n ≠ '\\' ∧
      Text.hexDigit n ≠ '-' := by decide
  obtain ⟨n, hn, rfl⟩ := exists_of_mem_hexPairs hc
  exact hdigit n hn

theorem passes_hexPairs (d : Dialect) (data : List UInt8) :
    Passes d (.inside '\'') (Text.hexPairs data) (.inside '\'') :=
  .inside fun _ hc => ⟨(ne_of_mem_hexPairs hc).1,
    fun hback => (ne_of_mem_hexPairs hc).2.1 hback.1⟩

/-- A byte string hides no marker and shows none. -/
theorem quiet_bytes (d : Dialect) (data : List UInt8) : Quiet d (d.bytes data).toList := by
  have hquoted : Quiet d ('\'' :: (Text.hexPairs data ++ ['\''])) :=
    (passes_hexPairs d data).quoted rfl (by decide)
  have hplain : ∀ s : String, s.toList.all isPlain = true → Quiet d s.toList := fun _ h =>
    quiet_of_plain h
  cases d with
  | mysql | sqlite =>
    simpa [Dialect.bytes, Dialect.bytesWrapper] using
      Quiet.append (hplain "X" (by decide)) hquoted
  | clickhouse =>
    simpa [Dialect.bytes, Dialect.bytesWrapper] using
      (Quiet.append (hplain "unhex(" (by decide)) hquoted).append (hplain ")" (by decide))
  | postgres =>
    have hbody : Passes .postgres (.inside '\'') ('\\' :: 'x' :: Text.hexPairs data)
        (.inside '\'') :=
      Passes.cons rfl (Passes.cons rfl (passes_hexPairs _ data))
    simpa [Dialect.bytes, Dialect.bytesWrapper] using
      (hbody.quoted rfl (by decide)).append (hplain "::bytea" (by decide))

/-! ## Balanced texts -/

/-- A text that leaves a reader from outside quotes outside quotes. -/
def Balanced (d : Dialect) (text : String) : Prop :=
  Quoting.after d .outside text.toList = .outside

/-- The first piece of a cut ends outside quotes, and all others are quiet. -/
theorem cut_passes {state : Quoting} {cs piece : List Char} {rest : List (List Char)}
    (h : state.after d cs = .outside) (hcut : cut d state cs = piece :: rest) :
    Passes d state piece .outside ∧ ∀ p ∈ rest, Quiet d p := by
  induction cs generalizing state piece rest with
  | nil =>
    simp only [cut, List.cons.injEq] at hcut
    obtain ⟨rfl, rfl⟩ := hcut
    exact ⟨⟨rfl, h⟩, by simp⟩
  | cons c cs ih =>
    obtain ⟨first, others, hfirst⟩ := List.exists_cons_of_ne_nil (cut_ne_nil d (state.next d c) cs)
    obtain ⟨hpass, hothers⟩ := ih h hfirst
    by_cases hm : isMarker state c
    · obtain rfl := eq_of_isMarker hm
      obtain rfl : state = .outside := by simpa [isMarker] using hm
      simp only [cut, hm, if_true, List.cons.injEq] at hcut
      obtain ⟨rfl, rfl⟩ := hcut
      have hnext : Quoting.outside.next d '?' = .outside := rfl
      rw [hnext] at hfirst hpass
      refine ⟨.nil d _, fun p hp => ?_⟩
      rw [hfirst] at hp
      rcases List.mem_cons.mp hp with rfl | hp
      · exact hpass
      · exact hothers p hp
    · rw [Bool.not_eq_true] at hm
      simp only [cut, hm, hfirst, Text.extendFirst] at hcut
      obtain ⟨rfl, rfl⟩ := List.cons.inj hcut
      exact ⟨.cons hm hpass, hothers⟩

/-- The pieces of a balanced template have no marker, and each can stand alone. -/
theorem quiet_of_mem_pieces {template piece : String} (h : Balanced d template)
    (hp : piece ∈ pieces d template) : Quiet d piece.toList := by
  obtain ⟨cs, hcs, rfl⟩ := List.mem_map.mp hp
  rw [String.toList_ofList]
  obtain ⟨first, others, hfirst⟩ :=
    List.exists_cons_of_ne_nil (cut_ne_nil d .outside template.toList)
  obtain ⟨hpass, hothers⟩ := cut_passes h hfirst
  rw [hfirst] at hcs
  rcases List.mem_cons.mp hcs with rfl | hcs
  · exact hpass
  · exact hothers cs hcs

/-- There is one more piece than there are markers. -/
theorem length_pieces (d : Dialect) (text : String) :
    (pieces d text).length = markers d text + 1 := by
  have := List.length_pos_iff.mpr (cut_ne_nil d .outside text.toList)
  simp only [markers, pieces, List.length_map]
  omega

/-- A quiet text leaves quotes as it found them. -/
theorem balanced_of_quiet {text : String} (h : Quiet d text.toList) : Balanced d text :=
  h.after_eq

theorem markers_of_quiet {text : String} (h : Quiet d text.toList) : markers d text = 0 := by
  simp [markers, pieces, h.cut_eq]

/-- Balanced texts stay balanced one after the other. -/
theorem Balanced.append {a b : String} (ha : Balanced d a) (hb : Balanced d b) :
    Balanced d (a ++ b) := by
  rw [Balanced, String.toList_append, after_append, ha, hb]

/-- The markers of a text after a balanced one are those of both. -/
theorem markers_append {a : String} (ha : Balanced d a) (b : String) :
    markers d (a ++ b) = markers d a + markers d b := by
  have hlen := Text.length_glue (cut_ne_nil d .outside a.toList)
    (cut_ne_nil d .outside b.toList)
  have hab := length_pieces d (a ++ b)
  have ha' := length_pieces d a
  have hb' := length_pieces d b
  simp only [pieces, String.toList_append, cut_append, List.length_map] at hab ha' hb'
  rw [ha] at hab
  omega

theorem balanced_marker (d : Dialect) : Balanced d "?" :=
  rfl

theorem markers_marker (d : Dialect) : markers d "?" = 1 :=
  rfl

/-- In `text`, marker number `n`, counted from zero, stands right after `before` : the cut
of the text at it is the cut of `before` and then the cut of what follows. -/
def MarkerAt (d : Dialect) (text : String) (n : Nat) (before : String) : Prop :=
  ∃ after, text = before ++ "?" ++ after ∧
    pieces d text = pieces d before ++ pieces d after ∧ (pieces d before).length = n + 1

/-- After a balanced text a marker is met, with the markers of that text before it. -/
theorem markerAt_of_balanced {before : String} (h : Balanced d before) (after : String) :
    MarkerAt d (before ++ "?" ++ after) (markers d before) before := by
  refine ⟨after, rfl, ?_, length_pieces d before⟩
  have hcut : cut d .outside ('?' :: after.toList) = [] :: cut d .outside after.toList := rfl
  have hstart : Quoting.after d .outside before.toList = .outside := h
  simp only [pieces, String.toList_append, List.append_assoc, cut_append, hstart]
  rw [← List.map_append]
  congr 1
  exact (congrArg (Text.glue _) hcut).trans (Text.glue_nil_head (cut_ne_nil d _ _) _)

end Template

end SqlWeave
