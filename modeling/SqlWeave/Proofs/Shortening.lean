import Mathlib.Data.List.Forall2
import Mathlib.Data.List.Induction
import SqlWeave.Proofs.Inlining.CharBytes
import SqlWeave.Trace.Tracer

/-!
# Statements shortened in a trace

A statement that takes more bytes than a trace shows is cut. The cut is looked for from the byte at
the limit backwards, up to a byte where a character begins (`Text.lastBoundary?`). There is one at
or before every byte, the first at the latest, so the search never runs off the start, whatever the
limit is. What stands before the cut is the longest start of the statement that fits
(`Text.LongestStart`).

Details are written by a loop over their entries (`Tracer.writePair?`), which stand in the order of
their keys. Only a statement among them is shortened (`Tracer.details_shortened`).
-/

namespace SqlWeave

namespace Text

open String.Pos.Raw (IsValid)
open Utf8 (slice?)

/-! ## Looking for a boundary -/

/-- The nearest boundary between characters at or before a byte, looked for from there backwards,
byte by byte. It breaks if the search comes to the first byte and there is none. -/
def lastBoundary? (s : String) : Nat → Option Nat
  | 0 => if IsValid s ⟨0⟩ then some 0 else none
  | n + 1 => if IsValid s ⟨n + 1⟩ then some (n + 1) else lastBoundary? s n

/-- The text before the boundary at or before byte `budget`, or before the end if that comes
first. -/
def cutAt? (s : String) (budget : Nat) : Option String :=
  (lastBoundary? s (min budget s.utf8ByteSize)).bind (slice? s 0)

/-- A boundary at or before byte `n` with none after it up to there. -/
structure NearestBoundary (s : String) (n stop : Nat) : Prop where
  isValid : IsValid s ⟨stop⟩
  le : stop ≤ n
  nearest : ∀ m, stop < m → m ≤ n → ¬IsValid s ⟨m⟩

/-- The search finds the nearest boundary, from every byte. -/
theorem exists_lastBoundary (s : String) (n : Nat) :
    ∃ stop, lastBoundary? s n = some stop ∧ NearestBoundary s n stop := by
  induction n with
  | zero =>
    have hzero : IsValid s ⟨0⟩ := String.Pos.Raw.isValid_zero
    exact ⟨0, if_pos hzero, hzero, Nat.le_refl 0, fun m hlt hle => absurd hlt (by omega)⟩
  | succ n ih =>
    by_cases hvalid : IsValid s ⟨n + 1⟩
    · exact ⟨n + 1, if_pos hvalid, hvalid, Nat.le_refl _, fun m hlt hle => absurd hlt (by omega)⟩
    · obtain ⟨stop, hstop, hnearest⟩ := ih
      refine ⟨stop, by rw [lastBoundary?, if_neg hvalid, hstop], hnearest.isValid,
        Nat.le_succ_of_le hnearest.le, fun m hlt hle => ?_⟩
      rcases Nat.lt_or_eq_of_le hle with hlt' | rfl
      · exact hnearest.nearest m hlt (Nat.le_of_lt_succ hlt')
      · exact hvalid

/-! ## The longest start -/

/-- A start of a text that takes at most `budget` bytes, and that every other such start is a start
of. -/
structure LongestStart (budget : Nat) (s start : String) : Prop where
  isStart : ∃ rest, s = start ++ rest
  fits : start.utf8ByteSize ≤ budget
  longest : ∀ other rest, s = other ++ rest → other.utf8ByteSize ≤ budget →
    ∃ more, start = other ++ more

/-- There is only one. -/
theorem LongestStart.unique {budget : Nat} {s start start' : String}
    (h : LongestStart budget s start) (h' : LongestStart budget s start') : start = start' := by
  obtain ⟨rest, hrest⟩ := h.isStart
  obtain ⟨rest', hrest'⟩ := h'.isStart
  obtain ⟨more, rfl⟩ := h.longest start' rest' hrest' h'.fits
  obtain ⟨more', hmore'⟩ := h'.longest _ rest hrest h.fits
  have hsizes := congrArg String.utf8ByteSize hmore'
  rw [String.utf8ByteSize_append, String.utf8ByteSize_append] at hsizes
  obtain rfl : more = "" := String.utf8ByteSize_eq_zero_iff.mp (by omega)
  exact String.append_empty

/-- Of two starts of a text the one with no more bytes is a start of the other. -/
theorem start_of_size_le {start rest other rest' : String} (h : start ++ rest = other ++ rest')
    (hle : other.utf8ByteSize ≤ start.utf8ByteSize) : ∃ more, start = other ++ more := by
  have hchars : start.toList ++ rest.toList = other.toList ++ rest'.toList := by
    rw [← String.toList_append, h, String.toList_append]
  rcases List.append_eq_append_iff.mp hchars with ⟨more, hother, -⟩ | ⟨more, hstart, -⟩
  · have heq : other = start ++ .ofList more := by
      rw [← String.toList_inj, String.toList_append, String.toList_ofList, hother]
    have hsizes := congrArg String.utf8ByteSize heq
    rw [String.utf8ByteSize_append] at hsizes
    have hnone : String.ofList more = "" := String.utf8ByteSize_eq_zero_iff.mp (by omega)
    exact ⟨"", by rw [heq, hnone, String.append_empty, String.append_empty]⟩
  · exact ⟨.ofList more, by rw [← String.toList_inj, String.toList_append, String.toList_ofList,
      hstart]⟩

theorem slice?_start (start rest : String) :
    slice? (start ++ rest) 0 start.utf8ByteSize = some start := by
  simpa [Utf8.size_eq_utf8Len, ← String.utf8ByteSize_ofList] using
    Utf8.slice?_between [] start.toList rest.toList

/-- What is before the nearest boundary is the longest start. -/
theorem cutAt?_longest (s : String) (budget : Nat) :
    ∃ start, cutAt? s budget = some start ∧ LongestStart budget s start := by
  obtain ⟨stop, hstop, hnearest⟩ := exists_lastBoundary s (min budget s.utf8ByteSize)
  obtain ⟨start, rest, rfl, hpos⟩ := String.Pos.Raw.isValid_iff_exists_append.mp hnearest.isValid
  obtain rfl : stop = start.utf8ByteSize := congrArg String.Pos.Raw.byteIdx hpos
  refine ⟨start, by rw [cutAt?, hstop, Option.bind_some, slice?_start], ⟨rest, rfl⟩,
    hnearest.le.trans (Nat.min_le_left _ _), fun other rest' hother hfits => ?_⟩
  refine start_of_size_le hother (not_lt.mp fun hlt => hnearest.nearest _ hlt (le_min hfits ?_) ?_)
  · rw [hother, String.utf8ByteSize_append]
    exact Nat.le_add_right _ _
  · exact String.Pos.Raw.isValid_iff_exists_append.mpr ⟨other, rest', hother, rfl⟩

/-! ## The same start, character by character -/

theorem exists_fittingChars_append (budget : Nat) (cs : List Char) :
    ∃ rest, cs = fittingChars budget cs ++ rest := by
  fun_induction fittingChars budget cs with
  | case1 => exact ⟨[], rfl⟩
  | case2 budget c cs h ih =>
    obtain ⟨rest, hrest⟩ := ih
    exact ⟨rest, by rw [List.cons_append, ← hrest]⟩
  | case3 budget c cs h => exact ⟨c :: cs, rfl⟩

/-- What fits is not too long. -/
theorem utf8Len_fittingChars (budget : Nat) (cs : List Char) :
    String.utf8Len (fittingChars budget cs) ≤ budget := by
  fun_induction fittingChars budget cs with
  | case1 => exact Nat.zero_le _
  | case2 budget c cs h ih =>
    rw [String.utf8Len_cons]
    omega
  | case3 => exact Nat.zero_le _

/-- Whatever start of a text fits, what was chosen goes on at least as far. -/
theorem fittingChars_longest (budget : Nat) (other rest : List Char)
    (hfits : String.utf8Len other ≤ budget) :
    ∃ more, fittingChars budget (other ++ rest) = other ++ more := by
  induction other generalizing budget with
  | nil => exact ⟨_, rfl⟩
  | cons c other ih =>
    rw [String.utf8Len_cons] at hfits
    obtain ⟨more, hmore⟩ := ih (budget - c.utf8Size) (by omega)
    exact ⟨more, by rw [List.cons_append, fittingChars, if_pos (by omega), hmore,
      List.cons_append]⟩

theorem longestStart_fittingChars (budget : Nat) (s : String) :
    LongestStart budget s (.ofList (fittingChars budget s.toList)) where
  isStart := by
    obtain ⟨rest, hrest⟩ := exists_fittingChars_append budget s.toList
    exact ⟨.ofList rest, by rw [← String.ofList_append, ← hrest, String.ofList_toList]⟩
  fits := by
    rw [String.utf8ByteSize_ofList]
    exact utf8Len_fittingChars budget s.toList
  longest := by
    rintro other rest rfl hfits
    rw [← String.ofList_toList (s := other), String.utf8ByteSize_ofList] at hfits
    obtain ⟨more, hmore⟩ := fittingChars_longest budget other.toList rest.toList hfits
    exact ⟨.ofList more, by rw [String.toList_append, hmore, String.ofList_append,
      String.ofList_toList]⟩

/-! ## What is shown -/

/-- What a statement is shown as, with the cut looked for backwards. -/
def shown? (limit : Option Nat) (s : String) : Option String :=
  match limit with
  | some budget =>
    if s.utf8ByteSize > budget then (cutAt? s budget).map (· ++ "...") else some s
  | none => some s

/-- A text as it is shown : whole if there is no limit or it keeps to it, otherwise its longest
start within the limit, with dots. -/
structure Shortened (limit : Option Nat) (s shown : String) : Prop where
  whole : (∀ budget ∈ limit, s.utf8ByteSize ≤ budget) → shown = s
  cut : ∀ budget ∈ limit, budget < s.utf8ByteSize →
    ∃ start, LongestStart budget s start ∧ shown = start ++ "..."

/-- What is shown of a text is its longest start within the limit. -/
theorem shown?_eq_truncated (limit : Option Nat) (s : String) :
    shown? limit s = some (truncated limit s) := by
  cases limit with
  | none => rfl
  | some budget =>
    obtain ⟨start, hcut, hstart⟩ := cutAt?_longest s budget
    have heq : start = .ofList (fittingChars budget s.toList) :=
      hstart.unique (longestStart_fittingChars budget s)
    rw [shown?, truncated, hcut, Option.map_some, heq]
    split <;> rfl

theorem shortened_truncated (limit : Option Nat) (s : String) :
    Shortened limit s (truncated limit s) where
  whole h := by
    cases limit with
    | none => rfl
    | some budget => rw [truncated, if_neg (Nat.not_lt.mpr (h budget rfl))]
  cut budget hlimit hlt := by
    obtain rfl : limit = some budget := hlimit
    exact ⟨_, longestStart_fittingChars budget s, by rw [truncated, if_pos hlt]⟩

example : truncated (some 2) "héllo" = "h..." := by decide

example : truncated (some 0) "é" = "..." := by decide

end Text

namespace Details

/-! ## Details in the order of their keys -/

theorem mem_insertEntry {key value : String} {entries : List (String × String)}
    {entry : String × String} (h : entry ∈ insertEntry key value entries) :
    entry = (key, value) ∨ entry ∈ entries := by
  fun_induction insertEntry key value entries with grind

/-- Setting an entry keeps the keys in order. -/
theorem pairwise_insertEntry (key value : String) {entries : List (String × String)}
    (h : entries.Pairwise (·.1 < ·.1)) :
    (insertEntry key value entries).Pairwise (·.1 < ·.1) := by
  fun_induction insertEntry key value entries with
  | case1 => exact List.pairwise_singleton _ _
  | case2 k v rest hlt =>
    refine List.pairwise_cons.mpr ⟨fun entry hentry => ?_, h⟩
    rcases List.mem_cons.mp hentry with rfl | hrest
    · exact hlt
    · exact lt_trans hlt (List.rel_of_pairwise_cons h hrest)
  | case3 v rest hlt =>
    exact List.pairwise_cons.mpr (List.pairwise_cons.mp h)
  | case4 k v rest hlt hne ih =>
    refine List.pairwise_cons.mpr ⟨fun entry hentry => ?_, ih h.of_cons⟩
    rcases mem_insertEntry hentry with rfl | hrest
    · exact lt_of_le_of_ne (not_lt.mp hlt) (Ne.symm hne)
    · exact List.rel_of_pairwise_cons h hrest

theorem lookup_insertEntry (k key value : String) (entries : List (String × String)) :
    (insertEntry key value entries).lookup k =
      if k = key then some value else entries.lookup k := by
  fun_induction insertEntry key value entries with grind

theorem entries_ofList_concat (kvs : List (String × String)) (key value : String) :
    (ofList (kvs ++ [(key, value)])).entries = insertEntry key value (ofList kvs).entries := by
  rw [ofList, List.foldl_append]
  rfl

/-- The entries of details stand in the strict order of their keys. -/
theorem pairwise_ofList (kvs : List (String × String)) :
    (ofList kvs).entries.Pairwise (·.1 < ·.1) := by
  induction kvs using List.reverseRecOn with
  | nil => exact List.Pairwise.nil
  | append_singleton kvs entry ih =>
    rw [entries_ofList_concat]
    exact pairwise_insertEntry _ _ ih

/-- Under each key is what was given for it last. -/
theorem lookup_ofList (kvs : List (String × String)) (k : String) :
    (ofList kvs).entries.lookup k = kvs.reverse.lookup k := by
  induction kvs using List.reverseRecOn with
  | nil => rfl
  | append_singleton kvs entry ih =>
    rw [entries_ofList_concat, lookup_insertEntry, ih, List.reverse_append, List.reverse_singleton,
      List.singleton_append, List.lookup_cons]
    grind

end Details

namespace Tracer

open Text (shown? Shortened)

/-! ## Writing details -/

/-- What the value of an entry is written as. -/
def shownValue? (t : Tracer) (entry : String × String) : Option String :=
  if entry.1 = "sql" then shown? t.sqlLimit entry.2 else some entry.2

/-- One entry written to a text with the number of entries in it, after a space if there are
any. -/
def writePair? (t : Tracer) (written : Nat × String) (entry : String × String) :
    Option (Nat × String) :=
  (t.shownValue? entry).map fun value =>
    (written.1 + 1,
      (if written.1 > 0 then written.2 ++ " " else written.2) ++ entry.1 ++ "=" ++ value)

/-- Details written entry by entry. -/
def writeDetails? (t : Tracer) (details : Details) : Option String :=
  (details.entries.foldlM t.writePair? (0, "")).map Prod.snd

/-- An entry as it is rendered. -/
def pairText (t : Tracer) (entry : String × String) : String :=
  entry.1 ++ "=" ++ if entry.1 = "sql" then truncated t.sqlLimit entry.2 else entry.2

theorem renderDetails_eq (t : Tracer) (details : Details) :
    t.renderDetails details = " ".intercalate (details.entries.map t.pairText) :=
  rfl

/-- One step adds the rendered entry. -/
theorem writePair?_eq (t : Tracer) (written : Nat × String) (entry : String × String) :
    t.writePair? written entry =
      some (written.1 + 1,
        (if written.1 > 0 then written.2 ++ " " else written.2) ++ t.pairText entry) := by
  have hvalue : t.shownValue? entry =
      some (if entry.1 = "sql" then truncated t.sqlLimit entry.2 else entry.2) := by
    rw [shownValue?, Text.shown?_eq_truncated]
    split <;> rfl
  rw [writePair?, hvalue, Option.map_some, pairText]
  simp only [String.append_assoc]

/-- After the first entry the loop joins. -/
theorem foldlM_writePair? (t : Tracer) (n : Nat) (text : String)
    (entries : List (String × String)) :
    (entries.foldlM t.writePair? (n + 1, text)).map Prod.snd =
      some (" ".intercalate (text :: entries.map t.pairText)) := by
  induction entries generalizing n text with
  | nil => simp
  | cons entry entries ih =>
    rw [List.foldlM_cons, writePair?_eq, if_pos (Nat.succ_pos n), Option.bind_eq_bind,
      Option.bind_some, ih, List.map_cons]
    rfl

/-- The loop writes the rendered details. -/
theorem writeDetails?_eq (t : Tracer) (details : Details) :
    t.writeDetails? details = some (t.renderDetails details) := by
  rw [writeDetails?, renderDetails_eq]
  cases details.entries with
  | nil => rfl
  | cons entry entries =>
    rw [List.foldlM_cons, writePair?_eq, Option.bind_eq_bind, Option.bind_some,
      foldlM_writePair?]
    simp

/-- How a trace writes details. The search for the cut of a statement comes to the nearest boundary
from every byte. What a statement is shown as is the statement, or the longest start that fits the
limit with dots. The entries are joined in the order of their keys, each key once and with the value
given last, and only the value of a statement is shown otherwise than it is. -/
theorem details_shortened (t : Tracer) :
    (∀ s n, ∃ stop, Text.lastBoundary? s n = some stop ∧ Text.NearestBoundary s n stop) ∧
    (∀ s, shown? t.sqlLimit s = some (truncated t.sqlLimit s) ∧
      Shortened t.sqlLimit s (truncated t.sqlLimit s)) ∧
    ∀ kvs, (Details.ofList kvs).entries.Pairwise (·.1 < ·.1) ∧
      (∀ key, (Details.ofList kvs).entries.lookup key = kvs.reverse.lookup key) ∧
      t.writeDetails? (Details.ofList kvs) = some (t.renderDetails (Details.ofList kvs)) ∧
      ∃ values, List.Forall₂
          (fun entry value => if entry.1 = "sql" then Shortened t.sqlLimit entry.2 value
            else value = entry.2) (Details.ofList kvs).entries values ∧
        t.renderDetails (Details.ofList kvs) = " ".intercalate
          (List.zipWith (fun entry value => entry.1 ++ "=" ++ value)
            (Details.ofList kvs).entries values) := by
  refine ⟨Text.exists_lastBoundary,
    fun s => ⟨Text.shown?_eq_truncated _ s, Text.shortened_truncated _ s⟩, fun kvs => ?_⟩
  refine ⟨Details.pairwise_ofList kvs, Details.lookup_ofList kvs, t.writeDetails?_eq _, ?_⟩
  refine ⟨(Details.ofList kvs).entries.map fun entry =>
    if entry.1 = "sql" then truncated t.sqlLimit entry.2 else entry.2, ?_, ?_⟩
  · rw [List.forall₂_map_right_iff]
    refine List.forall₂_same.mpr fun entry _ => ?_
    split
    · exact Text.shortened_truncated _ _
    · rfl
  · rw [List.zipWith_map_right, List.zipWith_self]
    rfl

end Tracer

end SqlWeave
