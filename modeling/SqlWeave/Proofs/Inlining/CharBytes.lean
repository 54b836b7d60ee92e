import Mathlib.Data.String.Basic
import SqlWeave.Text.Utf8

/-!
# The bytes of characters

A text is stored as the bytes of its characters. The first byte of a character tells how many
bytes the character has (`charLength_lead`), and it is the character itself if this is ASCII and
otherwise no ASCII character (`ofUInt8_lead_eq_iff`). A loop over bytes that looks for ASCII
characters therefore finds those of the text (`takeWhile_bytes`).

A slice of a text is asked for by the numbers of bytes before its ends. There is one only if both
are boundaries between characters (`slice?`), and it is what stands between them
(`slice?_between`).
-/

namespace SqlWeave.Text.Utf8

/-! ## Characters and bytes -/

/-- The bytes of characters. -/
def bytes (cs : List Char) : List UInt8 := cs.flatMap String.utf8EncodeChar

/-- How many bytes characters have. -/
def size (cs : List Char) : Nat := (bytes cs).length

/-- The first byte of a character. -/
def lead (c : Char) : UInt8 := (String.utf8EncodeChar c).headD 0

/-- How many bytes a character has, by its first byte. -/
def charLength (b : UInt8) : Nat :=
  if b ≤ 0x7F then 1
  else if 0xC0 ≤ b ∧ b ≤ 0xDF then 2
  else if 0xE0 ≤ b ∧ b ≤ 0xEF then 3
  else 4

theorem bytes_cons (c : Char) (cs : List Char) :
    bytes (c :: cs) = String.utf8EncodeChar c ++ bytes cs :=
  rfl

theorem bytes_append (a b : List Char) : bytes (a ++ b) = bytes a ++ bytes b :=
  List.flatMap_append

theorem size_append (a b : List Char) : size (a ++ b) = size a + size b := by
  rw [size, bytes_append, List.length_append, size, size]

theorem toList_loop_eq (bs : ByteArray) (i : Nat) (r : List UInt8) :
    ByteArray.toList.loop bs i r = r.reverse ++ bs.data.toList.drop i := by
  fun_induction ByteArray.toList.loop bs i r with
  | case1 i r h ih =>
    have hi : i < bs.data.toList.length := by simpa using h
    rw [ih, List.drop_eq_getElem_cons hi]
    simp [ByteArray.get!, h]
  | case2 i r h => simpa using Nat.le_of_not_lt h

/-- The bytes of a text are those of its characters. -/
theorem encode_ofList (cs : List Char) : encode (.ofList cs) = bytes cs := by
  rw [encode, String.toUTF8_eq_toByteArray, String.toByteArray_ofList, ByteArray.toList,
    toList_loop_eq]
  simp [List.utf8Encode, bytes]

theorem length_encode (cs : List Char) : (encode (.ofList cs)).length = size cs := by
  rw [encode_ofList, size]

theorem utf8EncodeChar_eq_cons (c : Char) :
    ∃ others, String.utf8EncodeChar c = lead c :: others := by
  have hpos : 0 < (String.utf8EncodeChar c).length := by simpa using c.utf8Size_pos
  obtain ⟨b, others, h⟩ := List.exists_cons_of_ne_nil (List.length_pos_iff.mp hpos)
  exact ⟨others, by rw [lead, h, List.headD_cons]⟩

theorem size_singleton (c : Char) : size [c] = c.utf8Size := by
  simp [size, bytes]

theorem size_eq_utf8Len (cs : List Char) : size cs = String.utf8Len cs := by
  induction cs with
  | nil => rfl
  | cons c cs ih =>
    rw [← List.singleton_append, size_append, size_singleton, ih, List.singleton_append,
      String.utf8Len_cons, Nat.add_comm]

/-! ## First bytes -/

/-- What the first byte of a character can be, and how many bytes the character has. -/
theorem lead_cases (c : Char) :
    (c.toNat < 0x80 ∧ (lead c).toNat = c.toNat ∧ size [c] = 1) ∨
    0x80 ≤ c.toNat ∧
      (0xC0 ≤ (lead c).toNat ∧ (lead c).toNat ≤ 0xDF ∧ size [c] = 2 ∨
        0xE0 ≤ (lead c).toNat ∧ (lead c).toNat ≤ 0xEF ∧ size [c] = 3 ∨
        0xF0 ≤ (lead c).toNat ∧ size [c] = 4) := by
  have hval : c.val.toNat = c.toNat := rfl
  have hsize : size [c] = (String.utf8EncodeChar c).length := by simp [size, bytes]
  have hlt : c.toNat < 0x110000 := by
    rcases c.valid with h | h <;> omega
  rw [hsize, lead, String.utf8EncodeChar]
  simp only [hval]
  split
  · refine .inl ?_
    simp
    omega
  split
  · refine .inr ⟨by omega, .inl ?_⟩
    simp
    omega
  split
  · refine .inr ⟨by omega, .inr (.inl ?_)⟩
    simp
    omega
  · refine .inr ⟨by omega, .inr (.inr ?_)⟩
    simp
    omega

theorem utf8EncodeChar_of_lt {c : Char} (hc : c.toNat < 0x80) :
    String.utf8EncodeChar c = [lead c] := by
  obtain ⟨others, hothers⟩ := utf8EncodeChar_eq_cons c
  have hsize : size [c] = others.length + 1 := by simp [size, bytes, hothers]
  obtain rfl : others = [] := by
    rcases lead_cases c with ⟨-, -, hone⟩ | ⟨hge, -⟩
    · exact List.eq_nil_of_length_eq_zero (by omega)
    · omega
  exact hothers

/-- The first byte tells how many bytes there are. -/
theorem charLength_lead (c : Char) : charLength (lead c) = size [c] := by
  simp only [charLength, UInt8.le_iff_toNat_le, UInt8.reduceToNat]
  rcases lead_cases c with ⟨hc, hlead, hsize⟩ | ⟨-, ⟨hlow, hhigh, hsize⟩ | ⟨hlow, hhigh, hsize⟩ |
    ⟨hlow, hsize⟩⟩ <;> rw [hsize]
  · rw [if_pos (by omega)]
  · rw [if_neg (by omega), if_pos ⟨hlow, hhigh⟩]
  · rw [if_neg (by omega), if_neg (by omega), if_pos ⟨hlow, hhigh⟩]
  · rw [if_neg (by omega), if_neg (by omega), if_neg (by omega)]

theorem toNat_ofUInt8 (b : UInt8) : (Char.ofUInt8 b).toNat = b.toNat :=
  rfl

/-- An ASCII character is its own first byte, and the first byte of any other is none. -/
theorem ofUInt8_lead (c : Char) :
    Char.ofUInt8 (lead c) = c ∧ c.toNat < 0x80 ∨
      0x80 ≤ (Char.ofUInt8 (lead c)).toNat ∧ 0x80 ≤ c.toNat := by
  rw [← Char.toNat_inj, toNat_ofUInt8]
  rcases lead_cases c with ⟨hc, hlead, -⟩ | ⟨hc, h⟩
  · exact .inl ⟨hlead, hc⟩
  · exact .inr ⟨by omega, hc⟩

/-- A character begins with the byte of an ASCII character only if it is that one. -/
theorem ofUInt8_lead_eq_iff {a : Char} (ha : a.toNat < 0x80) (c : Char) :
    Char.ofUInt8 (lead c) = a ↔ c = a := by
  rcases ofUInt8_lead c with ⟨hc, -⟩ | ⟨hlead, hc⟩
  · rw [hc]
  · constructor
    · rintro rfl
      omega
    · rintro rfl
      omega

/-- What holds of ASCII characters only holds of a character if it does of its first byte. -/
theorem apply_ofUInt8_lead {p : Char → Bool} (hp : ∀ c, p c = true → c.toNat < 0x80) (c : Char) :
    p (Char.ofUInt8 (lead c)) = p c := by
  have hfalse {c : Char} (hc : 0x80 ≤ c.toNat) : p c = false := by
    cases h : p c with
    | false => rfl
    | true => exact absurd (hp c h) (by omega)
  rcases ofUInt8_lead c with ⟨hc, -⟩ | ⟨hlead, hc⟩
  · rw [hc]
  · rw [hfalse hlead, hfalse hc]

/-- A run of bytes that are ASCII characters is a run of characters. -/
theorem takeWhile_bytes {p : Char → Bool} (hp : ∀ c, p c = true → c.toNat < 0x80)
    (cs : List Char) :
    (bytes cs).takeWhile (fun b => p (Char.ofUInt8 b)) = bytes (cs.takeWhile p) := by
  induction cs with
  | nil => rfl
  | cons c cs ih =>
    have hlead : p (Char.ofUInt8 (lead c)) = p c := apply_ofUInt8_lead hp c
    cases hc : p c with
    | true =>
      rw [List.takeWhile_cons_of_pos hc, bytes_cons, bytes_cons, utf8EncodeChar_of_lt (hp c hc),
        List.singleton_append, List.takeWhile_cons, hlead, hc, if_pos rfl, ih,
        List.singleton_append]
    | false =>
      obtain ⟨others, hothers⟩ := utf8EncodeChar_eq_cons c
      rw [List.takeWhile_cons_of_neg (by simp [hc]), bytes_cons, hothers, List.cons_append,
        List.takeWhile_cons_of_neg (by simp [hlead, hc])]
      rfl

/-! ## Slices -/

/-- The text between two bytes, if each of them is where a character begins or the end. -/
def slice? (text : String) (start stop : Nat) : Option String :=
  if start ≤ stop ∧ String.Pos.Raw.IsValid text ⟨start⟩ ∧ String.Pos.Raw.IsValid text ⟨stop⟩ then
    some (String.Pos.Raw.extract text ⟨start⟩ ⟨stop⟩)
  else none

theorem isValid_size (a b : List Char) :
    String.Pos.Raw.IsValid (.ofList (a ++ b)) ⟨size a⟩ := by
  rw [String.Pos.Raw.isValid_iff_exists_append]
  exact ⟨.ofList a, .ofList b, String.ofList_append, by
    rw [String.rawEndPos_ofList, size_eq_utf8Len]⟩

theorem slice?_between (a b c : List Char) :
    slice? (.ofList (a ++ b ++ c)) (size a) (size (a ++ b)) = some (.ofList b) := by
  rw [slice?, if_pos]
  · rw [size_append, size_eq_utf8Len, size_eq_utf8Len, String.extract_of_valid]
  · refine ⟨by simp [size_append], ?_, isValid_size (a ++ b) c⟩
    rw [List.append_assoc]
    exact isValid_size a (b ++ c)

end SqlWeave.Text.Utf8
