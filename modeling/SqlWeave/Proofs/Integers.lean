import SqlWeave.Row.Decode

/-!
# Whole numbers in values and out of them

Whole numbers of eight native types become values (`IntegerType`), and values are read as whole
numbers of three (`DecodedType`). On the way in every type widens to one of two kinds. On the way
out the number that a value stands for (`DecodedType.number?`) is checked once against the bounds
of the type that it is read as (`DecodedType.fromValue_eq`), even where the reading goes through
a wider type : checked against nested bounds one after the other, a number is checked against the
narrower ones (`Spans.fitBetween_fitBetween`).

So a number is read back as itself if it is between the bounds, and not at all otherwise, whatever
type it came from (`DecodedType.reads_exactly`).
-/

namespace SqlWeave

/-! ## Checked conversions -/

section Conversions

variable {α β : Type} {low high : Int} {convert : Int → α} {value : α → Int} {n : Int}

/-- An integer fits if it lies between the bounds. -/
theorem exists_fitBetween_iff :
    (∃ y, fitBetween low high convert n = .ok y) ↔ low ≤ n ∧ n ≤ high := by
  rw [fitBetween]
  split
  · simp only [reduceCtorEq, exists_false, false_iff]
    omega
  split
  · simp only [reduceCtorEq, exists_false, false_iff]
    omega
  · simp only [Except.ok.injEq, exists_eq', true_iff]
    omega

/-- A type has the whole numbers between two bounds, and `convert` makes them. -/
structure Spans (low high : Int) (convert : Int → α) (value : α → Int) : Prop where
  between : ∀ y, low ≤ value y ∧ value y ≤ high
  value_convert : ∀ n, low ≤ n → n ≤ high → value (convert n) = n
  convert_value : ∀ y, convert (value y) = y

/-- A conversion succeeds with the member that has the same value. -/
theorem Spans.fitBetween_eq_ok_iff (h : Spans low high convert value) {y : α} :
    fitBetween low high convert n = .ok y ↔ value y = n := by
  constructor
  · intro hy
    obtain ⟨hlow, hhigh⟩ := exists_fitBetween_iff.mp ⟨y, hy⟩
    rw [fitBetween, if_neg (by omega), if_neg (by omega)] at hy
    obtain rfl := Except.ok.inj hy
    exact h.value_convert n hlow hhigh
  · rintro rfl
    obtain ⟨hlow, hhigh⟩ := h.between y
    rw [fitBetween, if_neg (by omega), if_neg (by omega), h.convert_value]

/-- Converted to a type with wider bounds first, a number is converted as it is at once, and
fails as it does at once. -/
theorem Spans.fitBetween_fitBetween {low' high' : Int} {convert' : Int → β} {value' : β → Int}
    (h : Spans low' high' convert' value') (hlow : low' ≤ low) (hbounds : low ≤ high)
    (hhigh : high ≤ high') (n : Int) :
    ((fitBetween low' high' convert' n).bind fun y => fitBetween low high convert (value' y)) =
      fitBetween low high convert n := by
  by_cases hsmall : n < low'
  · rw [fitBetween, if_pos hsmall, fitBetween, if_pos (by omega), Except.bind]
  by_cases hlarge : high' < n
  · rw [fitBetween, if_neg hsmall, if_pos hlarge, fitBetween, if_neg (by omega),
      if_pos (by omega), Except.bind]
  · have hvalue : value' (convert' n) = n := h.value_convert n (by omega) (by omega)
    rw [fitBetween, if_neg hsmall, if_neg hlarge, Except.bind, hvalue]

end Conversions

/-- Words of 32 bits span their range. -/
theorem spans_int32 :
    Spans Int32.minValue.toInt Int32.maxValue.toInt Int32.ofInt Int32.toInt where
  between y := ⟨y.minValue_le_toInt, y.toInt_le⟩
  value_convert n hlow hhigh := by
    rw [Int32.toInt_minValue] at hlow
    rw [Int32.toInt_maxValue] at hhigh
    exact Int32.toInt_ofInt_of_le hlow (by omega)
  convert_value := Int32.ofInt_toInt

theorem spans_int64 :
    Spans Int64.minValue.toInt Int64.maxValue.toInt Int64.ofInt Int64.toInt where
  between y := ⟨y.minValue_le_toInt, y.toInt_le⟩
  value_convert n hlow hhigh := by
    rw [Int64.toInt_minValue] at hlow
    rw [Int64.toInt_maxValue] at hhigh
    exact Int64.toInt_ofInt_of_le hlow (by omega)
  convert_value := Int64.ofInt_toInt

theorem spans_uint64 :
    Spans 0 (UInt64.size - 1) (fun n => UInt64.ofNat n.toNat) fun y => y.toNat where
  between y := by
    have hlt := y.toNat_lt_size
    omega
  value_convert n hlow hhigh := by
    rw [UInt64.toNat_ofNat_of_lt' (by omega)]
    omega
  convert_value y := by simp

/-- Converted to 64 bits first, a number is converted to 32 bits as it is at once. -/
theorem fitInt64_fitInt32 (n : Int) :
    ((fitInt64 n).bind fun m => fitInt32 m.toInt) = fitInt32 n :=
  spans_int64.fitBetween_fitBetween (by decide) (by decide) (by decide) n

/-- A value is read as 32 bits through 64 bits. -/
theorem fromValue_int32 (v : Value) :
    (fromValue v : Except DecodeError Int32) =
      (fromValue v : Except DecodeError Int64).bind fun n => fitInt32 n.toInt := by
  unfold instFromValueInt32
  dsimp only
  cases (fromValue v : Except DecodeError Int64) <;> rfl

/-! ## Optional types -/

section Options

variable {α : Type} [FromValue α] (v : Value)

/-- An optional type takes the missing value for nothing, and reads every other as the type. -/
theorem fromValue_option :
    (fromValue v : Except DecodeError (Option α)) =
      if v = .null then .ok none else (fromValue v).map some := by
  cases v with
  | null => rfl
  | _ => rw [if_neg (by simp)]; rfl

/-- The missing value is read as nothing, and nothing else is. -/
theorem fromValue_option_eq_none_iff : fromValue v = .ok (none : Option α) ↔ v = .null := by
  rw [fromValue_option]
  split
  · simp [*]
  · cases (fromValue v : Except DecodeError α) <;> simp [*, Except.map]

end Options

/-! ## Native types -/

/-- The native types of whole numbers. -/
inductive IntegerType where
  | int8
  | int16
  | int32
  | int64
  | uint8
  | uint16
  | uint32
  | uint64

namespace IntegerType

/-- The members of a native type. -/
def Carrier : IntegerType → Type
  | .int8 => Int8
  | .int16 => Int16
  | .int32 => Int32
  | .int64 => Int64
  | .uint8 => UInt8
  | .uint16 => UInt16
  | .uint32 => UInt32
  | .uint64 => UInt64

/-- The whole number that a member is. -/
def value : (s : IntegerType) → s.Carrier → Int
  | .int8 => Int8.toInt
  | .int16 => Int16.toInt
  | .int32 => Int32.toInt
  | .int64 => Int64.toInt
  | .uint8 => fun x => x.toNat
  | .uint16 => fun x => x.toNat
  | .uint32 => fun x => x.toNat
  | .uint64 => fun x => x.toNat

instance : (s : IntegerType) → ToValue s.Carrier
  | .int8 => inferInstanceAs (ToValue Int8)
  | .int16 => inferInstanceAs (ToValue Int16)
  | .int32 => inferInstanceAs (ToValue Int32)
  | .int64 => inferInstanceAs (ToValue Int64)
  | .uint8 => inferInstanceAs (ToValue UInt8)
  | .uint16 => inferInstanceAs (ToValue UInt16)
  | .uint32 => inferInstanceAs (ToValue UInt32)
  | .uint64 => inferInstanceAs (ToValue UInt64)

end IntegerType

/-- The native types that whole numbers are read as. -/
inductive DecodedType where
  | int32
  | int64
  | uint64

namespace DecodedType

/-- One of the native types. -/
def native : DecodedType → IntegerType
  | .int32 => .int32
  | .int64 => .int64
  | .uint64 => .uint64

instance : (t : DecodedType) → FromValue t.native.Carrier
  | .int32 => inferInstanceAs (FromValue Int32)
  | .int64 => inferInstanceAs (FromValue Int64)
  | .uint64 => inferInstanceAs (FromValue UInt64)

/-- The least member. -/
def low : DecodedType → Int
  | .int32 => -0x80000000
  | .int64 => -0x8000000000000000
  | .uint64 => 0

/-- The greatest member. -/
def high : DecodedType → Int
  | .int32 => 0x7FFFFFFF
  | .int64 => 0x7FFFFFFFFFFFFFFF
  | .uint64 => 0xFFFFFFFFFFFFFFFF

/-- A whole number as a member, if it is one. -/
def fit : (t : DecodedType) → Int → Except DecodeError t.native.Carrier
  | .int32 => fitInt32
  | .int64 => fitInt64
  | .uint64 => fitUInt64

/-- The whole number that a value stands for. Only signed types take a truth value for one. -/
def number? : DecodedType → Value → Option Int
  | _, .signed n => some n.toInt
  | _, .unsigned n => some n.toNat
  | .int32, .bool b | .int64, .bool b => some (if b then 1 else 0)
  | _, _ => none

/-- The name that a type goes by where a value stands for no whole number. -/
def spokenName : DecodedType → String
  | .int32 | .int64 => "i64"
  | .uint64 => "u64"

variable {t : DecodedType}

/-- What fits denotes the same integer. -/
theorem fit_eq_ok_iff {n : Int} {y : t.native.Carrier} :
    t.fit n = .ok y ↔ t.native.value y = n := by
  cases t with
  | int32 => exact spans_int32.fitBetween_eq_ok_iff
  | int64 => exact spans_int64.fitBetween_eq_ok_iff
  | uint64 => exact spans_uint64.fitBetween_eq_ok_iff

/-- An integer fits into a type if it is in its range. -/
theorem exists_fit_iff {n : Int} : (∃ y, t.fit n = .ok y) ↔ t.low ≤ n ∧ n ≤ t.high := by
  cases t with
  | int32 => exact exists_fitBetween_iff
  | int64 => exact exists_fitBetween_iff
  | uint64 =>
    have hhigh : (UInt64.size : Int) - 1 = 0xFFFFFFFFFFFFFFFF := rfl
    rw [fit, fitUInt64, hhigh]
    exact exists_fitBetween_iff

/-- What is read of a value is the number that it stands for, checked once. -/
theorem fromValue_eq (v : Value) :
    (fromValue v : Except DecodeError t.native.Carrier) =
      (t.number? v).elim (.error (.mismatch v t.spokenName)) t.fit := by
  cases t with
  | int64 =>
    cases v with
    | signed n => exact (spans_int64.fitBetween_eq_ok_iff.mpr rfl).symm
    | bool b => cases b <;> rfl
    | _ => rfl
  | uint64 =>
    cases v with
    | unsigned n => exact (spans_uint64.fitBetween_eq_ok_iff.mpr rfl).symm
    | _ => rfl
  | int32 =>
    cases v with
    | signed n => rfl
    | unsigned n => exact (fromValue_int32 (.unsigned n)).trans (fitInt64_fitInt32 n.toNat)
    | bool b => cases b <;> rfl
    | _ => rfl

/-- A native type widens without a change of value. -/
theorem number?_toValue (s : IntegerType) (x : s.Carrier) :
    t.number? (toValue x) = some (s.value x) := by
  cases s with
  | int8 => exact congrArg some (Int8.toInt_toInt64 x)
  | int16 => exact congrArg some (Int16.toInt_toInt64 x)
  | int32 => exact congrArg some (Int32.toInt_toInt64 x)
  | int64 => rfl
  | uint8 => exact congrArg (fun n : Nat => some (n : Int)) (UInt8.toNat_toUInt64 x)
  | uint16 => exact congrArg (fun n : Nat => some (n : Int)) (UInt16.toNat_toUInt64 x)
  | uint32 => exact congrArg (fun n : Nat => some (n : Int)) (UInt32.toNat_toUInt64 x)
  | uint64 => rfl

/-- What was written from one type is read into another as the same integer. -/
theorem fromValue_toValue_eq_ok_iff {s : IntegerType} {x : s.Carrier} {y : t.native.Carrier} :
    fromValue (toValue x) = .ok y ↔ t.native.value y = s.value x := by
  rw [fromValue_eq, number?_toValue]
  exact fit_eq_ok_iff

/-- Whole numbers are read exactly. A number from any native type is read as the same number if it
is between the bounds of the type that it is read as, and not at all otherwise. An optional type
reads the missing value, and no other, as nothing, and what it makes of every other value is what
the type makes of it; so what an optional type has is read back from its value. -/
theorem reads_exactly (t : DecodedType) :
    (∀ (s : IntegerType) (x : s.Carrier),
      (∀ y : t.native.Carrier, fromValue (toValue x) = .ok y ↔ t.native.value y = s.value x) ∧
      ((∃ y : t.native.Carrier, fromValue (toValue x) = .ok y) ↔
        t.low ≤ s.value x ∧ s.value x ≤ t.high)) ∧
    (∀ v : Value,
      (fromValue v = .ok (none : Option t.native.Carrier) ↔ v = .null) ∧
      (fromValue v : Except DecodeError (Option t.native.Carrier)) =
        if v = .null then .ok none else (fromValue v).map some) ∧
    ∀ o : Option t.native.Carrier, fromValue (toValue o) = .ok o := by
  refine ⟨fun s x => ⟨fun y => fromValue_toValue_eq_ok_iff, ?_⟩,
    fun v => ⟨fromValue_option_eq_none_iff v, fromValue_option v⟩, fun o => ?_⟩
  · simp only [fromValue_toValue_eq_ok_iff, ← fit_eq_ok_iff]
    exact exists_fit_iff
  cases o with
  | none => rfl
  | some y =>
    have hread : fromValue (toValue y) = .ok y := fromValue_toValue_eq_ok_iff.mpr rfl
    have hnull : toValue y ≠ Value.null := fun hnull => by
      have hnumber := number?_toValue (t := t) t.native y
      rw [hnull] at hnumber
      cases hnumber
    change (fromValue (toValue y) : Except DecodeError (Option t.native.Carrier)) = .ok (some y)
    rw [fromValue_option, if_neg hnull, hread]
    rfl

example : (fromValue (toValue (0xFFFFFFFF : UInt32)) : Except DecodeError Int32) =
    .error .tooLarge := by
  rfl

example : (fromValue (toValue (0x8000000000000000 : UInt64)) : Except DecodeError Int32) =
    .error .tooLarge := by
  rfl

end DecodedType

end SqlWeave
