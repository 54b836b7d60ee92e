import SqlWeave.Text.Utf8
import SqlWeave.Value.Text

/-!
# Decoding values

A value is read as a member of a native type. Whole numbers are read exactly or not at
all; a truth value reads as zero or one, and a whole number as the truth of being nonzero.
Texts and byte strings read as each other where the bytes are UTF-8. An optional type also
takes the missing value.
-/

namespace SqlWeave

/-- Why a value is no member of a type. -/
inductive DecodeError where
  | mismatch (got : Value) (wanted : String)
  | tooLarge
  | tooSmall
  | notUtf8 (fault : Text.Utf8.Fault)
  deriving DecidableEq, Repr

/-- The reason in words. -/
def DecodeError.message : DecodeError → String
  | .mismatch got wanted => "cannot convert " ++ got.tagged ++ " to " ++ wanted
  | .tooLarge => "number too large to fit in target type"
  | .tooSmall => "number too small to fit in target type"
  | .notUtf8 fault => fault.message

/-- Types that values are read as. -/
class FromValue (α : Type) where
  fromValue : Value → Except DecodeError α

export FromValue (fromValue)

/-- A whole number between bounds, converted. -/
def fitBetween {α : Type} (low high : Int) (convert : Int → α) (n : Int) :
    Except DecodeError α :=
  if n < low then .error .tooSmall
  else if high < n then .error .tooLarge
  else .ok (convert n)

/-- A whole number as 64 bits with a sign. -/
def fitInt64 : Int → Except DecodeError Int64 :=
  fitBetween Int64.minValue.toInt Int64.maxValue.toInt Int64.ofInt

/-- A whole number as 32 bits with a sign. -/
def fitInt32 : Int → Except DecodeError Int32 :=
  fitBetween Int32.minValue.toInt Int32.maxValue.toInt Int32.ofInt

/-- A whole number as 64 bits without a sign. -/
def fitUInt64 : Int → Except DecodeError UInt64 :=
  fitBetween 0 (UInt64.size - 1) fun n => UInt64.ofNat n.toNat

instance : FromValue Value := ⟨.ok⟩

instance : FromValue Bool where
  fromValue
    | .bool b => .ok b
    | .signed n => .ok (n != 0)
    | .unsigned n => .ok (n != 0)
    | v => .error (.mismatch v "bool")

instance : FromValue Int64 where
  fromValue
    | .signed n => .ok n
    | .unsigned n => fitInt64 n.toNat
    | .bool b => .ok (if b then 1 else 0)
    | v => .error (.mismatch v "i64")

instance : FromValue Int32 where
  fromValue v :=
    match (fromValue v : Except DecodeError Int64) with
    | .ok n => fitInt32 n.toInt
    | .error e => .error e

instance : FromValue UInt64 where
  fromValue
    | .unsigned n => .ok n
    | .signed n => fitUInt64 n.toInt
    | v => .error (.mismatch v "u64")

instance : FromValue Binary64 where
  fromValue
    | .float x => .ok x
    | .signed n => .ok (.ofInt n.toInt)
    | .unsigned n => .ok (.ofInt n.toNat)
    | v => .error (.mismatch v "f64")

instance : FromValue String where
  fromValue
    | .text s => .ok s
    | .bytes data => (Text.Utf8.decode data).mapError .notUtf8
    | v => .error (.mismatch v "String")

instance : FromValue (List UInt8) where
  fromValue
    | .bytes data => .ok data
    | .text s => .ok (Text.Utf8.encode s)
    | v => .error (.mismatch v "Vec<u8>")

instance : FromValue Time.DateTime where
  fromValue
    | .dateTime t => .ok t
    | v => .error (.mismatch v "OffsetDateTime")

instance {α : Type} [FromValue α] : FromValue (Option α) where
  fromValue
    | .null => .ok none
    | v => (fromValue v).map some

end SqlWeave
