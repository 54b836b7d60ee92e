import SqlWeave.Decimal.Binary64
import SqlWeave.Time.DateTime

/-!
# Values

What a statement binds and a row holds : a missing value, a truth value, a signed or
unsigned 64-bit integer, a floating-point number, a text, a byte string, or a moment.

Equality of `Value` is equality of the representation. `Value.same` compares what is
represented : floating-point numbers as numbers, moments as instants.
-/

namespace SqlWeave

/-- A value that is bound to a statement or read from a row. -/
inductive Value where
  | null
  | bool (b : Bool)
  | signed (n : Int64)
  | unsigned (n : UInt64)
  | float (x : Binary64)
  | text (s : String)
  | bytes (data : List UInt8)
  | dateTime (t : Time.DateTime)
  deriving DecidableEq, Repr

namespace Value

/-- Whether the value is missing. -/
def isNull : Value → Bool
  | .null => true
  | _ => false

/-- Whether two values of one kind represent the same thing. -/
def same : Value → Value → Bool
  | .float x, .float y => x.same y
  | .dateTime s, .dateTime t => s.same t
  | v, w => v == w

end Value

/-- Types whose members are values. -/
class ToValue (α : Type) where
  toValue : α → Value

export ToValue (toValue)

/-! ## Native types as values

Signed integers of every width widen to the signed kind and unsigned ones to the unsigned
kind, and nothing at all is the missing value. -/

instance : ToValue Value := ⟨id⟩
instance : ToValue Unit := ⟨fun _ => .null⟩
instance : ToValue Bool := ⟨.bool⟩
instance : ToValue Int8 := ⟨fun n => .signed n.toInt64⟩
instance : ToValue Int16 := ⟨fun n => .signed n.toInt64⟩
instance : ToValue Int32 := ⟨fun n => .signed n.toInt64⟩
instance : ToValue Int64 := ⟨.signed⟩
instance : ToValue UInt8 := ⟨fun n => .unsigned n.toUInt64⟩
instance : ToValue UInt16 := ⟨fun n => .unsigned n.toUInt64⟩
instance : ToValue UInt32 := ⟨fun n => .unsigned n.toUInt64⟩
instance : ToValue UInt64 := ⟨.unsigned⟩
instance : ToValue Binary32 := ⟨fun x => .float (.ofBinary32 x)⟩
instance : ToValue Binary64 := ⟨.float⟩
instance : ToValue String := ⟨.text⟩
instance : ToValue (List UInt8) := ⟨.bytes⟩
instance : ToValue Time.DateTime := ⟨.dateTime⟩

instance {α : Type} [ToValue α] : ToValue (Option α) where
  toValue
    | some a => toValue a
    | none => .null

end SqlWeave
