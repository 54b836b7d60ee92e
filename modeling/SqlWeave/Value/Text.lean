import SqlWeave.Decimal.Notation
import SqlWeave.Text.Escaped
import SqlWeave.Value

/-!
# The text of a value

Two forms for people. `Value.display` shows the value alone, `Value.tagged` shows its kind
too and escapes texts, so that different values of different kinds look different.
-/

namespace SqlWeave.Value

/-- Texts in brackets, with a separator between them. -/
def bracketed (separator : String) (items : List String) : String :=
  "[" ++ separator.intercalate items ++ "]"

/-- A byte string as the list of its bytes. -/
def byteList (data : List UInt8) : String :=
  bracketed ", " (data.map fun b => toString b.toNat)

/-- The value alone; a missing one as `<nil>`. -/
def display : Value → String
  | .null => "<nil>"
  | .bool b => toString b
  | .signed n => toString n.toInt
  | .unsigned n => toString n.toNat
  | .float x => x.render .positional
  | .text s => s
  | .bytes data => byteList data
  | .dateTime t => t.render

/-- The value with its kind. -/
def tagged : Value → String
  | .null => "Null"
  | .bool b => "Bool(" ++ toString b ++ ")"
  | .signed n => "I64(" ++ toString n.toInt ++ ")"
  | .unsigned n => "U64(" ++ toString n.toNat ++ ")"
  | .float x => "F64(" ++ x.render .marked ++ ")"
  | .text s => "String(" ++ Text.escaped s ++ ")"
  | .bytes data => "Bytes(" ++ byteList data ++ ")"
  | .dateTime t => "DateTime(" ++ t.render ++ ")"

/-- Values side by side, for reports. -/
def listing (values : List Value) : String := bracketed " " (values.map display)

end SqlWeave.Value
