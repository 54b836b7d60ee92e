import SqlWeave.Decimal.Shortest

/-!
# Layout of floating-point numbers

Where the shortest digits stand relative to the point. The two layouts of the library
are two values of `FloatStyle`.
-/

namespace SqlWeave

/-- The choices of a layout. -/
structure FloatStyle where
  /-- Whether a whole number is written with `.0`. -/
  marksWhole : Bool
  /-- Whether numbers from `10 ^ 16` up and those below `10 ^ -4` have an exponent. -/
  usesExponent : Bool

namespace FloatStyle

/-- Always positional, and a whole number without a point. -/
def positional : FloatStyle := ⟨false, false⟩

/-- Recognisable as a floating-point number : a point or an exponent, and an exponent for
the very large and the very small. -/
def marked : FloatStyle := ⟨true, true⟩

end FloatStyle

namespace Decimal

/-- The digits of a decimal, without its exponent. -/
def digitChars (x : Decimal) : List Char := Nat.toDigits 10 x.digits

/-- The power of ten of the leading digit. -/
def leadingExponent (x : Decimal) : Int := x.exponent + (x.digitChars.length : Int) - 1

/-- A whole number with the suffix that the style asks for. -/
def wholeSuffix (style : FloatStyle) : List Char := if style.marksWhole then ['.', '0'] else []

/-- Digits with the point at its place and zeros up to it. -/
def positional (style : FloatStyle) (x : Decimal) : List Char :=
  let digits := x.digitChars
  if x.exponent ≥ 0 then
    digits ++ List.replicate x.exponent.toNat '0' ++ wholeSuffix style
  else
    let places := (-x.exponent).toNat
    if places < digits.length then
      digits.take (digits.length - places) ++ '.' :: digits.drop (digits.length - places)
    else
      '0' :: '.' :: (List.replicate (places - digits.length) '0' ++ digits)

/-- One digit before the point, and the exponent after an `e`. -/
def scientific (x : Decimal) : List Char :=
  let fraction := x.digitChars.drop 1
  x.digitChars.take 1 ++ (if fraction.isEmpty then [] else '.' :: fraction) ++
    'e' :: (toString x.leadingExponent).toList

/-- A nonnegative decimal in the given style. -/
def render (style : FloatStyle) (x : Decimal) : List Char :=
  if style.usesExponent && x.digits != 0 && (x.leadingExponent ≥ 16 || x.leadingExponent < -4)
  then x.scientific
  else x.positional style

end Decimal

/-- A floating-point number in the given style. -/
def Binary64.render (style : FloatStyle) (x : Binary64) : String :=
  if x.isNaN then "NaN"
  else
    let body := if x.isFinite then x.shortest.render style else ['i', 'n', 'f']
    .ofList (if x.negative then '-' :: body else body)

end SqlWeave
